import GpuSharing.Kvcached.BlockOwnership

namespace GpuSharing.Kvcached

open Transition

/-- The attributes of the class `PageAllocator` as the extension module binds it. -/
def pageAllocatorAttributes : List String :=
  ["start_prealloc_thread", "stop_prealloc_thread", "alloc_page", "free_page", "free_pages", "resize",
    "trim", "reset_free_page_order", "get_num_free_pages", "get_num_inuse_pages",
    "get_num_total_pages", "get_num_reserved_pages", "get_avail_physical_pages",
    "check_and_get_resize_target", "get_resize_target", "get_page_id", "group_indices_by_page",
    "set_broadcast_map_callback", "set_broadcast_unmap_callback",
    "set_should_use_worker_ipc_callback"]

/-- The attributes of its allocator that a manager uses outside `clear`. -/
def managerAttributes : List String :=
  ["set_should_use_worker_ipc_callback", "set_broadcast_map_callback",
    "set_broadcast_unmap_callback", "start_prealloc_thread", "get_resize_target", "alloc_page",
    "group_indices_by_page", "free_pages", "resize", "trim", "get_num_free_pages",
    "get_avail_physical_pages", "get_num_reserved_pages", "get_num_inuse_pages"]

/-- Every call of a manager but one in `clear` finds its method. -/
theorem managerAttributes_subset :
    "reset_free_page_order" :: managerAttributes ⊆ pageAllocatorAttributes := by
  decide

/-- The methods of the allocator with those that only `clear` calls. -/
structure PageAllocatorMethods (σ : Type) extends PageAllocatorApi σ where
  stopPreallocThread : σ → σ
  resetFreePageOrder : σ → σ

def PageAllocatorMethods.logged {σ : Type} (S : PageAllocatorMethods σ) :
    PageAllocatorMethods (σ × List PageId) where
  toPageAllocatorApi := S.toPageAllocatorApi.logged
  stopPreallocThread s := (S.stopPreallocThread s.1, s.2)
  resetFreePageOrder s := (S.resetFreePageOrder s.1, s.2)

namespace KvCacheManager

variable {σ : Type} (C : KvCacheManagerConfig) (S : PageAllocatorMethods σ)

/-- `clear` once the preallocation thread has stopped. -/
def clearStopped (m : KvCacheManager σ) : Option (Except PyError Unit × KvCacheManager σ) :=
  match freeReserved C S.toPageAllocatorApi { m with preallocStarted := false } with
  | (.error e, m) => some (.error e, m)
  | (.ok (), m) =>
    let pagesToFree := (m.availPages.entries.reverse ++ m.fullPages.entries.reverse).map fun e =>
      e.2.pageId
    let m := trim S.toPageAllocatorApi { m with
      pageAllocator :=
        if pagesToFree.isEmpty then m.pageAllocator else S.freePages pagesToFree m.pageAllocator
      availPages := ∅
      fullPages := ∅ }
    match reserveNull C S.toPageAllocatorApi { m with
        pageAllocator := S.resetFreePageOrder m.pageAllocator
        targetNumBlocks := none
        inShrink := false
        numAvailBlocks := 0 } with
    | none => none
    | some (.error e, m) => some (.error e, m)
    | some (.ok (), m) => some (.ok (), startPreallocThread S.toPageAllocatorApi m)

/-- `clear`, after `_post_init`. The class has `stop_prealloc_thread` but no
`_stop_prealloc_thread`. -/
def clear (m : KvCacheManager σ) : Option (Except PyError Unit × KvCacheManager σ) :=
  if "_stop_prealloc_thread" ∈ pageAllocatorAttributes then
    clearStopped C S { m with pageAllocator := S.stopPreallocThread m.pageAllocator }
  else some (.error (.attributeError "_stop_prealloc_thread"), m)

/-- The state `_post_init` leaves behind it: no page is held, but for the null block's. -/
structure Renewed (C : KvCacheManagerConfig) (m : KvCacheManager (σ × List PageId)) : Prop where
  issued : m.issued = if C.reserveNullBlock then [0] else []
  held : (pageIds m.availPages m.fullPages).Perm m.issued
  counter : m.numAvailBlocks = freeIn m.availPages
  reservedBlocks : m.reservedBlocks = []
  shrink : m.inShrink = false ∧ m.targetNumBlocks = none
  nullBlock : m.nullBlock = if C.reserveNullBlock then some [0] else none

/-- `clear` raises in every state, before it has changed anything. -/
theorem clear_raises (C : KvCacheManagerConfig) (S : PageAllocatorMethods σ)
    (m : KvCacheManager (σ × List PageId)) :
    clear C S.logged m = some (.error (.attributeError "_stop_prealloc_thread"), m) ∧
      ¬∃ m', clear C S.logged m = some (.ok (), m') ∧ Renewed C m' := by
  have hraise : clear C S.logged m =
      some (.error (.attributeError "_stop_prealloc_thread"), m) := if_neg (by decide)
  refine ⟨hraise, ?_⟩
  rintro ⟨m', hclear, -⟩
  rw [hraise] at hclear
  cases hclear

end KvCacheManager

namespace Session

open KvCacheManager

/-- Right after `_post_init`, with nothing but the null block outstanding. -/
theorem clear_raises_started : ∃ s,
    run (step straddlingManager straddlingApi) straddlingStart [.postInit true] = some s ∧
      s.held = [0] ∧ s.manager.postInitDone = true ∧
      ∀ stop reset : AllocatorProcess → AllocatorProcess,
        clear straddlingManager (⟨straddlingApi, stop, reset⟩ : PageAllocatorMethods _).logged
          s.manager = some (.error (.attributeError "_stop_prealloc_thread"), s.manager) := by
  have hrun : run (step straddlingManager straddlingApi) straddlingStart [.postInit true] =
      some _ := (Option.some_get (by decide +kernel)).symm
  exact ⟨_, hrun, by decide +kernel, by decide +kernel, fun _ _ => if_neg (by decide)⟩

end Session

end GpuSharing.Kvcached
