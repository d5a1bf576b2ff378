import GpuSharing.Kvcached.AllocSupply
import GpuSharing.Kvcached.AllocedCount
import GpuSharing.Kvcached.ResizeAnswer

namespace GpuSharing.Kvcached

open Transition

theorem shortfall_le {C : KvCacheManagerConfig} {ps qs : List PageId} (h : ps.Subperm qs)
    (hqs : ∀ p : Int, p ∈ qs → 0 ≤ p) : shortfall C ps ≤ shortfall C qs := by
  obtain ⟨ps', hperm, hsub⟩ := h
  have hsum : shortfall C ps = shortfall C ps' := (hperm.symm.map _).sum_eq
  rw [hsum]
  refine List.Sublist.sum_le_sum (hsub.map _) ?_
  intro d hd
  obtain ⟨p, hp, rfl⟩ := List.mem_map.mp hd
  exact sub_nonneg.mpr (length_blockRange_le C (hqs p hp))

theorem blockCount_append (C : KvCacheManagerConfig) (ps qs : List PageId) :
    blockCount C (ps ++ qs) = blockCount C ps + blockCount C qs := by
  simp [blockCount]

namespace AllocatorProcess

open GpuSharing.Kvcached.System

variable {c : PageAllocatorConfig} {resizes : Bool} {a : AllocatorProcess} {ps : List PageId}

/-- The pages `free_pages` gets back join the stock. -/
theorem freePages_stock (h : a.Idle c resizes) (hps : ps.Subperm a.system.handedOut) :
    ((freePages c ps a).system.stock ++ (freePages c ps a).system.handedOut).Perm
      (a.system.stock ++ a.system.handedOut) := by
  obtain ⟨hidle, -⟩ := freePages_idle h hps
  have hplaced : (freePages c ps a).system.Placed (fun q => a.system.places.count q)
      a.system.pa.reclaimedPageList :=
    finish_keeps (step_placed (c := c)) (engine_keeps (step_placed (c := c)) h.placed trivial)
  rw [List.perm_iff_count]
  intro q
  have hcount := hplaced.places q
  rw [count_stock h.engine, count_stock hidle.engine, hplaced.reclaimed] at hcount
  rw [List.count_append, List.count_append]
  omega

end AllocatorProcess

/-- `free_pages` leaves the page count, the target, and the pages in use or in stock. -/
structure SamePages (c : PageAllocatorConfig) (target total : Int) (ps : List PageId)
    (x : AllocatorProcess × List PageId) : Prop where
  targeted : Targeted c target x
  total : x.1.system.pa.numTotalPages = total
  pages : (x.1.stock ++ x.2).Perm ps

namespace SamePages

variable {c : PageAllocatorConfig} {target total : Int} {ps qs : List PageId}
  {x : AllocatorProcess × List PageId} {memGetInfo : System → Nat × Nat}

theorem freePages (h : SamePages c target total ps x) (hqs : qs.Subperm x.2) :
    SamePages c target total ps ((c.api memGetInfo).logged.freePages qs x) := by
  obtain ⟨⟨hlink, htarget⟩, htotal, hpages⟩ := h
  have htargeted : Targeted c target ((c.api memGetInfo).logged.freePages qs x) :=
    (Targeted.keeps c target memGetInfo).freePages _ _ hqs ⟨hlink, htarget⟩
  refine ⟨htargeted, ?_, ?_⟩
  · exact (AllocatorProcess.freePages_total hlink.1 qs).trans htotal
  · have hstock := AllocatorProcess.freePages_stock hlink.1 (hlink.2 ▸ hqs)
    rw [htargeted.1.2]
    rw [hlink.2] at hpages
    exact hstock.trans hpages

end SamePages

namespace KvCacheManager

variable {c : PageAllocatorConfig} {resizes : Bool} {C : KvCacheManagerConfig}
  {memGetInfo : System → Nat × Nat} {m m' : KvCacheManager (AllocatorProcess × List PageId)}
  {out ids : List BlockId} {target : Int}

theorem numTotalPages_eq (hlink : Linked c resizes m.pageAllocator) :
    m.pageAllocator.1.system.pa.numTotalPages =
      m.issued.length + m.pageAllocator.1.system.pa.numFreePages := by
  have hidle : m.pageAllocator.1.system.engine.allocInFlight = [] := by
    rw [hlink.1.engine]
    rfl
  have hinuse := (hlink.1.ran.lists hidle).1
  have hissued : m.pageAllocator.1.system.handedOut = m.issued := hlink.2.symm
  rw [hissued, PageAllocator.getNumInusePages] at hinuse
  omega

/-- What the manager reckons on all pages, but for the blocks `out` and what the pages held are short
of. -/
def reckoned (C : KvCacheManagerConfig) (out : List BlockId)
    (m : KvCacheManager (AllocatorProcess × List PageId)) : Int :=
  m.pageAllocator.1.system.pa.numTotalPages *
    InternalPage.getNumBlocks C.pageSize C.blockMemSize - (out.length + shortfall C m.issued)

theorem reckoned_eq (hlink : Linked c resizes m.pageAllocator) (hm : Consistent C m out) :
    reckoned C out m = m.numAvailBlocks + m.pageAllocator.1.system.pa.numFreePages *
      InternalPage.getNumBlocks C.pageSize C.blockMemSize := by
  unfold reckoned
  have hfree := hm.freeIn_add
  have hshort := shortfall_add C m.issued
  rw [hm.counter, numTotalPages_eq hlink, add_mul]
  linarith

/-- `available_size` promises no more than that. -/
theorem availableSize_le_reckoned (memGetInfo : System → Nat × Nat)
    (hlink : Linked c resizes m.pageAllocator) (hm : Consistent C m out)
    (hnil : m.reservedBlocks = []) :
    availableSize C (c.api memGetInfo).logged m ≤ reckoned C out m := by
  have hper : 0 ≤ InternalPage.getNumBlocks C.pageSize C.blockMemSize :=
    Int.tdiv_nonneg C.pageSize_pos.le C.blockMemSize_pos.le
  have hfree : 0 ≤ m.pageAllocator.1.system.pa.numFreePages :=
    System.numFreePages_nonneg hlink.1.ran.counted
  rw [reckoned_eq hlink hm]
  unfold availableSize
  rw [hnil]
  dsimp only [List.length_nil]
  split_ifs
  · have := mul_nonneg hfree hper
    omega
  · change _ + _ + m.pageAllocator.1.system.pa.numFreePages * _ ≤ _
    omega
  · have := mul_le_mul_of_nonneg_right (min_le_left m.pageAllocator.1.system.pa.numFreePages
      ((c.api memGetInfo).logged.getAvailPhysicalPages m.pageAllocator +
        (c.api memGetInfo).logged.getNumReservedPages m.pageAllocator)) hper
    change _ + _ + min m.pageAllocator.1.system.pa.numFreePages _ * _ ≤ _
    omega

/-- The device has room for every free page of an allocator of `total` pages, or is not asked. -/
def DeviceRoom (C : KvCacheManagerConfig) (c : PageAllocatorConfig)
    (memGetInfo : System → Nat × Nat) (total : Int) : Prop :=
  C.skipPhysicalFreeCheck = true ∨ ∀ t : System, t.pa.numFreePages ≤ total →
    t.pa.numFreePages ≤
      PageAllocator.getAvailPhysicalPages c (memGetInfo t).1 (memGetInfo t).2 +
        t.pa.reservedPageList.length

/-- Without a deferred shrink it promises as much. -/
theorem availableSize_quiet (hlink : Linked c resizes m.pageAllocator) (hm : Consistent C m out)
    (hnil : m.reservedBlocks = []) (hq : m.inShrink = false)
    (hroom : DeviceRoom C c memGetInfo m.pageAllocator.1.system.pa.numTotalPages) :
    availableSize C (c.api memGetInfo).logged m = reckoned C out m := by
  rw [reckoned_eq hlink hm]
  unfold availableSize
  rw [hnil, if_neg (by simp [hq])]
  dsimp only [List.length_nil]
  split_ifs with hskip
  · change _ + _ + m.pageAllocator.1.system.pa.numFreePages * _ = _
    omega
  · have hfree : m.pageAllocator.1.system.pa.numFreePages ≤
        m.pageAllocator.1.system.pa.numTotalPages := by
      have hinuse := numTotalPages_eq hlink
      omega
    have hle := hroom.resolve_left hskip _ hfree
    have hmin : min m.pageAllocator.1.system.pa.numFreePages
        ((c.api memGetInfo).logged.getAvailPhysicalPages m.pageAllocator +
          (c.api memGetInfo).logged.getNumReservedPages m.pageAllocator) =
        m.pageAllocator.1.system.pa.numFreePages := min_eq_left hle
    change _ + _ + min m.pageAllocator.1.system.pa.numFreePages _ * _ = _
    rw [hmin]
    omega

/-- What `_alloc` can return are the blocks of all pages but those that are out. -/
theorem usable_add (hm : Consistent C m out) (hnil : m.reservedBlocks = []) :
    usable C AllocatorProcess.stock m + out.length =
      blockCount C (m.pageAllocator.1.stock ++ m.issued) := by
  have hfree := hm.freeIn_add
  rw [blockCount_append, usable, supply, hnil, List.length_nil]
  change _ = _ + (((m.issued.map fun p => (blockRange C p).length).sum : Nat) : Int)
  omega

/-- Without a deferred shrink `free` only brings its blocks and pages back. -/
theorem free_quiet {total : Int} {ps : List PageId} (memGetInfo : System → Nat × Nat)
    (hm : Consistent C m (ids ++ out)) (hknown : m.ShrinkKnown) (hnil : m.reservedBlocks = [])
    (hq : m.inShrink = false)
    (hs : SamePages c target total ps m.pageAllocator) :
    ∃ m', free C (c.api memGetInfo).logged ids m = (.ok (), m') ∧ Consistent C m' out ∧
      SameCalls m m' ∧ SamePages c target total ps m'.pageAllocator ∧ m'.issued ⊆ m.issued := by
  obtain ⟨m', hfree, hm', hafter⟩ := free_spec (S := c.api memGetInfo) hm hknown fun _ b _ => by
    rw [hnil]
    exact List.not_mem_nil
  have hsource := free_source (S := c.api memGetInfo) (I := SamePages c target total ps)
    (fun _ _ h hps => h.freePages hps) hm hq hs
  rw [hfree] at hsource
  exact ⟨m', hfree, hm', hafter.quiet hq, hsource, free_issued hfree⟩

/-- With room on the device the blocks freed are promised, and they are there. -/
theorem free_promises (memGetInfo : System → Nat × Nat) (hm : Consistent C m (ids ++ out))
    (hknown : m.ShrinkKnown) (hnil : m.reservedBlocks = []) (hq : m.inShrink = false)
    (hs : Targeted c target m.pageAllocator)
    (hroom : DeviceRoom C c memGetInfo m.pageAllocator.1.system.pa.numTotalPages) :
    ∃ m', free C (c.api memGetInfo).logged ids m = (.ok (), m') ∧
      m'.pageAllocator.1.resizeTarget = target ∧
      availableSize C (c.api memGetInfo).logged m + ids.length ≤
        availableSize C (c.api memGetInfo).logged m' ∧
      usable C AllocatorProcess.stock m' = usable C AllocatorProcess.stock m + ids.length := by
  obtain ⟨m', hfree, hm', hcalls, hsame, hsub⟩ := free_quiet memGetInfo hm hknown hnil
    hq ⟨hs, rfl, List.Perm.refl _⟩
  have hnil' : m'.reservedBlocks = [] := hcalls.reservedBlocks.trans hnil
  refine ⟨m', hfree, hsame.targeted.2, ?_, ?_⟩
  · have hbefore := availableSize_le_reckoned memGetInfo hs.1 hm hnil
    have hafter := availableSize_quiet hsame.targeted.1 hm' hnil' (hcalls.inShrink.trans hq)
      (hsame.total.symm ▸ hroom)
    have hissued : m'.issued.Subperm m.issued :=
      List.subperm_of_subset (hm'.pages.nodup_iff.mp hm'.holds.nodup) hsub
    have hshort := shortfall_le (C := C) hissued hm.nonneg
    rw [reckoned, hsame.total] at hafter
    rw [reckoned, List.length_append, Nat.cast_add] at hbefore
    omega
  · have hbefore := usable_add hm hnil
    have hafter := usable_add hm' hnil'
    have hpages : (m'.pageAllocator.1.stock ++ m'.issued).Perm
        (m.pageAllocator.1.stock ++ m.issued) := hsame.pages
    rw [blockCount_perm hpages] at hafter
    rw [List.length_append, Nat.cast_add] at hbefore
    omega

end KvCacheManager

end GpuSharing.Kvcached
