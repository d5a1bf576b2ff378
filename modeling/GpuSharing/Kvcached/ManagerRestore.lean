import GpuSharing.Kvcached.DeviceMemory
import GpuSharing.Kvcached.BlockAccounting
import GpuSharing.Kvcached.LinkedAllocator

namespace GpuSharing.Kvcached

open Transition

namespace KvCacheManager

variable {c : PageAllocatorConfig} {C : KvCacheManagerConfig} {memGetInfo : System → Nat × Nat}
  {m m' : KvCacheManager (AllocatorProcess × List PageId)} {held ids : List BlockId}

/-- A manager over its page allocator when exactly the blocks `held` are outstanding and no resize
has been asked for. -/
structure Exact (c : PageAllocatorConfig) (C : KvCacheManagerConfig)
    (m : KvCacheManager (AllocatorProcess × List PageId)) (held : List BlockId) : Prop where
  consistent : Consistent C m held
  reserved : m.reservedBlocks = []
  inShrink : m.inShrink = false
  linked : Linked c false m.pageAllocator

theorem issuedOnce_of_linked (h : Linked c false m.pageAllocator) : m.IssuedOnce := by
  unfold IssuedOnce issued
  rw [h.2]
  exact h.1.issuedOnce

theorem startPreallocThread_linked (h : Linked c false m.pageAllocator) :
    Linked c false (startPreallocThread (c.api memGetInfo).logged m).pageAllocator := by
  unfold startPreallocThread
  split_ifs
  · exact h
  · exact h.startPreallocThread

theorem Exact.relabel (h : Exact c C m held) (hlinked : Linked c false m'.pageAllocator)
    (hsame : (m'.availPages, m'.fullPages, m'.numAvailBlocks, m'.reservedBlocks, m'.issued,
        m'.inShrink) =
      (m.availPages, m.fullPages, m.numAvailBlocks, m.reservedBlocks, m.issued, m.inShrink)) :
    Exact c C m' held := by
  simp only [Prod.mk.injEq] at hsame
  obtain ⟨ha, hf, hn, hr, hi, hq⟩ := hsame
  have hconsistent : Consistent C m' held := h.consistent.relabel (by rw [ha, hf, hn, hi])
  exact ⟨hconsistent, hr.trans h.reserved, hq.trans h.inShrink, hlinked⟩

/-- With no limit set `_alloc` does not resize. -/
theorem alloc_eq_allocBlocks (h : Exact c C m held) (n : Int) :
    alloc C (c.api memGetInfo).logged n m = allocBlocks C (c.api memGetInfo).logged n m := by
  have htarget : (c.api memGetInfo).logged.getResizeTarget m.pageAllocator = -1 :=
    h.linked.1.target rfl
  unfold alloc
  rw [htarget]
  exact if_neg (by decide)

theorem alloc_exact {n : Int} {r : Option (List BlockId)} (h : Exact c C m held)
    (ha : alloc C (c.api memGetInfo).logged n m = some (.ok r, m')) :
    Exact c C m' (r.getD [] ++ held) ∧ SameInit m m' := by
  rw [alloc_eq_allocBlocks h] at ha
  unfold allocBlocks at ha
  by_cases hsize : availableSize C (c.api memGetInfo).logged m < n
  · rw [if_pos hsize] at ha
    cases ha
    exact ⟨h, rfl, rfl⟩
  · rw [if_neg hsize, h.reserved] at ha
    simp only [List.take_nil, List.drop_nil] at ha
    split at ha
    case h_1 => cases ha
    case h_2 => cases ha
    case h_3 ret m₁ hloop =>
      cases ha
      obtain ⟨-, hcalls⟩ := allocLoop_frame hloop
      have hlinked : Linked c false m₁.pageAllocator :=
        allocLoop_source (m := { m with reservedBlocks := [] }) (fun _ => Linked.allocPage)
          h.linked hloop
      have hstart : Consistent C { m with reservedBlocks := [] } ([] ++ held) :=
        h.consistent.relabel rfl
      obtain ⟨got, hgot, hids⟩ := allocLoop_spec hstart hloop (issuedOnce_of_linked hlinked)
      obtain ⟨rfl, -⟩ := hids ret rfl
      have hexact : Exact c C m₁ (got ++ held) :=
        ⟨hgot, hcalls.reservedBlocks, hcalls.inShrink.trans h.inShrink, hlinked⟩
      have hinit : SameInit m m₁ := ⟨hcalls.nullBlock, hcalls.postInitDone⟩
      split_ifs
      · refine ⟨?_, hinit.trans startPreallocThread_frame.2⟩
        apply hexact.relabel (startPreallocThread_linked hlinked)
        unfold startPreallocThread
        split_ifs <;> rfl
      · exact ⟨hexact, hinit⟩

theorem free_exact (h : Exact c C m held) (hids : ids.Subperm held) :
    Exact c C (free C (c.api memGetInfo).logged ids m).2 (held.diff ids) := by
  have hc := h.consistent.perm (append_diff_perm hids).symm
  have hknown : m.ShrinkKnown := by
    intro hq
    rw [h.inShrink] at hq
    cases hq
  have hnone : ∀ b ∈ ids, b ∉ m.reservedBlocks := by
    intro b _
    rw [h.reserved]
    exact List.not_mem_nil
  have hlinked := free_source (S := c.api memGetInfo) (I := Linked c false)
    (fun _ _ => Linked.freePages) hc h.inShrink h.linked
  obtain ⟨m', hfree, hm', hafter⟩ := free_spec (S := c.api memGetInfo) hc hknown fun _ => hnone
  rw [hfree] at hlinked ⊢
  have hquiet := hafter.quiet h.inShrink
  exact ⟨hm', hquiet.reservedBlocks.trans h.reserved, hquiet.inShrink.trans h.inShrink, hlinked⟩

theorem init_exact (c : PageAllocatorConfig) (C : KvCacheManagerConfig)
    (schedule : List (List WorkerMove)) :
    Exact c C (KvCacheManager.init (.init c schedule, [])) [] := by
  refine ⟨⟨⟨?_, ?_, ?_, ?_, ?_⟩, rfl, ?_, ?_⟩, rfl, rfl,
    Linked.init c false schedule⟩ <;>
    simp [KvCacheManager.init, pageIds, heldEntries, issued]

theorem reserveNull_exact (h : Exact c C m [])
    (hreserve : reserveNull C (c.api memGetInfo).logged m = some (.ok (), m')) :
    Exact c C m' (m'.nullBlock.getD []) := by
  rcases reserveNull_cases hreserve with
    ⟨-, -, rfl⟩ | ⟨-, ⟨e, -, hraised⟩ | ⟨ids, m₁, halloc, rfl, -⟩⟩
  · exact h.relabel h.linked rfl
  · cases hraised
  · obtain ⟨hm₁, -⟩ := alloc_exact h halloc
    rw [List.append_nil] at hm₁
    exact hm₁.relabel hm₁.linked rfl

/-- After a `_post_init` that did not raise, exactly the null block is outstanding. -/
theorem postInit_exact {created : Bool} (h : Exact c C m [])
    (hinit : postInit C (c.api memGetInfo).logged created m = some (.ok (), m')) :
    Exact c C m' (m'.nullBlock.getD []) := by
  rcases postInit_cases hinit with ⟨-, hraised, -⟩ | ⟨-, m₁, hreserve, hpost⟩
  · exact absurd rfl hraised
  · have hm₁ := reserveNull_exact h hreserve
    obtain ⟨-, rfl⟩ | ⟨-, -, rfl⟩ := hpost
    · exact hm₁.relabel hm₁.linked rfl
    · have hstart : Linked c false
          (startPreallocThread (c.api memGetInfo).logged m₁).pageAllocator :=
        startPreallocThread_linked hm₁.linked
      have hframe := startPreallocThread_frame (S := c.api memGetInfo) (m := m₁)
      rw [← hframe.2.nullBlock] at hm₁
      have hstarted : Exact c C (startPreallocThread (c.api memGetInfo).logged m₁)
          ((startPreallocThread (c.api memGetInfo).logged m₁).nullBlock.getD []) := by
        apply hm₁.relabel hstart
        unfold startPreallocThread
        split_ifs <;> rfl
      exact hstarted.relabel hstarted.linked rfl

end KvCacheManager

namespace Session

open KvCacheManager

variable {c : PageAllocatorConfig} {C : KvCacheManagerConfig} {memGetInfo : System → Nat × Nat}
  {s t : Session AllocatorProcess}

/-- The call is `alloc` or `free`, and an `alloc` does not raise. -/
def AllocOrFree (C : KvCacheManagerConfig) (S : PageAllocatorApi AllocatorProcess)
    (s : Session AllocatorProcess) : ManagerAct → Prop
  | .alloc n => match alloc C S.logged n s.manager with
    | some (.error _, _) => False
    | _ => True
  | .free _ => True
  | .background => True
  | _ => False

theorem step_exact {act : ManagerAct} (hs : Exact c C s.manager s.held)
    (hact : AllocOrFree C (c.api memGetInfo) s act)
    (h : step C (c.api memGetInfo) s act = some t) :
    Exact c C t.manager t.held := by
  cases act with
  | alloc n =>
    simp only [step] at h
    split_ifs at h
    split at h
    case h_1 ids m halloc =>
      cases h
      exact (alloc_exact hs halloc).1
    case h_2 e m halloc =>
      rw [AllocOrFree, halloc] at hact
      exact hact.elim
    case h_3 => cases h
  | free ids =>
    simp only [step] at h
    split_ifs at h with _ hids
    cases h
    exact free_exact hs hids
  | background =>
    cases h
    obtain ⟨hidle, hout⟩ := AllocatorProcess.background_idle hs.linked.1
    change Exact c C { s.manager with
      pageAllocator := (c.api memGetInfo).logged.background s.manager.pageAllocator } s.held
    apply hs.relabel
    · exact ⟨hidle, hs.linked.2.trans hout.symm⟩
    · rfl
  | postInit | tryToReserve | freeReserved | resize | trim => exact hact.elim

theorem run_exact {acts : List ManagerAct} (hs : Exact c C s.manager s.held)
    (hacts : Along (step C (c.api memGetInfo)) (AllocOrFree C (c.api memGetInfo)) s acts)
    (hrun : run (step C (c.api memGetInfo)) s acts = some t) : Exact c C t.manager t.held :=
  run_invariant_along (I := fun s => Exact c C s.manager s.held) (fun _ _ _ => step_exact) hs
    hacts hrun

/-- The free pages `available_size` derives from the free memory of the device. -/
def physicalFreePages (S : PageAllocatorApi AllocatorProcess)
    (m : KvCacheManager (AllocatorProcess × List PageId)) : Int :=
  S.logged.getAvailPhysicalPages m.pageAllocator + S.logged.getNumReservedPages m.pageAllocator

/-- Device memory does not make the two sizes differ: it is not asked, it does not bind, or its
readings differ by the parked pages only. -/
def PhysicalBack (C : KvCacheManagerConfig) (S : PageAllocatorApi AllocatorProcess)
    (m₀ m : KvCacheManager (AllocatorProcess × List PageId)) : Prop :=
  C.skipPhysicalFreeCheck = true ∨
  (S.logged.getNumFreePages m₀.pageAllocator ≤ physicalFreePages S m₀ ∧
    S.logged.getNumFreePages m.pageAllocator ≤ physicalFreePages S m) ∨
  physicalFreePages S m + (parkedPages C m).length =
    physicalFreePages S m₀ + (parkedPages C m₀).length

theorem numFreePages_exact {m : KvCacheManager (AllocatorProcess × List PageId)}
    {held : List BlockId} (h : Exact c C m held) :
    (c.api memGetInfo).logged.getNumFreePages m.pageAllocator =
      c.numPages - m.issued.length := by
  have hlen : m.issued = m.pageAllocator.1.system.handedOut := h.linked.2
  rw [hlen]
  exact h.linked.1.counters.2

theorem availableSize_exact {m : KvCacheManager (AllocatorProcess × List PageId)}
    {held : List BlockId} (h : Exact c C m held) :
    availableSize C (c.api memGetInfo).logged m = freeIn m.availPages +
      (if C.skipPhysicalFreeCheck then c.numPages - m.issued.length
        else min (c.numPages - m.issued.length) (physicalFreePages (c.api memGetInfo) m)) *
      InternalPage.getNumBlocks C.pageSize C.blockMemSize := by
  unfold availableSize
  rw [h.reserved, h.inShrink, numFreePages_exact h, h.consistent.counter]
  simp [physicalFreePages]

/-- When exactly the blocks `held` are outstanding, what is free depends on the parked pages
only. -/
theorem availableSize_restored {m₀ m : KvCacheManager (AllocatorProcess × List PageId)}
    {held₀ held : List BlockId} (h₀ : Exact c C m₀ held₀) (h : Exact c C m held)
    (hheld : held.Perm held₀) (hphys : PhysicalBack C (c.api memGetInfo) m₀ m) :
    availableSize C (c.api memGetInfo).logged m +
        (parkedPages C m).length * InternalPage.getNumBlocks C.pageSize C.blockMemSize =
      availableSize C (c.api memGetInfo).logged m₀ +
        (parkedPages C m₀).length * InternalPage.getNumBlocks C.pageSize C.blockMemSize := by
  have hc := h.consistent.perm hheld
  have hlen := hc.length_issued
  have hlen₀ := h₀.consistent.length_issued
  have hfree : freeIn m.availPages = freeIn m₀.availPages := by
    have hblocks := hc.freeIn_eq
    have hblocks₀ := h₀.consistent.freeIn_eq
    omega
  have hpages : (if C.skipPhysicalFreeCheck then c.numPages - m.issued.length
        else min (c.numPages - m.issued.length) (physicalFreePages (c.api memGetInfo) m)) +
        (parkedPages C m).length =
      (if C.skipPhysicalFreeCheck then c.numPages - m₀.issued.length
        else min (c.numPages - m₀.issued.length) (physicalFreePages (c.api memGetInfo) m₀)) +
        (parkedPages C m₀).length := by
    by_cases hskip : C.skipPhysicalFreeCheck = true
    · rw [if_pos hskip, if_pos hskip]
      omega
    · rw [if_neg hskip, if_neg hskip]
      rcases hphys with hphys | ⟨hv₀, hv⟩ | hphys
      · exact absurd hphys hskip
      · rw [numFreePages_exact h₀] at hv₀
        rw [numFreePages_exact h] at hv
        omega
      · omega
  rw [availableSize_exact h, availableSize_exact h₀, hfree, add_assoc, add_assoc, ← add_mul,
    ← add_mul, hpages]


/-- So it is when this allocator alone maps memory of the device, stays clear of the headroom, and
its worker is idle at both times. -/
theorem physicalBack_of_soleDevice {m₀ m : KvCacheManager (AllocatorProcess × List PageId)}
    {held₀ held : List BlockId} {free headroom : Nat} (h₀ : Exact c C m₀ held₀)
    (h : Exact c C m held) (hheld : held.Perm held₀) (hfree : free < 2^63)
    (hfit : ∀ m' ∈ [m₀, m], m'.pageAllocator.1.system.worker = .idle ∧
      headroom + m'.pageAllocator.1.system.physical.card * c.pageBytes ≤ free) :
    PhysicalBack C (c.api (c.soleDevice free headroom)) m₀ m := by
  have hreading : ∀ m' ∈ [m₀, m], Linked c false m'.pageAllocator →
      physicalFreePages (c.api (c.soleDevice free headroom)) m' + m'.issued.length =
        ((free : Int) - headroom) / c.pageSize / c.numLayers / c.numKvBuffers := by
    intro m' hm' hlinked
    obtain ⟨hw, hroom⟩ := hfit m' hm'
    have hcard := hlinked.1.card_physical hw
    have hissued : m'.issued = m'.pageAllocator.1.system.handedOut := hlinked.2
    change PageAllocator.getAvailPhysicalPages c
        (free - m'.pageAllocator.1.system.physical.card * c.pageBytes).toNat headroom +
      m'.pageAllocator.1.system.pa.reservedPageList.length + _ = _
    rw [PageAllocator.getAvailPhysicalPages_sole c hfree hroom, hissued]
    omega
  have hlen := (h.consistent.perm hheld).length_issued
  have hlen₀ := h₀.consistent.length_issued
  have hread := hreading m (by simp) h.linked
  have hread₀ := hreading m₀ (by simp) h₀.linked
  right
  right
  omega

/-- Once every block allocated is freed, the pages in use are the one of the null block and pages
without a whole block, which stay parked in `full_pages`; apart from these `available_size` is
what it was. -/
theorem alloc_free_restores (c : PageAllocatorConfig) (C : KvCacheManagerConfig)
    (memGetInfo : System → Nat × Nat) (schedule : List (List WorkerMove))
    (m₀ : KvCacheManager (AllocatorProcess × List PageId)) (acts : List ManagerAct)
    (s : Session AllocatorProcess)
    (hinit : postInit C (c.api memGetInfo).logged true
      (KvCacheManager.init (.init c schedule, [])) = some (.ok (), m₀))
    (hrun : run (step C (c.api memGetInfo)) ⟨m₀, m₀.nullBlock.getD []⟩ acts = some s)
    (hacts : Along (step C (c.api memGetInfo)) (AllocOrFree C (c.api memGetInfo))
      ⟨m₀, m₀.nullBlock.getD []⟩ acts)
    (hfreed : s.held.Perm (m₀.nullBlock.getD [])) :
    s.manager.issued.Perm
      (pagesOf C (m₀.nullBlock.getD []) ++ parkedPages C s.manager) ∧
    s.manager.pageAllocator.1.system.pa.getNumInusePages =
      (pagesOf C (m₀.nullBlock.getD [])).length + (parkedPages C s.manager).length ∧
    (∀ p ∈ s.manager.availPages, p ∈ pagesOf C (m₀.nullBlock.getD [])) ∧
    (∀ p ∈ s.manager.fullPages,
      p ∈ pagesOf C (m₀.nullBlock.getD []) ∨ p ∈ parkedPages C s.manager) ∧
    (PhysicalBack C (c.api memGetInfo) m₀ s.manager →
      availableSize C (c.api memGetInfo).logged s.manager +
          (parkedPages C s.manager).length *
            InternalPage.getNumBlocks C.pageSize C.blockMemSize =
        availableSize C (c.api memGetInfo).logged m₀ +
          (parkedPages C m₀).length * InternalPage.getNumBlocks C.pageSize C.blockMemSize) := by
  have h₀ := postInit_exact (init_exact c C schedule) hinit
  have hs := run_exact h₀ hacts hrun
  have hc := hs.consistent.perm hfreed
  have hperm := hc.issued_perm
  refine ⟨hperm, ?_, hc.page_used.1, ?_, availableSize_restored h₀ hs hfreed⟩
  · rw [hs.linked.1.counters.1, ← hs.linked.2, ← Nat.cast_add, ← List.length_append]
    exact congrArg _ hperm.length_eq
  · intro p hp
    have hin := hperm.mem_iff.mp (hc.pages.mem_iff.mp (mem_pageIds.mpr (.inr hp)))
    exact List.mem_append.mp hin

instance (C : KvCacheManagerConfig) (S : PageAllocatorApi AllocatorProcess) :
    ∀ s act, Decidable (AllocOrFree C S s act)
  | s, .alloc n => by
    simp only [AllocOrFree]
    split <;> infer_instance
  | _, .free _ | _, .background => .isTrue trivial
  | _, .postInit _ | _, .tryToReserve _ | _, .freeReserved | _, .resize _ | _, .trim =>
    .isFalse not_false

/-- Four pages of four bytes; blocks of three leave page 1 without a whole block. -/
def parkingAllocator : PageAllocatorConfig where
  numLayers := 1
  memSizePerLayer := 16
  pageSize := 4
  numKvBuffers := 1
  pageSize_pos := Numerals.pos_four

def parkingManager (reserveNullBlock : Bool) : KvCacheManagerConfig where
  blockMemSize := 3
  pageSize := 4
  reserveNullBlock
  blockMemSize_pos := Numerals.pos_three
  pageSize_pos := Numerals.pos_four

def parkingDevice : System → Nat × Nat := fun _ => (1000, 0)

def parkingInit (reserveNullBlock : Bool) :
    Option (Except PyError Unit × KvCacheManager (AllocatorProcess × List PageId)) :=
  postInit (parkingManager reserveNullBlock) (parkingAllocator.api parkingDevice).logged true
    (KvCacheManager.init (.init parkingAllocator [], []))

theorem parkingInit_isSome (reserveNullBlock : Bool) : (parkingInit reserveNullBlock).isSome := by
  cases reserveNullBlock <;> decide +kernel

def parkingStart (reserveNullBlock : Bool) : KvCacheManager (AllocatorProcess × List PageId) :=
  ((parkingInit reserveNullBlock).get (parkingInit_isSome reserveNullBlock)).2

theorem parkingInit_eq (reserveNullBlock : Bool) :
    parkingInit reserveNullBlock = some (.ok (), parkingStart reserveNullBlock) := by
  have hok : ((parkingInit reserveNullBlock).get (parkingInit_isSome _)).1 = .ok () := by
    cases reserveNullBlock <;> decide +kernel
  rw [parkingStart, ← hok]
  exact (Option.some_get _).symm

theorem alloc_free_restores_parking :
    ∃ s, run (step (parkingManager true) (parkingAllocator.api parkingDevice))
        ⟨parkingStart true, [0]⟩ [.alloc 1, .background, .free [3]] = some s ∧
      s.held = [0] ∧ s.manager.fullPages.keys = [1, 0] ∧
      s.manager.pageAllocator.1.system.pa.getNumInusePages = 2 ∧
      ∀ p ∈ s.manager.fullPages, p ∈ pagesOf (parkingManager true) [0] ∨
        p ∈ parkedPages (parkingManager true) s.manager := by
  have hrun : run (step (parkingManager true) (parkingAllocator.api parkingDevice))
      ⟨parkingStart true, (parkingStart true).nullBlock.getD []⟩
      [.alloc 1, .background, .free [3]] = some _ := (Option.some_get (by decide +kernel)).symm
  have hback := alloc_free_restores parkingAllocator (parkingManager true) parkingDevice [] _
    [.alloc 1, .background, .free [3]] _ (parkingInit_eq true) hrun (by decide +kernel)
    (by decide +kernel)
  exact ⟨_, hrun, by decide +kernel, by decide +kernel, by decide +kernel, hback.2.2.2.1⟩

/-- Freeing both blocks leaves page 1 in `full_pages` and a block fewer available than at the
start. -/
theorem parked_page_stays :
    parkingInit false = some (.ok (), parkingStart false) ∧
    ∃ s, run (step (parkingManager false) (parkingAllocator.api parkingDevice))
        ⟨parkingStart false, []⟩ [.alloc 2, .free [0, 3]] = some s ∧
      Along (step (parkingManager false) (parkingAllocator.api parkingDevice))
        (AllocOrFree (parkingManager false) (parkingAllocator.api parkingDevice))
        ⟨parkingStart false, []⟩ [.alloc 2, .free [0, 3]] ∧
      s.held = [] ∧ s.manager.fullPages.keys = [1] ∧
      s.manager.pageAllocator.1.system.pa.getNumInusePages = 1 ∧
      availableSize (parkingManager false) (parkingAllocator.api parkingDevice).logged
        (parkingStart false) = 4 ∧
      availableSize (parkingManager false) (parkingAllocator.api parkingDevice).logged
        s.manager = 3 := by
  refine ⟨parkingInit_eq false, _, (Option.some_get (by decide +kernel)).symm, ?_⟩
  exact ⟨by decide +kernel, by decide +kernel, by decide +kernel, by decide +kernel,
    by decide +kernel, by decide +kernel⟩

end Session

end GpuSharing.Kvcached
