import GpuSharing.Kvcached.AllocSupply
import GpuSharing.Kvcached.PageBounds

namespace GpuSharing.Kvcached

open Transition

variable {c : PageAllocatorConfig} {C : KvCacheManagerConfig} {memGetInfo : System → Nat × Nat}

namespace Linked

variable {x : AllocatorProcess × List PageId} {p : Int}

/-- Without a resize no page is ever anywhere that was not there at the start. -/
theorem below (h : Linked c false x) : x.1.system.Below c.numPages := by
  obtain ⟨acts, hrun, hplain⟩ := h.1.ran
  apply System.run_below le_rfl hrun
  apply along_of_mem
  intro act hact s
  have hact := hplain act hact
  cases act with
  | resize => cases hact
  | _ => trivial

theorem issued_below (h : Linked c false x) (hp : p ∈ x.2) : 0 ≤ p ∧ p < c.numPages := by
  apply h.below
  rw [h.2] at hp
  simp [System.places, hp]

theorem stock_below (h : Linked c false x) (hp : p ∈ x.1.stock) : 0 ≤ p ∧ p < c.numPages := by
  apply h.below
  have hcount := System.count_stock h.1.engine p
  have hin : 0 < x.1.system.stock.count p := List.count_pos_iff.mpr hp
  exact List.count_pos_iff.mp (by omega)

end Linked

theorem perPage_pos {perPage : Int} (hfill : C.pageSize = perPage * C.blockMemSize) :
    0 < perPage := by
  have hsize := C.pageSize_pos
  rw [hfill] at hsize
  exact (pos_iff_pos_of_mul_pos hsize).mpr C.blockMemSize_pos

/-- A page that blocks fill has only numbers below those of the next page. -/
theorem mem_blockRange_bounds {p n perPage : Int} {b : BlockId}
    (hfill : C.pageSize = perPage * C.blockMemSize) (hp : 0 ≤ p) (hn : p < n)
    (hb : b ∈ blockRange C p) : 0 ≤ b ∧ b < n * perPage := by
  obtain ⟨hlo, hhi⟩ := (mem_blockRange_iff C hp b).mp hb
  have hpos := C.blockMemSize_pos
  have hpage : 0 ≤ p * C.pageSize := mul_nonneg hp C.pageSize_pos.le
  have hnext : (p + 1) * C.pageSize ≤ n * C.pageSize :=
    mul_le_mul_of_nonneg_right (by omega) C.pageSize_pos.le
  have hend : (b + 1) * C.blockMemSize ≤ n * perPage * C.blockMemSize := by
    rw [mul_assoc, ← hfill]
    exact hhi.trans hnext
  have hlast : b + 1 ≤ n * perPage := le_of_mul_le_mul_right hend hpos
  have hfirst : 0 ≤ b := nonneg_of_mul_nonneg_left (hpage.trans hlo) hpos
  exact ⟨hfirst, Int.add_one_le_iff.mp hlast⟩

theorem getNumBlocks_of_fill {perPage : Int} (hfill : C.pageSize = perPage * C.blockMemSize) :
    InternalPage.getNumBlocks C.pageSize C.blockMemSize = perPage := by
  rw [InternalPage.getNumBlocks, hfill]
  exact Int.mul_tdiv_cancel _ C.blockMemSize_pos.ne'

/-- No block of such a page straddles its ends. -/
theorem length_blockRange_of_fill {p perPage : Int}
    (hfill : C.pageSize = perPage * C.blockMemSize) (hp : 0 ≤ p) :
    ((blockRange C p).length : Int) = perPage := by
  have hpos := C.blockMemSize_pos
  have hsize := C.pageSize_pos
  have hpage : p * C.pageSize = p * perPage * C.blockMemSize := by rw [hfill, mul_assoc]
  have hnext : (p + 1) * C.pageSize = (p * perPage + perPage) * C.blockMemSize := by
    rw [hfill]
    ring
  have hfirst : (p * C.pageSize + C.blockMemSize - 1).tdiv C.blockMemSize = p * perPage := by
    have hnonneg : 0 ≤ p * C.pageSize := mul_nonneg hp hsize.le
    rw [Int.tdiv_eq_ediv_of_nonneg (by omega), hpage, add_sub_assoc, add_comm,
      Int.add_mul_ediv_right _ _ hpos.ne', Int.ediv_eq_zero_of_lt (by omega) (by omega), zero_add]
  have hlast : ((p + 1) * C.pageSize).tdiv C.blockMemSize = p * perPage + perPage := by
    rw [hnext]
    exact Int.mul_tdiv_cancel _ hpos.ne'
  have hsome := perPage_pos hfill
  rw [length_blockRange, InternalPage.getBlockRange, hfirst, hlast]
  omega

theorem length_le_of_bounds {held : List BlockId} {k : Int} (hk : 0 ≤ k) (hnodup : held.Nodup)
    (hheld : ∀ b ∈ held, 0 ≤ b ∧ b < k) : (held.length : Int) ≤ k := by
  have hsub : held ⊆ Int.range 0 k := by
    intro b hb
    exact Int.mem_range_iff.mpr (hheld b hb)
  have hlen := (List.subperm_of_subset hnodup hsub).length_le
  have hrange : (Int.range 0 k).length = k.toNat := by simp [Int.range]
  omega

namespace Session

open KvCacheManager

variable {schedule : List (List WorkerMove)} {acts : List ManagerAct}
  {s s₀ : Session AllocatorProcess}

/-- Without a resize page ids stay unique, whatever else is called. -/
theorem run_issuesOnce (hplain : ∀ act ∈ acts, act.Plain false) :
    Along (step C (c.api memGetInfo)) (IssuesOnce C (c.api memGetInfo))
      (start (.init c schedule)) acts := by
  have halong : Along (step C (c.api memGetInfo)) (fun _ act => act.Plain false)
      (start (.init c schedule)) acts := along_of_mem (fun act hact _ => hplain act hact) _
  have hstep : ∀ s act t, Sound false (Linked c false) [] s.manager → act.Plain false →
      step C (c.api memGetInfo) s act = some t → Sound false (Linked c false) [] t.manager :=
    fun s act t hs hact h => step_sound (Linked.keeps c false memGetInfo) hs hact h
  apply along_imp (I := fun s => Sound false (Linked c false) [] s.manager) _ hstep
    (Sound.init (Linked.init c false schedule)) halong
  intro s act hs hact
  unfold IssuesOnce
  split
  case h_1 t h => exact issuedOnce_of_linked (hstep s act t hs hact h).source
  case h_2 => trivial

/-- In every history without a resize the blocks held are distinct blocks of pages of the start. -/
theorem run_held (hplain : ∀ act ∈ acts, act.Plain false)
    (hrun : run (step C (c.api memGetInfo)) (start (.init c schedule)) acts = some s) :
    s.held.Nodup ∧ ∀ b ∈ s.held, ∃ p : Int, 0 ≤ p ∧ p < c.numPages ∧ b ∈ blockRange C p := by
  obtain ⟨lost, hsettled⟩ := (run_accounted hrun (run_issuesOnce hplain)).settled
  have hlinked := (run_linked hplain hrun).source
  have hc := hsettled.consistent
  refine ⟨(List.nodup_append.mp (List.nodup_append.mp hc.nodup).2.1).1, ?_⟩
  intro b hb
  have hout : b ∈ s.manager.reservedBlocks ++ (s.held ++ lost) := by simp [hb]
  obtain ⟨hin, hrange⟩ := hc.mem_blockRange hout
  obtain ⟨h0, hlt⟩ := hlinked.issued_below hin
  exact ⟨_, h0, hlt, hrange⟩

/-- Where blocks fill a page, the ids held are below the number of blocks. -/
theorem run_bounds {perPage : Int} (hfill : C.pageSize = perPage * C.blockMemSize)
    (hinit : step C (c.api memGetInfo) (start (.init c schedule)) (.postInit true) = some s₀)
    (hplain : ∀ act ∈ acts, act.Plain false)
    (hrun : run (step C (c.api memGetInfo)) s₀ acts = some s) :
    s.held.Nodup ∧ ∀ b ∈ s.held, 0 ≤ b ∧ b < c.numPages * perPage := by
  have hfull : run (step C (c.api memGetInfo)) (start (.init c schedule))
      (.postInit true :: acts) = some s := run_cons.mpr ⟨s₀, hinit, hrun⟩
  have hall : ∀ act ∈ .postInit true :: acts, ManagerAct.Plain false act :=
    List.forall_mem_cons.mpr ⟨trivial, hplain⟩
  obtain ⟨hnodup, hheld⟩ := run_held hall hfull
  refine ⟨hnodup, ?_⟩
  intro b hb
  obtain ⟨p, h0, hlt, hrange⟩ := hheld b hb
  exact mem_blockRange_bounds hfill h0 hlt hrange

/-- A manager that reserves no null block has no page after `_post_init`. -/
theorem fresh_exact (hnull : C.reserveNullBlock = false)
    (hinit : step C (c.api memGetInfo) (start (.init c schedule)) (.postInit true) = some s₀) :
    Exact c C s₀.manager [] ∧ s₀.held = [] ∧ s₀.manager.postInitDone = true := by
  cases step_outcome hinit with
  | postInit created r m hdone hcall =>
    rcases postInit_cases hcall with ⟨hfalse, -, -⟩ | ⟨-, m₁, hreserve, hpost⟩
    · cases hfalse
    · obtain ⟨rfl, hnone₁⟩ : r = .ok () ∧ m₁.nullBlock = none := by
        unfold reserveNull at hreserve
        rw [hnull, if_neg (by decide)] at hreserve
        cases hreserve
        exact ⟨rfl, rfl⟩
      have hexact := postInit_exact (init_exact c C schedule) hcall
      have hready : m.nullBlock = none ∧ m.postInitDone = true := by
        rcases hpost with ⟨-, rfl⟩ | ⟨-, -, rfl⟩
        · exact ⟨hnone₁, rfl⟩
        · exact ⟨startPreallocThread_frame.2.nullBlock.trans hnone₁, rfl⟩
      rw [hready.1] at hexact
      exact ⟨hexact, congrArg (·.getD []) hready.1, hready.2⟩

/-- A manager with the memory for all its pages hands out their blocks, if blocks fill a page. -/
theorem fresh_alloc {perPage n : Int} (hfill : C.pageSize = perPage * C.blockMemSize)
    (hnull : C.reserveNullBlock = false)
    (hinit : step C (c.api memGetInfo) (start (.init c schedule)) (.postInit true) = some s₀)
    (hphys : C.skipPhysicalFreeCheck = true ∨
      c.numPages ≤ physicalFreePages (c.api memGetInfo) s₀.manager)
    (h0 : 0 ≤ n) (hn : n ≤ c.numPages * perPage) :
    ∃ t, step C (c.api memGetInfo) s₀ (.alloc n) = some t ∧ (t.held.length : Int) = n := by
  obtain ⟨hexact, hheld, hdone⟩ := fresh_exact hnull hinit
  have hsound : Sound false (Linked c false) [] s₀.manager := by
    have hrun : run (step C (c.api memGetInfo)) (start (.init c schedule)) [.postInit true] =
        some s₀ := by simp [run, hinit]
    exact run_linked (by simp [ManagerAct.Plain]) hrun
  have hper := getNumBlocks_of_fill hfill
  have hsome := perPage_pos hfill
  -- No page is held yet, as each has a block that would be outstanding.
  have hissued : s₀.manager.issued = [] := by
    apply List.eq_nil_iff_forall_not_mem.mpr
    intro p hp
    have hfull := length_blockRange_of_fill hfill (hexact.linked.issued_below hp).1
    rcases hexact.consistent.page_used.2 p hp with hused | hnil
    · cases hused
    · rw [hnil, List.length_nil] at hfull
      omega
  have hsize : availableSize C (c.api memGetInfo).logged s₀.manager = c.numPages * perPage := by
    have hfree : freeIn s₀.manager.availPages = 0 := by
      simpa [pagesOf] using hexact.consistent.freeIn_eq
    rw [availableSize_exact hexact, hissued, hper, hfree]
    split_ifs with hskip
    · simp
    · rcases hphys with hphys | hphys
      · exact absurd hphys hskip
      · simp [min_eq_left hphys]
  have hpages : ∀ p ∈ s₀.manager.pageAllocator.1.stock,
      ((blockRange C p).length : Int) = InternalPage.getNumBlocks C.pageSize C.blockMemSize := by
    intro p hp
    rw [hper]
    exact length_blockRange_of_fill hfill (hexact.linked.stock_below hp).1
  have husable : c.numPages * perPage ≤ usable C AllocatorProcess.stock s₀.manager := by
    rw [← hsize]
    exact availableSize_le_usable hexact.linked hexact.consistent.counter hpages
  obtain ⟨⟨r, m⟩, halloc⟩ := Option.isSome_iff_exists.mp (alloc_returns (C := C)
    (Linked.keeps c false memGetInfo) (Linked.counts c false memGetInfo) hsound hdone n)
  have hblocks := halloc
  rw [alloc_eq_allocBlocks hexact] at hblocks
  rcases allocBlocks_supply (Linked.keeps c false memGetInfo) (Linked.draws c false memGetInfo)
    hsound (by omega) hblocks with ⟨ids, rfl, hlen, -⟩ | ⟨e, -, hlt⟩
  · refine ⟨⟨m, ids ++ s₀.held⟩, by simp [step, hdone, halloc], ?_⟩
    rw [hheld, List.append_nil]
    exact hlen h0
  · omega

end Session

end GpuSharing.Kvcached
