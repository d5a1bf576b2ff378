import GpuSharing.Kvcached.AllocatorGil
import GpuSharing.Kvcached.LinkedAllocator

namespace GpuSharing.Kvcached

open Transition

namespace System

variable {c : PageAllocatorConfig} {resizes : Bool} {s t : System} {act : Act}
  {N : PageId → Nat} {ps : List PageId}

/-- The pages that `alloc_page` has still to issue. -/
def stock (s : System) : List PageId :=
  s.pa.freePageList ++ s.pa.reservedPageList ++ s.worker.inFlight

/-- The ids are in `places` as often as `N` says, and the reclaimed ones are `ps`. -/
structure Placed (N : PageId → Nat) (ps : List PageId) (s : System) : Prop where
  places : ∀ q, s.places.count q = N q
  reclaimed : s.pa.reclaimedPageList = ps
  noResize : s.NoResize

theorem NoResize.pending (h : s.NoResize) : s.ShrinkPending := by
  intro n ps hn
  rcases hn with hn | hn
  · exact absurd hn (h n ps).1
  · exact absurd hn (h n ps).2

/-- Only a resize reclaims pages. -/
theorem step_reclaimed (hn : s.NoResize) (hp : act.Plain false) (h : step c s act = some t) :
    t.pa.reclaimedPageList = s.pa.reclaimedPageList := by
  cases step_outcome h with
  | grows | reclaims => cases hp
  | relockReclaims n ps hi => exact absurd hi (hn n ps).2
  | _ => rfl

theorem step_placed (s : System) (act : Act) (t : System) (hs : s.Placed N ps)
    (hp : act.Plain false) (h : step c s act = some t) : t.Placed N ps := by
  obtain ⟨fresh, lost, hc, hfresh, hlost⟩ := step_conserves hs.noResize.pending h
  obtain rfl : fresh = [] := by
    rcases hfresh with hfresh | ⟨m, rfl, -⟩
    · exact hfresh
    · cases hp
  obtain rfl : lost = [] := by
    rcases hlost with hlost | rfl
    · exact hlost
    · cases hp
  refine ⟨?_, (step_reclaimed hs.noResize hp h).trans hs.reclaimed,
    (step_total hs.noResize hp h).2⟩
  intro q
  have hcount := hc.count q
  rw [List.count_nil, hs.places q] at hcount
  exact hcount

theorem count_stock (hi : s.engine = .idle) (q : PageId) :
    s.places.count q =
      s.stock.count q + s.pa.reclaimedPageList.count q + s.handedOut.count q := by
  simp only [count_places, PageAllocator.count_lists, stock, hi, EnginePc.inFlight_idle,
    List.count_append, List.count_nil]
  omega

/-- While the engine thread is idle `num_free_pages_` is the size of the stock. -/
theorem Ran.length_stock (h : Ran c resizes s) (hi : s.engine = .idle) :
    s.pa.numFreePages = s.stock.length := by
  rw [h.exact, freeCount, stock, hi, List.length_append, List.length_append]
  simp

/-- The worker never runs when preallocation is off. -/
theorem Ran.worker_idle (h : Ran c resizes s) (hc : c.enablePagePrealloc = false) :
    s.worker = .idle := by
  obtain ⟨acts, hrun, -⟩ := h
  refine run_invariant (I := fun s => s.worker = .idle) ?_ rfl hrun
  intro s act t hs ht
  rcases GilSystem.thread_cases act with hengine | hworker
  · exact (GilSystem.worker_of_engine hengine ht).trans hs
  · cases act with
    | workerGrab | workerMapReturns | workerRelock =>
      simp [System.step, hs, hc] at ht
    | _ => cases hworker

end System

namespace AllocatorProcess

open GpuSharing.Kvcached.System

variable {c : PageAllocatorConfig} {resizes : Bool} {a : AllocatorProcess} {p : PageId}
  {msg : String}

theorem Idle.placed (h : a.Idle c resizes) :
    a.system.Placed (fun q => a.system.places.count q) a.system.pa.reclaimedPageList :=
  ⟨fun _ => rfl, rfl, by simp [NoResize, h.engine]⟩

theorem stock_of_placed {s t : System} (hs : s.engine = .idle) (ht : t.engine = .idle)
    (hplaced : t.Placed (fun q => s.places.count q) s.pa.reclaimedPageList)
    (hout : t.handedOut = s.handedOut) : t.stock.Perm s.stock := by
  rw [List.perm_iff_count]
  intro q
  have hcount := hplaced.places q
  rw [count_stock hs, count_stock ht, hplaced.reclaimed, hout] at hcount
  omega

/-- A page issued comes from the stock. -/
theorem allocPage_issues (h : a.Idle c resizes) (hp : (allocPage c a).1 = .ok p) :
    a.system.stock.Perm (p :: (allocPage c a).2.system.stock) := by
  obtain ⟨hidle, hout⟩ := allocPage_idle h
  rw [hp] at hout
  have hplaced := allocPage_keeps (step_placed (c := c)) h.placed
  rw [List.perm_iff_count]
  intro q
  have hcount := hplaced.places q
  rw [count_stock h.engine, count_stock hidle.engine, hplaced.reclaimed, hout,
    List.count_cons] at hcount
  rw [List.count_cons]
  omega

/-- The loop of `alloc_page` raises on an empty stock only. -/
theorem stock_of_throws {s : System} {b : PageAllocator} (h : Ran c resizes s)
    (hi : s.engine = .idle) (hout : s.pa.allocPageLoop c = (.throws msg, b)) : s.stock = [] := by
  unfold PageAllocator.allocPageLoop at hout
  split at hout
  case h_1 => cases hout
  case h_2 => cases hout
  case h_3 hr hf =>
    split_ifs at hout with hfree hprealloc
    · have hlen := h.length_stock hi
      exact List.length_eq_zero_iff.mp (by omega)
    · have hworker := h.worker_idle (by simpa using hprealloc)
      rw [stock, hr, hf, hworker]
      rfl
    · cases hout

theorem allocPage_raises (h : a.Idle c resizes) (hp : (allocPage c a).1 = .error msg) :
    a.system.stock = [] := by
  obtain ⟨he, ho⟩ := drive_frame c a.system (a.schedule.headD [])
  have hran := h.ran.drive (a.schedule.headD [])
  have hplaced := drive_keeps (step_placed (c := c)) h.placed (a.schedule.headD [])
  have hstock := stock_of_placed h.engine (he.trans h.engine) hplaced ho
  have hwake := fun {b} => wake_fast (b := b) h
  unfold allocPage at hp
  dsimp only at hp
  generalize a.system.drive c (a.schedule.headD []) = s at *
  split at hp
  case h_1 msg' b hout =>
    rw [stock_of_throws hran (he.trans h.engine) hout] at hstock
    exact hstock.symm.eq_nil
  case h_2 => cases hp
  case h_3 => cases hp
  case h_4 b hout =>
    obtain ⟨p, hfast⟩ := hwake hout
    split at hp
    case h_1 => cases hp
    case h_2 hne =>
      exact (hne p _ (Prod.ext hfast rfl)).elim

end AllocatorProcess

end GpuSharing.Kvcached
