import GpuSharing.Kvcached.PageOwnership

namespace GpuSharing.Kvcached.System

open Transition PageAllocator

/-- A growth invents no id that is in use, and an unmap call that throws had no page to unmap. -/
def KeepsPages (c : PageAllocatorConfig) (s : System) (act : Act) : Prop :=
  GrowsCleanly c s act ∧ s.lostBy act = []

instance (c : PageAllocatorConfig) : ∀ s act, Decidable (KeepsPages c s act) := fun s act => by
  unfold KeepsPages
  infer_instance

/-- Every id issued so far is in exactly one place, `num_free_pages_` counts the pages that are free,
reserved or on their way there, and `alloc_page` waits only for pages that are on their way. -/
structure NoneLost (c : PageAllocatorConfig) (s : System) : Prop where
  placed : ∀ q : Int, 0 ≤ q → q < s.pa.highWater → s.places.count q = 1
  counter : s.pa.numFreePages = s.freeCount
  waits : s.engine = .idle ∨ s.engine = .waiting → ∀ a, s.pa.allocPageLoop c = (.wait, a) →
    s.worker.inFlight ≠ []

/-- The pages of a state in which nothing was lost. -/
structure Whole (s : System) : Prop where
  owned : s.Owned
  complete : s.Complete
  counter : s.pa.numFreePages = s.freeCount

/-- A state in which a page is lost or in two places. -/
structure Spoilt (s : System) : Prop where
  counted : s.Counted
  spoilt : s.freeCount < s.pa.numFreePages ∨
    ∃ q : Int, 0 ≤ q ∧ q < s.pa.highWater ∧ 1 < s.places.count q

variable {c : PageAllocatorConfig} {s t : System} {act : Act}

theorem init_whole (c : PageAllocatorConfig) : (init c).Whole := by
  have hrun : Transition.run (step c) (init c) [] = some (init c) := rfl
  exact ⟨init_owned c, init_complete c, run_free_exact hrun trivial⟩

theorem step_whole (hs : s.Whole) (hk : KeepsPages c s act) (h : step c s act = some t) :
    t.Whole := by
  refine ⟨step_owned hs.owned hk.1 h,
    step_complete hs.owned.counted.pending hs.complete hk.1 hk.2 h, ?_⟩
  have hfree := (step_accounts_lost hs.owned.counted.pending h).free
  rw [hk.2, hs.counter] at hfree
  rw [List.length_nil] at hfree
  omega

theorem step_spoils (hs : s.Whole) (hk : ¬KeepsPages c s act) (h : step c s act = some t) :
    t.Spoilt := by
  refine ⟨step_counted hs.owned.counted h, ?_⟩
  by_cases hg : GrowsCleanly c s act
  · left
    have hlost : s.lostBy act ≠ [] := fun hnil => hk ⟨hg, hnil⟩
    have hpos := List.length_pos_iff.mpr hlost
    have hfree := (step_accounts_lost hs.owned.counted.pending h).free
    rw [hs.counter] at hfree
    omega
  · exact .inr (unclean_step_duplicates hs.owned.counted hs.complete h hg)

/-- What is lost stays lost, and an id given out twice stays in two places unless one is lost. -/
theorem step_spoilt (hs : s.Spoilt) (h : step c s act = some t) : t.Spoilt := by
  refine ⟨step_counted hs.counted h, ?_⟩
  have hfree := (step_accounts_lost hs.counted.pending h).free
  have hle := hs.counted.free
  obtain ⟨fresh, hc, -⟩ := step_conserves_lost hs.counted.pending h
  by_cases hlost : s.lostBy act = []
  · rcases hs.spoilt with hgap | ⟨q, h0, hq, htwice⟩
    · left
      omega
    · right
      have hcount := hc.count q
      have hmark := hc.highWater
      rw [hlost, List.count_nil] at hcount
      exact ⟨q, h0, by omega, by omega⟩
  · left
    have hpos := List.length_pos_iff.mpr hlost
    omega

theorem Whole.noneLost (hs : s.Whole) : s.NoneLost c := by
  refine ⟨?_, hs.counter, ?_⟩
  · intro q h0 hq
    have hone := hs.owned.once q
    have hin := List.count_pos_iff.mpr (hs.complete q h0 hq)
    omega
  · intro hi a ha hw
    unfold allocPageLoop at ha
    split at ha
    case h_1 => cases ha
    case h_2 => cases ha
    case h_3 hr hf =>
      split_ifs at ha with hpos
      · cases ha
      · cases ha
      · have hunmap : s.engine.unmapInFlight = [] := by rcases hi with hi | hi <;> simp [hi]
        have hcounter := hs.counter
        simp only [freeCount, hr, hf, hw, hunmap, List.length_nil] at hcounter
        omega

theorem Spoilt.lost (hs : s.Spoilt) : ¬s.NoneLost c := by
  intro h
  rcases hs.spoilt with hgap | ⟨q, h0, hq, htwice⟩
  · exact absurd h.counter (by omega)
  · have := h.placed q h0 hq
    omega

/-- After a run no page is lost exactly when each unmap call that threw had no page to unmap and each
growth was clean. -/
theorem none_lost_iff (c : PageAllocatorConfig) (acts : List Act) (s : System)
    (hrun : run (step c) (init c) acts = some s) :
    s.NoneLost c ↔ Along (step c) (KeepsPages c) (init c) acts := by
  rcases along_or_bad (G := Whole) (B := Spoilt) (fun _ _ _ => step_whole)
    (fun _ _ _ => step_spoils) (fun _ _ _ => step_spoilt) (init_whole c) hrun with
    ⟨hall, hs⟩ | ⟨hnot, hs⟩
  · exact ⟨fun _ => hall, fun _ => hs.noneLost⟩
  · exact ⟨fun h => absurd h hs.lost, fun h => absurd h hnot⟩

/-- Two pages of which one stays reserved: the other one is unmapped when both are freed. -/
def smallReserve : PageAllocatorConfig where
  numLayers := 1
  memSizePerLayer := 2
  pageSize := 1
  enablePagePrealloc := false
  maxReservedPagesEnv := 1
  memSizePerLayer_nonneg := Numerals.nonneg_two

def takeBothAndFree (ok : Bool) : List Act :=
  [.allocPage, .mapReturns true, .relock, .allocPage, .mapReturns true, .relock, .freePages [0, 1],
    .unmapReturns ok]

theorem none_lost_takeBoth :
    ((run (step smallReserve) (init smallReserve) (takeBothAndFree true)).get
      (by decide)).NoneLost smallReserve :=
  (none_lost_iff smallReserve (takeBothAndFree true) _ (Option.some_get _).symm).mpr (by decide)

/-- Page 1 is in no list, and `num_free_pages_` still counts it. -/
theorem unmap_failure_loses_page :
    ∃ s, run (step smallReserve) (init smallReserve) (takeBothAndFree false) = some s ∧
      (1 : Int) ∉ s.places ∧ s.pa.lists = [0] ∧ s.engine = .idle ∧ s.worker = .idle ∧
      s.pa.numFreePages = 2 ∧ s.pa.numTotalPages = 2 ∧ ¬s.NoneLost smallReserve := by
  refine ⟨(run (step smallReserve) (init smallReserve) (takeBothAndFree false)).get (by decide),
    (Option.some_get _).symm, by decide, by decide, by decide, by decide, by decide, by decide, ?_⟩
  intro h
  exact absurd h.counter (by decide)

end GpuSharing.Kvcached.System
