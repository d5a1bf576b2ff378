import GpuSharing.Kvcached.AllocatorRuns

namespace GpuSharing.Kvcached

open Transition

namespace System

open PageAllocator

variable {c : PageAllocatorConfig} {s t : System} {act : Act} {k : Nat} {n : Int}

/-- The worker takes at most the minimum of reserved pages at once. -/
def WorkerFits (c : PageAllocatorConfig) (s : System) : Prop :=
  s.worker.inFlight.length ≤ c.minReservedPages.toNat

theorem step_workerFits (hs : s.WorkerFits c) (h : step c s act = some t) : t.WorkerFits c := by
  cases step_outcome h with
  | grabs act k flag hi hk =>
    change (s.pa.freePageList.take k).length ≤ _
    rw [List.length_take]
    omega
  | workerMapOk ps hi =>
    rw [WorkerFits, hi] at hs
    exact hs
  | workerMapFails | reserves => exact Nat.zero_le _
  | _ => exact hs

theorem Ran.workerFits {resizes : Bool} (h : Ran c resizes s) : s.WorkerFits c := by
  obtain ⟨acts, hrun, -⟩ := h
  exact run_invariant (fun _ _ _ => step_workerFits) (Nat.zero_le _) hrun

/-- The pages the worker holds or may take before the engine thread triggers it again. -/
def holdback (c : PageAllocatorConfig) (s : System) : Nat :=
  if s.worker = .idle ∧ s.pa.preallocNeeded = false then 0 else c.minReservedPages.toNat

/-- Enough pages are free to bring the page count to `n`. -/
def Room (c : PageAllocatorConfig) (s : System) (n : Int) : Prop :=
  s.handedOut.length + s.holdback c ≤ n

instance (c : PageAllocatorConfig) (s : System) (n : Int) : Decidable (s.Room c n) :=
  inferInstanceAs (Decidable (_ ≤ _))

/-- The worker keeps at most `k` pages off the free list. -/
structure Leaves (c : PageAllocatorConfig) (k : Nat) (s : System) : Prop where
  taken : s.pa.reservedPageList.length + s.worker.inFlight.length ≤ k
  bound : s.worker = .idle ∧ s.pa.preallocNeeded = false ∨ c.minReservedPages.toNat ≤ k

theorem move_leaves (w : WorkerMove) (hs : s.Leaves c k) :
    ((step c s w.act).getD s).Leaves c k := by
  obtain ⟨htaken, hbound⟩ := hs
  cases hstep : step c s w.act with
  | none => exact ⟨htaken, hbound⟩
  | some t =>
    cases w with
    | grab m =>
      simp only [WorkerMove.act, step] at hstep
      split_ifs at hstep with hgrab
      have hmin := hbound.resolve_left (by simp [hgrab.2.2])
      split at hstep
      case h_1 a hg =>
        cases hstep
        obtain ⟨-, rfl⟩ := Prod.mk.inj hg
        exact ⟨htaken, .inr hmin⟩
      case h_2 p ps a hg =>
        cases hstep
        obtain ⟨htake, rfl⟩ := Prod.mk.inj hg
        refine ⟨?_, .inr hmin⟩
        have hlen := congrArg List.length htake
        rw [List.length_take] at hlen
        change s.pa.reservedPageList.length + (p :: ps).length ≤ k
        omega
    | mapReturns =>
      simp only [WorkerMove.act, step] at hstep
      split at hstep
      case h_1 ps hw _ =>
        cases hstep
        rw [hw] at htaken hbound
        exact ⟨htaken, .inr (hbound.resolve_left (by simp))⟩
      case h_2 _ _ h => cases h
      case h_3 => cases hstep
    | relock =>
      simp only [WorkerMove.act, step] at hstep
      split at hstep
      case h_1 ps hw =>
        cases hstep
        rw [hw] at htaken hbound
        refine ⟨?_, .inr (hbound.resolve_left (by simp))⟩
        change (s.pa.reservedPageList ++ ps).length + 0 ≤ k
        rw [List.length_append]
        exact htaken
      case h_2 => cases hstep

theorem drive_leaves (moves : List WorkerMove) (hs : s.Leaves c k) :
    (s.drive c moves).Leaves c k := by
  induction moves generalizing s with
  | nil => exact hs
  | cons w moves ih => exact ih (move_leaves w hs)

/-- A worker that is idle and not triggered does nothing. -/
theorem drive_quiet (hw : s.worker = .idle) (hp : s.pa.preallocNeeded = false)
    (moves : List WorkerMove) : s.drive c moves = s := by
  induction moves with
  | nil => rfl
  | cons w moves ih =>
    have hstep : step c s w.act = none := by
      cases w <;> simp [WorkerMove.act, step, hw, hp]
    change System.drive c ((step c s w.act).getD s) moves = s
    rw [hstep]
    exact ih

theorem drive_holdback {resizes : Bool} (h : Ran c resizes s) (moves : List WorkerMove) :
    (s.drive c moves).worker.inFlight.length ≤ s.holdback c ∧
      ((s.drive c moves).worker = .idle ∧ (s.drive c moves).pa.preallocNeeded = false ∨
        c.minReservedPages.toNat ≤ s.holdback c) := by
  have hfits := (h.drive moves).workerFits
  unfold holdback
  split_ifs with hidle
  · rw [drive_quiet hidle.1 hidle.2, hidle.1]
    exact ⟨Nat.le_refl _, .inl ⟨rfl, hidle.2⟩⟩
  · exact ⟨hfits, .inr (Nat.le_refl _)⟩

/-- The counters while no page is being allocated. -/
theorem Ran.lists {resizes : Bool} (h : Ran c resizes s) (ha : s.engine.allocInFlight = []) :
    s.pa.getNumInusePages = s.handedOut.length ∧
      s.pa.numTotalPages = s.handedOut.length + s.pa.freePageList.length +
        s.pa.reservedPageList.length + s.worker.inFlight.length +
        s.engine.unmapInFlight.length := by
  have hexact := h.exact
  have hinuse := h.counted.inuse
  simp only [inuseCount, freeCount, ha, List.length_nil, getNumInusePages] at *
  omega

end System

namespace PageAllocator

variable {a : PageAllocator} {n : Int}

/-- With enough pages on the two lists `resize` ends in its first lock section, or unmaps the
reserved pages first. -/
theorem resizeLocked_reaches (hinuse : a.getNumInusePages ≤ n)
    (hlists : a.numTotalPages - n ≤ a.freePageList.length + a.reservedPageList.length) :
    (∃ b, a.resizeLocked n = (.returns true, b) ∧ b.numTotalPages = n) ∨
      a.resizeLocked n =
        (.unmaps a.reservedPageList, { a with reservedPageList := [] }) := by
  unfold resizeLocked
  rw [if_neg (not_lt.mpr hinuse)]
  split_ifs with heq hgrow hfree hnil
  · exact .inl ⟨a, rfl, heq.symm⟩
  · exact .inl ⟨_, rfl, rfl⟩
  · rw [List.isEmpty_iff.mp hnil, List.length_nil] at hlists
    omega
  · exact .inr rfl
  · exact .inl ⟨_, rfl, rfl⟩

theorem resizeRelocked_reaches {ps : List PageId}
    (hlists : a.numTotalPages - n ≤ a.freePageList.length + ps.length) :
    (a.resizeRelocked n ps).1 = true ∧ (a.resizeRelocked n ps).2.numTotalPages = n := by
  unfold resizeRelocked
  dsimp only [pushFree]
  rw [if_neg (by rw [List.length_append]; omega)]
  exact ⟨rfl, rfl⟩

end PageAllocator

namespace AllocatorProcess

open GpuSharing.Kvcached.System

variable {c : PageAllocatorConfig} {resizes : Bool} {a : AllocatorProcess} {m : Int}

section Keeps

variable {P : System → Prop}
  (hP : ∀ s act t, P s → act.Plain false → System.step c s act = some t → P t)

include hP

theorem getD_keeps {s : System} {act : Act} (hs : P s) (hp : act.Plain false) :
    P ((System.step c s act).getD s) := by
  cases ht : System.step c s act with
  | none => exact hs
  | some t => exact hP s act t hs hp ht

theorem drive_keeps {s : System} (hs : P s) (moves : List WorkerMove) : P (s.drive c moves) := by
  induction moves generalizing s with
  | nil => exact hs
  | cons w moves ih => exact ih (getD_keeps hP hs (by cases w <;> trivial))

theorem engine_keeps {act : Act} (ha : P a.system) (hp : act.Plain false) :
    P (engine c act a).system := getD_keeps hP (drive_keeps hP ha _) hp

theorem finish_keeps (ha : P a.system) : P (finish c a).system := by
  unfold finish
  split
  · exact engine_keeps hP (engine_keeps hP ha rfl) trivial
  · exact engine_keeps hP (engine_keeps hP ha rfl) trivial
  · exact ha

/-- `alloc_page` takes steps of a process that does not resize. -/
theorem allocPage_keeps (ha : P a.system) : P (allocPage c a).2.system := by
  have hengine : P (engine c .allocPage a).system := engine_keeps hP ha trivial
  have hdrive := drive_keeps hP hengine [.mapReturns, .relock]
  unfold allocPage
  dsimp only
  split
  case h_1 => exact hengine
  case h_2 => exact hengine
  case h_3 => exact finish_keeps hP hengine
  case h_4 =>
    split
    · exact getD_keeps hP hdrive trivial
    · exact hdrive

theorem startPreallocThread_keeps (ha : P a.system) : P (startPreallocThread c a).system := by
  unfold startPreallocThread
  split_ifs
  · exact engine_keeps hP ha trivial
  · exact ha

end Keeps

theorem trim_idle (h : a.Idle c resizes) : (trim c a).Idle c resizes ∧
    (trim c a).system.handedOut = a.system.handedOut := by
  have hran : Ran c resizes (engine c .trim a).system := engine_ran h.ran trivial
  have hlock : (engine c .trim a).system.handedOut = a.system.handedOut ∧
      ((engine c .trim a).system.engine = .idle ∨
        ∃ ps, (engine c .trim a).system.engine = .unmapping .trim ps) := by
    apply engine_frame (P := fun s => s.handedOut = a.system.handedOut ∧
      (s.engine = .idle ∨ ∃ ps, s.engine = .unmapping .trim ps))
    intro s he ho
    rw [System.step, if_pos (he.trans h.engine), Option.getD_some, trimStep]
    split
    · exact ⟨ho, .inl (he.trans h.engine)⟩
    · exact ⟨ho, .inr ⟨_, rfl⟩⟩
  rw [trim]
  rcases hlock.2 with hi | ⟨ps, hi⟩
  · have hidle : (engine c .trim a).Idle c resizes := ⟨hran, hi, h.target⟩
    rw [finish_idle hidle]
    exact ⟨hidle, hlock.1⟩
  · obtain ⟨hidle, ho⟩ := finish_unmapping hran h.target (.inr rfl) hi
    exact ⟨hidle, ho.trans hlock.1⟩

/-- The page count is `n` and no resize is under way. -/
def Total (n : Int) (s : System) : Prop := s.pa.numTotalPages = n ∧ s.NoResize

theorem step_keeps_total {n : Int} (s : System) (act : Act) (t : System) (hs : Total n s)
    (hp : act.Plain false) (h : System.step c s act = some t) : Total n t := by
  obtain ⟨htotal, hn⟩ := step_total hs.2 hp h
  exact ⟨htotal.trans hs.1, hn⟩

theorem Idle.total (h : a.Idle c resizes) : Total a.system.pa.numTotalPages a.system :=
  ⟨rfl, by simp [NoResize, h.engine]⟩

/-- A page issued is one free page less. -/
theorem allocPage_counts (h : a.Idle c resizes) {p : PageId} (hp : (allocPage c a).1 = .ok p) :
    (allocPage c a).2.system.pa.numFreePages.toNat < a.system.pa.numFreePages.toNat := by
  obtain ⟨hidle, hout⟩ := allocPage_idle h
  rw [hp] at hout
  have hcounted := hidle.ran.counted
  have hnonneg := System.numFreePages_nonneg hcounted
  have hafter := hcounted.inuse
  have hbefore := h.ran.counted.inuse
  have htotal := (allocPage_keeps (step_keeps_total (c := c)) h.total).1
  have hlen := congrArg List.length hout
  rw [List.length_cons] at hlen
  simp only [inuseCount, hidle.engine, h.engine, EnginePc.allocInFlight_idle, List.length_nil,
    PageAllocator.getNumInusePages] at hafter hbefore
  omega

theorem engine_resize (h : a.Idle c true) :
    (engine c (.resize m) a).system =
      (a.system.drive c (a.schedule.headD [])).resizeStep c m := by
  obtain ⟨he, -⟩ := drive_frame c a.system (a.schedule.headD [])
  rw [engine, System.step, if_pos (he.trans h.engine), Option.getD_some]

/-- The last lock section of a resize that had to unmap. -/
theorem engine_relock_resize {n : Int} {ps : List PageId}
    (hi : a.system.engine = .unmapped (.resize n) ps) :
    (engine c .relock a).system.engine = .idle ∧
      (engine c .relock a).system.handedOut = a.system.handedOut ∧
      (engine c .relock a).system.pa =
        ((a.system.drive c (a.schedule.headD [])).pa.resizeRelocked n ps).2 := by
  obtain ⟨he, ho⟩ := drive_frame c a.system (a.schedule.headD [])
  unfold engine
  dsimp only
  rw [System.step, relockStep, he, hi]
  exact ⟨rfl, ho, rfl⟩

theorem resize_idle (h : a.Idle c true) : (resize c m a).2.Idle c true ∧
    (resize c m a).2.system.handedOut = a.system.handedOut := by
  obtain ⟨he, ho⟩ := drive_frame c a.system (a.schedule.headD [])
  have hran : Ran c true (engine c (.resize m) a).system := engine_ran h.ran rfl
  have hlock := engine_resize (m := m) h
  unfold resize
  generalize a.system.drive c (a.schedule.headD []) = s at *
  unfold resizeStep at hlock
  dsimp only at hlock ⊢
  split
  case h_1 ok b hout =>
    rw [hout] at hlock
    refine ⟨⟨hran, ?_, by simp⟩, ?_⟩
    · rw [hlock]
      exact he.trans h.engine
    · rw [hlock]
      exact ho
  case h_2 ps b hout =>
    rw [hout] at hlock
    have hi : (engine c (.resize m) a).system.engine =
        .unmapping (.resize (m.tdiv c.pageSize)) ps := by rw [hlock]
    obtain ⟨hi', ho'⟩ := engine_unmapReturns (c := c) hi
    obtain ⟨hi'', ho'', -⟩ := engine_relock_resize (c := c) hi'
    refine ⟨⟨engine_ran (engine_ran hran rfl) trivial, hi'', by simp⟩, ?_⟩
    rw [ho'', ho', hlock]
    exact ho

theorem engine_unmapReturns_leaves {k : Nat} {ps : List PageId} {r : AfterUnmap}
    (hs : a.system.Leaves c k) (hi : a.system.engine = .unmapping r ps) :
    (engine c (.unmapReturns true) a).system.Leaves c k := by
  obtain ⟨he, -⟩ := drive_frame c a.system (a.schedule.headD [])
  have hleaves := drive_leaves (a.schedule.headD []) hs
  unfold engine
  dsimp only
  rw [hi] at he
  generalize a.system.drive c (a.schedule.headD []) = s at *
  simp only [System.step, he, Option.getD_some]
  exact ⟨hleaves.taken, hleaves.bound⟩

/-- With enough pages free `resize` reaches its target. -/
theorem resize_reaches (h : a.Idle c true) (hroom : a.system.Room c (m.tdiv c.pageSize)) :
    (resize c m a).1 = true ∧
      (resize c m a).2.system.pa.numTotalPages = m.tdiv c.pageSize := by
  obtain ⟨he, ho⟩ := drive_frame c a.system (a.schedule.headD [])
  have hran : Ran c true (a.system.drive c (a.schedule.headD [])) := h.ran.drive _
  have hran₁ : Ran c true (engine c (.resize m) a).system := engine_ran h.ran rfl
  obtain ⟨hworker, hbound⟩ := drive_holdback h.ran (a.schedule.headD [])
  have hlock := engine_resize (m := m) h
  unfold Room at hroom
  unfold resize
  generalize a.system.holdback c = k at *
  generalize a.system.drive c (a.schedule.headD []) = s at *
  generalize hn : m.tdiv c.pageSize = n at *
  rw [← ho] at hroom
  obtain ⟨hinuse, hlists⟩ := hran.lists (by rw [he, h.engine]; rfl)
  rw [he, h.engine, EnginePc.unmapInFlight_idle, List.length_nil] at hlists
  unfold resizeStep at hlock
  rw [hn] at hlock
  dsimp only at hlock ⊢
  rcases PageAllocator.resizeLocked_reaches (a := s.pa) (n := n) (by omega) (by omega) with
    ⟨b, hout, hb⟩ | hout
  · rw [hout] at hlock ⊢
    exact ⟨rfl, by rw [hlock]; exact hb⟩
  · rw [hout] at hlock ⊢
    dsimp only at hlock ⊢
    have hleaves : (engine c (.resize m) a).system.Leaves c k := by
      rw [hlock]
      refine ⟨?_, hbound⟩
      change 0 + s.worker.inFlight.length ≤ k
      omega
    have hi : (engine c (.resize m) a).system.engine =
        .unmapping (.resize n) s.pa.reservedPageList := by rw [hlock]
    have ho₁ : (engine c (.resize m) a).system.handedOut = s.handedOut := by rw [hlock]
    obtain ⟨hi', ho'⟩ := engine_unmapReturns (c := c) hi
    obtain ⟨-, -, hpa⟩ := engine_relock_resize (c := c) hi'
    have hran₂ : Ran c true (engine c (.unmapReturns true) (engine c (.resize m) a)).system :=
      engine_ran hran₁ rfl
    have hleaves' := engine_unmapReturns_leaves hleaves hi
    generalize engine c (.unmapReturns true) (engine c (.resize m) a) = a₂ at *
    obtain ⟨he₃, ho₃⟩ := drive_frame c a₂.system (a₂.schedule.headD [])
    have hleaves₃ := drive_leaves (a₂.schedule.headD []) hleaves'
    obtain ⟨-, hlists₃⟩ := (hran₂.drive (a₂.schedule.headD [])).lists (by rw [he₃, hi']; rfl)
    rw [he₃, hi', EnginePc.unmapInFlight_unmapped, ho₃, ho', ho₁] at hlists₃
    have htaken := hleaves₃.taken
    rw [hpa]
    exact PageAllocator.resizeRelocked_reaches (by omega)

end AllocatorProcess

end GpuSharing.Kvcached
