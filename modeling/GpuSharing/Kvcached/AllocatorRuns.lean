import GpuSharing.Kvcached.AllocatorCalls
import GpuSharing.Kvcached.PageOwnership

namespace GpuSharing.Kvcached

open Transition

/-- The acts of a process whose map and unmap calls succeed; `resizes` says whether it may
resize. -/
def Act.Plain (resizes : Bool) : Act → Prop
  | .resize _ => resizes = true
  | .mapReturns ok | .unmapReturns ok | .workerMapReturns ok => ok = true
  | _ => True

namespace System

variable {c : PageAllocatorConfig} {resizes : Bool} {s t : System} {act : Act}

/-- The states of such a process. -/
def Ran (c : PageAllocatorConfig) (resizes : Bool) (s : System) : Prop :=
  ∃ acts, run (step c) (init c) acts = some s ∧ ∀ act ∈ acts, act.Plain resizes

theorem ran_init (c : PageAllocatorConfig) (resizes : Bool) : Ran c resizes (init c) :=
  ⟨[], rfl, by simp⟩

theorem Ran.step (h : Ran c resizes s) (hp : act.Plain resizes) (ht : step c s act = some t) :
    Ran c resizes t := by
  obtain ⟨acts, hrun, hacts⟩ := h
  refine ⟨acts ++ [act], run_append.mpr ⟨s, hrun, run_cons.mpr ⟨t, ht, rfl⟩⟩, ?_⟩
  intro a ha
  rcases List.mem_append.mp ha with ha | ha
  · exact hacts a ha
  · rw [List.mem_singleton.mp ha]
    exact hp

theorem Ran.getD (h : Ran c resizes s) (hp : act.Plain resizes) :
    Ran c resizes ((System.step c s act).getD s) := by
  cases ht : System.step c s act with
  | none => exact h
  | some t => exact h.step hp ht

theorem growsCleanly_of_plain (hp : act.Plain false) : GrowsCleanly c s act := by
  cases act with
  | resize => cases hp
  | _ => trivial

theorem succeeds_of_plain (hp : act.Plain resizes) : Succeeds s act := by
  cases act with
  | mapReturns | unmapReturns | workerMapReturns => exact hp
  | _ => trivial

theorem Ran.owned (h : Ran c false s) : s.Owned := by
  obtain ⟨acts, hrun, hacts⟩ := h
  exact run_owned hrun (along_of_mem (fun act hact _ => growsCleanly_of_plain (hacts act hact)) _)

theorem Ran.counted (h : Ran c resizes s) : s.Counted := by
  obtain ⟨acts, hrun, -⟩ := h
  exact run_counted hrun

theorem Ran.exact (h : Ran c resizes s) : s.pa.numFreePages = s.freeCount := by
  obtain ⟨acts, hrun, hacts⟩ := h
  exact run_free_exact hrun (along_of_mem (fun act hact _ => succeeds_of_plain (hacts act hact)) _)

/-- No `resize` is between its two lock sections. -/
def NoResize (s : System) : Prop :=
  ∀ n ps, s.engine ≠ .unmapping (.resize n) ps ∧ s.engine ≠ .unmapped (.resize n) ps

theorem step_total (hn : s.NoResize) (hp : act.Plain false) (h : System.step c s act = some t) :
    t.pa.numTotalPages = s.pa.numTotalPages ∧ t.NoResize := by
  cases step_outcome h with
  | allocFast | allocSlow | handsOut | pushes => exact ⟨rfl, by simp [NoResize]⟩
  | allocNone act pc hi hpc =>
    refine ⟨rfl, ?_⟩
    rcases hpc with rfl | rfl <;> simp [NoResize]
  | frees act ps k pc hi hps hpc =>
    refine ⟨rfl, ?_⟩
    rcases hpc with ⟨rfl, -⟩ | rfl <;> simp [NoResize]
  | keeps | sorts | flags | grabs | workerMapOk | workerMapFails | reserves => exact ⟨rfl, hn⟩
  | grows | reclaims => cases hp
  | unmapsReserved act k hi hk =>
    rcases hk with rfl | ⟨m, rfl, -⟩
    · exact ⟨rfl, by simp [NoResize]⟩
    · cases hp
  | mapOk | mapFails => exact ⟨rfl, by simp [NoResize]⟩
  | unmapOk k ps hi =>
    refine ⟨rfl, ?_⟩
    intro n qs
    have hk := (hn n ps).1
    rw [hi] at hk
    simp only [ne_eq, EnginePc.unmapping.injEq, and_true] at hk
    simp [hk]
  | unmapFails => cases hp
  | relockReclaims n ps hi => exact absurd hi (hn n ps).2

/-- Without a resize the total stays what the constructor computed. -/
theorem Ran.total (h : Ran c false s) : s.pa.numTotalPages = c.numPages := by
  obtain ⟨acts, hrun, hacts⟩ := h
  refine (run_invariant_along (C := fun _ act => act.Plain false)
    (I := fun s => s.pa.numTotalPages = c.numPages ∧ s.NoResize) ?_
    ⟨rfl, by simp [init, NoResize]⟩ (along_of_mem (fun act hact _ => hacts act hact) _) hrun).1
  intro s act t hi hp ht
  obtain ⟨htotal, hn⟩ := step_total hi.2 hp ht
  exact ⟨htotal.trans hi.1, hn⟩

/-- The worker leaves the engine thread and the pages handed out alone. -/
theorem drive_frame (c : PageAllocatorConfig) (s : System) (moves : List WorkerMove) :
    (s.drive c moves).engine = s.engine ∧ (s.drive c moves).handedOut = s.handedOut := by
  induction moves generalizing s with
  | nil => exact ⟨rfl, rfl⟩
  | cons w moves ih =>
    have hw : ((System.step c s w.act).getD s).engine = s.engine ∧
        ((System.step c s w.act).getD s).handedOut = s.handedOut := by
      cases w <;> simp only [WorkerMove.act, System.step]
      · split_ifs
        · split <;> exact ⟨rfl, rfl⟩
        · exact ⟨rfl, rfl⟩
      · split <;> exact ⟨rfl, rfl⟩
      · split <;> exact ⟨rfl, rfl⟩
    obtain ⟨he, ho⟩ := ih ((System.step c s w.act).getD s)
    exact ⟨he.trans hw.1, ho.trans hw.2⟩

theorem Ran.drive (h : Ran c resizes s) (moves : List WorkerMove) :
    Ran c resizes (s.drive c moves) := by
  induction moves generalizing s with
  | nil => exact h
  | cons w moves ih =>
    apply ih
    apply h.getD
    cases w <;> trivial

/-- When the engine has to wait, the worker has pages on their way to the reserve. -/
theorem worker_of_wait (h : Ran c resizes s) (hi : s.engine = .idle) {a : PageAllocator}
    (hw : s.pa.allocPageLoop c = (.wait, a)) :
    ∃ p ps, s.worker = .mapping (p :: ps) ∨ s.worker = .mapped (p :: ps) := by
  have hlists : s.pa.reservedPageList = [] ∧ s.pa.freePageList = [] ∧ 0 < s.pa.numFreePages := by
    unfold PageAllocator.allocPageLoop at hw
    split at hw
    case h_1 => cases hw
    case h_2 => cases hw
    case h_3 hr hf =>
      split_ifs at hw with hpos
      · cases hw
      · cases hw
      · exact ⟨hr, hf, not_le.mp hpos⟩
  obtain ⟨hr, hf, hpos⟩ := hlists
  have hexact := h.exact
  simp only [freeCount, hr, hf, hi, List.length_nil, EnginePc.unmapInFlight_idle] at hexact
  cases hworker : s.worker with
  | idle =>
    rw [hworker] at hexact
    simp at hexact
    omega
  | mapping ps =>
    cases ps with
    | nil =>
      rw [hworker] at hexact
      simp at hexact
      omega
    | cons p ps => exact ⟨p, ps, .inl rfl⟩
  | mapped ps =>
    cases ps with
    | nil =>
      rw [hworker] at hexact
      simp at hexact
      omega
    | cons p ps => exact ⟨p, ps, .inr rfl⟩

end System

namespace AllocatorProcess

open GpuSharing.Kvcached.System

variable {c : PageAllocatorConfig} {resizes : Bool} {a : AllocatorProcess}

/-- A process between two calls: the engine thread is idle, and unless the process resizes no
limit is set. -/
structure Idle (c : PageAllocatorConfig) (resizes : Bool) (a : AllocatorProcess) : Prop where
  ran : Ran c resizes a.system
  engine : a.system.engine = .idle
  target : resizes = false → a.resizeTarget = -1

theorem init_idle (c : PageAllocatorConfig) (resizes : Bool) (schedule : List (List WorkerMove)) :
    (init c schedule).Idle c resizes := ⟨ran_init c resizes, rfl, fun _ => rfl⟩

theorem engine_ran {act : Act} (h : Ran c resizes a.system) (hp : act.Plain resizes) :
    Ran c resizes (engine c act a).system := (h.drive _).getD hp

/-- Whatever the worker does first, the lock section sees the engine thread as it was. -/
theorem engine_frame {act : Act} {P : System → Prop}
    (h : ∀ s, s.engine = a.system.engine → s.handedOut = a.system.handedOut →
      P ((System.step c s act).getD s)) : P (engine c act a).system := by
  obtain ⟨he, ho⟩ := drive_frame c a.system (a.schedule.headD [])
  exact h _ he ho

/-- A map call that is under way ends with its page handed out. -/
theorem finish_mapping {p : PageId} (h : Ran c resizes a.system)
    (ht : resizes = false → a.resizeTarget = -1)
    (hi : a.system.engine = .mapping p) :
    (finish c a).Idle c resizes ∧ (finish c a).system.handedOut = p :: a.system.handedOut := by
  have hmap : (engine c (.mapReturns true) a).system.engine = .mapped p ∧
      (engine c (.mapReturns true) a).system.handedOut = a.system.handedOut := by
    apply engine_frame (P := fun s => s.engine = .mapped p ∧ s.handedOut = a.system.handedOut)
    intro s he ho
    simp [System.step, he, hi, ho]
  have hfinish : finish c a = engine c .relock (engine c (.mapReturns true) a) := by
    rw [finish, hi]
  have hlock : (finish c a).system.engine = .idle ∧
      (finish c a).system.handedOut = p :: a.system.handedOut := by
    rw [hfinish]
    apply engine_frame (P := fun s => s.engine = .idle ∧ s.handedOut = p :: a.system.handedOut)
    intro s he ho
    simp [System.step, relockStep, he, ho, hmap]
  refine ⟨⟨?_, hlock.1, ?_⟩, hlock.2⟩ <;> rw [hfinish]
  · exact engine_ran (engine_ran h rfl) trivial
  · exact ht

theorem engine_unmapReturns {ps : List PageId} {k : AfterUnmap}
    (hi : a.system.engine = .unmapping k ps) :
    (engine c (.unmapReturns true) a).system.engine = .unmapped k ps ∧
      (engine c (.unmapReturns true) a).system.handedOut = a.system.handedOut := by
  apply engine_frame (P := fun s => s.engine = .unmapped k ps ∧
    s.handedOut = a.system.handedOut)
  intro s he ho
  simp [System.step, he, hi, ho]

/-- An unmap call that is under way ends with its pages on the free list. -/
theorem finish_unmapping {ps : List PageId} {k : AfterUnmap} (h : Ran c resizes a.system)
    (ht : resizes = false → a.resizeTarget = -1) (hk : k = .free ∨ k = .trim)
    (hi : a.system.engine = .unmapping k ps) :
    (finish c a).Idle c resizes ∧ (finish c a).system.handedOut = a.system.handedOut := by
  have hunmap := engine_unmapReturns (c := c) hi
  have hfinish : finish c a = engine c .relock (engine c (.unmapReturns true) a) := by
    rw [finish, hi]
  have hlock : (finish c a).system.engine = .idle ∧
      (finish c a).system.handedOut = a.system.handedOut := by
    rw [hfinish]
    apply engine_frame (P := fun s => s.engine = .idle ∧ s.handedOut = a.system.handedOut)
    intro s he ho
    rcases hk with rfl | rfl <;> simp [System.step, relockStep, he, ho, hunmap]
  refine ⟨⟨?_, hlock.1, ?_⟩, hlock.2⟩ <;> rw [hfinish]
  · exact engine_ran (engine_ran h rfl) trivial
  · exact ht

theorem finish_idle (h : a.Idle c resizes) : finish c a = a := by
  rw [finish, h.engine]

theorem freePages_idle {ps : List PageId} (h : a.Idle c resizes) (hps : ps.Subperm a.system.handedOut) :
    (freePages c ps a).Idle c resizes ∧
      (freePages c ps a).system.handedOut = a.system.handedOut.diff ps := by
  have hran : Ran c resizes (engine c (.freePages ps) a).system := engine_ran h.ran trivial
  have hlock : (engine c (.freePages ps) a).system.handedOut = a.system.handedOut.diff ps ∧
      ((engine c (.freePages ps) a).system.engine = .idle ∨
        ∃ qs, (engine c (.freePages ps) a).system.engine = .unmapping .free qs) := by
    apply engine_frame (P := fun s => s.handedOut = a.system.handedOut.diff ps ∧
      (s.engine = .idle ∨ ∃ qs, s.engine = .unmapping .free qs))
    intro s he ho
    rw [System.step, if_pos ⟨he.trans h.engine, ho ▸ hps⟩, Option.getD_some, freePagesStep]
    split
    · exact ⟨by rw [ho], .inl (he.trans h.engine)⟩
    · exact ⟨by rw [ho], .inr ⟨_, rfl⟩⟩
  rw [freePages]
  rcases hlock.2 with hi | ⟨qs, hi⟩
  · have hidle : (engine c (.freePages ps) a).Idle c resizes := ⟨hran, hi, h.target⟩
    rw [finish_idle hidle]
    exact ⟨hidle, hlock.1⟩
  · obtain ⟨hidle, ho⟩ := finish_unmapping hran h.target (.inl rfl) hi
    exact ⟨hidle, ho.trans hlock.1⟩

/-- The outcomes of the loop of `alloc_page` and the step that takes them. -/
theorem allocStep_spec (s : System) :
    (∀ p a, s.pa.allocPageLoop c = (.fast p, a) → (s.allocStep c).engine = .idle ∧
      (s.allocStep c).handedOut = p :: s.handedOut) ∧
    (∀ p a, s.pa.allocPageLoop c = (.slow p, a) → (s.allocStep c).engine = .mapping p ∧
      (s.allocStep c).handedOut = s.handedOut) ∧
    (∀ msg a, s.pa.allocPageLoop c = (.throws msg, a) → (s.allocStep c).engine = .idle ∧
      (s.allocStep c).handedOut = s.handedOut) ∧
    (∀ a, s.pa.allocPageLoop c = (.wait, a) → (s.allocStep c).engine = .waiting ∧
      (s.allocStep c).handedOut = s.handedOut ∧ (s.allocStep c).worker = s.worker ∧
      (s.allocStep c).pa = a) := by
  unfold allocStep
  refine ⟨?_, ?_, ?_, ?_⟩ <;> intros <;> simp_all

theorem drive_reserves {s : System} {p : PageId} {ps : List PageId}
    (hw : s.worker = .mapping (p :: ps) ∨ s.worker = .mapped (p :: ps)) :
    (s.drive c [.mapReturns, .relock]).pa.reservedPageList =
      s.pa.reservedPageList ++ p :: ps := by
  rcases hw with hw | hw <;>
    simp [drive, WorkerMove.act, System.step, hw, PageAllocator.preallocReserve]

theorem allocPageLoop_fast {b : PageAllocator} {p : PageId} {ps : List PageId}
    (h : b.reservedPageList = p :: ps) : (b.allocPageLoop c).1 = .fast p := by
  unfold PageAllocator.allocPageLoop
  rw [h]

theorem allocPageLoop_wait {b b' : PageAllocator} (h : b.allocPageLoop c = (.wait, b')) :
    b' = b ∧ b.reservedPageList = [] := by
  unfold PageAllocator.allocPageLoop at h
  split at h
  case h_1 => cases h
  case h_2 => cases h
  case h_3 hr hf =>
    split_ifs at h <;> cases h
    exact ⟨rfl, hr⟩

/-- An engine that waits is woken to a reserved page. -/
theorem wake_fast (h : a.Idle c resizes) {b : PageAllocator}
    (hout : (a.system.drive c (a.schedule.headD [])).pa.allocPageLoop c = (.wait, b)) :
    ∃ p, (((engine c .allocPage a).system.drive c
      [.mapReturns, .relock]).pa.allocPageLoop c).1 = .fast p := by
  obtain ⟨he, -⟩ := drive_frame c a.system (a.schedule.headD [])
  have hlock : (engine c .allocPage a).system =
      (a.system.drive c (a.schedule.headD [])).allocStep c := by
    rw [engine, System.step, if_pos (he.trans h.engine), Option.getD_some]
  have hran := h.ran.drive (a.schedule.headD [])
  generalize a.system.drive c (a.schedule.headD []) = s at *
  obtain ⟨-, -, -, hwait⟩ := allocStep_spec (c := c) s
  obtain ⟨-, -, hw, hpa⟩ := hwait b hout
  obtain ⟨rfl, hnil⟩ := allocPageLoop_wait hout
  obtain ⟨p, ps, hworker⟩ := worker_of_wait hran (he.trans h.engine) hout
  rw [← hlock] at hw hpa
  rw [← hw] at hworker
  have hreserved := drive_reserves (c := c) hworker
  rw [hpa, hnil, List.nil_append] at hreserved
  exact ⟨p, allocPageLoop_fast hreserved⟩

/-- `alloc_page` returns or raises, and what it returns is handed out. -/
theorem allocPage_idle (h : a.Idle c resizes) :
    (allocPage c a).2.Idle c resizes ∧
      match (allocPage c a).1 with
      | .ok p => (allocPage c a).2.system.handedOut = p :: a.system.handedOut
      | .error _ => (allocPage c a).2.system.handedOut = a.system.handedOut := by
  obtain ⟨he, ho⟩ := drive_frame c a.system (a.schedule.headD [])
  have hran' : Ran c resizes (engine c .allocPage a).system := engine_ran h.ran trivial
  have hlock : (engine c .allocPage a).system =
      (a.system.drive c (a.schedule.headD [])).allocStep c := by
    rw [engine, System.step, if_pos (he.trans h.engine), Option.getD_some]
  have hwake := fun {b} => wake_fast (b := b) h
  unfold allocPage
  generalize a.system.drive c (a.schedule.headD []) = s at he ho hlock hwake
  obtain ⟨hfast, hslow, hthrows, hwait⟩ := allocStep_spec (c := c) s
  dsimp only
  split
  case h_1 msg b hout =>
    obtain ⟨hi, hh⟩ := hthrows msg b hout
    rw [← hlock] at hi hh
    exact ⟨⟨hran', hi, h.target⟩, hh.trans ho⟩
  case h_2 p b hout =>
    obtain ⟨hi, hh⟩ := hfast p b hout
    rw [← hlock] at hi hh
    exact ⟨⟨hran', hi, h.target⟩, hh.trans (by rw [ho])⟩
  case h_3 p b hout =>
    obtain ⟨hi, hh⟩ := hslow p b hout
    rw [← hlock] at hi hh
    obtain ⟨hidle, hh'⟩ := finish_mapping hran' h.target hi
    exact ⟨hidle, hh'.trans (by rw [hh, ho])⟩
  case h_4 b hout =>
    obtain ⟨hi, hh, -, -⟩ := hwait b hout
    obtain ⟨p, hout'⟩ := hwake hout
    rw [← hlock] at hi hh
    obtain ⟨hi', hh'⟩ := drive_frame c (engine c .allocPage a).system [.mapReturns, .relock]
    have hran'' := hran'.drive [.mapReturns, .relock]
    generalize (engine c .allocPage a).system.drive c [.mapReturns, .relock] = s' at *
    have hstep : System.step c s' .wake = some (s'.allocStep c) := by
      rw [System.step, if_pos (hi'.trans hi)]
    obtain ⟨hfast', -⟩ := allocStep_spec (c := c) s'
    cases hloop : s'.pa.allocPageLoop c with
    | mk r b' =>
      rw [hloop] at hout'
      obtain rfl : r = .fast p := hout'
      obtain ⟨hi'', hh''⟩ := hfast' p b' hloop
      dsimp only
      rw [hstep, Option.getD_some]
      refine ⟨⟨hran''.step (show Act.Plain resizes .wake from trivial) hstep, hi'', h.target⟩, ?_⟩
      rw [hh'', hh', hh, ho]

theorem background_idle (h : a.Idle c resizes) : (background c a).Idle c resizes ∧
    (background c a).system.handedOut = a.system.handedOut := by
  obtain ⟨he, ho⟩ := drive_frame c a.system (a.schedule.headD [])
  exact ⟨⟨h.ran.drive _, he.trans h.engine, h.target⟩, ho⟩

theorem startPreallocThread_idle (h : a.Idle c resizes) : (startPreallocThread c a).Idle c resizes ∧
    (startPreallocThread c a).system.handedOut = a.system.handedOut := by
  unfold startPreallocThread
  split_ifs
  · have hlock : (engine c .startPrealloc a).system.engine = .idle ∧
        (engine c .startPrealloc a).system.handedOut = a.system.handedOut := by
      apply engine_frame (P := fun s => s.engine = .idle ∧ s.handedOut = a.system.handedOut)
      intro s he ho
      rw [System.step, if_pos (he.trans h.engine)]
      exact ⟨he.trans h.engine, ho⟩
    exact ⟨⟨engine_ran h.ran trivial, hlock.1, h.target⟩, hlock.2⟩
  · exact ⟨h, rfl⟩

/-- The counters of a process between two calls. -/
theorem Idle.counters (h : a.Idle c false) :
    a.system.pa.getNumInusePages = a.system.handedOut.length ∧
      a.system.pa.numFreePages = c.numPages - a.system.handedOut.length := by
  have hinuse := h.ran.owned.counted.inuse
  have htotal := h.ran.total
  simp only [inuseCount, h.engine, EnginePc.allocInFlight_idle, List.length_nil,
    PageAllocator.getNumInusePages] at hinuse ⊢
  omega

theorem Idle.issuedOnce (h : a.Idle c false) :
    a.system.handedOut.Nodup ∧ ∀ p : Int, p ∈ a.system.handedOut → 0 ≤ p := by
  have hsub : a.system.handedOut.Sublist a.system.places := by
    unfold places
    exact (List.sublist_append_right _ _).trans
      ((List.sublist_append_left _ _).trans (List.sublist_append_left _ _))
  refine ⟨(List.nodup_iff_count_le_one.mpr h.ran.owned.once).sublist hsub, ?_⟩
  intro p hp
  exact (h.ran.owned.below p (hsub.subset hp)).1

end AllocatorProcess

end GpuSharing.Kvcached
