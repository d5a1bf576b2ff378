import GpuSharing.Kvcached.AllocatorOutcomes

namespace GpuSharing.Kvcached

open Transition

/-- The engine thread, the preallocation worker and the other Python threads. -/
inductive Thread
  | engine
  | worker
  | other
  deriving DecidableEq, Repr

def Act.thread : Act → Thread
  | .workerGrab _ | .workerMapReturns _ | .workerRelock => .worker
  | _ => .engine

/-- The return of a callback without a lock section after it. -/
def Act.isReturn : Act → Bool
  | .mapReturns ok | .workerMapReturns ok => ok
  | .unmapReturns _ => true
  | _ => false

/-- The allocator whose map and unmap calls go to Python, with the GIL and `lock_`. `notified` says
that `cond_` was notified since the engine thread began to wait, `threw` that the worker's callback
threw and its handler has not run yet. -/
structure GilSystem where
  system : System
  gil : Option Thread
  mutex : Option Thread
  notified : Bool
  threw : Bool
  deriving DecidableEq

inductive GilAct
  | takeGil (t : Thread)
  | dropGil (t : Thread)
  | lock (t : Thread)
  | lockSection (act : Act)
  | returns (act : Act)
  | workerThrows
  deriving DecidableEq, Repr

namespace GilSystem

def init (c : PageAllocatorConfig) : GilSystem := ⟨System.init c, none, none, false, false⟩

/-- The thread runs Python code or waits for the GIL; the binding of `alloc_page` keeps the GIL, so
the engine thread does so between two calls and in the callbacks only. -/
def InPython (s : GilSystem) : Thread → Bool
  | .engine => s.mutex ≠ some .engine && match s.system.engine with
    | .idle | .mapping _ | .unmapping _ _ => true
    | _ => false
  | .worker => !s.threw && match s.system.worker with
    | .mapping _ => true
    | _ => false
  | .other => true

/-- The thread is about to take `lock_`. -/
def BeforeSection (s : GilSystem) : Thread → Bool
  | .engine => s.gil = some .engine && match s.system.engine with
    | .unmapping _ _ => false
    | _ => true
  | .worker => s.threw || match s.system.worker with
    | .mapping _ => false
    | _ => true
  | .other => false

/-- The guard of a lock section beside `lock_`. -/
def sectionGuard (s : GilSystem) (act : Act) : Bool :=
  match act.thread, act with
  | .engine, _ => s.gil = some .engine
  | _, .workerMapReturns _ => s.threw
  | _, _ => true

def notifiedAfter (s : GilSystem) (t : System) : Act → Bool
  | .allocPage | .wake => s.notified && t.engine ≠ .waiting
  | .workerRelock | .workerMapReturns _ => true
  | _ => s.notified

def step (c : PageAllocatorConfig) (s : GilSystem) : GilAct → Option GilSystem
  | .takeGil t => if s.gil = none ∧ s.InPython t then some { s with gil := some t } else none
  | .dropGil t => if s.gil = some t ∧ s.InPython t then some { s with gil := none } else none
  | .lock t =>
    if s.mutex = none ∧ s.BeforeSection t then some { s with mutex := some t } else none
  | .lockSection act =>
    if act.isReturn = false ∧ s.mutex = some act.thread ∧ s.sectionGuard act then
      match System.step c s.system act with
      | some t => some { s with
          system := t
          mutex := none
          notified := s.notifiedAfter t act
          threw := s.threw && act.thread ≠ .worker }
      | none => none
    else none
  | .returns act =>
    if act.isReturn ∧ s.gil = some act.thread ∧ s.mutex ≠ some act.thread ∧
        (act.thread = .worker → s.threw = false) then
      match System.step c s.system act with
      | some t => some { s with
          system := t
          gil := if act.thread = .worker then none else s.gil }
      | none => none
    else none
  | .workerThrows =>
    if s.gil = some .worker ∧ s.InPython .worker then
      some { s with gil := none, threw := true }
    else none

/-- The worker waits for the GIL or runs its callback. -/
def CallbackPending (s : GilSystem) : Prop := s.InPython .worker = true

instance (s : GilSystem) : Decidable s.CallbackPending := inferInstanceAs (Decidable (_ = true))

/-- The engine thread waits on `cond_` with the GIL, for which the worker waits. -/
def Deadlocked (s : GilSystem) : Prop :=
  s.system.engine = .waiting ∧ s.notified = false ∧ s.gil = some .engine ∧ s.CallbackPending

instance (s : GilSystem) : Decidable s.Deadlocked := inferInstanceAs (Decidable (_ ∧ _))

/-- No page is in a list although some are left, so that `alloc_page` waits. -/
def MustWait (c : PageAllocatorConfig) (a : PageAllocator) : Prop :=
  a.reservedPageList = [] ∧ a.freePageList = [] ∧ 0 < a.numFreePages ∧ c.enablePagePrealloc = true

instance (c : PageAllocatorConfig) (a : PageAllocator) : Decidable (MustWait c a) :=
  inferInstanceAs (Decidable (_ ∧ _))

/-- `alloc_page` does not begin to wait while the worker's callback is pending. -/
def WaitsSafely (c : PageAllocatorConfig) (s : GilSystem) : GilAct → Prop
  | .lockSection .allocPage | .lockSection .wake => MustWait c s.system.pa → ¬s.CallbackPending
  | _ => True

instance (c : PageAllocatorConfig) : ∀ s act, Decidable (WaitsSafely c s act) := fun _ act => by
  unfold WaitsSafely
  split <;> infer_instance

/-- While the engine thread waits and has not been notified the free list is empty. -/
def Quiet (s : GilSystem) : Prop :=
  s.system.engine = .waiting → s.notified = false → s.system.pa.freePageList = []

variable {c : PageAllocatorConfig} {s t : GilSystem}

theorem allocStep_waiting {s : System} : (s.allocStep c).engine = .waiting ↔ MustWait c s.pa := by
  unfold System.allocStep PageAllocator.allocPageLoop MustWait
  cases hr : s.pa.reservedPageList with
  | cons p rest => simp
  | nil =>
    cases hf : s.pa.freePageList with
    | cons p rest => simp
    | nil =>
      dsimp only
      split_ifs with hfree hpre
      · simp only [true_and, false_iff]
        omega
      · simpa using fun _ => hpre
      · simp only [true_and, true_iff]
        exact ⟨not_le.mp hfree, by simpa using hpre⟩

theorem allocStep_pa {s : System} (h : MustWait c s.pa) : (s.allocStep c).pa = s.pa := by
  obtain ⟨hr, hf, hn, hp⟩ := h
  unfold System.allocStep PageAllocator.allocPageLoop
  rw [hr, hf]
  simp [not_le.mpr hn, hp]

theorem alloc_waits {s t : System} {act : Act} (hact : act = .allocPage ∨ act = .wake)
    (hmust : MustWait c s.pa) (h : System.step c s act = some t) : t.engine = .waiting := by
  rcases hact with rfl | rfl
  · simp only [System.step] at h
    split_ifs at h
    cases h
    exact allocStep_waiting.mpr hmust
  · simp only [System.step] at h
    split_ifs at h
    cases h
    exact allocStep_waiting.mpr hmust

/-- Where the engine thread waits after a step of the allocator. -/
theorem step_waiting {s t : System} {act : Act} (h : System.step c s act = some t)
    (hw : t.engine = .waiting) :
    (act = .allocPage ∨ act = .wake) ∧ MustWait c s.pa ∧ t.pa = s.pa ∨
      act.thread = .worker ∧ s.engine = .waiting := by
  cases act <;> simp only [System.step] at h
  case allocPage =>
    split_ifs at h
    cases h
    have hmust := allocStep_waiting.mp hw
    exact .inl ⟨.inl rfl, hmust, allocStep_pa hmust⟩
  case wake =>
    split_ifs at h
    cases h
    have hmust := allocStep_waiting.mp hw
    exact .inl ⟨.inr rfl, hmust, allocStep_pa hmust⟩
  case freePage p =>
    split_ifs at h with hi
    cases h
    unfold System.freePageStep at hw
    split at hw <;> simp [hi.1] at hw
  case freePages ps =>
    split_ifs at h with hi
    cases h
    unfold System.freePagesStep at hw
    split at hw <;> simp [hi.1] at hw
  case resize m =>
    split_ifs at h with hi
    cases h
    unfold System.resizeStep at hw
    dsimp only at hw
    split at hw <;> simp [hi] at hw
  case trim =>
    split_ifs at h with hi
    cases h
    unfold System.trimStep at hw
    split at hw <;> simp [hi] at hw
  case resetFreePageOrder =>
    split_ifs at h with hi
    cases h
    simp [hi] at hw
  case startPrealloc =>
    split_ifs at h with hi
    cases h
    simp [hi] at hw
  case mapReturns ok => split at h <;> cases h <;> cases hw
  case unmapReturns ok => split at h <;> cases h <;> cases hw
  case relock =>
    unfold System.relockStep at h
    split at h <;> cases h <;> cases hw
  case workerGrab n =>
    split_ifs at h
    split at h <;> cases h <;> exact .inr ⟨rfl, hw⟩
  case workerMapReturns ok => split at h <;> cases h <;> exact .inr ⟨rfl, hw⟩
  case workerRelock =>
    split at h <;> cases h
    exact .inr ⟨rfl, hw⟩

/-- No call of the engine thread comes back into a wait. -/
theorem engine_of_returns {s t : System} {act : Act} (h : System.step c s act = some t)
    (ht : act.thread = .engine) (hret : act.isReturn = true) : t.engine ≠ .waiting := by
  intro hw
  rcases step_waiting h hw with ⟨hact, -⟩ | ⟨ht', -⟩
  · rcases hact with rfl | rfl <;> cases hret
  · rw [ht] at ht'
    cases ht'

/-- The worker takes no page from an empty free list. -/
theorem workerGrab_nil {s t : System} {n : Int} (hf : s.pa.freePageList = [])
    (h : System.step c s (.workerGrab n) = some t) :
    t.worker = .idle ∧ t.pa.freePageList = [] := by
  simp only [System.step, PageAllocator.preallocGrab, hf, List.take_nil, List.drop_nil] at h
  split_ifs at h with hi
  cases h
  exact ⟨hi.1, rfl⟩

theorem thread_cases (act : Act) : act.thread = .engine ∨ act.thread = .worker := by
  cases act <;> simp [Act.thread]

theorem worker_of_engine {s t : System} {act : Act} (ht : act.thread = .engine)
    (h : System.step c s act = some t) : t.worker = s.worker := by
  cases act <;> simp only [System.step] at h <;> try cases ht
  case allocPage =>
    split_ifs at h
    cases h
    unfold System.allocStep
    split <;> rfl
  case wake =>
    split_ifs at h
    cases h
    unfold System.allocStep
    split <;> rfl
  case freePage p =>
    split_ifs at h
    cases h
    unfold System.freePageStep
    split <;> rfl
  case freePages ps =>
    split_ifs at h
    cases h
    unfold System.freePagesStep
    split <;> rfl
  case resize m =>
    split_ifs at h
    cases h
    unfold System.resizeStep
    dsimp only
    split <;> rfl
  case trim =>
    split_ifs at h
    cases h
    unfold System.trimStep
    split <;> rfl
  case resetFreePageOrder =>
    split_ifs at h
    cases h
    rfl
  case startPrealloc =>
    split_ifs at h
    cases h
    rfl
  case mapReturns ok => split at h <;> cases h <;> rfl
  case unmapReturns ok => split at h <;> cases h <;> rfl
  case relock =>
    unfold System.relockStep at h
    split at h <;> cases h <;> rfl

/-- What a step can do. -/
inductive Outcome (c : PageAllocatorConfig) (s : GilSystem) : GilAct → GilSystem → Prop
  | switches (act : GilAct) (gil : Option Thread) (hact : ∀ a, act ≠ .lockSection a)
      (hgil : gil = some .engine → s.system.engine ≠ .waiting) :
      Outcome c s act { s with gil }
  | locks (t : Thread) : Outcome c s (.lock t) { s with mutex := some t }
  | throws : Outcome c s .workerThrows { s with gil := none, threw := true }
  | engineSection (act : Act) (u : System) (ht : act.thread = .engine)
      (hgil : s.gil = some .engine) (hstep : System.step c s.system act = some u) :
      Outcome c s (.lockSection act) { s with
        system := u, mutex := none, notified := s.notifiedAfter u act }
  | workerSection (act : Act) (u : System) (ht : act.thread = .worker)
      (hstep : System.step c s.system act = some u) :
      Outcome c s (.lockSection act) { s with
        system := u, mutex := none, notified := s.notifiedAfter u act, threw := false }
  | engineReturns (act : Act) (u : System) (ht : act.thread = .engine)
      (hret : act.isReturn = true) (hstep : System.step c s.system act = some u) :
      Outcome c s (.returns act) { s with system := u }
  | workerReturns (act : Act) (u : System) (hret : act = .workerMapReturns true)
      (hstep : System.step c s.system act = some u) :
      Outcome c s (.returns act) { s with system := u, gil := none }

theorem step_outcome {act : GilAct} (h : step c s act = some t) : Outcome c s act t := by
  cases act with
  | takeGil th =>
    simp only [step] at h
    split_ifs at h with hg
    cases h
    refine .switches _ _ (by simp) ?_
    intro heq hw
    obtain rfl := Option.some.inj heq
    simp [InPython, hw] at hg
  | dropGil th =>
    simp only [step] at h
    split_ifs at h
    cases h
    exact .switches _ _ (by simp) (by simp)
  | lock th =>
    simp only [step] at h
    split_ifs at h
    cases h
    exact .locks th
  | lockSection act =>
    simp only [step] at h
    split at h
    case isFalse => cases h
    case isTrue hg =>
      split at h
      case h_2 => cases h
      case h_1 u hu =>
        cases h
        rcases thread_cases act with ht | ht
        · have hgil : s.gil = some .engine := by
            have hguard := hg.2.2
            unfold sectionGuard at hguard
            rw [ht] at hguard
            exact of_decide_eq_true hguard
          have hsame : (s.threw && decide (act.thread ≠ .worker)) = s.threw := by simp [ht]
          rw [hsame]
          exact .engineSection act u ht hgil hu
        · have hreset : (s.threw && decide (act.thread ≠ .worker)) = false := by simp [ht]
          rw [hreset]
          exact .workerSection act u ht hu
  | returns act =>
    simp only [step] at h
    split at h
    case isFalse => cases h
    case isTrue hg =>
      split at h
      case h_2 => cases h
      case h_1 u hu =>
        cases h
        rcases thread_cases act with ht | ht
        · have hsame : (if act.thread = .worker then none else s.gil) = s.gil := by simp [ht]
          rw [hsame]
          exact .engineReturns act u ht hg.1 hu
        · have hnone : (if act.thread = .worker then none else s.gil) = none := by simp [ht]
          rw [hnone]
          refine .workerReturns act u ?_ hu
          have hret := hg.1
          cases act <;> cases ht <;> cases hret
          rfl
  | workerThrows =>
    simp only [step] at h
    split_ifs at h
    cases h
    exact .throws

theorem init_quiet (c : PageAllocatorConfig) : (init c).Quiet := fun hw => by cases hw

theorem init_not_deadlocked (c : PageAllocatorConfig) : ¬(init c).Deadlocked := fun h => by
  cases h.1

/-- The worker's moves leave the engine thread where it is. -/
theorem engine_of_worker {s t : System} {act : Act} (ht : act.thread = .worker)
    (h : System.step c s act = some t) : t.engine = s.engine := by
  cases act <;> simp only [System.step] at h <;> try cases ht
  case workerGrab n =>
    split_ifs at h
    split at h <;> cases h <;> rfl
  case workerMapReturns ok => split at h <;> cases h <;> rfl
  case workerRelock =>
    split at h <;> cases h
    rfl

/-- A lock section of the worker that does not notify takes no page from an empty free list. -/
theorem workerSection_silent {u : System} {act : Act} (ht : act.thread = .worker)
    (hn : s.notifiedAfter u act = false) (hf : s.system.pa.freePageList = [])
    (h : System.step c s.system act = some u) :
    u.worker = .idle ∧ u.pa.freePageList = [] ∧ s.notified = false := by
  cases act <;> try cases ht
  case workerGrab n =>
    obtain ⟨hw, hf'⟩ := workerGrab_nil hf h
    exact ⟨hw, hf', hn⟩
  case workerMapReturns ok => cases hn
  case workerRelock => cases hn

theorem workerMapReturns_ok {s t : System}
    (h : System.step c s (.workerMapReturns true) = some t) :
    t.pa = s.pa ∧ ∃ ps, t.worker = .mapped ps := by
  cases hw : s.worker with
  | mapping ps =>
    simp only [System.step, hw] at h
    cases h
    exact ⟨rfl, ps, rfl⟩
  | idle => simp [System.step, hw] at h
  | mapped ps => simp [System.step, hw] at h

theorem step_quiet {act : GilAct} (hs : s.Quiet) (h : step c s act = some t) : t.Quiet := by
  intro hw hn
  cases step_outcome h with
  | switches | locks | throws => exact hs hw hn
  | engineSection act u ht hgil hstep =>
    rcases step_waiting hstep hw with ⟨-, hmust, hpa⟩ | ⟨ht', -⟩
    · change u.pa.freePageList = []
      rw [hpa]
      exact hmust.2.1
    · rw [ht] at ht'
      cases ht'
  | workerSection act u ht hstep =>
    have he := engine_of_worker ht hstep
    have hnotified : s.notified = false := by
      cases act <;> first | exact hn | cases hn | cases ht
    have hf := hs (he.symm.trans hw) hnotified
    exact (workerSection_silent ht hn hf hstep).2.1
  | engineReturns act u ht hret hstep => exact absurd hw (engine_of_returns hstep ht hret)
  | workerReturns act u hret hstep =>
    subst hret
    have he := engine_of_worker rfl hstep
    change u.pa.freePageList = []
    rw [(workerMapReturns_ok hstep).1]
    exact hs (he.symm.trans hw) hn

/-- The step that deadlocks is the one in which `alloc_page` begins to wait while the worker's
callback is pending. -/
theorem step_deadlocked_iff {act : GilAct} (hs : s.Quiet) (hfree : ¬s.Deadlocked)
    (h : step c s act = some t) : ¬t.Deadlocked ↔ WaitsSafely c s act := by
  cases step_outcome h with
  | switches act gil hact hgil =>
    refine iff_of_true ?_ ?_
    · rintro ⟨hw, -, hg, -⟩
      exact hgil hg hw
    · cases act <;> first | exact trivial | exact absurd rfl (hact _)
  | locks th => exact iff_of_true hfree trivial
  | throws =>
    refine iff_of_true ?_ trivial
    rintro ⟨-, -, hg, -⟩
    cases hg
  | engineSection act u ht hgil hstep =>
    have hworker := worker_of_engine ht hstep
    have hpending : CallbackPending { s with
        system := u, mutex := none, notified := s.notifiedAfter u act } ↔ s.CallbackPending := by
      unfold CallbackPending InPython
      rw [hworker]
    constructor
    · intro hnot
      have hwaits : act = .allocPage ∨ act = .wake → MustWait c s.system.pa →
          ¬s.CallbackPending := by
        intro hact hmust hcall
        have hw := alloc_waits hact hmust hstep
        refine hnot ⟨hw, ?_, hgil, hpending.mpr hcall⟩
        rcases hact with rfl | rfl <;> simp [notifiedAfter, hw]
      cases act
      case allocPage => exact hwaits (.inl rfl)
      case wake => exact hwaits (.inr rfl)
      all_goals exact trivial
    · rintro hsafe ⟨hw, -, -, hcall⟩
      rcases step_waiting hstep hw with ⟨hact, hmust, -⟩ | ⟨ht', -⟩
      · rcases hact with rfl | rfl <;> exact hsafe hmust (hpending.mp hcall)
      · rw [ht] at ht'
        cases ht'
  | workerSection act u ht hstep =>
    refine iff_of_true ?_ ?_
    · rintro ⟨hw, hn, hg, hcall⟩
      have he := engine_of_worker ht hstep
      have hnotified : s.notified = false := by
        cases act <;> first | exact hn | cases hn | cases ht
      have hf := hs (he.symm.trans hw) hnotified
      have hidle := (workerSection_silent ht hn hf hstep).1
      simp [CallbackPending, InPython, hidle] at hcall
    · cases act <;> first | exact trivial | cases ht
  | engineReturns act u ht hret hstep =>
    refine iff_of_true ?_ trivial
    rintro ⟨hw, -⟩
    exact engine_of_returns hstep ht hret hw
  | workerReturns act u hret hstep =>
    refine iff_of_true ?_ trivial
    rintro ⟨-, -, hg, -⟩
    cases hg

theorem along_not_deadlocked_iff {acts : List GilAct} (hs : s.Quiet) (hfree : ¬s.Deadlocked)
    (hrun : run (step c) s acts = some t) :
    Along (step c) (fun s act => ∀ u, step c s act = some u → ¬u.Deadlocked) s acts ↔
      Along (step c) (WaitsSafely c) s acts := by
  refine along_next_iff (I := Quiet) (E := fun _ _ => True) ?_ ?_ hs hfree
    (along_of_mem (fun _ _ _ => trivial) s) hrun
  · intro s act u hs hfree _ hu
    exact step_deadlocked_iff hs hfree hu
  · intro s act u hs _ hu
    exact step_quiet hs hu

/-- In every run no state is deadlocked exactly when `alloc_page` never begins to wait while the
worker's callback is pending. -/
theorem not_deadlocked_iff (c : PageAllocatorConfig) {acts : List GilAct}
    (hrun : run (step c) (init c) acts = some s) :
    Along (step c) (fun s act => ∀ u, step c s act = some u → ¬u.Deadlocked) (init c) acts ↔
      Along (step c) (WaitsSafely c) (init c) acts :=
  along_not_deadlocked_iff (init_quiet c) (init_not_deadlocked c) hrun

theorem callbackPending_iff :
    s.CallbackPending ↔ s.threw = false ∧ ∃ ps, s.system.worker = .mapping ps := by
  unfold CallbackPending InPython
  cases s.system.worker <;> simp

theorem step_stays_deadlocked {act : GilAct} (hs : s.Deadlocked) (hmust : MustWait c s.system.pa)
    (h : step c s act = some t) : t.Deadlocked ∧ MustWait c t.system.pa := by
  obtain ⟨hw, hn, hg, hcall⟩ := hs
  obtain ⟨hthrew, ps, hworker⟩ := callbackPending_iff.mp hcall
  cases act with
  | takeGil th => simp [step, hg] at h
  | dropGil th =>
    simp only [step] at h
    split_ifs at h with hdrop
    rw [hg, Option.some.injEq] at hdrop
    obtain ⟨rfl, hpython⟩ := hdrop
    simp [InPython, hw] at hpython
  | lock th =>
    simp only [step] at h
    split_ifs at h
    cases h
    exact ⟨⟨hw, hn, hg, hcall⟩, hmust⟩
  | workerThrows => simp [step, hg] at h
  | returns act =>
    cases act <;> simp [step, System.step, Act.isReturn, Act.thread, hw, hg] at h
  | lockSection act =>
    by_cases hact : act = .wake
    · -- the engine thread goes round its loop once more
      subst hact
      cases step_outcome h with
      | switches act gil hact => exact absurd rfl (hact .wake)
      | engineSection act u ht hgil hstep =>
        have hw' := alloc_waits (.inr rfl) hmust hstep
        have hpa : u.pa = s.system.pa := by
          rcases step_waiting hstep hw' with ⟨-, -, hpa⟩ | ⟨ht', -⟩
          · exact hpa
          · cases ht'
        refine ⟨⟨hw', by simp [notifiedAfter, hw'], hg, ?_⟩, hpa.symm ▸ hmust⟩
        exact callbackPending_iff.mpr ⟨hthrew, ps, (worker_of_engine ht hstep).trans hworker⟩
      | workerSection act u ht => cases ht
    · exfalso
      cases act <;> simp [step, sectionGuard, System.step, System.relockStep, Act.thread, hw,
        hworker, hthrew] at h hact

/-- No run leaves a deadlock that `alloc_page` has begun to wait into. -/
theorem run_stays_deadlocked {acts : List GilAct} (hs : s.Deadlocked)
    (hmust : MustWait c s.system.pa) (hrun : run (step c) s acts = some t) :
    t.Deadlocked ∧ MustWait c t.system.pa :=
  run_invariant (I := fun s => s.Deadlocked ∧ MustWait c s.system.pa)
    (fun _ _ _ hs h => step_stays_deadlocked hs.1 hs.2 h) ⟨hs, hmust⟩ hrun

/-- One page, which the worker may reserve. -/
def lastPage : PageAllocatorConfig where
  numLayers := 1
  memSizePerLayer := 1
  pageSize := 1

/-- The worker has taken the page, and the engine thread is about to call `alloc_page`. -/
def lastPageTaken : List GilAct := [.takeGil .engine, .lock .engine, .lockSection .startPrealloc,
  .lock .worker, .lockSection (.workerGrab 1)]

/-- The worker's callback returns before `alloc_page` begins to wait. -/
def callbackFirst : List GilAct := lastPageTaken ++ [.dropGil .engine, .takeGil .worker,
  .returns (.workerMapReturns true), .takeGil .engine, .lock .engine, .lockSection .allocPage,
  .lock .worker, .lockSection .workerRelock, .lock .engine, .lockSection .wake]

theorem not_deadlocked_iff_callbackFirst :
    ∃ s, run (step lastPage) (init lastPage) callbackFirst = some s ∧
      s.system.handedOut = [0] ∧
      Along (step lastPage) (fun s act => ∀ u, step lastPage s act = some u → ¬u.Deadlocked)
        (init lastPage) callbackFirst := by
  have hrun : run (step lastPage) (init lastPage) callbackFirst = some _ :=
    (Option.some_get (by decide)).symm
  exact ⟨_, hrun, by decide, (not_deadlocked_iff lastPage hrun).mpr (by decide)⟩

/-- `alloc_page` begins to wait first: it keeps the GIL that the worker needs to map the page. -/
theorem waits_with_the_gil :
    ∃ s, run (step lastPage) (init lastPage)
        (lastPageTaken ++ [.lock .engine, .lockSection .allocPage]) = some s ∧
      s.Deadlocked ∧ MustWait lastPage s.system.pa := by
  refine ⟨_, (Option.some_get (by decide)).symm, by decide, by decide⟩

end GilSystem

end GpuSharing.Kvcached
