import GpuSharing.Lib.Transition

namespace GpuSharing.Kvcached

open Transition

/-- Where a thread stands in `_cancel_unmap_timer`, which reads `_unmap_timer` twice. -/
inductive CancelPc
  | reads
  | calls
  | writes
  deriving DecidableEq, Repr

/-- Where a thread stands in `_unmap`. -/
inductive UnmapPc
  | readsMapped
  | cancel (pc : CancelPc)
  | unmaps
  | clearsMapped
  deriving DecidableEq, Repr

/-- Where a timer's thread stands; `created` before `start`, `waiting` until the delay is over. -/
inductive TimerPc
  | created
  | waiting
  | running (pc : UnmapPc)
  | ended
  deriving DecidableEq, Repr

/-- A `threading.Timer` whose function is `_on_unmap_timer`. -/
structure UnmapTimer where
  cancelled : Bool
  pc : TimerPc
  deriving DecidableEq, Repr

/-- Where the engine thread stands in `begin_forward` or `end_forward`. -/
inductive ForwardPc
  | idle
  | beginReads
  | reuse (pc : CancelPc)
  | fresh (pc : CancelPc)
  | maps
  | setsMapped
  | endReads (force : Bool)
  | schedule (pc : CancelPc)
  | createsTimer
  | setsDaemon
  | startsTimer
  | unmap (pc : UnmapPc)
  deriving DecidableEq, Repr

/-- What one step of a call makes of it: it goes on, it returns, or a method of `None` was
called. -/
inductive CallStep (α : Type)
  | next (pc : α)
  | returns
  | raises

/-- One model's activation region. `pages` says whether physical pages are behind it, `timers` are
the threads created so far and `unmapTimer` is the number of one of them. -/
structure ActivationPoolManager where
  initialized : Bool
  mapped : Bool
  pages : Bool
  unmapTimer : Option Nat
  timers : List UnmapTimer
  keepMappedMs : Int
  deriving DecidableEq, Repr

namespace ActivationPoolManager

def timerAt (p : ActivationPoolManager) (i : Nat) : Option TimerPc := p.timers[i]?.map (·.pc)

/-- `Timer.cancel`: a timer that has not fired yet ends without a call. -/
def cancelTimer (p : ActivationPoolManager) (i : Nat) : ActivationPoolManager :=
  { p with timers := p.timers.modify i fun t => { t with cancelled := true } }

def setTimer (p : ActivationPoolManager) (i : Nat) (pc : TimerPc) : ActivationPoolManager :=
  { p with timers := p.timers.modify i fun t => { t with pc := pc } }

def cancelUnmapTimer (p : ActivationPoolManager) :
    CancelPc → ActivationPoolManager × CallStep CancelPc
  | .reads => (p, if p.unmapTimer = none then .returns else .next .calls)
  | .calls => match p.unmapTimer with
    | none => (p, .raises)
    | some i => (p.cancelTimer i, .next .writes)
  | .writes => ({ p with unmapTimer := none }, .returns)

def unmap (p : ActivationPoolManager) : UnmapPc → ActivationPoolManager × CallStep UnmapPc
  | .readsMapped => (p, if p.mapped then .next (.cancel .reads) else .returns)
  | .cancel pc => ((p.cancelUnmapTimer pc).1, match (p.cancelUnmapTimer pc).2 with
    | .next pc => .next (.cancel pc)
    | .returns => .next .unmaps
    | .raises => .raises)
  | .unmaps => ({ p with pages := false }, .next .clearsMapped)
  | .clearsMapped => ({ p with mapped := false }, .returns)

end ActivationPoolManager

/-- The engine thread and the timer threads of one pool. `inForward` holds from the return of a
`begin_forward` to the next call of `end_forward`. -/
structure ForwardSystem where
  pool : ActivationPoolManager
  engine : ForwardPc
  inForward : Bool
  deriving DecidableEq, Repr

/-- The calls and steps of the engine thread, and the steps of the timer threads. -/
inductive ForwardAct
  | beginForward
  | endForward (force : Bool)
  | engine
  | timer (i : Nat)
  | setKeepMappedMs (ms : Int)
  deriving DecidableEq, Repr

namespace ForwardSystem

/-- The pool as `register_model` leaves it. -/
def registered (keepMappedMs : Int) : ForwardSystem :=
  ⟨⟨true, false, false, none, [], keepMappedMs⟩, .idle, false⟩

/-- A step of `_cancel_unmap_timer` in the engine thread; `f` says where it stands in the calling
function and `done` what follows the return. -/
def cancelIn (s : ForwardSystem) (pc : CancelPc) (f : CancelPc → ForwardPc) (done : ForwardPc) :
    ForwardSystem :=
  { s with
    pool := (s.pool.cancelUnmapTimer pc).1
    engine := match (s.pool.cancelUnmapTimer pc).2 with
      | .next pc => f pc
      | .returns => done
      | .raises => .idle }

/-- `begin_forward` on mapped pages returns right after `_cancel_unmap_timer`. -/
def reuseStep (s : ForwardSystem) (pc : CancelPc) : ForwardSystem :=
  { s.cancelIn pc .reuse .idle with
    inForward := match (s.pool.cancelUnmapTimer pc).2 with
      | .returns => true
      | _ => s.inForward }

def beginReadsStep (s : ForwardSystem) : ForwardSystem :=
  if s.pool.initialized then
    { s with engine := if s.pool.mapped then .reuse .reads else .fresh .reads }
  else { s with engine := .idle, inForward := true }

def endReadsStep (s : ForwardSystem) (force : Bool) : ForwardSystem :=
  if s.pool.initialized && s.pool.mapped then
    { s with
      engine := if !force && 0 < s.pool.keepMappedMs then .schedule .reads
        else .unmap .readsMapped }
  else { s with engine := .idle }

def createTimerStep (s : ForwardSystem) : ForwardSystem :=
  { s with
    pool := { s.pool with
      timers := s.pool.timers ++ [⟨false, .created⟩]
      unmapTimer := some s.pool.timers.length }
    engine := .setsDaemon }

/-- `start` on the timer that `_unmap_timer` names; it raises on one that was started before. -/
def startTimerStep (s : ForwardSystem) : ForwardSystem :=
  match s.pool.unmapTimer with
  | none => { s with engine := .idle }
  | some i =>
    if s.pool.timerAt i = some .created then
      { s with pool := s.pool.setTimer i .waiting, engine := .idle }
    else { s with engine := .idle }

def unmapStep (s : ForwardSystem) (pc : UnmapPc) : ForwardSystem :=
  { s with
    pool := (s.pool.unmap pc).1
    engine := match (s.pool.unmap pc).2 with
      | .next pc => .unmap pc
      | _ => .idle }

def engineStep (s : ForwardSystem) : Option ForwardSystem :=
  match s.engine with
  | .idle => none
  | .beginReads => some s.beginReadsStep
  | .reuse pc => some (s.reuseStep pc)
  | .fresh pc => some (s.cancelIn pc .fresh .maps)
  | .maps => some { s with pool := { s.pool with pages := true }, engine := .setsMapped }
  | .setsMapped =>
    some { s with pool := { s.pool with mapped := true }, engine := .idle, inForward := true }
  | .endReads force => some (s.endReadsStep force)
  | .schedule pc => some (s.cancelIn pc .schedule .createsTimer)
  | .createsTimer => some s.createTimerStep
  | .setsDaemon =>
    some { s with engine := if s.pool.unmapTimer = none then .idle else .startsTimer }
  | .startsTimer => some s.startTimerStep
  | .unmap pc => some (s.unmapStep pc)

/-- A step of a timer thread: its own check of the cancel event, then `_on_unmap_timer`. -/
def timerStep (s : ForwardSystem) (i : Nat) : Option ForwardSystem :=
  match s.pool.timers[i]? with
  | some ⟨cancelled, .waiting⟩ =>
    some { s with pool := s.pool.setTimer i (if cancelled then .ended else .running .readsMapped) }
  | some ⟨_, .running pc⟩ =>
    some { s with
      pool := (s.pool.unmap pc).1.setTimer i (match (s.pool.unmap pc).2 with
        | .next pc => .running pc
        | _ => .ended) }
  | _ => none

def step (s : ForwardSystem) : ForwardAct → Option ForwardSystem
  | .beginForward =>
    if s.engine = .idle ∧ s.inForward = false then some { s with engine := .beginReads } else none
  | .endForward force =>
    if s.engine = .idle then some { s with engine := .endReads force, inForward := false }
    else none
  | .engine => s.engineStep
  | .timer i => s.timerStep i
  | .setKeepMappedMs ms => some { s with pool := { s.pool with keepMappedMs := ms } }

end ForwardSystem

/-- The callback has found the pages mapped and is going to unmap them. -/
def TimerPc.pastCheck : TimerPc → Bool
  | .running .readsMapped => false
  | .running _ => true
  | _ => false

namespace ActivationPoolManager

def Quiet (p : ActivationPoolManager) : Prop := ∀ t ∈ p.timers, t.pc.pastCheck = false

instance (p : ActivationPoolManager) : Decidable p.Quiet :=
  inferInstanceAs (Decidable (∀ t ∈ p.timers, t.pc.pastCheck = false))

/-- Two pools with the same pages, flags and timer threads. -/
structure SamePages (p q : ActivationPoolManager) : Prop where
  initialized : q.initialized = p.initialized
  mapped : q.mapped = p.mapped
  pages : q.pages = p.pages
  timerAt : ∀ i, q.timerAt i = p.timerAt i

variable {p q : ActivationPoolManager} {i j : Nat}

theorem quiet_iff : p.Quiet ↔ ∀ i pc, p.timerAt i = some pc → pc.pastCheck = false := by
  unfold Quiet
  constructor
  · intro h i pc hi
    obtain ⟨t, ht, rfl⟩ := Option.map_eq_some_iff.mp hi
    exact h t (List.mem_of_getElem? ht)
  · intro h t ht
    obtain ⟨i, hi⟩ := List.mem_iff_getElem?.mp ht
    exact h i t.pc (by simp [timerAt, hi])

@[simp] theorem timerAt_setTimer {pc : TimerPc} :
    (p.setTimer i pc).timerAt j = if i = j then (p.timerAt j).map fun _ => pc else p.timerAt j := by
  simp only [timerAt, setTimer, List.getElem?_modify, Option.map_map]
  split <;> cases p.timers[j]? <;> rfl

@[simp] theorem timerAt_cancelTimer : (p.cancelTimer i).timerAt j = p.timerAt j := by
  simp only [timerAt, cancelTimer, List.getElem?_modify]
  split <;> cases p.timers[j]? <;> rfl

theorem cancelUnmapTimer_same (p : ActivationPoolManager) (pc : CancelPc) :
    p.SamePages (p.cancelUnmapTimer pc).1 := by
  cases pc with
  | reads => exact ⟨rfl, rfl, rfl, fun _ => rfl⟩
  | calls =>
    cases h : p.unmapTimer with
    | none => simpa [cancelUnmapTimer, h] using ⟨rfl, rfl, rfl, fun _ => rfl⟩
    | some i => exact ⟨by simp [cancelUnmapTimer, h, cancelTimer],
        by simp [cancelUnmapTimer, h, cancelTimer], by simp [cancelUnmapTimer, h, cancelTimer],
        fun j => by simp [cancelUnmapTimer, h]⟩
  | writes => exact ⟨rfl, rfl, rfl, fun _ => rfl⟩

/-- Up to its call of `unmap_activation` `_unmap` changes neither pages nor flags. -/
theorem unmap_same (p : ActivationPoolManager) {pc : UnmapPc} (hu : pc ≠ .unmaps)
    (hc : pc ≠ .clearsMapped) : p.SamePages (p.unmap pc).1 := by
  cases pc with
  | readsMapped => exact ⟨rfl, rfl, rfl, fun _ => rfl⟩
  | cancel pc => exact p.cancelUnmapTimer_same pc
  | unmaps => exact absurd rfl hu
  | clearsMapped => exact absurd rfl hc

theorem Quiet.of_timerAt (h : p.Quiet) (hq : ∀ i pc, q.timerAt i = some pc →
    p.timerAt i = some pc ∨ pc.pastCheck = false) : q.Quiet := by
  refine quiet_iff.mpr fun i pc hi => ?_
  cases hq i pc hi with
  | inl hp => exact quiet_iff.mp h i pc hp
  | inr hpc => exact hpc

end ActivationPoolManager

/-- `begin_forward` has read `_mapped` and has not returned. -/
def ForwardPc.inBegin : ForwardPc → Bool
  | .reuse _ | .fresh _ | .maps | .setsMapped => true
  | _ => false

/-- `begin_forward` is not going to map the pages any more. -/
def ForwardPc.relies : ForwardPc → Bool
  | .reuse _ | .setsMapped => true
  | _ => false

theorem ForwardPc.inBegin_of_relies {pc : ForwardPc} (h : pc.relies = true) :
    pc.inBegin = true := by
  cases pc <;> first | rfl | cases h

namespace ForwardSystem

/-- The engine thread is between `begin_forward`'s read of `_mapped` and `end_forward`. -/
def busy (s : ForwardSystem) : Bool := s.inForward || s.engine.inBegin

def relies (s : ForwardSystem) : Bool := s.inForward || s.engine.relies

/-- No callback is past its check of `_mapped` when `begin_forward` reads it, and none finds the
pages mapped between that read and `end_forward`. -/
def Undisturbed (s : ForwardSystem) : ForwardAct → Prop
  | .engine => s.engine = .beginReads → s.pool.Quiet
  | .timer i => s.pool.timerAt i = some (.running .readsMapped) → s.pool.mapped = true →
      s.busy = false
  | _ => True

instance (s : ForwardSystem) : ∀ act, Decidable (s.Undisturbed act)
  | .engine => inferInstanceAs (Decidable (_ → _))
  | .timer _ => inferInstanceAs (Decidable (_ → _))
  | .beginForward | .endForward _ | .setKeepMappedMs _ => .isTrue trivial

/-- `_mapped` runs ahead of the pages only while some `_unmap` is about to clear it. -/
structure Sound (s : ForwardSystem) : Prop where
  initialized : s.pool.initialized = true
  forward : s.inForward = true → s.engine = .idle
  quiet : s.busy = true → s.pool.Quiet
  mapped : s.pool.mapped = true → s.pool.pages = true ∨ s.engine = .unmap .clearsMapped ∨
    ∃ i, s.pool.timerAt i = some (.running .clearsMapped)
  relies : s.relies = true → s.pool.pages = true

theorem registered_sound (keepMappedMs : Int) : (registered keepMappedMs).Sound where
  initialized := rfl
  forward := fun h => nomatch h
  quiet := fun h => nomatch h
  mapped := fun h => nomatch h
  relies := fun h => nomatch h

variable {s t : ForwardSystem} {p q : ActivationPoolManager} {e e' : ForwardPc}

theorem not_relies (h : s.busy = false) : s.relies = false := by
  simp only [busy, relies, Bool.or_eq_false_iff] at h ⊢
  refine ⟨h.1, ?_⟩
  by_contra hr
  rw [ForwardPc.inBegin_of_relies (Bool.not_eq_false _ ▸ hr)] at h
  cases h.2

/-- A step of the engine thread, or of no thread, that changes neither pages nor flags. -/
theorem Sound.samePages (h : s.Sound) (hpool : s.pool.SamePages t.pool)
    (hclear : s.engine = .unmap .clearsMapped → t.engine = s.engine)
    (hforward : t.inForward = true → t.engine = .idle)
    (hbusy : t.busy = true → s.busy = true) (hrelies : t.relies = true → s.relies = true) :
    t.Sound where
  initialized := hpool.initialized.trans h.initialized
  forward := hforward
  quiet hb := (h.quiet (hbusy hb)).of_timerAt fun i pc hi => .inl (hpool.timerAt i ▸ hi)
  mapped hm := by
    rcases h.mapped (hpool.mapped ▸ hm) with hp | he | ⟨i, hi⟩
    · exact .inl (hpool.pages.trans hp)
    · exact .inr (.inl ((hclear he).trans he))
    · exact .inr (.inr ⟨i, (hpool.timerAt i).trans hi⟩)
  relies hr := hpool.pages.trans (h.relies (hrelies hr))

/-- One step of `_cancel_unmap_timer` in the engine thread. -/
theorem Sound.cancelIn (h : s.Sound) (hs : s.inForward = false)
    (hclear : s.engine ≠ .unmap .clearsMapped) {pc : CancelPc} {f : CancelPc → ForwardPc}
    {done : ForwardPc} (hf : ∀ pc, (f pc).inBegin = s.engine.inBegin ∧
      (f pc).relies = s.engine.relies)
    (hdone : done.inBegin = true → s.engine.inBegin = true)
    (hrelies : done.relies = true → s.engine.relies = true) : (s.cancelIn pc f done).Sound := by
  refine h.samePages (s.pool.cancelUnmapTimer_same pc) (fun he => absurd he hclear) ?_ ?_ ?_
  · intro ht
    rw [show (s.cancelIn pc f done).inForward = s.inForward from rfl, hs] at ht
    cases ht
  · intro ht
    simp only [busy, ForwardSystem.cancelIn, hs, Bool.false_or] at ht ⊢
    cases hc : (s.pool.cancelUnmapTimer pc).2 with
    | next pc => exact (hf pc).1 ▸ (by simpa only [hc] using ht)
    | returns => exact hdone (by simpa only [hc] using ht)
    | raises =>
      rw [hc] at ht
      cases ht
  · intro ht
    simp only [ForwardSystem.relies, ForwardSystem.cancelIn, hs, Bool.false_or] at ht ⊢
    cases hc : (s.pool.cancelUnmapTimer pc).2 with
    | next pc => exact (hf pc).2 ▸ (by simpa only [hc] using ht)
    | returns => exact hrelies (by simpa only [hc] using ht)
    | raises =>
      rw [hc] at ht
      cases ht

theorem Sound.notForward (h : s.Sound) (he : s.engine ≠ .idle) : s.inForward = false := by
  by_contra hf
  exact he (h.forward (Bool.not_eq_false _ ▸ hf))

theorem Sound.beginReads (h : s.Sound) (he : s.engine = .beginReads) (hquiet : s.pool.Quiet) :
    s.beginReadsStep.Sound := by
  have hf := h.notForward (by rw [he]; exact nofun)
  simp only [beginReadsStep, h.initialized, if_true]
  refine ⟨h.initialized, fun ht => ?_, fun _ => hquiet, fun hm => ?_, fun ht => ?_⟩
  · rw [hf] at ht
    cases ht
  · rcases h.mapped hm with hp | hc | hi
    · exact .inl hp
    · rw [he] at hc
      cases hc
    · exact .inr (.inr hi)
  · -- only pages found mapped are relied on, and no `_unmap` is under way
    by_cases hm : s.pool.mapped = true
    · rcases h.mapped hm with hp | hc | ⟨i, hi⟩
      · exact hp
      · rw [he] at hc
        cases hc
      · cases ActivationPoolManager.quiet_iff.mp hquiet i _ hi
    · simp [ForwardSystem.relies, hf, hm, ForwardPc.relies] at ht

theorem Sound.reuse (h : s.Sound) {pc : CancelPc} (he : s.engine = .reuse pc) :
    (s.reuseStep pc).Sound := by
  have hf := h.notForward (by rw [he]; exact nofun)
  refine h.samePages (s.pool.cancelUnmapTimer_same pc) (fun hc => ?_) (fun ht => ?_)
    (fun _ => by simp [busy, he, ForwardPc.inBegin])
    (fun _ => by simp [ForwardSystem.relies, he, ForwardPc.relies])
  · rw [he] at hc
    cases hc
  · simp only [reuseStep, ForwardSystem.cancelIn] at ht ⊢
    cases hc : (s.pool.cancelUnmapTimer pc).2 with
    | next pc => simp [hc, hf] at ht
    | returns => rfl
    | raises => rfl

/-- Outside `begin_forward` and the forward pass nothing relies on the pages. -/
theorem Sound.of_not_busy (hinit : s.pool.initialized = true) (hbusy : s.busy = false)
    (hmapped : s.pool.mapped = true → s.pool.pages = true ∨ s.engine = .unmap .clearsMapped ∨
      ∃ i, s.pool.timerAt i = some (.running .clearsMapped)) : s.Sound where
  initialized := hinit
  forward hf := by simp [busy, hf] at hbusy
  quiet hb := by simp [hbusy] at hb
  mapped := hmapped
  relies hr := by simp [not_relies hbusy] at hr

/-- The engine thread moves on, outside `begin_forward` and the forward pass. -/
theorem Sound.moveTo (h : s.Sound) (hclear : s.engine ≠ .unmap .clearsMapped)
    (hidle : e'.inBegin = false) : Sound { s with engine := e', inForward := false } := by
  refine .of_not_busy h.initialized (by simp [busy, hidle]) fun hm => ?_
  rcases h.mapped hm with hp | hc | hi
  · exact .inl hp
  · exact absurd hc hclear
  · exact .inr (.inr hi)

theorem eq_moveTo (hf : s.inForward = false) :
    { s with engine := e' } = { s with engine := e', inForward := false } := by
  rw [← hf]

theorem Sound.unmapStep (h : s.Sound) {pc : UnmapPc} (he : s.engine = .unmap pc) :
    (s.unmapStep pc).Sound := by
  have hf := h.notForward (by rw [he]; exact nofun)
  have hbusy : (s.unmapStep pc).busy = false := by
    simp only [ForwardSystem.unmapStep, busy, hf, Bool.false_or]
    cases (s.pool.unmap pc).2 <;> rfl
  by_cases hu : pc = .unmaps
  · subst hu
    exact .of_not_busy h.initialized hbusy fun _ => .inr (.inl rfl)
  by_cases hc : pc = .clearsMapped
  · subst hc
    exact .of_not_busy h.initialized hbusy (fun hm => nomatch hm)
  have hpool := s.pool.unmap_same hu hc
  refine .of_not_busy (hpool.initialized.trans h.initialized) hbusy fun hm => ?_
  rcases h.mapped (hpool.mapped ▸ hm) with hp | hcl | ⟨i, hi⟩
  · exact .inl (hpool.pages.trans hp)
  · rw [he] at hcl
    exact absurd (ForwardPc.unmap.inj hcl) hc
  · exact .inr (.inr ⟨i, (hpool.timerAt i).trans hi⟩)

theorem timerAt_createTimerStep {i : Nat} {pc : TimerPc} (hi : s.pool.timerAt i = some pc) :
    s.createTimerStep.pool.timerAt i = some pc := by
  obtain ⟨timer, ht, hpc⟩ := Option.map_eq_some_iff.mp hi
  have hlt := (List.getElem?_eq_some_iff.mp ht).1
  simp only [createTimerStep, ActivationPoolManager.timerAt]
  rw [List.getElem?_append_left hlt, ht]
  exact congrArg some hpc

theorem Sound.createTimer (h : s.Sound) (he : s.engine = .createsTimer) :
    s.createTimerStep.Sound := by
  have hf := h.notForward (by rw [he]; exact nofun)
  refine .of_not_busy h.initialized (by simp [createTimerStep, busy, hf, ForwardPc.inBegin])
    fun hm => ?_
  rcases h.mapped hm with hp | hc | ⟨i, hi⟩
  · exact .inl hp
  · rw [he] at hc
    cases hc
  · exact .inr (.inr ⟨i, timerAt_createTimerStep hi⟩)

theorem Sound.startTimer (h : s.Sound) (he : s.engine = .startsTimer) :
    s.startTimerStep.Sound := by
  have hf := h.notForward (by rw [he]; exact nofun)
  have hidle : Sound { s with engine := .idle } :=
    eq_moveTo hf ▸ h.moveTo (by rw [he]; exact nofun) rfl
  unfold startTimerStep
  cases hu : s.pool.unmapTimer with
  | none => exact hidle
  | some i =>
    by_cases hi : s.pool.timerAt i = some .created
    · simp only [hi, if_true]
      refine .of_not_busy h.initialized (by simp [busy, hf, ForwardPc.inBegin]) fun hm => ?_
      rcases hidle.mapped hm with hp | hc | ⟨j, hj⟩
      · exact .inl hp
      · cases hc
      · refine .inr (.inr ⟨j, ?_⟩)
        have hij : i ≠ j := by
          intro hij
          rw [hij, hj] at hi
          cases hi
        simpa [hij] using hj
    · simpa only [if_neg hi] using hidle

theorem Sound.engineStep (h : s.Sound) (hquiet : s.engine = .beginReads → s.pool.Quiet)
    (ht : s.engineStep = some t) : t.Sound := by
  unfold ForwardSystem.engineStep at ht
  cases he : s.engine with
  | idle => simp [he] at ht
  | beginReads =>
    simp only [he] at ht
    cases ht
    exact h.beginReads he (hquiet he)
  | reuse pc =>
    simp only [he] at ht
    cases ht
    exact h.reuse he
  | fresh pc =>
    simp only [he] at ht
    cases ht
    exact h.cancelIn (h.notForward (by rw [he]; exact nofun)) (by rw [he]; exact nofun)
      (fun _ => by rw [he]; exact ⟨rfl, rfl⟩) (fun _ => by rw [he]; rfl) (fun hr => nomatch hr)
  | maps =>
    simp only [he] at ht
    cases ht
    have hf := h.notForward (by rw [he]; exact nofun)
    exact ⟨h.initialized, fun ht => absurd ht (Bool.not_eq_true _ ▸ hf),
      fun _ => h.quiet (by simp [busy, he, ForwardPc.inBegin]), fun _ => .inl rfl, fun _ => rfl⟩
  | setsMapped =>
    simp only [he] at ht
    cases ht
    have hpages := h.relies (by simp [ForwardSystem.relies, he, ForwardPc.relies])
    exact ⟨h.initialized, fun _ => rfl, fun _ => h.quiet (by simp [busy, he, ForwardPc.inBegin]),
      fun _ => .inl hpages, fun _ => hpages⟩
  | endReads force =>
    simp only [he] at ht
    cases ht
    have hf := h.notForward (by rw [he]; exact nofun)
    unfold endReadsStep
    split
    · exact eq_moveTo hf ▸ h.moveTo (by rw [he]; exact nofun) (by split <;> rfl)
    · exact eq_moveTo hf ▸ h.moveTo (by rw [he]; exact nofun) rfl
  | schedule pc =>
    simp only [he] at ht
    cases ht
    exact h.cancelIn (h.notForward (by rw [he]; exact nofun)) (by rw [he]; exact nofun)
      (fun _ => by rw [he]; exact ⟨rfl, rfl⟩) (fun hb => nomatch hb) (fun hr => nomatch hr)
  | createsTimer =>
    simp only [he] at ht
    cases ht
    exact h.createTimer he
  | setsDaemon =>
    simp only [he] at ht
    cases ht
    exact eq_moveTo (h.notForward (by rw [he]; exact nofun)) ▸
      h.moveTo (by rw [he]; exact nofun) (by split <;> rfl)
  | startsTimer =>
    simp only [he] at ht
    cases ht
    exact h.startTimer he
  | unmap pc =>
    simp only [he] at ht
    cases ht
    exact h.unmapStep he

/-- A callback that moves while nothing relies on the pages. -/
theorem Sound.runsUnmap (h : s.Sound) {i : Nat} {pc : UnmapPc} (hbusy : s.busy = false)
    (hi : s.pool.timerAt i = some (.running pc)) : Sound { s with
      pool := (s.pool.unmap pc).1.setTimer i (match (s.pool.unmap pc).2 with
        | .next pc => .running pc
        | _ => .ended) } := by
  by_cases hu : pc = .unmaps
  · subst hu
    refine .of_not_busy h.initialized hbusy fun _ => .inr (.inr ⟨i, ?_⟩)
    change ((s.pool.unmap .unmaps).1.setTimer i _).timerAt i = _
    rw [ActivationPoolManager.timerAt_setTimer, if_pos rfl]
    change (s.pool.timerAt i).map _ = _
    rw [hi]
    rfl
  by_cases hc : pc = .clearsMapped
  · subst hc
    exact .of_not_busy h.initialized hbusy (fun hm => nomatch hm)
  have hpool := s.pool.unmap_same hu hc
  refine .of_not_busy (hpool.initialized.trans h.initialized) hbusy fun hm => ?_
  rcases h.mapped (hpool.mapped ▸ hm) with hp | hcl | ⟨j, hj⟩
  · exact .inl (hpool.pages.trans hp)
  · exact .inr (.inl hcl)
  · -- the callback that is about to clear `_mapped` is another one
    have hij : i ≠ j := by
      intro hij
      rw [hij, hj] at hi
      exact hc (TimerPc.running.inj (Option.some.inj hi)).symm
    refine .inr (.inr ⟨j, ?_⟩)
    change ((s.pool.unmap pc).1.setTimer i _).timerAt j = _
    rw [ActivationPoolManager.timerAt_setTimer, if_neg hij, hpool.timerAt j, hj]

/-- A timer thread that is not in `_unmap` afterwards, and does not unmap. -/
theorem Sound.setTimer (h : s.Sound) {i : Nat} {pc pc' : TimerPc}
    (hi : s.pool.timerAt i = some pc) (hpc : pc ≠ .running .clearsMapped)
    (hpc' : pc'.pastCheck = false) : Sound { s with pool := s.pool.setTimer i pc' } where
  initialized := h.initialized
  forward := h.forward
  quiet hb := (h.quiet hb).of_timerAt fun j pcj hj => by
    rw [ActivationPoolManager.timerAt_setTimer] at hj
    split at hj
    · obtain ⟨_, _, rfl⟩ := Option.map_eq_some_iff.mp hj
      exact .inr hpc'
    · exact .inl hj
  mapped hm := by
    rcases h.mapped hm with hp | hcl | ⟨j, hj⟩
    · exact .inl hp
    · exact .inr (.inl hcl)
    · have hij : i ≠ j := by
        intro hij
        rw [hij, hj] at hi
        exact hpc (Option.some.inj hi).symm
      exact .inr (.inr ⟨j, by rw [ActivationPoolManager.timerAt_setTimer, if_neg hij, hj]⟩)
  relies := h.relies

theorem Sound.timerStep (h : s.Sound) {i : Nat}
    (hfree : s.pool.timerAt i = some (.running .readsMapped) → s.pool.mapped = true →
      s.busy = false) (ht : s.timerStep i = some t) : t.Sound := by
  unfold ForwardSystem.timerStep at ht
  split at ht
  case h_1 cancelled hi =>
    cases ht
    have hpc : s.pool.timerAt i = some .waiting := by simp [ActivationPoolManager.timerAt, hi]
    exact h.setTimer hpc nofun (by cases cancelled <;> rfl)
  case h_2 cancelled pc hi =>
    cases ht
    have hpc : s.pool.timerAt i = some (.running pc) := by
      simp [ActivationPoolManager.timerAt, hi]
    by_cases hbusy : s.busy = true
    · -- only a callback that finds nothing mapped moves here
      have hq := ActivationPoolManager.quiet_iff.mp (h.quiet hbusy) i _ hpc
      cases pc with
      | readsMapped =>
        have hm : s.pool.mapped = false := by
          by_contra hm
          rw [hfree hpc (Bool.not_eq_false _ ▸ hm)] at hbusy
          cases hbusy
        simp only [ActivationPoolManager.unmap, hm, Bool.false_eq_true, if_false]
        exact h.setTimer hpc nofun rfl
      | cancel pc => cases hq
      | unmaps => cases hq
      | clearsMapped => cases hq
    · exact h.runsUnmap (Bool.not_eq_true _ ▸ hbusy) hpc
  case h_3 => cases ht

theorem Sound.step (h : s.Sound) {act : ForwardAct} (hC : s.Undisturbed act)
    (ht : s.step act = some t) : t.Sound := by
  cases act with
  | beginForward =>
    simp only [ForwardSystem.step] at ht
    split at ht
    case isTrue hi =>
      cases ht
      exact eq_moveTo hi.2 ▸ h.moveTo (by rw [hi.1]; exact nofun) rfl
    case isFalse => cases ht
  | endForward force =>
    simp only [ForwardSystem.step] at ht
    split at ht
    case isTrue hi =>
      cases ht
      exact h.moveTo (by rw [hi]; exact nofun) rfl
    case isFalse => cases ht
  | engine => exact h.engineStep hC ht
  | timer i => exact h.timerStep hC ht
  | setKeepMappedMs ms =>
    cases ht
    exact h.samePages ⟨rfl, rfl, rfl, fun _ => rfl⟩ (fun _ => rfl) h.forward id id

/-- In every run in which no callback is in `_unmap`, past its check, at `begin_forward`'s read of
`_mapped`, and none passes it before `end_forward`, the pages are mapped during every forward
pass. -/
theorem mapped_in_forward {keepMappedMs : Int} {acts : List ForwardAct}
    (hC : Along ForwardSystem.step Undisturbed (registered keepMappedMs) acts)
    (hrun : run ForwardSystem.step (registered keepMappedMs) acts = some s)
    (hforward : s.inForward = true) : s.pool.pages = true := by
  have h := run_invariant_along (fun _ _ _ h hC ht => Sound.step h hC ht)
    (registered_sound keepMappedMs) hC hrun
  apply h.relies
  simp [ForwardSystem.relies, hforward]

/-- A first forward pass, up to the start of its timer, which then fires and finds the pages
mapped. -/
def firedTimerRun : List ForwardAct :=
  [.beginForward, .engine, .engine, .engine, .engine, .endForward false, .engine, .engine,
    .engine, .engine, .engine, .timer 0, .timer 0]

/-- The callback ends before the next `begin_forward`, which maps the pages again. -/
def timelyCallbackRun : List ForwardAct :=
  firedTimerRun ++ [.timer 0, .timer 0, .timer 0, .timer 0, .timer 0, .beginForward, .engine,
    .engine, .engine, .engine]

/-- The callback unmaps after a `begin_forward` that has found the pages mapped. -/
def lateCallbackRun : List ForwardAct :=
  firedTimerRun ++ [.beginForward, .engine, .engine, .engine, .engine, .timer 0, .timer 0]

theorem mapped_in_forward_timely : ∃ s,
    run ForwardSystem.step (registered 100) timelyCallbackRun = some s ∧ s.inForward = true ∧
      s.pool.pages = true := by
  have hrun : run ForwardSystem.step (registered 100) timelyCallbackRun =
      some ((run ForwardSystem.step (registered 100) timelyCallbackRun).get (by decide +kernel)) :=
    (Option.some_get _).symm
  refine ⟨_, hrun, by decide +kernel, ?_⟩
  exact mapped_in_forward (by decide +kernel) hrun (by decide +kernel)

theorem late_callback_unmaps : ∃ s,
    run ForwardSystem.step (registered 100) lateCallbackRun = some s ∧ s.inForward = true ∧
      s.pool.pages = false := by
  have hrun : run ForwardSystem.step (registered 100) lateCallbackRun =
      some ((run ForwardSystem.step (registered 100) lateCallbackRun).get (by decide +kernel)) :=
    (Option.some_get _).symm
  exact ⟨_, hrun, by decide +kernel, by decide +kernel⟩

end ForwardSystem

end GpuSharing.Kvcached
