import GpuSharing.Controller.SleepCalls
import GpuSharing.Lib.Numerals

namespace GpuSharing.Controller

open Transition

namespace SleepManager

section

variable {M T : Type} [DecidableEq M] [DecidableEq T] (cfg : SleepConfig M)

/-- `wakeup_model` gets as far as its call. -/
def WakeStarts (s : SleepManager M T) (m : M) (now : Rat) : Prop :=
  ∃ start ∈ s.sleepingModels m, ¬now - start < cfg.minSleepDuration

/-- The calls for a model do not overlap, a sleep call that fails is none for the engine either, and
no request comes while a model sleeps and `sleeping_models` does not have it yet. -/
def Undisturbed (s : SleepManager M T) : ControllerAct M T → Prop
  | .request _ m now => cfg.routed m = true →
    (s.sleepingModels m = none → ∀ c, (s.pc c).slept m = false) ∧
      (cfg.wakeupOnRequest = true → s.WakeStarts cfg m now → ∀ c, (s.pc c).wakes m = false)
  | .wakeupAction _ m now => s.WakeStarts cfg m now → ∀ c, (s.pc c).wakes m = false
  | .sleepAction _ m _ => ∀ c, (s.pc c).sleeps m = false
  | .next _ => ∀ m ∈ s.candidates.head?, s.manualSleepModels m = false →
    ∀ c, (s.pc c).sleeps m = false
  | .responds c success _ => success = false → ∀ m, (s.pc c).slept m = false
  | .lateSleep _ => False
  | .checks _ | .carriesOut _ => True

instance [Fintype M] [Fintype T] (s : SleepManager M T) :
    ∀ act, Decidable (s.Undisturbed cfg act)
  | .request _ m now => inferInstanceAs (Decidable (cfg.routed m = true →
      (s.sleepingModels m = none → ∀ c, (s.pc c).slept m = false) ∧
        (cfg.wakeupOnRequest = true → (∃ start ∈ s.sleepingModels m,
          ¬now - start < cfg.minSleepDuration) → ∀ c, (s.pc c).wakes m = false)))
  | .wakeupAction _ m now => inferInstanceAs (Decidable ((∃ start ∈ s.sleepingModels m,
      ¬now - start < cfg.minSleepDuration) → ∀ c, (s.pc c).wakes m = false))
  | .sleepAction _ m _ => inferInstanceAs (Decidable (∀ c, (s.pc c).sleeps m = false))
  | .next _ => inferInstanceAs (Decidable (∀ m ∈ s.candidates.head?,
      s.manualSleepModels m = false → ∀ c, (s.pc c).sleeps m = false))
  | .responds c success _ =>
    inferInstanceAs (Decidable (success = false → ∀ m, (s.pc c).slept m = false))
  | .lateSleep _ => .isFalse id
  | .checks _ | .carriesOut _ => .isTrue trivial

end

section

variable {M T : Type} [DecidableEq T] {cfg : SleepConfig M} {s : SleepManager M T} {c : Caller T}
  {m : M}

theorem forward_spec (cfg : SleepConfig M) (c : Caller T) (hawake : s.awake m = true) :
    ∃ pc, s.forward cfg c m = s.setPc c pc ∧ pc.calls = none ∧ pc.Fine := by
  unfold forward
  split_ifs
  · exact ⟨_, rfl, rfl, by simp [Pc.Fine, hawake]⟩
  · exact ⟨_, rfl, rfl, by simp [Pc.Fine]⟩

/-- After `wakeup_model` the task is in no call. -/
theorem wakeDone_spec (cfg : SleepConfig M) (s : SleepManager M T) (c : Caller T) (m : M)
    (request : Bool) (failure : Option Rejection)
    (hlost : failure ≠ some .wakeLost) (hawake : failure = none → s.awake m = true) :
    ∃ pc, s.wakeDone cfg c m request failure = s.setPc c pc ∧ pc.calls = none ∧ pc.Fine := by
  cases request with
  | false => cases failure <;> exact ⟨_, rfl, rfl, by simp [Pc.Fine]⟩
  | true =>
    cases failure with
    | none => exact forward_spec cfg c (hawake rfl)
    | some why => exact ⟨_, rfl, rfl, by simp, fun h => hlost (by cases h; rfl)⟩

/-- A wake that fails before its call. -/
theorem InStep.wakeFails (h : s.InStep cfg) {request : Bool} (hc : (s.pc c).calls = none)
    {why : Rejection} (hwhy : why ≠ .wakeLost) :
    (s.wakeDone cfg c m request (some why)).InStep cfg := by
  obtain ⟨pc, heq, hpc, hfine⟩ := wakeDone_spec cfg s c m request
    (some why) (fun heq => hwhy (Option.some.inj heq)) nofun
  rw [heq]
  exact h.settle hc rfl hpc hfine rfl rfl

end

variable {M T : Type} [DecidableEq M] [DecidableEq T] {cfg : SleepConfig M} {s t : SleepManager M T}
  {c : Caller T} {m : M} {now : Rat}

/-- A wake that takes its model, whose engine is awake, out of `sleeping_models`. -/
theorem InStep.wakeSucceeds (h : s.InStep cfg) {request : Bool}
    (hc : ∀ x, (s.pc c).calls = some x → x = m) (halone : ∀ d, d ≠ c → (s.pc d).calls ≠ some m)
    (hawake : s.awake m = true) :
    ((s.recordWake m).wakeDone cfg c m request none).InStep cfg := by
  obtain ⟨pc, heq, hpc, hfine⟩ := wakeDone_spec cfg (s.recordWake m) c m
    request none nofun fun _ => hawake
  rw [heq]
  refine h.move hc halone rfl ?_ ?_ ?_ ?_ ?_ hfine
  · simp [hpc]
  · intro x hx
    exact ⟨Function.update_of_ne hx .., rfl⟩
  · simp [hpc]
  · exact fun _ _ => hawake
  · exact fun _ => hawake

theorem InStep.wakeupModel (h : s.InStep cfg) {request : Bool} (hc : (s.pc c).calls = none)
    (hwakes : s.WakeStarts cfg m now → ∀ c, (s.pc c).wakes m = false) :
    (s.wakeupModel cfg c m request now).InStep cfg := by
  have hfree : ∀ x, (s.pc c).calls = some x → x = m := by simp [hc]
  unfold SleepManager.wakeupModel
  split
  case h_1 => exact h.wakeFails hc (by simp)
  case h_2 start hstart =>
    split_ifs with hsoon hmanaged
    · exact h.wakeFails hc (by simp)
    · have halone := h.alone_of_recorded (by rw [hstart]; rfl) (hwakes ⟨start, hstart, hsoon⟩)
      refine h.move hfree (fun d _ => halone d) rfl ?_ (fun _ _ => ⟨rfl, rfl⟩) ?_ ?_ ?_ ?_
      · simp [Pc.calls]
      · refine fun _ => ⟨hmanaged, ?_, by simp⟩
        change (s.sleepingModels m).isSome = true
        rw [hstart]
        rfl
      · intro h
        cases h
      · exact h.unmanaged m
      · exact ⟨by simp, by simp⟩
    · have halone := h.alone_of_recorded (by rw [hstart]; rfl) (hwakes ⟨start, hstart, hsoon⟩)
      exact h.wakeSucceeds hfree (fun d _ => halone d)
        (h.unmanaged m (Bool.eq_false_of_not_eq_true hmanaged))

theorem InStep.routeRequest (h : s.InStep cfg) (hc : (s.pc c).calls = none)
    (hact : cfg.routed m = true → (s.sleepingModels m = none → ∀ c, (s.pc c).slept m = false) ∧
      (cfg.wakeupOnRequest = true → s.WakeStarts cfg m now → ∀ c, (s.pc c).wakes m = false)) :
    (s.routeRequest cfg c m now).InStep cfg := by
  unfold SleepManager.routeRequest
  split_ifs with hrouted hnone hwakeup
  · exact h.settle hc rfl rfl ⟨nofun, nofun⟩ rfl rfl
  all_goals
    obtain ⟨hslept, hwakes⟩ := hact (Bool.eq_true_of_not_eq_false hrouted)
  · have habsent := Option.isNone_iff_eq_none.mp hnone
    obtain ⟨pc, heq, hpc, hfine⟩ := forward_spec cfg c
      (h.awake_of_absent habsent (hslept habsent))
    rw [heq]
    exact h.settle hc rfl hpc hfine rfl rfl
  · exact h.settle hc rfl rfl ⟨nofun, nofun⟩ rfl rfl
  · exact h.wakeupModel hc (hwakes (Bool.eq_true_of_not_eq_false hwakeup))

theorem InStep.putModelToSleep (h : s.InStep cfg) {manual : Bool} (hc : (s.pc c).calls = none)
    (hsleeps : ∀ c, (s.pc c).sleeps m = false) :
    (s.putModelToSleep cfg c m manual now).InStep cfg := by
  have hfree : ∀ x, (s.pc c).calls = some x → x = m := by simp [hc]
  unfold SleepManager.putModelToSleep
  split_ifs with hrecorded hmanaged
  · exact h.settle hc rfl rfl ⟨by simp, by simp⟩ rfl rfl
  all_goals
    have habsent : s.sleepingModels m = none := Option.not_isSome_iff_eq_none.mp hrecorded
    have halone := h.alone_of_absent habsent hsleeps
  · refine h.move hfree (fun d _ => halone d) rfl ?_ (fun _ _ => ⟨rfl, rfl⟩) ?_ ?_ ?_ ?_
    · simp [Pc.calls]
    · exact fun _ => ⟨hmanaged, habsent, fun _ => h.free m halone habsent⟩
    · intro h
      cases h
    · exact h.unmanaged m
    · exact ⟨by simp, by simp⟩
  · have hawake := h.unmanaged m (Bool.eq_false_of_not_eq_true hmanaged)
    refine h.move hfree (fun d _ => halone d) rfl ?_ ?_ ?_ ?_ ?_ ?_
    · simp [Pc.calls]
    · exact fun x hx => ⟨Function.update_of_ne hx .., rfl⟩
    · intro h
      cases h
    · exact fun _ _ => hawake
    · exact fun _ => hawake
    · exact ⟨by simp, by simp⟩

theorem InStep.carryOut (h : s.InStep cfg) (ht : s.carryOut c = some t) : t.InStep cfg := by
  unfold SleepManager.carryOut at ht
  split at ht
  case h_1 m request hpc =>
    cases ht
    have hc : (s.pc c).calls = some m := by rw [hpc]; rfl
    have hfits := (h.fits c m hc).2
    rw [hpc] at hfits
    exact h.goesOn hc rfl rfl rfl (fun x hx => Function.update_of_ne hx ..)
      ⟨hfits.1, fun _ => Function.update_self ..⟩ ⟨nofun, nofun⟩
  case h_2 m manual hpc =>
    cases ht
    have hc : (s.pc c).calls = some m := by rw [hpc]; rfl
    have hfits := (h.fits c m hc).2
    rw [hpc] at hfits
    exact h.goesOn hc rfl rfl rfl (fun x hx => Function.update_of_ne hx ..)
      ⟨hfits.1, nofun⟩ ⟨nofun, nofun⟩
  case h_3 => cases ht

theorem InStep.wakeupReturns (h : s.InStep cfg) {request : Bool}
    (hpc : s.pc c = .waking m request true) :
    (s.wakeupReturns cfg c m request).InStep cfg := by
  have hc : (s.pc c).calls = some m := by rw [hpc]; rfl
  obtain ⟨_, hfits⟩ := h.fits c m hc
  rw [hpc] at hfits
  obtain ⟨hrecorded, hawake⟩ := hfits
  unfold SleepManager.wakeupReturns
  split
  case h_1 hnone =>
    rw [hnone] at hrecorded
    cases hrecorded
  case h_2 => exact h.wakeSucceeds (by simp [hc]) (h.alone_of_calls hc) (hawake rfl)

theorem InStep.sleepReturns (h : s.InStep cfg) {manual carriedOut success : Bool}
    (hpc : s.pc c = .sleeping m manual carriedOut) (hsuccess : success = false → carriedOut = false)
    (ht : s.sleepReturns c m manual carriedOut success now = some t) : t.InStep cfg := by
  have hc : (s.pc c).calls = some m := by rw [hpc]; rfl
  have hone : ∀ x, (s.pc c).calls = some x → x = m := by simp [hc]
  obtain ⟨hmanaged, hfits⟩ := h.fits c m hc
  rw [hpc] at hfits
  have hno : cfg.managed m = false → t.awake m = true := by simp [hmanaged]
  unfold SleepManager.sleepReturns at ht
  split at ht
  case h_1 =>
    cases ht
    refine h.move hone (h.alone_of_calls hc) rfl nofun ?_ nofun ?_ hno ⟨nofun, nofun⟩
    · exact fun x hx => ⟨Function.update_of_ne hx .., rfl⟩
    · intro _ hnone
      have hrecorded : Function.update s.sleepingModels m (some now) m = none := hnone
      rw [Function.update_self] at hrecorded
      cases hrecorded
  case h_2 => cases ht
  case h_3 => cases hsuccess rfl
  case h_4 =>
    cases ht
    exact h.move hone (h.alone_of_calls hc) rfl nofun (fun _ _ => ⟨rfl, rfl⟩) nofun
      (fun _ _ => hfits.2 rfl) hno ⟨nofun, nofun⟩

theorem InStep.nextCandidate (h : s.InStep cfg)
    (hsleeps : ∀ m ∈ s.candidates.head?, s.manualSleepModels m = false →
      ∀ c, (s.pc c).sleeps m = false)
    (ht : s.nextCandidate cfg now = some t) : t.InStep cfg := by
  unfold SleepManager.nextCandidate at ht
  split at ht
  case h_1 => cases ht
  case h_2 m rest hcandidates =>
    rw [hcandidates] at hsleeps
    split_ifs at ht with hcalls hmanual
    · cases ht
      exact h.congr rfl rfl rfl
    · cases ht
      have hpopped : InStep cfg { s with candidates := rest } := h.congr rfl rfl rfl
      exact hpopped.putModelToSleep (Option.not_isSome_iff_eq_none.mp hcalls)
        (hsleeps m rfl (Bool.eq_false_of_not_eq_true hmanual))

variable {act : ControllerAct M T}

theorem InStep.step (h : s.InStep cfg) (hact : s.Undisturbed cfg act)
    (ht : s.step cfg act = some t) : t.InStep cfg := by
  have hidle : ∀ {t}, s.pc (.task t) = .idle → (s.pc (.task t)).calls = none := by
    intro t ht
    rw [ht]
    rfl
  cases act with
  | request i m now =>
    simp only [SleepManager.step] at ht
    split_ifs at ht with hpc
    cases ht
    exact h.routeRequest (hidle hpc) hact
  | wakeupAction i m now =>
    simp only [SleepManager.step] at ht
    split_ifs at ht with hpc
    all_goals cases ht
    · exact h.settle (hidle (not_not.mp hpc)) rfl rfl ⟨nofun, nofun⟩ rfl rfl
    · exact h.wakeupModel (hidle (not_not.mp hpc)) hact
  | sleepAction i m now =>
    simp only [SleepManager.step] at ht
    split_ifs at ht with hpc
    all_goals cases ht
    · exact h.settle (hidle (not_not.mp hpc)) rfl rfl ⟨nofun, nofun⟩ rfl rfl
    · exact h.putModelToSleep (hidle (not_not.mp hpc)) hact
  | checks idle =>
    simp only [SleepManager.step] at ht
    split_ifs at ht
    cases ht
    exact h.congr rfl rfl rfl
  | next now => exact h.nextCandidate hact ht
  | carriesOut c => exact h.carryOut ht
  | responds c success now =>
    simp only [SleepManager.step, respond] at ht
    split at ht
    case h_1 m request hpc =>
      split_ifs at ht
      cases ht
      exact h.wakeupReturns hpc
    case h_2 m manual carriedOut hpc =>
      refine h.sleepReturns hpc (fun hfails => ?_) ht
      have hslept := hact hfails m
      rw [hpc] at hslept
      cases carriedOut with
      | false => rfl
      | true => simp [Pc.slept] at hslept
    case h_3 => cases ht
  | lateSleep m => exact hact.elim

/-- In a run whose calls are undisturbed every request is forwarded to an engine that is awake, or
rejected for another reason than a wake of its model that has finished. -/
theorem served_of_undisturbed {acts : List (ControllerAct M T)}
    (h : Along (step cfg) (Undisturbed cfg) start acts) :
    Along (step cfg) (fun s act => ∀ t, s.step cfg act = some t → t.Served) start acts :=
  along_imp (I := InStep cfg) (fun _ _ hs hact _ ht => (hs.step hact ht).served)
    (fun _ _ _ hs hact ht => hs.step hact ht) start_inStep h

attribute [local instance] Numerals.neZero_one Numerals.neZero_three

/-- One model with an engine. -/
def oneEngine : SleepConfig (Fin 1) := ⟨false, true, 60, fun _ => true, fun _ => true, true⟩

def goesToSleep : List (ControllerAct (Fin 1) (Fin 3)) :=
  [.sleepAction 0 0 0, .carriesOut (.task 0), .responds (.task 0) true 1]

/-- The second request comes after the first has woken the model up. -/
def oneAfterTheOther : List (ControllerAct (Fin 1) (Fin 3)) := goesToSleep ++
  [.request 1 0 100, .carriesOut (.task 1), .responds (.task 1) true 101, .request 2 0 102]

/-- The second request comes while the first is waking the model up. -/
def bothAtOnce : List (ControllerAct (Fin 1) (Fin 3)) := goesToSleep ++
  [.request 1 0 100, .request 2 0 100, .carriesOut (.task 1), .responds (.task 1) true 101,
    .carriesOut (.task 2), .responds (.task 2) true 102]

/-- A request comes when the engine has gone to sleep and the call is coming back. -/
def beforeTheRecord : List (ControllerAct (Fin 1) (Fin 3)) :=
  [.sleepAction 0 0 0, .carriesOut (.task 0), .request 1 0 1]

theorem served_oneAfterTheOther :
    Along (step oneEngine) (fun s act => ∀ t, s.step oneEngine act = some t → t.Served) start
        oneAfterTheOther ∧
      (run (step oneEngine) start oneAfterTheOther).map (fun s => (s.pc (.task 1), s.pc (.task 2))) =
        some (.forwarded 0 true, .forwarded 0 true) :=
  ⟨served_of_undisturbed (by decide +kernel), by decide +kernel⟩

/-- The second of two requests is rejected because the first has woken the model up, and a request
reaches an engine that sleeps. -/
theorem not_served :
    (∃ s, run (step oneEngine) start bothAtOnce = some s ∧ s.pc (.task 1) = .forwarded 0 true ∧
      s.pc (.task 2) = .rejected .wakeLost ∧ ¬s.Served) ∧
    ∃ s, run (step oneEngine) start beforeTheRecord = some s ∧
      s.pc (.task 1) = .forwarded 0 false ∧ ¬s.Served := by
  have hboth : (run (step oneEngine) start bothAtOnce).map (fun s =>
      (s.pc (.task 1), s.pc (.task 2))) = some (.forwarded 0 true, .rejected .wakeLost) := by
    decide +kernel
  have hbefore : (run (step oneEngine) start beforeTheRecord).map (·.pc (.task 1)) =
      some (.forwarded 0 false) := by decide +kernel
  obtain ⟨s, hs, hpcs⟩ := Option.map_eq_some_iff.mp hboth
  obtain ⟨t, ht, hpc⟩ := Option.map_eq_some_iff.mp hbefore
  obtain ⟨hfirst, hsecond⟩ := Prod.mk.inj hpcs
  exact ⟨⟨s, hs, hfirst, hsecond, fun h => (h (.task 2)).2 hsecond⟩,
    t, ht, hpc, fun h => (h (.task 1)).1 0 hpc⟩

end SleepManager

end GpuSharing.Controller
