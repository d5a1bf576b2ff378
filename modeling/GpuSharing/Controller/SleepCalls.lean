import GpuSharing.Controller.SleepManager

namespace GpuSharing.Controller

namespace Pc

variable {M : Type}

/-- The task awaits a wake call, or a sleep call, for the model. -/
def wakes [DecidableEq M] (m : M) : Pc M → Bool
  | .waking m' _ _ => m' = m
  | _ => false

def sleeps [DecidableEq M] (m : M) : Pc M → Bool
  | .sleeping m' _ _ => m' = m
  | _ => false

/-- The task awaits the answer to a sleep call that the engine has carried out. -/
def slept [DecidableEq M] (m : M) : Pc M → Bool
  | .sleeping m' _ true => m' = m
  | _ => false

end Pc

namespace SleepManager

variable {M T : Type}

/-- How a call goes with what is recorded of its model and with the engine. -/
def Fits (pc : Pc M) (recorded : Option Rat) (awake : Bool) : Prop :=
  match pc with
  | .waking _ _ carriedOut => recorded.isSome = true ∧ (carriedOut = true → awake = true)
  | .sleeping _ _ carriedOut => recorded = none ∧ (carriedOut = false → awake = true)
  | _ => True

/-- Each model has at most one call, which fits; without a call an engine that is not recorded as
sleeping is awake, and engines that cannot be called always are. -/
structure InStep (cfg : SleepConfig M) (s : SleepManager M T) : Prop where
  fits : ∀ c m, (s.pc c).calls = some m →
    cfg.managed m = true ∧ Fits (s.pc c) (s.sleepingModels m) (s.awake m)
  single : ∀ c d m, (s.pc c).calls = some m → (s.pc d).calls = some m → c = d
  free : ∀ m, (∀ c, (s.pc c).calls ≠ some m) → s.sleepingModels m = none → s.awake m = true
  unmanaged : ∀ m, cfg.managed m = false → s.awake m = true
  served : s.Served

section

variable {cfg : SleepConfig M} {s t : SleepManager M T} {c : Caller T} {m : M} {pc : Pc M}

theorem start_inStep : (start : SleepManager M T).InStep cfg where
  fits := by simp [start, Pc.calls]
  single := by simp [start, Pc.calls]
  free := by simp [start]
  unmanaged := by simp [start]
  served := by simp [start, Served, Pc.Fine]

/-- Other fields than the records, the engines and the tasks do not matter. -/
theorem InStep.congr (h : s.InStep cfg) (hpc : t.pc = s.pc)
    (hsleeping : t.sleepingModels = s.sleepingModels) (hawake : t.awake = s.awake) :
    t.InStep cfg := by
  obtain ⟨fits, single, free, unmanaged, served⟩ := h
  constructor
  · rwa [hpc, hsleeping, hawake]
  · rwa [hpc]
  · rwa [hpc, hsleeping, hawake]
  · rwa [hawake]
  · unfold Served
    rwa [hpc]

theorem InStep.alone_of_calls (h : s.InStep cfg) (hc : (s.pc c).calls = some m) (d : Caller T)
    (hd : d ≠ c) : (s.pc d).calls ≠ some m :=
  fun hcall => hd (h.single d c m hcall hc)

variable [DecidableEq T]

theorem pc_cases (ht : t.pc = Function.update s.pc c pc) (d : Caller T) :
    d = c ∧ t.pc d = pc ∨ d ≠ c ∧ t.pc d = s.pc d := by
  rw [ht]
  by_cases hd : d = c
  · subst hd
    exact .inl ⟨rfl, Function.update_self ..⟩
  · exact .inr ⟨hd, Function.update_of_ne hd ..⟩

theorem Served.update (h : s.Served) (ht : t.pc = Function.update s.pc c pc) (hfine : pc.Fine) :
    t.Served := by
  intro d
  rcases pc_cases ht d with ⟨_, hd⟩ | ⟨_, hd⟩
  · rwa [hd]
  · rw [hd]
    exact h d

/-- A task that is in no call, before or after, moves on. -/
theorem InStep.settle (h : s.InStep cfg) (hc : (s.pc c).calls = none)
    (ht : t.pc = Function.update s.pc c pc) (hpc : pc.calls = none) (hfine : pc.Fine)
    (hsleeping : t.sleepingModels = s.sleepingModels) (hawake : t.awake = s.awake) :
    t.InStep cfg := by
  have hcalls : ∀ d x, (t.pc d).calls = some x → (s.pc d).calls = some x ∧ t.pc d = s.pc d := by
    intro d x hd
    rcases pc_cases ht d with ⟨_, hpcd⟩ | ⟨_, hpcd⟩
    · rw [hpcd, hpc] at hd
      cases hd
    · exact ⟨hpcd ▸ hd, hpcd⟩
  constructor
  case fits =>
    intro d x hd
    obtain ⟨hold, hpcd⟩ := hcalls d x hd
    rw [hpcd, hsleeping, hawake]
    exact h.fits d x hold
  case single =>
    exact fun d e x hd he => h.single d e x (hcalls d x hd).1 (hcalls e x he).1
  case free =>
    intro x hx hnone
    rw [hsleeping] at hnone
    rw [hawake]
    refine h.free x (fun d hd => ?_) hnone
    rcases pc_cases ht d with ⟨rfl, _⟩ | ⟨_, hpcd⟩
    · rw [hc] at hd
      cases hd
    · exact hx d (hpcd.symm ▸ hd)
  case unmanaged =>
    rw [hawake]
    exact h.unmanaged
  case served => exact h.served.update ht hfine

/-- A task begins, continues or ends the only call for a model. -/
theorem InStep.move (h : s.InStep cfg) (hc : ∀ x, (s.pc c).calls = some x → x = m)
    (halone : ∀ d, d ≠ c → (s.pc d).calls ≠ some m) (ht : t.pc = Function.update s.pc c pc)
    (hpc : ∀ x, pc.calls = some x → x = m)
    (hsame : ∀ x, x ≠ m → t.sleepingModels x = s.sleepingModels x ∧ t.awake x = s.awake x)
    (hfits : pc.calls = some m → cfg.managed m = true ∧ Fits pc (t.sleepingModels m) (t.awake m))
    (hfree : pc.calls = none → t.sleepingModels m = none → t.awake m = true)
    (hunmanaged : cfg.managed m = false → t.awake m = true) (hfine : pc.Fine) : t.InStep cfg := by
  have hcalls : ∀ d x, (t.pc d).calls = some x →
      d = c ∧ x = m ∧ t.pc d = pc ∨ x ≠ m ∧ (s.pc d).calls = some x ∧ t.pc d = s.pc d := by
    intro d x hd
    rcases pc_cases ht d with ⟨hdc, hpcd⟩ | ⟨hdc, hpcd⟩
    · exact .inl ⟨hdc, hpc x (hpcd ▸ hd), hpcd⟩
    · rw [hpcd] at hd
      refine .inr ⟨?_, hd, hpcd⟩
      rintro rfl
      exact halone d hdc hd
  constructor
  case fits =>
    intro d x hd
    rcases hcalls d x hd with ⟨rfl, rfl, hpcd⟩ | ⟨hx, hold, hpcd⟩
    · rw [hpcd] at hd ⊢
      exact hfits hd
    · rw [hpcd, (hsame x hx).1, (hsame x hx).2]
      exact h.fits d x hold
  case single =>
    intro d e x hd he
    rcases hcalls d x hd with ⟨rfl, hx, _⟩ | ⟨hx, hd, _⟩
    · rcases hcalls e x he with ⟨rfl, _, _⟩ | ⟨hx', _, _⟩
      · rfl
      · exact absurd hx hx'
    · rcases hcalls e x he with ⟨_, hx', _⟩ | ⟨_, he, _⟩
      · exact absurd hx' hx
      · exact h.single d e x hd he
  case free =>
    intro x hx hnone
    by_cases hxm : x = m
    · subst hxm
      refine hfree ?_ hnone
      cases hcall : pc.calls with
      | none => rfl
      | some y =>
        obtain rfl := hpc y hcall
        have htc : t.pc c = pc := by rw [ht, Function.update_self]
        exact absurd (htc ▸ hcall) (hx c)
    · rw [(hsame x hxm).1] at hnone
      rw [(hsame x hxm).2]
      refine h.free x (fun d hd => ?_) hnone
      rcases pc_cases ht d with ⟨rfl, _⟩ | ⟨_, hpcd⟩
      · exact hxm (hc x hd)
      · exact hx d (hpcd.symm ▸ hd)
  case unmanaged =>
    intro x hx
    by_cases hxm : x = m
    · subst hxm
      exact hunmanaged hx
    · rw [(hsame x hxm).2]
      exact h.unmanaged x hx
  case served => exact h.served.update ht hfine

/-- The call of a task goes on, without a change to what is recorded. -/
theorem InStep.goesOn (h : s.InStep cfg) (hc : (s.pc c).calls = some m)
    (ht : t.pc = Function.update s.pc c pc) (hpc : pc.calls = some m)
    (hsleeping : t.sleepingModels = s.sleepingModels)
    (hsame : ∀ x, x ≠ m → t.awake x = s.awake x)
    (hfits : Fits pc (s.sleepingModels m) (t.awake m)) (hfine : pc.Fine) : t.InStep cfg := by
  have hmanaged := (h.fits c m hc).1
  refine h.move ?_ (h.alone_of_calls hc) ht ?_ ?_ ?_ ?_ ?_ hfine
  · simp [hc]
  · simp [hpc]
  · exact fun x hx => ⟨congrFun hsleeping x, hsame x hx⟩
  · exact fun _ => ⟨hmanaged, hsleeping ▸ hfits⟩
  · simp [hpc]
  · simp [hmanaged]

end

section

variable [DecidableEq M] {cfg : SleepConfig M} {s : SleepManager M T} {m : M}

/-- Without overlapping wakes no call for a model begins while it is recorded as sleeping. -/
theorem InStep.alone_of_recorded (h : s.InStep cfg) (hs : (s.sleepingModels m).isSome = true)
    (hwakes : ∀ c, (s.pc c).wakes m = false) (d : Caller T) : (s.pc d).calls ≠ some m := by
  intro hd
  obtain ⟨_, hfits⟩ := h.fits d m hd
  cases hpc : s.pc d with
  | waking m' r b =>
    have hno := hwakes d
    rw [hpc] at hd hno
    simp_all [Pc.calls, Pc.wakes]
  | sleeping m' r b =>
    rw [hpc] at hfits
    rw [hfits.1] at hs
    cases hs
  | _ => simp [hpc, Pc.calls] at hd

/-- Without overlapping sleeps no call for a model begins while it is not recorded. -/
theorem InStep.alone_of_absent (h : s.InStep cfg) (hs : s.sleepingModels m = none)
    (hsleeps : ∀ c, (s.pc c).sleeps m = false) (d : Caller T) : (s.pc d).calls ≠ some m := by
  intro hd
  obtain ⟨_, hfits⟩ := h.fits d m hd
  cases hpc : s.pc d with
  | waking m' r b =>
    rw [hpc, hs] at hfits
    cases hfits.1
  | sleeping m' r b =>
    have hno := hsleeps d
    rw [hpc] at hd hno
    simp_all [Pc.calls, Pc.sleeps]
  | _ => simp [hpc, Pc.calls] at hd

/-- An engine that is not recorded as sleeping is awake, but while a sleep call is coming back. -/
theorem InStep.awake_of_absent (h : s.InStep cfg) (hs : s.sleepingModels m = none)
    (hslept : ∀ c, (s.pc c).slept m = false) : s.awake m = true := by
  by_cases hcalled : ∃ d, (s.pc d).calls = some m
  · obtain ⟨d, hd⟩ := hcalled
    obtain ⟨_, hfits⟩ := h.fits d m hd
    have hno := hslept d
    cases hpc : s.pc d with
    | waking m' r b =>
      rw [hpc, hs] at hfits
      cases hfits.1
    | sleeping m' r b =>
      rw [hpc] at hd hfits hno
      cases hd
      cases b with
      | false => exact hfits.2 rfl
      | true => simp [Pc.slept] at hno
    | _ => simp [hpc, Pc.calls] at hd
  · rw [not_exists] at hcalled
    exact h.free m hcalled hs

end

end SleepManager

end GpuSharing.Controller
