import GpuSharing.Sardeenz.RequestRouting

namespace GpuSharing.Sardeenz.ClusterRouting

inductive BreakerMethod
  | isOpen
  | recordFailure
  | recordSuccess
  | removePod
  deriving DecidableEq, Repr

/-- A call of the breaker, at a reading of the clock in milliseconds. -/
structure BreakerCall where
  now : Nat
  method : BreakerMethod
  podId : String
  deriving DecidableEq, Repr

namespace CircuitBreaker

def failureThreshold : Nat := 3

def windowMs : Nat := 30000

def cooldownMs : Nat := 15000

/-- What `isOpen` leaves: a state whose cooldown has expired is deleted. -/
def isOpenLeaves (breaker : CircuitBreaker) (now : Int) (podId : String) : CircuitBreaker :=
  match breaker.lookup podId with
  | some state =>
    if 0 < state.cooldownUntil ∧ state.cooldownUntil ≤ now then AList.erase podId breaker
    else breaker
  | none => breaker

def recordFailure (breaker : CircuitBreaker) (now : Int) (podId : String) : CircuitBreaker :=
  let state := (breaker.lookup podId).getD ⟨[], 0⟩
  let failures := (state.failures ++ [now]).filter fun t => now - t < windowMs
  breaker.setItem podId
    (if failureThreshold ≤ failures.length then ⟨[], now + cooldownMs⟩
    else ⟨failures, state.cooldownUntil⟩)

def recordSuccess (breaker : CircuitBreaker) (podId : String) : CircuitBreaker :=
  AList.erase podId breaker

def removePod (breaker : CircuitBreaker) (podId : String) : CircuitBreaker :=
  AList.erase podId breaker

def apply (breaker : CircuitBreaker) (call : BreakerCall) : CircuitBreaker :=
  match call.method with
  | .isOpen => breaker.isOpenLeaves call.now call.podId
  | .recordFailure => breaker.recordFailure call.now call.podId
  | .recordSuccess => breaker.recordSuccess call.podId
  | .removePod => breaker.removePod call.podId

/-- The breaker after a history of calls, the newest first. -/
def after : List BreakerCall → CircuitBreaker
  | [] => ∅
  | call :: past => apply (after past) call

end CircuitBreaker

/-- What a call is to one pod. An `expiry` is a query that finds an expired cooldown. -/
inductive BreakerMark
  | trip
  | failure
  | reset
  | expiry
  | other
  deriving DecidableEq, Repr

namespace BreakerMark

open CircuitBreaker

/-- The failures since the latest trip, reset or expiry. -/
def failuresSince : List (BreakerMark × Nat) → List Nat
  | (.failure, t) :: marks => t :: failuresSince marks
  | (.other, _) :: marks => failuresSince marks
  | _ => []

/-- The latest trip, reset or expiry, if it is a trip. -/
def standingTrip : List (BreakerMark × Nat) → Option Nat
  | (.trip, u) :: _ => some u
  | (.failure, _) :: marks => standingTrip marks
  | (.other, _) :: marks => standingTrip marks
  | _ => none

/-- A failure is a trip when it is the third one in less than the window. -/
def ofCall (podId : String) (marks : List (BreakerMark × Nat)) (call : BreakerCall) : BreakerMark :=
  if call.podId = podId then
    match call.method with
    | .recordFailure =>
      if failureThreshold ≤
          (call.now :: failuresSince marks).countP fun t => call.now < t + windowMs then .trip
      else .failure
    | .recordSuccess | .removePod => .reset
    | .isOpen =>
      if (standingTrip marks).any fun u => u + cooldownMs ≤ call.now then .expiry else .other
  else .other

/-- The marks of a history for one pod, the newest first. -/
def ofHistory (podId : String) : List BreakerCall → List (BreakerMark × Nat)
  | [] => []
  | call :: past =>
    (ofCall podId (ofHistory podId past) call, call.now) :: ofHistory podId past

/-- Some trip is not over and has no later reset. -/
def OpenAt (marks : List (BreakerMark × Nat)) (now : Nat) : Prop :=
  ∃ later u earlier, marks = later ++ (.trip, u) :: earlier ∧ now < u + cooldownMs ∧
    ∀ m ∈ later, m.1 ≠ .reset

end BreakerMark

namespace CircuitBreaker

variable {breaker : CircuitBreaker} {podId : String} {now : Nat} {past : List BreakerCall}

/-- A pod without a state is as one whose state is new. -/
def stateOf (breaker : CircuitBreaker) (podId : String) : CircuitBreakerState :=
  (breaker.lookup podId).getD ⟨[], 0⟩

theorem isOpen_iff_stateOf : breaker.isOpen now podId = true ↔
    0 < (breaker.stateOf podId).cooldownUntil ∧ (now : Int) < (breaker.stateOf podId).cooldownUntil := by
  unfold isOpen stateOf
  cases breaker.lookup podId <;> simp

theorem stateOf_erase (q : String) : stateOf (AList.erase q breaker) podId =
    if podId = q then ⟨[], 0⟩ else breaker.stateOf podId := by
  unfold stateOf
  split_ifs with h
  · subst h
    rw [AList.lookup_erase]
    rfl
  · rw [AList.lookup_erase_ne h]

theorem stateOf_isOpenLeaves (t : Int) (q : String) : (breaker.isOpenLeaves t q).stateOf podId =
    if podId = q ∧ 0 < (breaker.stateOf podId).cooldownUntil ∧
      (breaker.stateOf podId).cooldownUntil ≤ t then ⟨[], 0⟩ else breaker.stateOf podId := by
  unfold isOpenLeaves
  cases hq : breaker.lookup q with
  | none =>
    have hnone : ¬(podId = q ∧ 0 < (breaker.stateOf podId).cooldownUntil ∧
        (breaker.stateOf podId).cooldownUntil ≤ t) := by
      rintro ⟨rfl, h, -⟩
      simp [stateOf, hq] at h
    rw [if_neg hnone]
  | some state =>
    by_cases hp : podId = q
    · subst hp
      have hstate : breaker.stateOf podId = state := by simp [stateOf, hq]
      rw [hstate]
      by_cases hexpired : 0 < state.cooldownUntil ∧ state.cooldownUntil ≤ t
      · simp only [hexpired, and_self, if_true, stateOf_erase]
      · simp only [hexpired, and_false, if_false, hstate]
    · rw [if_neg fun h => hp h.1]
      dsimp only
      split_ifs
      · rw [stateOf_erase, if_neg hp]
      · rfl

theorem stateOf_recordFailure (t : Int) (q : String) : (breaker.recordFailure t q).stateOf podId =
    if podId = q then
      let failures := ((breaker.stateOf podId).failures ++ [t]).filter fun s => t - s < windowMs
      if failureThreshold ≤ failures.length then ⟨[], t + cooldownMs⟩
      else ⟨failures, (breaker.stateOf podId).cooldownUntil⟩
    else breaker.stateOf podId := by
  unfold recordFailure stateOf
  rw [Dict.lookup_setItem]
  by_cases hp : podId = q
  · subst hp
    simp
  · rw [if_neg hp, if_neg hp]

theorem stateOf_apply_ne {call : BreakerCall} (h : call.podId ≠ podId) :
    (breaker.apply call).stateOf podId = breaker.stateOf podId := by
  have hne : podId ≠ call.podId := Ne.symm h
  unfold apply
  cases call.method <;>
    simp [stateOf_isOpenLeaves, stateOf_recordFailure, recordSuccess, removePod, stateOf_erase, hne]

theorem stateOf_apply_congr {other : CircuitBreaker} (h : breaker.stateOf podId = other.stateOf podId)
    (call : BreakerCall) : (breaker.apply call).stateOf podId = (other.apply call).stateOf podId := by
  unfold apply
  cases call.method <;>
    simp only [stateOf_isOpenLeaves, stateOf_recordFailure, recordSuccess, removePod, stateOf_erase, h]

open BreakerMark

def cooldownEnd : Option Nat → Int
  | some u => u + cooldownMs
  | none => 0

/-- The breaker's state for a pod says what the marks of the history say from now on. -/
structure Follows (past : List BreakerCall) (marks : List (BreakerMark × Nat))
    (state : CircuitBreakerState) : Prop where
  cooldown : state.cooldownUntil = cooldownEnd (standingTrip marks)
  failures : ∀ now : Nat, (∀ call ∈ past, call.now ≤ now) →
    state.failures.countP (fun t => (now : Int) - t < windowMs) =
      (failuresSince marks).countP fun t => now < t + windowMs

theorem follows_new {marks : List (BreakerMark × Nat)} (htrip : standingTrip marks = none)
    (hfailures : failuresSince marks = []) : Follows past marks ⟨[], 0⟩ where
  cooldown := by rw [htrip]; rfl
  failures := fun _ _ => by rw [hfailures]; rfl

/-- What is pruned at one time is outside of the window at every later one. -/
theorem countP_pruned {t : Nat} (failures : List Int) (h : t ≤ now) :
    (failures.filter fun s => (t : Int) - s < windowMs).countP (fun s => (now : Int) - s < windowMs) =
      failures.countP fun s => (now : Int) - s < windowMs := by
  rw [List.countP_filter]
  apply List.countP_congr
  intro s _
  have hle : (t : Int) ≤ now := by exact_mod_cast h
  simp only [Bool.and_eq_true, decide_eq_true_eq, and_iff_left_iff_imp]
  omega

variable {marks : List (BreakerMark × Nat)} {state : CircuitBreakerState} {call : BreakerCall}

theorem Follows.weaken (h : Follows past marks state) (call : BreakerCall) :
    Follows (call :: past) marks state where
  cooldown := h.cooldown
  failures := fun now hnow => h.failures now fun c hc => hnow c (List.mem_cons_of_mem _ hc)

theorem Follows.other {t : Nat} (h : Follows past marks state) :
    Follows past ((.other, t) :: marks) state where
  cooldown := h.cooldown
  failures := h.failures

theorem length_pruned (h : Follows past marks state) (hnow : ∀ c ∈ past, c.now ≤ now) :
    ((state.failures ++ [(now : Int)]).filter fun s => (now : Int) - s < windowMs).length =
      (now :: failuresSince marks).countP fun t => now < t + windowMs := by
  rw [← List.countP_eq_length_filter, List.countP_append, h.failures now hnow, List.countP_cons]
  simp [windowMs]

theorem follows_recordFailure (h : Follows past marks state) (hnow : ∀ c ∈ past, c.now ≤ now)
    (hcall : call = ⟨now, .recordFailure, podId⟩) :
    let failures := (state.failures ++ [(now : Int)]).filter fun s => (now : Int) - s < windowMs
    Follows (call :: past) ((ofCall podId marks call, now) :: marks)
      (if failureThreshold ≤ failures.length then ⟨[], now + cooldownMs⟩
      else ⟨failures, state.cooldownUntil⟩) := by
  subst hcall
  dsimp only
  rw [length_pruned h hnow]
  unfold ofCall
  rw [if_pos rfl]
  dsimp only
  split_ifs
  · exact ⟨rfl, fun _ _ => rfl⟩
  · refine ⟨h.cooldown, fun t ht => ?_⟩
    have hle : now ≤ t := ht _ List.mem_cons_self
    have hnew : ((t : Int) - now < windowMs) ↔ t < now + windowMs := by omega
    rw [countP_pruned _ hle, List.countP_append, h.failures t fun c hc => (hnow c hc).trans hle,
      failuresSince]
    simp only [List.countP_cons, List.countP_nil, Nat.zero_add, hnew]

theorem follows_isOpen (h : Follows past marks state) (hcall : call = ⟨now, .isOpen, podId⟩) :
    Follows (call :: past) ((ofCall podId marks call, now) :: marks)
      (if 0 < state.cooldownUntil ∧ state.cooldownUntil ≤ (now : Int) then ⟨[], 0⟩
      else state) := by
  subst hcall
  have hexpired : (0 < state.cooldownUntil ∧ state.cooldownUntil ≤ (now : Int)) ↔
      (standingTrip marks).any fun u => u + cooldownMs ≤ now := by
    rw [h.cooldown]
    cases standingTrip marks with
    | none => simp [cooldownEnd]
    | some u =>
      have hend : (0 : Int) < u + cooldownMs := by
        have : cooldownMs = 15000 := rfl
        omega
      simp only [cooldownEnd, hend, true_and, Option.any_some, decide_eq_true_eq]
      exact_mod_cast Iff.rfl
  unfold ofCall
  rw [if_pos rfl]
  simp only [hexpired]
  split_ifs
  · exact follows_new rfl rfl
  · exact (h.weaken _).other

/-- One case for each method: what the breaker's state for the pod becomes is what the mark says. -/
theorem follows_apply (h : Follows past marks (breaker.stateOf podId))
    (hnow : ∀ c ∈ past, c.now ≤ call.now) :
    Follows (call :: past) ((ofCall podId marks call, call.now) :: marks)
      ((breaker.apply call).stateOf podId) := by
  by_cases hpod : call.podId = podId
  case neg =>
    have hmark : ofCall podId marks call = .other := if_neg hpod
    rw [hmark, stateOf_apply_ne hpod]
    exact (h.weaken call).other
  case pos =>
    obtain ⟨now, method, q⟩ := call
    subst hpod
    cases method with
    | isOpen =>
      have hstate : (breaker.isOpenLeaves now q).stateOf q = _ := stateOf_isOpenLeaves now q
      simp only [true_and] at hstate
      exact hstate ▸ follows_isOpen h rfl
    | recordFailure =>
      have hstate : (breaker.recordFailure now q).stateOf q = _ := stateOf_recordFailure now q
      rw [if_pos rfl] at hstate
      exact hstate ▸ follows_recordFailure h hnow rfl
    | recordSuccess =>
      have hstate : stateOf (AList.erase q breaker) q = _ := stateOf_erase q
      have hmark : ofCall q marks ⟨now, .recordSuccess, q⟩ = .reset := if_pos rfl
      rw [if_pos rfl] at hstate
      exact hmark ▸ hstate ▸ follows_new rfl rfl
    | removePod =>
      have hstate : stateOf (AList.erase q breaker) q = _ := stateOf_erase q
      have hmark : ofCall q marks ⟨now, .removePod, q⟩ = .reset := if_pos rfl
      rw [if_pos rfl] at hstate
      exact hmark ▸ hstate ▸ follows_new rfl rfl

theorem follows_after (hordered : (past.map (·.now)).Pairwise (· ≥ ·)) (podId : String) :
    Follows past (ofHistory podId past) ((after past).stateOf podId) := by
  induction past with
  | nil => exact follows_new rfl rfl
  | cons call past ih =>
    rw [List.map_cons, List.pairwise_cons] at hordered
    exact follows_apply (ih hordered.2) fun c hc => hordered.1 _ (List.mem_map_of_mem hc)

/-- Only the calls for the pod decide its state. -/
theorem stateOf_filter (past : List BreakerCall) (podId : String) :
    (after (past.filter (·.podId = podId))).stateOf podId = (after past).stateOf podId := by
  induction past with
  | nil => rfl
  | cons call past ih =>
    by_cases hpod : call.podId = podId
    · rw [List.filter_cons_of_pos (by simpa using hpod)]
      exact stateOf_apply_congr ih call
    · rw [List.filter_cons_of_neg (by simpa using hpod), ih]
      exact (stateOf_apply_ne hpod).symm

theorem standingTrip_mem {u : Nat} (h : standingTrip marks = some u) : (.trip, u) ∈ marks := by
  fun_induction standingTrip marks with
  | case1 u' marks =>
    cases h
    exact List.mem_cons_self
  | case2 _ marks ih => exact List.mem_cons_of_mem _ (ih h)
  | case3 _ marks ih => exact List.mem_cons_of_mem _ (ih h)
  | case4 => cases h

theorem ofHistory_times (podId : String) (past : List BreakerCall) :
    (ofHistory podId past).map Prod.snd = past.map (·.now) := by
  induction past with
  | nil => rfl
  | cons call past ih => rw [ofHistory, List.map_cons, ih, List.map_cons]

theorem openAt_cons {m : BreakerMark × Nat} : OpenAt (m :: marks) now ↔
    m.1 = .trip ∧ now < m.2 + cooldownMs ∨ m.1 ≠ .reset ∧ OpenAt marks now := by
  constructor
  · rintro ⟨later, u, earlier, hsplit, hnow, hlater⟩
    cases later with
    | nil =>
      cases hsplit
      exact .inl ⟨rfl, hnow⟩
    | cons m' later =>
      cases hsplit
      exact .inr ⟨hlater _ List.mem_cons_self, later, u, earlier, rfl, hnow,
        fun x hx => hlater x (List.mem_cons_of_mem _ hx)⟩
  · rintro (⟨htrip, hnow⟩ | ⟨hreset, later, u, earlier, rfl, hnow, hlater⟩)
    · exact ⟨[], m.2, marks, by rw [← htrip]; rfl, hnow, by simp⟩
    · refine ⟨m :: later, u, earlier, rfl, hnow, fun x hx => ?_⟩
      rcases List.mem_cons.mp hx with rfl | hx
      · exact hreset
      · exact hlater x hx

theorem ofCall_expiry (h : ofCall podId marks call = .expiry) :
    ∃ u, standingTrip marks = some u ∧ u + cooldownMs ≤ call.now := by
  have hexpired : (standingTrip marks).any (fun u => u + cooldownMs ≤ call.now) = true := by
    by_contra hstanding
    unfold ofCall at h
    rw [if_neg hstanding] at h
    cases call.method <;> grind
  simpa [Option.any_eq_true] using hexpired

/-- Trips before the standing one are over when it is. -/
theorem openAt_iff (hordered : (past.map (·.now)).Pairwise (· ≥ ·))
    (hnow : ∀ c ∈ past, c.now ≤ now) : OpenAt (ofHistory podId past) now ↔
      ∃ u, standingTrip (ofHistory podId past) = some u ∧ now < u + cooldownMs := by
  induction past with
  | nil => simp [ofHistory, OpenAt, standingTrip]
  | cons call past ih =>
    rw [List.map_cons, List.pairwise_cons] at hordered
    have ih := ih hordered.2 fun c hc => hnow c (List.mem_cons_of_mem _ hc)
    rw [ofHistory, openAt_cons, ih]
    cases hmark : ofCall podId (ofHistory podId past) call with
    | trip =>
      simp only [standingTrip, true_and, ne_eq, reduceCtorEq, not_false_eq_true, Option.some.injEq,
        exists_eq_left']
      refine or_iff_left_of_imp ?_
      rintro ⟨u, hu, hlt⟩
      have hmem : u ∈ past.map (·.now) :=
        ofHistory_times podId past ▸ List.mem_map_of_mem (standingTrip_mem hu)
      exact hlt.trans_le (Nat.add_le_add_right (hordered.1 u hmem) _)
    | failure => simp [standingTrip]
    | reset => simp [standingTrip]
    | other => simp [standingTrip]
    | expiry =>
      obtain ⟨u, hu, hle⟩ := ofCall_expiry hmark
      have hcall := hnow call List.mem_cons_self
      simp only [standingTrip, hu, Option.some.injEq, exists_eq_left']
      simp
      omega

/-- The breaker is open for a pod exactly while a trip of the pod lasts and nothing has reset it, and
calls for other pods do not matter. -/
theorem isOpen_iff (hordered : (now :: past.map (·.now)).Pairwise (· ≥ ·)) (podId : String) :
    ((after past).isOpen now podId = true ↔ OpenAt (ofHistory podId past) now) ∧
      (after (past.filter (·.podId = podId))).isOpen now podId = (after past).isOpen now podId := by
  rw [List.pairwise_cons] at hordered
  constructor
  · rw [isOpen_iff_stateOf, (follows_after hordered.2 podId).cooldown,
      openAt_iff hordered.2 fun c hc => hordered.1 _ (List.mem_map_of_mem hc)]
    cases standingTrip (ofHistory podId past) with
    | none => simp [cooldownEnd]
    | some u =>
      simp only [cooldownEnd, Option.some.injEq, exists_eq_left']
      omega
  · rw [Bool.eq_iff_iff, isOpen_iff_stateOf, isOpen_iff_stateOf, stateOf_filter]

/-- The last millisecond of a trip whose first failure is in the last one of the window. -/
theorem isOpen_iff_last_millisecond :
    let past : List BreakerCall := [⟨29999, .isOpen, "a"⟩, ⟨29999, .recordFailure, "a"⟩,
      ⟨20000, .recordSuccess, "b"⟩, ⟨10000, .recordFailure, "a"⟩, ⟨0, .recordFailure, "a"⟩]
    (after past).isOpen 44998 "a" = true :=
  (isOpen_iff (by decide) "a").1.mpr
    ⟨[(.other, 29999)], 29999, _, rfl, by decide, by decide⟩

end CircuitBreaker

end GpuSharing.Sardeenz.ClusterRouting
