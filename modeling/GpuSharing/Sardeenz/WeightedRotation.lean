import Mathlib.Data.List.Count
import GpuSharing.Lib.Rotation
import GpuSharing.Sardeenz.RequestRouting

namespace GpuSharing.Sardeenz.ClusterRouting

open Transition

/-- A call of `select`. The router passes no empty list, and the table gives no entry a weight below
one. -/
structure SelectCall where
  tableVersion : Nat
  modelName : String
  entries : List RoutingEntry
  ne_nil : entries ≠ []
  positive : ∀ e ∈ entries, e.weight ≠ 0

inductive RotationAct
  | select (call : SelectCall)
  | reset (modelName : Option String)

/-- A call for one model whose list has an entry of weight one for each of the pods. -/
def SelectCall.ofPods (podIds : List String) (h : podIds ≠ []) : SelectCall where
  tableVersion := 1
  modelName := "llama"
  entries := podIds.map fun podId => ⟨podId, podId ++ ".pods", 8001, 1, 0⟩
  ne_nil := by simpa using h
  positive := by simp

namespace WeightedRoundRobin

/-- The empty name is no name. -/
def reset (rr : WeightedRoundRobin) : Option String → WeightedRoundRobin
  | some modelName =>
    if modelName = "" then ⟨∅, ∅⟩
    else ⟨rr.counters.erase modelName, rr.cachedWeighted.erase modelName⟩
  | none => ⟨∅, ∅⟩

def selectFor (rr : WeightedRoundRobin) (call : SelectCall) :
    Option RoutingEntry × WeightedRoundRobin :=
  rr.select call.tableVersion call.modelName call.entries

def step (rr : WeightedRoundRobin) : RotationAct → Option WeightedRoundRobin
  | .select call => some (rr.selectFor call).2
  | .reset modelName => some (rr.reset modelName)

/-- The round-robin after `n` more calls like this one. -/
def again (call : SelectCall) : Nat → WeightedRoundRobin → WeightedRoundRobin
  | 0, rr => rr
  | n + 1, rr => again call n (rr.selectFor call).2

/-- `select` returns a member of the list that it is given. -/
def Returns (rr : WeightedRoundRobin) (call : SelectCall) : Prop :=
  ∃ e ∈ call.entries, (rr.selectFor call).1 = some e

/-- The list is a single entry, or it has every entry of the list that is cached for its model and
this version of the table, if one is. -/
def Covers (rr : WeightedRoundRobin) (call : SelectCall) : Prop :=
  call.entries.length = 1 ∨ ∀ cached,
    rr.cachedWeighted.lookup call.modelName = some (cached, call.tableVersion) →
      ∀ e ∈ cached, e ∈ call.entries

/-- What the calls of one model return, among calls for any models. -/
def picks (modelName : String) : WeightedRoundRobin → List SelectCall → List (Option RoutingEntry)
  | _, [] => []
  | rr, call :: calls =>
    if call.modelName = modelName then
      (rr.selectFor call).1 :: picks modelName (rr.selectFor call).2 calls
    else picks modelName (rr.selectFor call).2 calls

/-- While the version of the table is one, the calls for the model pass one list. -/
def Steady (modelName : String) (acts : List RotationAct) : Prop :=
  ∀ c d, .select c ∈ acts → .select d ∈ acts → c.modelName = modelName → d.modelName = modelName →
    c.tableVersion = d.tableVersion → c.entries = d.entries

/-- What is cached for the model was made of the list of a call, under the version of that call. -/
def MadeOf (modelName : String) (acts : List RotationAct) (rr : WeightedRoundRobin) : Prop :=
  ∀ cached version, rr.cachedWeighted.lookup modelName = some (cached, version) →
    ∃ call, .select call ∈ acts ∧ call.modelName = modelName ∧ call.tableVersion = version ∧
      cached = weighted call.entries

def counter (rr : WeightedRoundRobin) (modelName : String) : Nat :=
  (rr.counters.lookup modelName).getD 0

variable {rr : WeightedRoundRobin} {call : SelectCall} {modelName : String}

theorem weighted_ne_nil (call : SelectCall) : weighted call.entries ≠ [] := by
  obtain ⟨e, he⟩ := List.exists_mem_of_ne_nil _ call.ne_nil
  exact List.ne_nil_of_mem (mem_weighted.mpr ⟨he, call.positive e he⟩)

theorem selectFor_single {e : RoutingEntry} (h : call.entries = [e]) :
    rr.selectFor call = (some e, rr) := by
  rw [selectFor, h]
  rfl

/-- With more entries than one `select` takes a turn round the cached list. -/
theorem selectFor_turn (h : call.entries.length ≠ 1) :
    let cached := rr.cachedFor call.tableVersion call.modelName call.entries
    rr.selectFor call = ((Rotation.turn cached (rr.counter call.modelName)).1,
      { counters := rr.counters.setItem call.modelName
          (Rotation.turn cached (rr.counter call.modelName)).2
        cachedWeighted := rr.cachedWeighted.setItem call.modelName
          (cached, call.tableVersion) }) := by
  rw [selectFor]
  match hentries : call.entries with
  | [] => rfl
  | [e] => exact absurd (congrArg List.length hentries) h
  | e :: e' :: es => rfl

/-- The list that is cached for a model is not empty. -/
def Filled (rr : WeightedRoundRobin) : Prop :=
  ∀ modelName cached version,
    rr.cachedWeighted.lookup modelName = some (cached, version) → cached ≠ []

theorem cachedFor_ne_nil (hfilled : rr.Filled) (call : SelectCall) :
    rr.cachedFor call.tableVersion call.modelName call.entries ≠ [] := by
  unfold cachedFor
  split
  case h_1 cached version hcached =>
    split_ifs
    · exact hfilled _ _ _ hcached
    · exact weighted_ne_nil call
  case h_2 => exact weighted_ne_nil call

theorem filled_step (hfilled : rr.Filled) {rr' : WeightedRoundRobin} {act : RotationAct}
    (h : rr.step act = some rr') : rr'.Filled := by
  cases act with
  | reset modelName =>
    cases h
    intro m cached version hcached
    unfold reset at hcached
    split at hcached
    case h_1 modelName =>
      split_ifs at hcached
      · cases hcached
      · exact hfilled m cached version (Dict.lookup_erase_some hcached).2
    case h_2 => cases hcached
  | select call =>
    cases h
    by_cases hlen : call.entries.length = 1
    · obtain ⟨e, he⟩ := List.length_eq_one_iff.mp hlen
      rw [selectFor_single he]
      exact hfilled
    · rw [selectFor_turn hlen]
      intro m cached version hcached
      rcases Dict.lookup_setItem_some hcached with ⟨-, heq⟩ | hcached
      · cases heq
        exact cachedFor_ne_nil hfilled call
      · exact hfilled m cached version hcached

theorem filled_run {acts : List RotationAct} (h : run step ⟨∅, ∅⟩ acts = some rr) : rr.Filled :=
  run_invariant (I := Filled) (fun _ _ _ hfilled ht => filled_step hfilled ht)
    (fun _ _ _ hcached => by cases hcached) h

theorem cachedFor_selectFor (h : call.entries.length ≠ 1) :
    (rr.selectFor call).2.cachedFor call.tableVersion call.modelName call.entries =
      rr.cachedFor call.tableVersion call.modelName call.entries := by
  rw [selectFor_turn h, cachedFor]
  simp

theorem counter_selectFor (h : call.entries.length ≠ 1) :
    (rr.selectFor call).2.counter call.modelName =
      (Rotation.turn (rr.cachedFor call.tableVersion call.modelName call.entries)
        (rr.counter call.modelName)).2 := by
  rw [selectFor_turn h, counter]
  simp

theorem again_single (h : call.entries.length = 1) (n : Nat) : again call n rr = rr := by
  obtain ⟨e, he⟩ := List.length_eq_one_iff.mp h
  induction n with
  | zero => rfl
  | succ n ih => rw [again, selectFor_single he, ih]

/-- The same call again and again goes round one cached list. -/
theorem selectFor_again (h : call.entries.length ≠ 1) (n : Nat) :
    let cached := rr.cachedFor call.tableVersion call.modelName call.entries
    ((again call n rr).selectFor call).1 =
      (Rotation.turn cached (Rotation.after cached (rr.counter call.modelName) n)).1 := by
  induction n generalizing rr with
  | zero =>
    rw [again, selectFor_turn h]
    rfl
  | succ n ih =>
    rw [again, ih, cachedFor_selectFor h, counter_selectFor h]
    rfl

/-- A list that is made anew has entries of the call only. -/
theorem covers_iff (h : call.entries.length ≠ 1) :
    rr.Covers call ↔
      ∀ e ∈ rr.cachedFor call.tableVersion call.modelName call.entries, e ∈ call.entries := by
  have hfresh : ∀ e ∈ weighted call.entries, e ∈ call.entries := fun e he => (mem_weighted.mp he).1
  rw [Covers, or_iff_right h, cachedFor]
  cases hcached : rr.cachedWeighted.lookup call.modelName with
  | none => simpa using hfresh
  | some made =>
    obtain ⟨cached, version⟩ := made
    by_cases hversion : version = call.tableVersion
    · simp [hversion]
    · simpa [hversion] using hfresh

theorem returns_of_covers (hfilled : rr.Filled) (h : rr.Covers call) (n : Nat) :
    (again call n rr).Returns call := by
  by_cases hlen : call.entries.length = 1
  · obtain ⟨e, he⟩ := List.length_eq_one_iff.mp hlen
    refine ⟨e, by simp [he], ?_⟩
    rw [again_single hlen, selectFor_single he]
  · obtain ⟨e, he, hturn⟩ := Rotation.exists_turn_eq (cachedFor_ne_nil hfilled call)
      (Rotation.after _ (rr.counter call.modelName) n)
    exact ⟨e, (covers_iff hlen).mp h e he, (selectFor_again hlen n).trans hturn⟩

/-- An entry of the cached list that is not among those of the call comes up in time. -/
theorem covers_of_returns (h : ∀ n, (again call n rr).Returns call) : rr.Covers call := by
  by_cases hlen : call.entries.length = 1
  · exact .inl hlen
  · apply (covers_iff hlen).mpr
    intro e he
    obtain ⟨n, hn⟩ := Rotation.exists_turn he (rr.counter call.modelName)
    obtain ⟨e', he', hreturn⟩ := h n
    rw [selectFor_again hlen n, hn] at hreturn
    cases hreturn
    exact he'

/-- Calls that all cover what is cached get members of their own lists, and a list that does not cover
it gets another entry sooner or later. -/
theorem select_returns_iff (acts : List RotationAct) :
    (Along step (fun rr act => ∀ call, act = .select call → rr.Covers call) ⟨∅, ∅⟩ acts →
      Along step (fun rr act => ∀ call, act = .select call → rr.Returns call) ⟨∅, ∅⟩ acts) ∧
    ∀ rr, run step ⟨∅, ∅⟩ acts = some rr → ∀ call,
      rr.Covers call ↔ ∀ n, (again call n rr).Returns call := by
  constructor
  · intro hcovers
    refine along_imp (I := Filled) ?_ (fun _ _ _ hfilled _ ht => filled_step hfilled ht)
      (fun _ _ _ hcached => by cases hcached) hcovers
    rintro rr act hfilled hcovers call rfl
    exact returns_of_covers hfilled (hcovers call rfl) 0
  · intro rr hrun call
    exact ⟨returns_of_covers (filled_run hrun), covers_of_returns⟩

/-- The second pod is broken after the first of the calls, and the second call selects it. -/
theorem select_returns_broken_pod :
    let all := SelectCall.ofPods ["a", "b", "c"] (by simp)
    let filtered := SelectCall.ofPods ["a", "c"] (by simp)
    ∃ rr, run step ⟨∅, ∅⟩ [.select all] = some rr ∧
      (rr.selectFor filtered).1 = some ⟨"b", "b.pods", 8001, 1, 0⟩ ∧ ¬rr.Returns filtered := by
  refine ⟨_, rfl, by decide, ?_⟩
  rintro ⟨e, he, hreturn⟩
  have hbroken : e = ⟨"b", "b.pods", 8001, 1, 0⟩ := (Option.some.inj hreturn).symm
  subst hbroken
  revert he
  decide

section Fairness

variable {acts : List RotationAct} {entries : List RoutingEntry}

theorem length_weighted (entries : List RoutingEntry) :
    (weighted entries).length = (entries.map (·.weight)).sum := by
  simp [weighted, List.length_flatMap]

theorem count_weighted {e : RoutingEntry} : (weighted entries).count e =
    entries.count e * e.weight := by
  induction entries with
  | nil => simp [weighted]
  | cons x entries ih =>
    have hcons : weighted (x :: entries) = List.replicate x.weight x ++ weighted entries := rfl
    rw [hcons, List.count_append, ih, List.count_replicate, List.count_cons, Nat.add_mul,
      Nat.add_comm]
    by_cases hx : x = e
    · subst hx
      simp
    · simp [hx]

theorem madeOf_selectFor (hmade : MadeOf modelName acts rr) (hmem : .select call ∈ acts) :
    MadeOf modelName acts (rr.selectFor call).2 := by
  by_cases hlen : call.entries.length = 1
  · obtain ⟨e, he⟩ := List.length_eq_one_iff.mp hlen
    rw [selectFor_single he]
    exact hmade
  · rw [selectFor_turn hlen]
    intro cached version hcached
    rcases Dict.lookup_setItem_some hcached with ⟨rfl, heq⟩ | hcached
    · cases heq
      unfold cachedFor
      split
      case h_1 cached version hold =>
        split_ifs with hversion
        · obtain ⟨c, hc⟩ := hmade cached version hold
          exact ⟨c, hversion ▸ hc⟩
        · exact ⟨call, hmem, rfl, rfl, rfl⟩
      case h_2 => exact ⟨call, hmem, rfl, rfl, rfl⟩
    · exact hmade cached version hcached

theorem madeOf_reset (hmade : MadeOf modelName acts rr) (name : Option String) :
    MadeOf modelName acts (rr.reset name) := by
  intro cached version hcached
  unfold reset at hcached
  split at hcached
  case h_1 =>
    split_ifs at hcached
    · cases hcached
    · exact hmade cached version (Dict.lookup_erase_some hcached).2
  case h_2 => cases hcached

theorem madeOf_run {before : List RotationAct} {rr' : WeightedRoundRobin}
    (hmade : MadeOf modelName acts rr) (hsub : ∀ act ∈ before, act ∈ acts)
    (hrun : run step rr before = some rr') : MadeOf modelName acts rr' := by
  refine run_invariant_along (C := fun _ act => act ∈ acts) ?_ hmade
    (along_of_mem (fun act hact _ => hsub act hact) rr) hrun
  intro rr act rr' hmade hact ht
  cases act with
  | select call =>
    cases ht
    exact madeOf_selectFor hmade hact
  | reset name =>
    cases ht
    exact madeOf_reset hmade name

/-- Under one list the model's cached list is made of it, whatever the version was when it was made. -/
theorem cachedFor_steady (hmade : MadeOf modelName acts rr) (hsteady : Steady modelName acts)
    (hmem : .select call ∈ acts) (hmodel : call.modelName = modelName) :
    rr.cachedFor call.tableVersion modelName call.entries = weighted call.entries := by
  unfold cachedFor
  split
  case h_1 cached version hcached =>
    split_ifs with hversion
    · obtain ⟨c, hc, hcm, hcv, rfl⟩ := hmade cached version hcached
      rw [hsteady c call hc hmem hcm hmodel (hcv.trans hversion)]
    · rfl
  case h_2 => rfl

theorem counter_selectFor_ne (h : call.modelName ≠ modelName) :
    (rr.selectFor call).2.counter modelName = rr.counter modelName := by
  by_cases hlen : call.entries.length = 1
  · obtain ⟨e, he⟩ := List.length_eq_one_iff.mp hlen
    rw [selectFor_single he]
  · rw [selectFor_turn hlen, counter, Dict.lookup_setItem, if_neg (Ne.symm h), counter]

theorem picks_single {e : RoutingEntry} {calls : List SelectCall}
    (hentries : ∀ call ∈ calls, call.modelName = modelName → call.entries = [e]) :
    picks modelName rr calls =
      List.replicate (calls.filter (·.modelName = modelName)).length (some e) := by
  induction calls generalizing rr with
  | nil => rfl
  | cons call calls ih =>
    have htail := fun c hc => hentries c (List.mem_cons_of_mem _ hc)
    rw [picks, ih htail]
    split_ifs with hmodel
    · rw [selectFor_single (hentries call List.mem_cons_self hmodel)]
      simp [hmodel, List.replicate_succ]
    · simp [hmodel]

/-- A window of calls under one list takes turns round its weighted list. -/
theorem picks_turns (hlen : entries.length ≠ 1) {calls : List SelectCall}
    (hsteady : Steady modelName acts) (hmade : MadeOf modelName acts rr)
    (hsub : ∀ call ∈ calls, .select call ∈ acts)
    (hentries : ∀ call ∈ calls, call.modelName = modelName → call.entries = entries) :
    picks modelName rr calls = Rotation.turns (weighted entries) (rr.counter modelName)
      (calls.filter (·.modelName = modelName)).length := by
  induction calls generalizing rr with
  | nil => rfl
  | cons call calls ih =>
    have hmem := hsub call List.mem_cons_self
    have hnext := ih (madeOf_selectFor hmade hmem) (fun c hc => hsub c (List.mem_cons_of_mem _ hc))
      fun c hc => hentries c (List.mem_cons_of_mem _ hc)
    rw [picks, hnext]
    split_ifs with hmodel
    · have hcall := hentries call List.mem_cons_self hmodel
      have hlist := cachedFor_steady hmade hsteady hmem hmodel
      have hturn : rr.selectFor call = _ := selectFor_turn (hcall ▸ hlen)
      have hcounter : (rr.selectFor call).2.counter call.modelName = _ :=
        counter_selectFor (hcall ▸ hlen)
      rw [hmodel, hlist, hcall] at hturn hcounter
      rw [List.filter_cons_of_pos (by simpa using hmodel), List.length_cons, Rotation.turns,
        hcounter, hturn]
    · rw [counter_selectFor_ne hmodel, List.filter_cons_of_neg (by simpa using hmodel)]

/-- As many calls for the model as the weights of its list are together pick each entry as often as
its weight says, wherever the counter stands at the first of them. -/
theorem picks_fair {counters : Dict String Nat} {before : List RotationAct}
    {calls : List SelectCall} (hrun : run step ⟨counters, ∅⟩ before = some rr)
    (hsteady : Steady modelName (before ++ calls.map .select))
    (hentries : ∀ call ∈ calls, call.modelName = modelName → call.entries = entries)
    (hwindow : (calls.filter (·.modelName = modelName)).length = (entries.map (·.weight)).sum) :
    (picks modelName rr calls).Perm ((weighted entries).map some) ∧
      ∀ e ∈ entries, entries.count e = 1 → (picks modelName rr calls).count (some e) = e.weight := by
  have hperm : (picks modelName rr calls).Perm ((weighted entries).map some) := by
    by_cases hlen : entries.length = 1
    · obtain ⟨e, rfl⟩ := List.length_eq_one_iff.mp hlen
      rw [picks_single hentries, hwindow]
      simp [weighted]
    · have hmade : MadeOf modelName (before ++ calls.map .select) rr :=
        madeOf_run (fun _ _ hcached => by cases hcached)
          (fun _ hact => List.mem_append_left _ hact) hrun
      rw [picks_turns hlen hsteady hmade
        (fun call hc => List.mem_append_right _ (List.mem_map_of_mem hc)) hentries, hwindow,
        ← length_weighted]
      exact Rotation.turns_perm _ _
  refine ⟨hperm, fun e _ hone => ?_⟩
  rw [hperm.count_eq, List.count_map_of_injective _ _ (Option.some_injective _), count_weighted,
    hone, Nat.one_mul]

/-- A counter left over from a longer list, and a version of the table that changes midway. -/
theorem picks_fair_stale :
    let entries := [("a", 2), ("b", 1)].map fun x => (⟨x.1, x.1, 8001, x.2, 0⟩ : RoutingEntry)
    let call (tableVersion : Nat) : SelectCall :=
      ⟨tableVersion, "llama", entries, by decide, by decide⟩
    let rr : WeightedRoundRobin := ⟨(AList.singleton "llama" 7 : Dict String Nat), ∅⟩
    (picks "llama" rr [call 1, call 1, call 2]).Perm ((weighted entries).map some) := by
  have hstart : run step ⟨(AList.singleton "llama" 7 : Dict String Nat), ∅⟩ [] = some _ := rfl
  refine (picks_fair hstart ?_ ?_ (by decide)).1
  · intro c d hc hd _ _ _
    simp only [List.nil_append, List.mem_map, List.mem_cons, List.not_mem_nil, or_false,
      RotationAct.select.injEq, exists_eq_right] at hc hd
    rcases hc with rfl | rfl | rfl <;> rcases hd with rfl | rfl | rfl <;> rfl
  · intro c hc _
    simp only [List.mem_cons, List.not_mem_nil, or_false] at hc
    rcases hc with rfl | rfl | rfl <;> rfl

end Fairness

end WeightedRoundRobin

end GpuSharing.Sardeenz.ClusterRouting
