import GpuSharing.Sardeenz.InstanceActivation

namespace GpuSharing.Sardeenz.InstanceActivation

open Transition

namespace ActivationState

/-- Some call of the model has set its target routable at its end. -/
def SomeDone (s : ActivationState) (modelName : String) : Prop :=
  ∃ c ∈ s.calls, c.modelName = modelName ∧ c.pc = .done

instance (s : ActivationState) (modelName : String) : Decidable (s.SomeDone modelName) :=
  inferInstanceAs (Decidable (∃ c ∈ s.calls, _ ∧ _))

theorem someDone_iff {s : ActivationState} {modelName : String} : s.SomeDone modelName ↔
    ∃ (k : Nat) (c : ActivateCall), s.calls[k]? = some c ∧ c.modelName = modelName ∧ c.pc = .done := by
  constructor
  · rintro ⟨c, hc, hdone⟩
    obtain ⟨k, hk⟩ := List.mem_iff_getElem?.mp hc
    exact ⟨k, c, hk, hdone⟩
  · rintro ⟨k, c, hk, hdone⟩
    exact ⟨c, List.mem_of_getElem? hk, hdone⟩

/-- Some call of the model is open that has found a sibling routable. -/
def SomeTaker (s : ActivationState) (modelName : String) : Prop :=
  ∃ (k : Nat) (c : ActivateCall),
    s.calls[k]? = some c ∧ c.modelName = modelName ∧ c.isOpen = true ∧ c.anyRoutable = true

/-- What holds between the steps of orderly calls. `served` says which models had exactly one routable
instance at first. -/
structure Settled (served : String → Prop) (s : ActivationState) : Prop where
  knows : ∀ (k : Nat) (c : ActivateCall), s.calls[k]? = some c → s.Knows c
  atMost : ∀ modelName, served modelName ∨ s.SomeDone modelName →
    ∀ i j, s.Serves modelName i → s.Serves modelName j → i = j
  atLeast : ∀ modelName, served modelName ∨ s.SomeDone modelName →
    (∃ i, s.Serves modelName i) ∨ s.SomeTaker modelName
  kept : ∀ (k : Nat) (c : ActivateCall), s.calls[k]? = some c → c.anyRoutable = false →
    c.pc ≠ .woken → c.pc ≠ .done → ∀ id, s.routableOf id = c.without id
  failed : ∀ (k : Nat) (c : ActivateCall), s.calls[k]? = some c →
    ∀ error, c.pc = .failed error → c.anyRoutable = false

/-- A call that has gone on has kept what it knows. -/
structure SameCall (c c' : ActivateCall) : Prop where
  target : c'.target = c.target
  modelName : c'.modelName = c.modelName
  siblings : c'.siblings = c.siblings
  anyRoutable : c'.anyRoutable = c.anyRoutable
  without : c'.without = c.without

section Steps

variable {served : String → Prop} {s t u : ActivationState} {k : Nat} {c c' : ActivateCall}
  {id modelName : String}

theorem SameRouting.serves (h : s.SameRouting u) :
    u.Serves modelName id ↔ s.Serves modelName id := by
  rw [Serves, Serves, h.names, h.routable]

theorem Knows.congr (hknows : s.Knows c) (hnames : ∀ id, u.nameOf id = s.nameOf id)
    (hcall : SameCall c c') : u.Knows c' where
  target := by rw [hcall.target, hcall.modelName, hnames, hknows.target]
  siblings id := by rw [hcall.target, hcall.modelName, hcall.siblings, hnames, hknows.siblings]

theorem sameCall_refl : SameCall c c := ⟨rfl, rfl, rfl, rfl, rfl⟩

theorem note_nil (c : ActivateCall) (b : Bool) : c.note [] b = c := by simp [ActivateCall.note]

/-- The `k`-th call comes to be `c`, after which these instances are as routable as it has set them. -/
structure Moves (s t : ActivationState) (k : Nat) (c : ActivateCall) (ids : List String) (b : Bool) :
    Prop where
  names : ∀ i, t.nameOf i = s.nameOf i
  routable : ∀ i, t.routableOf i = if i ∈ ids then b else s.routableOf i
  calls : ∀ j, t.calls[j]? = if j = k then some c else (s.calls[j]?).map fun d => d.note ids b

variable {ids : List String} {b : Bool}

theorem Moves.cases (hmoves : Moves s t k c ids b) {j : Nat} {d : ActivateCall}
    (hd : t.calls[j]? = some d) :
    j = k ∧ d = c ∨ j ≠ k ∧ ∃ e, s.calls[j]? = some e ∧ d = e.note ids b := by
  rw [hmoves.calls] at hd
  split_ifs at hd with hj
  · cases hd
    exact .inl ⟨hj, rfl⟩
  · obtain ⟨e, he, rfl⟩ := Option.map_eq_some_iff.mp hd
    exact .inr ⟨hj, e, he, rfl⟩

theorem Moves.someDone (hmoves : Moves s t k c ids b) (h : t.SomeDone modelName) :
    s.SomeDone modelName ∨ c.modelName = modelName ∧ c.pc = .done := by
  obtain ⟨j, d, hd, hmodel, hdone⟩ := someDone_iff.mp h
  rcases hmoves.cases hd with ⟨-, rfl⟩ | ⟨-, e, he, rfl⟩
  · exact .inr ⟨hmodel, hdone⟩
  · exact .inl (someDone_iff.mpr ⟨j, e, he, hmodel, hdone⟩)

theorem Moves.someTaker (hmoves : Moves s t k c ids b) {j : Nat} {d : ActivateCall} (hj : j ≠ k)
    (hd : s.calls[j]? = some d) (hmodel : d.modelName = modelName) (hopen : d.isOpen = true)
    (htaker : d.anyRoutable = true) : t.SomeTaker modelName :=
  ⟨j, d.note ids b, by rw [hmoves.calls, if_neg hj, hd]; rfl, hmodel, hopen, htaker⟩

/-- What the other calls know and note is kept. -/
theorem Settled.move (h : s.Settled served) (hmoves : Moves s t k c ids b) (hknows : s.Knows c)
    (hkept : c.anyRoutable = false → c.pc ≠ .woken → c.pc ≠ .done →
      ∀ i, t.routableOf i = c.without i)
    (hfailed : ∀ error, c.pc = .failed error → c.anyRoutable = false)
    (hmost : ∀ m, served m ∨ t.SomeDone m → ∀ i j, t.Serves m i → t.Serves m j → i = j)
    (hleast : ∀ m, served m ∨ t.SomeDone m → (∃ i, t.Serves m i) ∨ t.SomeTaker m) :
    t.Settled served where
  knows j d hd := by
    rcases hmoves.cases hd with ⟨-, rfl⟩ | ⟨-, e, he, rfl⟩
    · exact hknows.congr hmoves.names sameCall_refl
    · exact ⟨(hmoves.names _).trans (h.knows j e he).target, fun i => by
        rw [hmoves.names]
        exact (h.knows j e he).siblings i⟩
  atMost := hmost
  atLeast := hleast
  kept j d hd hany hwoken hdone i := by
    rcases hmoves.cases hd with ⟨-, rfl⟩ | ⟨-, e, he, rfl⟩
    · exact hkept hany hwoken hdone i
    · rw [hmoves.routable, h.kept j e he hany hwoken hdone i]
      rfl
  failed j d hd error hpc := by
    rcases hmoves.cases hd with ⟨-, rfl⟩ | ⟨-, e, he, rfl⟩
    · exact hfailed error hpc
    · exact h.failed j e he error hpc

/-- A step of an open call that changes no routability: the call goes on, or fails as it may. -/
theorem Settled.setCall (h : s.Settled served) (hsame : s.SameRouting u) (hcalls : u.calls = s.calls)
    (hk : s.calls[k]? = some c) (hopen : c.isOpen = true) (hcall : SameCall c c')
    (hdone : c'.pc ≠ .done) (hwoken : c.pc = .woken → c'.pc = .woken)
    (hfails : c'.isOpen = true ∨ c.anyRoutable = false) : (u.setCall k c').Settled served := by
  have hmoves : Moves s (u.setCall k c') k c' [] false := by
    refine ⟨hsame.names, hsame.routable, fun j => ?_⟩
    rw [calls_setCall (hcalls ▸ hk), hcalls]
    simp [note_nil]
  have hserves : ∀ m i, (u.setCall k c').Serves m i ↔ s.Serves m i := fun m i => hsame.serves
  have hearlier : ∀ m, served m ∨ (u.setCall k c').SomeDone m → served m ∨ s.SomeDone m :=
    fun m hm => hm.imp_right fun hd => (hmoves.someDone hd).resolve_right fun hd => hdone hd.2
  refine h.move hmoves ((h.knows k c hk).congr (fun _ => rfl) hcall) ?_ ?_ ?_ ?_
  · intro hany hw _ i
    have hcdone : c.pc ≠ .done := by
      intro hpc
      simp [ActivateCall.isOpen, hpc] at hopen
    rw [hmoves.routable, if_neg List.not_mem_nil, hcall.without]
    exact h.kept k c hk (hcall.anyRoutable.symm.trans hany) (fun hpc => hw (hwoken hpc)) hcdone i
  · intro error hpc
    rw [hcall.anyRoutable]
    exact hfails.resolve_left (by simp [ActivateCall.isOpen, hpc])
  · intro m hm i j hi hj
    exact h.atMost m (hearlier m hm) i j ((hserves m i).mp hi) ((hserves m j).mp hj)
  · intro m hm
    rcases h.atLeast m (hearlier m hm) with ⟨i, hi⟩ | ⟨j, d, hd, hmodel, hdopen, htaker⟩
    · exact .inl ⟨i, (hserves m i).mpr hi⟩
    · by_cases hj : j = k
      · subst hj
        rw [hk] at hd
        cases hd
        exact .inr ⟨j, c', by rw [hmoves.calls, if_pos rfl], hcall.modelName.trans hmodel,
          hfails.resolve_right (by simp [htaker]), hcall.anyRoutable.trans htaker⟩
      · exact .inr (hmoves.someTaker hj hd hmodel hdopen htaker)

/-- An open call that has not woken its target goes on. -/
theorem Settled.goesOn (h : s.Settled served) (hsame : s.SameRouting u) (hcalls : u.calls = s.calls)
    (hk : s.calls[k]? = some c) (hopen : c.isOpen = true) (hwoken : c.pc ≠ .woken)
    (hcall : SameCall c c') (hopen' : c'.isOpen = true) : (u.setCall k c').Settled served := by
  refine h.setCall hsame hcalls hk hopen hcall ?_ (fun hpc => absurd hpc hwoken) (.inl hopen')
  intro hdone
  simp [ActivateCall.isOpen, hdone] at hopen'

/-- It fails, where no sibling was routable. -/
theorem Settled.fails (h : s.Settled served) (hk : s.calls[k]? = some c) (hopen : c.isOpen = true)
    (hwoken : c.pc ≠ .woken) (hcall : SameCall c c') (hnone : c.anyRoutable = false)
    (error : ManagerError) : (s.setCall k { c' with pc := .failed error }).Settled served :=
  h.setCall ⟨fun _ => rfl, fun _ => rfl⟩ rfl hk hopen
    ⟨hcall.1, hcall.2, hcall.3, hcall.4, hcall.5⟩ (by simp) (fun hpc => absurd hpc hwoken)
    (.inr hnone)

/-- A step that sets the call's target routable while its siblings are not. -/
theorem Settled.make (h : s.Settled served) (hnames : ∀ i, u.nameOf i = s.nameOf i)
    (hothers : ∀ i, i ≠ c.target → u.routableOf i = s.routableOf i) (hcalls : u.calls = s.calls)
    (hk : s.calls[k]? = some c) (hrest : s.SiblingsRest c) (hcall : SameCall c c')
    (hpc : c'.pc = .woken ∨ c'.pc = .done) :
    ((u.setRoutable k [c.target] true).setCall k c').Settled served := by
  have hknows := h.knows k c hk
  have htarget : (u.get c.target).isSome := by
    have hsome := hnames c.target
    rw [hknows.target, nameOf, Option.map_eq_some_iff] at hsome
    obtain ⟨x, hx, -⟩ := hsome
    simp [hx]
  have hmoves : Moves s ((u.setRoutable k [c.target] true).setCall k c') k c' [c.target] true := by
    refine ⟨fun i => (nameOf_setRoutable (k := k)).trans (hnames i), fun i => ?_, fun j => ?_⟩
    · refine (routableOf_setRoutable (s := u) (k := k)).trans ?_
      by_cases hi : i = c.target
      · subst hi
        simp [htarget]
      · simp [hi, hothers i hi]
    · have hk' : (u.setRoutable k [c.target] true).calls[k]? = some c := by
        rw [calls_setRoutable, hcalls, hk]
        simp
      rw [calls_setCall hk', calls_setRoutable, hcalls]
      split_ifs <;> rfl
  generalize (u.setRoutable k [c.target] true).setCall k c' = t at hmoves ⊢
  have hother : ∀ m i, m ≠ c.modelName → (t.Serves m i ↔ s.Serves m i) := by
    intro m i hm
    rw [Serves, Serves, hmoves.names, hmoves.routable]
    refine and_congr_right fun hi => ?_
    have hne : i ∉ [c.target] := by
      rintro hi'
      rw [List.mem_singleton.mp hi', hknows.target] at hi
      exact hm (Option.some.inj hi).symm
    rw [if_neg hne]
  have hown : ∀ i, t.Serves c.modelName i ↔ i = c.target := by
    intro i
    rw [Serves, hmoves.names, hmoves.routable]
    simp only [List.mem_singleton]
    constructor
    · rintro ⟨hi, hserves⟩
      by_contra hne
      rw [if_neg hne, siblingsRest_iff.mp hrest i ((hknows.siblings i).mpr ⟨hi, hne⟩)] at hserves
      cases hserves
    · rintro rfl
      exact ⟨hknows.target, if_pos rfl⟩
  -- a call of another model that is done was so before
  have hearlier : ∀ m, m ≠ c.modelName → served m ∨ t.SomeDone m → served m ∨ s.SomeDone m :=
    fun m hm hd => hd.imp_right fun hd => (hmoves.someDone hd).resolve_right fun hd =>
      hm (hd.1.symm.trans hcall.modelName)
  refine h.move hmoves (hknows.congr (fun _ => rfl) hcall)
    (fun _ hwoken hdone => (hpc.elim hwoken hdone).elim) ?_ ?_ ?_
  · intro error herror
    rcases hpc with hpc | hpc <;> simp [hpc] at herror
  · intro m hm i j hi hj
    by_cases hmodel : m = c.modelName
    · subst hmodel
      rw [(hown i).mp hi, (hown j).mp hj]
    · exact h.atMost m (hearlier m hmodel hm) i j ((hother m i hmodel).mp hi)
        ((hother m j hmodel).mp hj)
  · intro m hm
    by_cases hmodel : m = c.modelName
    · subst hmodel
      exact .inl ⟨c.target, (hown _).mpr rfl⟩
    · rcases h.atLeast m (hearlier m hmodel hm) with ⟨i, hi⟩ | ⟨j, d, hd, hdmodel, hdopen, htaker⟩
      · exact .inl ⟨i, (hother m i hmodel).mpr hi⟩
      · have hj : j ≠ k := by
          rintro rfl
          rw [hk] at hd
          cases hd
          exact hmodel hdmodel.symm
        exact .inr (hmoves.someTaker hj hd hdmodel hdopen htaker)

theorem mem_newCall_siblings {target : ManagedInstance} {options : ActivateOptions} :
    id ∈ (s.newCall target options).siblings ↔
      s.nameOf id = some target.modelName ∧ id ≠ target.id := by
  simp only [newCall, getAllByName, List.mem_map, List.mem_filter, decide_eq_true_eq]
  constructor
  · rintro ⟨x, ⟨⟨hx, hname⟩, hne⟩, rfl⟩
    exact ⟨by simp [nameOf, get_of_mem hx, hname], hne⟩
  · rintro ⟨hid, hne⟩
    obtain ⟨x, hx, hname⟩ := Option.map_eq_some_iff.mp hid
    obtain ⟨hmem, rfl⟩ := get_mem hx
    exact ⟨x, ⟨⟨hmem, hname⟩, hne⟩, rfl⟩

theorem newCall_anyRoutable {target : ManagedInstance} {options : ActivateOptions} :
    (s.newCall target options).anyRoutable = true ↔
      ∃ id ∈ (s.newCall target options).siblings, s.routableOf id = true := by
  simp only [newCall, List.any_eq_true, List.mem_map]
  constructor
  · rintro ⟨x, hx, hroutable⟩
    have hmem : x ∈ s.instances := List.mem_of_mem_filter (List.mem_of_mem_filter hx)
    exact ⟨x.id, ⟨x, hx, rfl⟩, by simpa [routableOf, get_of_mem hmem] using hroutable⟩
  · rintro ⟨id, ⟨x, hx, rfl⟩, hroutable⟩
    have hmem : x ∈ s.instances := List.mem_of_mem_filter (List.mem_of_mem_filter hx)
    exact ⟨x, hx, by simpa [routableOf, get_of_mem hmem] using hroutable⟩

theorem calls_standBy (j : Nat) : (s.standBy c).calls[j]? =
    if j = s.calls.length then some c else (s.calls[j]?).map fun d => d.note c.siblings false := by
  have hlen : (s.setRoutable s.calls.length c.siblings false).calls.length = s.calls.length := by
    simp [setRoutable]
  rw [standBy]
  dsimp only
  by_cases hj : j = s.calls.length
  · subst hj
    rw [if_pos rfl, List.getElem?_append_right hlen.le, hlen, Nat.sub_self]
    rfl
  · rw [if_neg hj]
    by_cases hlt : j < s.calls.length
    · rw [List.getElem?_append_left (by omega), calls_setRoutable]
      simp only [hj, if_false]
    · rw [List.getElem?_eq_none (by simp only [List.length_append, hlen, List.length_singleton]; omega),
        List.getElem?_eq_none (by omega)]
      rfl

/-- A call begins: if it takes the model's routable instance away, it is open. -/
theorem Settled.standBy (h : s.Settled served) {target : ManagedInstance}
    (hget : s.get id = some target) (options : ActivateOptions) :
    (s.standBy (s.newCall target options)).Settled served := by
  obtain ⟨-, rfl⟩ := get_mem hget
  have hmodel : (s.newCall target options).modelName = target.modelName := rfl
  have htarget : (s.newCall target options).target = target.id := rfl
  have hpc : (s.newCall target options).pc = .draining [] := rfl
  have hwithout : (s.newCall target options).without = s.routableOf := rfl
  have hsiblings : ∀ i, i ∈ (s.newCall target options).siblings ↔
      s.nameOf i = some target.modelName ∧ i ≠ target.id := fun i => mem_newCall_siblings
  have htaken : (s.newCall target options).anyRoutable = true ↔
      ∃ i ∈ (s.newCall target options).siblings, s.routableOf i = true := newCall_anyRoutable
  generalize s.newCall target options = c at *
  have hmoves : Moves s (s.standBy c) s.calls.length c c.siblings false :=
    ⟨fun i => nameOf_setRoutable (k := s.calls.length), fun i =>
      (routableOf_setRoutable (s := s) (k := s.calls.length)).trans (by simp), calls_standBy⟩
  generalize s.standBy c = t at hmoves ⊢
  have hknows : s.Knows c := by
    refine ⟨?_, fun i => by rw [hsiblings, hmodel, htarget]⟩
    rw [htarget, hmodel, nameOf, hget]
    rfl
  have hserves : ∀ m i, t.Serves m i → s.Serves m i := by
    rintro m i ⟨hi, hr⟩
    rw [hmoves.names] at hi
    rw [hmoves.routable] at hr
    split_ifs at hr
    exact ⟨hi, hr⟩
  have hearlier : ∀ m, served m ∨ t.SomeDone m → served m ∨ s.SomeDone m :=
    fun m hm => hm.imp_right fun hd => (hmoves.someDone hd).resolve_right fun hd => by
      simp [hpc] at hd
  refine h.move hmoves hknows ?_ (fun error herror => by simp [hpc] at herror) ?_ ?_
  · intro hany _ _ i
    rw [hmoves.routable, hwithout]
    split_ifs with hmem
    · by_contra hr
      have hr' : s.routableOf i = true := by simpa using Ne.symm hr
      simp [htaken.mpr ⟨i, hmem, hr'⟩] at hany
    · rfl
  · intro m hm i j hi hj
    exact h.atMost m (hearlier m hm) i j (hserves m i hi) (hserves m j hj)
  · intro m hm
    rcases h.atLeast m (hearlier m hm) with ⟨i, hi, hr⟩ | ⟨j, d, hd, hdmodel, hdopen, htaker⟩
    · by_cases hmem : i ∈ c.siblings
      · have hm' : c.modelName = m := by
          rw [hmodel]
          exact Option.some.inj (((hsiblings i).mp hmem).1.symm.trans hi)
        exact .inr ⟨s.calls.length, c, by rw [hmoves.calls, if_pos rfl], hm',
          by rw [ActivateCall.isOpen, hpc], htaken.mpr ⟨i, hmem, hr⟩⟩
      · exact .inl ⟨i, (hmoves.names i).trans hi, by rw [hmoves.routable, if_neg hmem, hr]⟩
    · have hj : j ≠ s.calls.length := by
        rintro rfl
        simp at hd
      exact .inr (hmoves.someTaker hj hd hdmodel hdopen htaker)

/-- The call takes what it has come to. -/
theorem Settled.proceed (h : s.Settled served) (hk : s.calls[k]? = some c) (hopen : c.isOpen = true)
    (hcall : SameCall c c') {next : Continuation} (hallowed : s.Allowed c next)
    (hwoken : c.pc = .woken → next = .finish ∨ ∃ error, next = .fail error) :
    (s.proceed k c' next).Settled served := by
  cases next with
  | sleep id ids =>
    exact h.goesOn ⟨fun _ => rfl, fun _ => rfl⟩ rfl hk hopen (fun hpc => by simpa using hwoken hpc)
      ⟨hcall.1, hcall.2, hcall.3, hcall.4, hcall.5⟩ rfl
  | wake =>
    exact h.goesOn ⟨fun _ => rfl, fun _ => rfl⟩ rfl hk hopen (fun hpc => by simpa using hwoken hpc)
      ⟨hcall.1, hcall.2, hcall.3, hcall.4, hcall.5⟩ rfl
  | fail error => exact h.fails hk hopen hallowed.2 hcall hallowed.1 error
  | finish =>
    have hsame : s.SameRouting (s.update c.target
        (fun x => { x with lastActivityAt := some s.now }) fun _ => rfl) :=
      sameRouting_update (fun _ => rfl) fun _ => rfl
    have hdone : SameCall c { c' with pc := .done } :=
      ⟨hcall.1, hcall.2, hcall.3, hcall.4, hcall.5⟩
    have hmade := h.make hsame.names (fun i _ => hsame.routable i) rfl hk hallowed hdone (.inr rfl)
    simpa only [ActivationState.proceed, hcall.target] using hmade

theorem checkTarget_cases (s : ActivationState) (target : String) :
    s.checkTarget target = .finish ∨ ∃ error, s.checkTarget target = .fail error := by
  unfold checkTarget
  split
  case h_1 x hx =>
    split_ifs
    · exact .inl rfl
    · exact .inr ⟨_, rfl⟩
  case h_2 => exact .inr ⟨_, rfl⟩

theorem Settled.activate (h : s.Settled served) {options : ActivateOptions}
    (horderly : s.Orderly (.activate id options)) : (s.activate id options).Settled served := by
  unfold ActivationState.activate
  cases hget : s.get id with
  | none => exact h
  | some target =>
    have hstood := h.standBy hget options
    have hlast : (s.standBy (s.newCall target options)).calls[s.calls.length]? =
        some (s.newCall target options) := by rw [calls_standBy, if_pos rfl]
    dsimp only
    split_ifs with hwait
    · exact hstood.goesOn ⟨fun _ => rfl, fun _ => rfl⟩ rfl hlast rfl (fun hpc => by cases hpc)
        ⟨rfl, rfl, rfl, rfl, rfl⟩ rfl
    · have hallowed := (horderly target (by simp [hget])).resolve_left hwait
      exact hstood.proceed hlast rfl sameCall_refl hallowed fun hpc => by cases hpc

theorem Settled.answerSleep (h : s.Settled served) (hk : s.calls[k]? = some c) {ids : List String}
    (hpc : c.pc = .sleeping id ids) {result : FetchResult} (hallowed : AllowedAnswer c result) :
    (s.answerSleep k c id ids result).Settled served := by
  have hopen : c.isOpen = true := by rw [ActivateCall.isOpen, hpc]
  have hwoken : c.pc ≠ .woken := by simp [hpc]
  cases result with
  | ok =>
    exact h.goesOn (sameRouting_update (fun _ => rfl) fun _ => rfl) rfl hk hopen hwoken
      ⟨rfl, rfl, rfl, rfl, rfl⟩ rfl
  | refused errorText => exact h.fails hk hopen hwoken sameCall_refl hallowed _
  | thrown message => exact h.fails hk hopen hwoken sameCall_refl hallowed _

theorem Settled.answerWake (h : s.Settled served) (hk : s.calls[k]? = some c)
    (hpc : c.pc = .waking) {result : FetchResult} (hallowed : AllowedAnswer c result) :
    (s.answerWake k c result).Settled served := by
  have hopen : c.isOpen = true := by rw [ActivateCall.isOpen, hpc]
  have hwoken : c.pc ≠ .woken := by simp [hpc]
  cases result with
  | ok =>
    exact h.goesOn ⟨fun _ => rfl, fun _ => rfl⟩ rfl hk hopen hwoken ⟨rfl, rfl, rfl, rfl, rfl⟩ rfl
  | refused errorText => exact h.fails hk hopen hwoken sameCall_refl hallowed _
  | thrown message => exact h.fails hk hopen hwoken sameCall_refl hallowed _

theorem Settled.wakeTarget (h : s.Settled served) (hk : s.calls[k]? = some c)
    (hrest : s.SiblingsRest c) : (s.wakeTarget k c).Settled served :=
  h.make (nameOf_update fun _ => rfl) (fun _ hi => routableOf_update (.inl hi)) rfl hk hrest
    ⟨rfl, rfl, rfl, rfl, rfl⟩ (.inl rfl)

theorem settled_step (h : s.Settled served) {act : ActivateAct} (horderly : s.Orderly act)
    (hstep : s.step act = some t) : t.Settled served := by
  cases act with
  | activate id options =>
    cases hstep
    exact h.activate horderly
  | drained k =>
    simp only [step] at hstep
    split at hstep
    case h_2 => cases hstep
    case h_1 c hk =>
      split at hstep
      case h_1 first id ids hpc =>
        cases hstep
        have hopen : c.isOpen = true := by rw [ActivateCall.isOpen, hpc]
        exact h.goesOn ⟨fun _ => rfl, fun _ => rfl⟩ rfl hk hopen (by simp [hpc])
          ⟨rfl, rfl, rfl, rfl, rfl⟩ rfl
      case h_2 id hpc =>
        cases hstep
        have hopen : c.isOpen = true := by rw [ActivateCall.isOpen, hpc]
        have hallowed := horderly c hk
        simp only [hpc] at hallowed
        exact h.proceed hk hopen sameCall_refl hallowed fun hw => by simp [hpc] at hw
      case h_3 => cases hstep
  | sleepAnswered k result =>
    simp only [step] at hstep
    split at hstep
    case h_2 => cases hstep
    case h_1 c hk =>
      split at hstep
      case h_1 id ids hpc =>
        cases hstep
        exact h.answerSleep hk hpc (horderly c hk)
      case h_2 => cases hstep
  | wakeAnswered k result =>
    simp only [step] at hstep
    split at hstep
    case h_2 => cases hstep
    case h_1 c hk =>
      split_ifs at hstep with hpc
      cases hstep
      exact h.answerWake hk hpc (horderly c hk)
  | polled k =>
    simp only [step] at hstep
    split at hstep
    case h_2 => cases hstep
    case h_1 c hk =>
      split_ifs at hstep
      cases hstep
      exact h.wakeTarget hk (horderly c hk)
  | resume k =>
    simp only [step] at hstep
    split at hstep
    case h_2 => cases hstep
    case h_1 c hk =>
      split at hstep
      case h_1 id ids hpc =>
        cases hstep
        have hopen : c.isOpen = true := by rw [ActivateCall.isOpen, hpc]
        have hallowed := horderly c hk
        simp only [hpc] at hallowed
        have hsame : SameCall c { c with sleptInstanceIds := c.sleptInstanceIds ++ [id] } :=
          ⟨rfl, rfl, rfl, rfl, rfl⟩
        exact h.proceed hk hopen hsame hallowed fun hw => by simp [hpc] at hw
      case h_2 hpc =>
        cases hstep
        have hopen : c.isOpen = true := by rw [ActivateCall.isOpen, hpc]
        have hallowed := horderly c hk
        simp only [hpc] at hallowed
        have hsame : SameCall c { c with wokeTarget := true } := ⟨rfl, rfl, rfl, rfl, rfl⟩
        exact h.proceed hk hopen hsame hallowed fun _ => checkTarget_cases s c.target
      case h_3 => cases hstep
  | clock now =>
    cases hstep
    exact ⟨fun k c hk => (h.knows k c hk).congr (fun _ => rfl) sameCall_refl, h.atMost, h.atLeast,
      h.kept, h.failed⟩

/-- When orderly calls have all finished, exactly one instance of the model is routable, and every call
that failed has left the routability of every instance as it was, but for what other calls have set. -/
theorem activations_settle {acts : List ActivateAct} (hstart : s.calls = [])
    (hrun : run step s acts = some t) (horderly : Along step Orderly s acts) :
    (∀ modelName, t.Finished modelName → s.OneRoutable modelName ∨ t.SomeDone modelName →
      t.OneRoutable modelName) ∧
    ∀ c ∈ t.calls, ∀ error, c.pc = .failed error →
      ∀ x ∈ t.instances, x.routable = c.without x.id := by
  have hs : s.Settled s.OneRoutable := by
    have hempty : ∀ (k : Nat) (c : ActivateCall), s.calls[k]? ≠ some c := by simp [hstart]
    have hserved : ∀ m, s.OneRoutable m ∨ s.SomeDone m → ∃! id, s.Serves m id := by
      rintro m (hm | ⟨c, hc, -⟩)
      · exact oneRoutable_iff.mp hm
      · simp [hstart] at hc
    exact ⟨fun k c hc => absurd hc (hempty k c),
      fun m hm i j hi hj => (hserved m hm).unique hi hj, fun m hm => .inl (hserved m hm).exists,
      fun k c hc => absurd hc (hempty k c), fun k c hc => absurd hc (hempty k c)⟩
  have ht : t.Settled s.OneRoutable :=
    run_invariant_along (I := Settled s.OneRoutable) (fun _ _ _ h ho hst => settled_step h ho hst)
      hs horderly hrun
  constructor
  · intro m hfinished hm
    have hserves : ∃ i, t.Serves m i := by
      refine (ht.atLeast m hm).resolve_right ?_
      rintro ⟨k, c, hc, hmodel, hopen, -⟩
      simp [hfinished c (List.mem_of_getElem? hc) hmodel] at hopen
    obtain ⟨i, hi⟩ := hserves
    exact oneRoutable_iff.mpr ⟨i, hi, fun j hj => ht.atMost m hm j i hj hi⟩
  · intro c hc error hpc x hx
    obtain ⟨k, hk⟩ := List.mem_iff_getElem?.mp hc
    have hkept := ht.kept k c hk (ht.failed k c hk error hpc) (by simp [hpc]) (by simp [hpc]) x.id
    rw [← hkept, routableOf, get_of_mem hx]
    rfl

end Steps

section Examples

/-- The defaults of the options. -/
def defaultOptions : ActivateOptions := ⟨true, .weightsToCpu, 30⟩

def server (id : String) (gpuIds : List Nat) : ManagedInstance :=
  { sleeper id gpuIds with status := .running, routable := true, sleepLevel := none, sleptAt := none }

/-- One instance serves and one sleeps. -/
def serving : ActivationState := ⟨0, [server "a" [0], sleeper "b" [1]], [], by decide⟩

def bothAsleep : ActivationState := ⟨0, [sleeper "a" [0], sleeper "b" [1]], [], by decide⟩

/-- Two calls for one instance, of which each sends a wake-up. -/
def activatedTwice : List ActivateAct :=
  [.activate "b" defaultOptions, .activate "b" defaultOptions, .wakeAnswered 0 .ok, .polled 0,
    .wakeAnswered 1 .ok, .resume 0, .polled 1, .resume 1]

/-- Two calls wake two instances at a time. -/
def bothActivated : List ActivateAct :=
  [.activate "a" defaultOptions, .activate "b" defaultOptions, .wakeAnswered 0 .ok,
    .wakeAnswered 1 .ok, .polled 0, .polled 1, .resume 0, .resume 1]

/-- vLLM refuses to wake the instance that is to serve. -/
def wakeRefused : List ActivateAct :=
  [.activate "b" defaultOptions, .wakeAnswered 0 (.refused "CUDA out of memory")]

def ending (s : ActivationState) (acts : List ActivateAct) : ActivationState :=
  (run step s acts).getD s

theorem run_ending {s : ActivationState} {acts : List ActivateAct}
    (h : (run step s acts).isSome = true) : run step s acts = some (ending s acts) := by
  obtain ⟨t, ht⟩ := Option.isSome_iff_exists.mp h
  rw [ending, ht]
  rfl

theorem activations_settle_twice : ∃ t, run step serving activatedTwice = some t ∧
    t.OneRoutable "llama" := by
  have hrun : run step serving activatedTwice = some _ := run_ending (by decide +kernel)
  refine ⟨_, hrun, (activations_settle rfl hrun (by decide +kernel)).1 "llama" ?_ (.inr ?_)⟩
  · unfold Finished
    decide +kernel
  · decide +kernel

/-- After two calls that succeed both instances serve, and after one that fails none does. -/
theorem activations_unsettled :
    (∃ t, run step bothAsleep bothActivated = some t ∧
      t.Finished "llama" ∧ t.SomeDone "llama" ∧ ¬t.OneRoutable "llama") ∧
    ∃ t, run step serving wakeRefused = some t ∧ serving.OneRoutable "llama" ∧
      t.Finished "llama" ∧ ¬t.OneRoutable "llama" ∧
      ∃ c ∈ t.calls, (∃ error, c.pc = .failed error) ∧
        ∃ x ∈ t.instances, x.routable ≠ c.without x.id := by
  constructor
  · refine ⟨_, run_ending (by decide +kernel), ?_, by decide +kernel, fun hone => ?_⟩
    · unfold Finished
      decide +kernel
    · have hids : "a" = "b" := (oneRoutable_iff.mp hone).unique
        ⟨by decide +kernel, by decide +kernel⟩ ⟨by decide +kernel, by decide +kernel⟩
      exact absurd hids (by decide)
  · have hserves : ∀ x ∈ serving.instances, x.routable = true → x = server "a" [0] := by
      decide +kernel
    have hnone : ∀ x ∈ (ending serving wakeRefused).instances, x.routable = false := by
      decide +kernel
    refine ⟨_, run_ending (by decide +kernel), ?_, ?_, fun hone => ?_, ?_⟩
    · exact ⟨server "a" [0], ⟨by decide +kernel, rfl, rfl⟩, fun y hy => hserves y hy.1 hy.2.2⟩
    · unfold Finished
      decide +kernel
    · obtain ⟨x, hx, -, hroutable⟩ := hone.exists
      simp [hnone x hx] at hroutable
    · have hcall : ∃ c ∈ (ending serving wakeRefused).calls,
          c.pc = .failed (.internal "Failed to wake model: CUDA out of memory") ∧
            ∃ x ∈ (ending serving wakeRefused).instances, x.routable ≠ c.without x.id := by
        decide +kernel
      obtain ⟨c, hc, hpc, hchanged⟩ := hcall
      exact ⟨c, hc, ⟨_, hpc⟩, hchanged⟩

end Examples

end ActivationState

end GpuSharing.Sardeenz.InstanceActivation
