import Mathlib.Tactic.Ring
import GpuSharing.Sardeenz.KvAdmissionBounds

namespace GpuSharing.Sardeenz

open Transition Reservations

/-- The running and routable instances of one GPU group, whose minimum guarantees fit in the global
limit and in the limits of each; the limits on requests in flight are off. -/
structure Guaranteed (c : AdmissionConfig) (fleet : Fleet) : Prop where
  running : ∀ i ∈ fleet.instances, i.status = .running ∧ i.routable = true
  oneGroup : ∀ i ∈ fleet.instances, ∀ j ∈ fleet.instances, i.gpuGroupKey = j.gpuGroupKey
  inflightOff : c.maxInstanceInflight ≤ 0 ∧ c.maxGpuGroupInflight ≤ 0
  fits : (fleet.instances.map fun i => (c.quotaFor i).minGuaranteeGiBPerGpu).sum ≤ c.globalLimit
  minLeSoft : ∀ i ∈ fleet.instances,
    (c.quotaFor i).minGuaranteeGiBPerGpu ≤ (c.quotaFor i).softLimitGiBPerGpu
  minLeHard : ∀ i ∈ fleet.instances,
    (c.quotaFor i).minGuaranteeGiBPerGpu ≤ (c.quotaFor i).hardLimitGiBPerGpu

/-- What an instance may still take of its minimum guarantee. -/
def minimumDeficit (c : AdmissionConfig) (m : Reservations) (i : ModelInstance) : ℚ :=
  max 0 ((c.quotaFor i).minGuaranteeGiBPerGpu - m.activeForInstance i.id)

/-- What the group has given out or owes: for each instance its reservations, or its guarantee where
that is more. -/
def committed (c : AdmissionConfig) (fleet : Fleet) (m : Reservations) : ℚ :=
  (fleet.instances.map fun i =>
    max (m.activeForInstance i.id) (c.quotaFor i).minGuaranteeGiBPerGpu).sum

section Committed

variable {c : AdmissionConfig} {fleet : Fleet} {m m' : Reservations} {i : ModelInstance}

/-- The reservations are those of the instances of the fleet. -/
def OfFleet (fleet : Fleet) (m : Reservations) : Prop :=
  ∀ r ∈ m.values, ∃ i ∈ fleet.instances, r.instanceId = i.id ∧ r.gpuGroup = i.gpuGroupKey

theorem committed_le (hw : m'.Within m) : committed c fleet m' ≤ committed c fleet m :=
  List.sum_le_sum fun i _ => max_le_max_right _ (activeForInstance_le hw i.id)

theorem activeForGroup_eq_sum (h : Guaranteed c fleet) (hm : OfFleet fleet m)
    (hi : i ∈ fleet.instances) : m.activeForGroup i.gpuGroupKey
      = (fleet.instances.map fun j => m.activeForInstance j.id).sum := by
  unfold activeForGroup
  rw [Ledger.total_eq_sum (·.instanceId) fleet.nodup, List.map_map]
  · rfl
  · intro r hr _
    obtain ⟨j, hj, hrj, _⟩ := hm r hr
    exact hrj ▸ List.mem_map_of_mem hj
  · intro r hr _
    obtain ⟨j, hj, _, hg⟩ := hm r hr
    simp [hg, h.oneGroup j hj i hi]

theorem protectedMinimum_eq (h : Guaranteed c fleet) (hi : i ∈ fleet.instances) :
    protectedMinimumForOtherInstances c fleet.instances m i i.gpuGroupKey
      = ((fleet.instances.erase i).map (minimumDeficit c m)).sum := by
  unfold protectedMinimumForOtherInstances
  have hn : fleet.instances.Nodup := fleet.nodup.of_map
  rw [hn.erase_eq_filter]
  congr 2
  refine List.filter_congr fun j hj => ?_
  have hne : j.id ≠ i.id ↔ j ≠ i := not_congr
    ⟨fun heq => List.inj_on_of_nodup_map fleet.nodup hj hi heq, fun heq => heq ▸ rfl⟩
  obtain ⟨hrun, hroutable⟩ := h.running j hj
  simp [hne, hrun, hroutable, h.oneGroup j hj i hi, bne, beq_eq_decide]

/-- The obligations of the group, seen from one of its instances: what is given out, what the others
may still take, and its own deficit. -/
theorem committed_eq (h : Guaranteed c fleet) (hm : OfFleet fleet m) (hi : i ∈ fleet.instances) :
    committed c fleet m = m.activeForGroup i.gpuGroupKey
      + protectedMinimumForOtherInstances c fleet.instances m i i.gpuGroupKey
      + minimumDeficit c m i := by
  have hsplit : (fleet.instances.map (minimumDeficit c m)).sum
      = minimumDeficit c m i + ((fleet.instances.erase i).map (minimumDeficit c m)).sum :=
    (List.sum_map_erase _ hi).symm
  have hmax : committed c fleet m
      = (fleet.instances.map fun j => m.activeForInstance j.id + minimumDeficit c m j).sum := by
    unfold committed minimumDeficit
    congr 2
    funext j
    rcases le_total (m.activeForInstance j.id) (c.quotaFor j).minGuaranteeGiBPerGpu with hle | hle
    · rw [max_eq_right hle, max_eq_right (sub_nonneg.mpr hle)]
      ring
    · rw [max_eq_left hle, max_eq_left (sub_nonpos.mpr hle), add_zero]
  rw [hmax, List.sum_map_add, ← activeForGroup_eq_sum h hm hi, hsplit, protectedMinimum_eq h hi]
  ring

/-- While the obligations fit in the limit, a request within the guarantee of its instance passes
every check. -/
theorem admits_of_committed_le (h : Guaranteed c fleet) (hm : OfFleet fleet m)
    (hle : committed c fleet m ≤ c.globalLimit) (hi : i ∈ fleet.instances) {e : KvEstimate}
    (he : m.activeForInstance i.id + e.gib ≤ (c.quotaFor i).minGuaranteeGiBPerGpu) :
    Admits c fleet.instances m i e := by
  have hactive := activeForInstance_nonneg m i.id
  have hsoft := h.minLeSoft i hi
  have hhard := h.minLeHard i hi
  have hpos := e.pos
  have heq := committed_eq h hm hi
  have hdeficit : e.gib ≤ minimumDeficit c m i := le_max_of_le_right (by linarith)
  have hprotected : 0 ≤ protectedMinimumForOtherInstances c fleet.instances m i i.gpuGroupKey := by
    refine List.sum_nonneg fun x hx => ?_
    obtain ⟨j, _, rfl⟩ := List.mem_map.mp hx
    exact le_max_left _ _
  constructor
  case instanceInflight => exact fun hpos => absurd hpos.1 (not_lt.mpr h.inflightOff.1)
  case groupInflight => exact fun hpos => absurd hpos.1 (not_lt.mpr h.inflightOff.2)
  case estimateLeHard => linarith
  case instanceLeHard => linarith
  case guarantees =>
    have hdraw : min e.gib
        (max 0 ((c.quotaFor i).minGuaranteeGiBPerGpu - m.activeForInstance i.id)) = e.gib :=
      min_eq_left hdeficit
    rw [hdraw]
    linarith
  case groupLeSafe => linarith
  case soft => exact fun hover => absurd hover.1 (not_lt.mpr (by linarith))

/-- An admission that stays within the deficit of its instance, or that leaves room for what the
others may still take, keeps the obligations within the limit. -/
theorem committed_grant {e : KvEstimate} {id : String} {now : Int} (h : Guaranteed c fleet)
    (hm : OfFleet fleet m) (hle : committed c fleet m ≤ c.globalLimit)
    (hi : i ∈ fleet.instances)
    (hvalues : m'.values = ActiveReservation.ofRequest i e id now :: m.values)
    (hroom : e.gib ≤ minimumDeficit c m i ∨ m.activeForGroup i.gpuGroupKey + e.gib
      + protectedMinimumForOtherInstances c fleet.instances m i i.gpuGroupKey ≤ c.globalLimit) :
    OfFleet fleet m' ∧ committed c fleet m' ≤ c.globalLimit := by
  have hm' : OfFleet fleet m' := by
    intro r hr
    rw [hvalues, List.mem_cons] at hr
    rcases hr with rfl | hr
    · exact ⟨i, hi, rfl, rfl⟩
    · exact hm r hr
  refine ⟨hm', ?_⟩
  have hothers : protectedMinimumForOtherInstances c fleet.instances m' i i.gpuGroupKey
      = protectedMinimumForOtherInstances c fleet.instances m i i.gpuGroupKey := by
    unfold protectedMinimumForOtherInstances
    congr 1
    refine List.map_congr_left fun j hj => ?_
    have hne : j.id ≠ i.id := by
      have := (List.mem_filter.mp hj).2
      simp only [decide_eq_true_eq] at this
      exact this.1
    rw [activeForInstance_grant hvalues, if_neg (Ne.symm hne), zero_add]
  have hown : minimumDeficit c m' i
      = max 0 ((c.quotaFor i).minGuaranteeGiBPerGpu - (e.gib + m.activeForInstance i.id)) := by
    unfold minimumDeficit
    rw [activeForInstance_grant hvalues, if_pos rfl]
  have hbefore := committed_eq h hm hi
  rw [committed_eq h hm' hi, hothers, hown, activeForGroup_grant hvalues, if_pos rfl]
  have hpos := e.pos
  unfold minimumDeficit at hbefore hroom
  rcases le_total 0 ((c.quotaFor i).minGuaranteeGiBPerGpu - (e.gib + m.activeForInstance i.id)) with
    hin | hover
  · rw [max_eq_right hin]
    rw [max_eq_right (by linarith)] at hbefore
    linarith
  · rw [max_eq_left hover]
    rcases hroom with hdraw | hroom
    · rw [le_max_iff] at hdraw
      rcases hdraw with hdraw | hdraw
      · linarith
      · rw [max_eq_right (by linarith)] at hbefore
        linarith
    · linarith

end Committed

namespace AdmissionController

variable {c : AdmissionConfig} {fleet : Fleet} {s t : AdmissionController} {a : AdmissionAct}

/-- The model store holds the instances of the fleet whenever `tryAcquire` looks into it. -/
def FixedStore (c : AdmissionConfig) (fleet : Fleet) (s : AdmissionController)
    (a : AdmissionAct) : Prop :=
  ∀ x ∈ attempted c s a, x.store = fleet.instances

/-- A request that the step admits stays within the deficit of its instance, or leaves room for what
the other instances may still take of their guarantees. -/
def LeavesGuarantees (c : AdmissionConfig) (s : AdmissionController) (a : AdmissionAct) : Prop :=
  ∀ x ∈ attempted c s a, ∀ e, x.estimate = some e →
    Admits c x.store x.reservations x.caller e →
    e.gib ≤ minimumDeficit c x.reservations x.caller ∨
    x.reservations.activeForGroup x.caller.gpuGroupKey + e.gib
      + protectedMinimumForOtherInstances c x.store x.reservations x.caller x.caller.gpuGroupKey
      ≤ c.globalLimit

theorem committed_step (hc : Guaranteed c fleet)
    (hs : Served fleet s ∧ OfFleet fleet s.reservations ∧
      committed c fleet s.reservations ≤ c.globalLimit)
    (ha : FixedStore c fleet s a ∧ LeavesGuarantees c s a) (h : step c fleet s a = some t) :
    Served fleet t ∧ OfFleet fleet t.reservations ∧
      committed c fleet t.reservations ≤ c.globalLimit := by
  obtain ⟨hserved, hm, hle⟩ := hs
  refine ⟨served_step h hserved, ?_⟩
  rcases step_cases h with ⟨hwithin, _⟩ | ⟨x, e, id, g⟩
  · exact ⟨fun r hr => hm r (hwithin.values.subset hr), (committed_le hwithin).trans hle⟩
  · have hroom := ha.2 x g.attempted e g.estimate g.admits
    rw [ha.1 x g.attempted] at hroom
    exact committed_grant hc (fun r hr => hm r (g.within.values.subset hr))
      ((committed_le g.within).trans hle) (caller_mem_of_granted g h hserved)
      (values_of_granted g hserved) hroom

theorem committed_empty (hc : Guaranteed c fleet)
    (hmin : ∀ i ∈ fleet.instances, 0 ≤ (c.quotaFor i).minGuaranteeGiBPerGpu) :
    committed c fleet ∅ ≤ c.globalLimit := by
  refine le_trans (le_of_eq ?_) hc.fits
  unfold committed
  congr 1
  exact List.map_congr_left fun i hi => max_eq_right (hmin i hi)

/-- Where no minimum guarantee is negative and every admission leaves the others what is guaranteed
to them, a request within the guarantee of its instance is admitted. -/
theorem guaranteed_request_allowed {now : Int} {ls : List AdmissionAct} (hc : Guaranteed c fleet)
    (hmin : ∀ i ∈ fleet.instances, 0 ≤ (c.quotaFor i).minGuaranteeGiBPerGpu)
    (hstore : Along (step c fleet) (FixedStore c fleet) (init now) ls)
    (hroom : Along (step c fleet) (LeavesGuarantees c) (init now) ls)
    (hrun : run (step c fleet) (init now) ls = some s) :
    ∀ i ∈ fleet.instances, ∀ e : KvEstimate,
      s.reservations.activeForInstance i.id + e.gib ≤ (c.quotaFor i).minGuaranteeGiBPerGpu →
      ∀ requestTokens id, ∃ r trim,
        (tryAcquire c fleet.instances s.reservations i (some e) requestTokens id s.now).1
          = .allowed (some r) trim := by
  intro i hi e he requestTokens id
  have hinit : Served fleet (init now) ∧ OfFleet fleet (init now).reservations ∧
      committed c fleet (init now).reservations ≤ c.globalLimit :=
    ⟨served_init now, (fun r hr => by cases hr), committed_empty hc hmin⟩
  obtain ⟨_, hm, hle⟩ := run_invariant_along (fun _ _ _ hs ha h => committed_step hc hs ha h)
    hinit (along_and.mpr ⟨hstore, hroom⟩) hrun
  obtain ⟨trim, heq⟩ :=
    tryAcquire_of_admits (admits_of_committed_le hc hm hle hi he) requestTokens id s.now
  exact ⟨_, trim, by rw [heq]⟩

/-- A safe limit of 10 GiB, 5 of them guaranteed to each of two instances that may borrow all. -/
def borrowingConfig : AdmissionConfig :=
  { defaultConfig with globalSafeLimitGiBPerGpu := 10, defaultQuota := ⟨5, 10, 10⟩ }

def twoInstances : Fleet := ⟨[runningOn "a" [0], runningOn "b" [0]], by decide⟩

theorem guaranteed_twoInstances : Guaranteed borrowingConfig twoInstances where
  running := by decide +kernel
  oneGroup := by decide +kernel
  inflightOff := by decide
  fits := by decide +kernel
  minLeSoft := by decide +kernel
  minLeHard := by decide +kernel

/-- The first instance asks for `gib` GiB. -/
def asksFor (gib : ℚ) : List AdmissionAct :=
  [.acquire (runningOn "a" [0]) (gib * 32768) twoInstances.instances "r"]

def fiveGib : KvEstimate := ⟨5, by norm_num⟩

theorem guaranteed_request_allowed_twoInstances :
    let s := (run (step borrowingConfig twoInstances) (init 0) (asksFor 5)).get
      (by decide +kernel)
    s.reservations.activeForInstance "b" + 5 ≤ 5 ∧ ∃ r trim,
      (tryAcquire borrowingConfig twoInstances.instances s.reservations (runningOn "b" [0])
        (some fiveGib) 163840 "q" s.now).1 = .allowed (some r) trim := by
  have hrun : run (step borrowingConfig twoInstances) (init 0) (asksFor 5) =
      some ((run (step borrowingConfig twoInstances) (init 0) (asksFor 5)).get
        (by decide +kernel)) := (Option.some_get _).symm
  have hstore : Along (step borrowingConfig twoInstances) (FixedStore borrowingConfig twoInstances)
      (init 0) (asksFor 5) :=
    along_singleton.mpr fun x hx => by
      cases hx
      rfl
  have hroom : Along (step borrowingConfig twoInstances) (LeavesGuarantees borrowingConfig) (init 0)
      (asksFor 5) :=
    along_singleton.mpr fun x hx e he _ => by
      cases hx
      cases he
      exact .inl (by decide +kernel)
  exact ⟨by decide +kernel, guaranteed_request_allowed guaranteed_twoInstances (by decide +kernel)
    hstore hroom hrun (runningOn "b" [0]) (by decide +kernel) fiveGib (by decide +kernel) 163840 "q"⟩

/-- The first instance may borrow 7 GiB, because its own unmet guarantee is taken off what the second
one is owed; then the second one does not get its 5. -/
theorem guaranteed_request_refused :
    let s := (run (step borrowingConfig twoInstances) (init 0) (asksFor 7)).get
      (by decide +kernel)
    Guaranteed borrowingConfig twoInstances ∧ s.reservations.activeForInstance "b" + 5 ≤ 5 ∧
    (tryAcquire borrowingConfig twoInstances.instances s.reservations (runningOn "b" [0])
        (some fiveGib) 163840 "q" s.now).1
      = reject borrowingConfig s.reservations (runningOn "b" [0]) (some fiveGib) 163840 429
          .groupOverSafeLimit 0 :=
  ⟨guaranteed_twoInstances, by decide +kernel, by decide +kernel⟩

end AdmissionController

end GpuSharing.Sardeenz
