import GpuSharing.Sardeenz.KvAdmissionRuns

namespace GpuSharing.Sardeenz

open Transition Reservations

/-- What the checks of `tryAcquire` keep: every group and every instance that has a reservation stays
within its limit, and the positive maxima bound the requests in flight. -/
structure Bounded (c : AdmissionConfig) (fleet : Fleet) (m : Reservations) : Prop where
  group : ∀ r ∈ m.values, m.activeForGroup r.gpuGroup ≤ c.globalLimit
  perInstance : ∀ i ∈ fleet.instances, (∃ r ∈ m.values, r.instanceId = i.id) →
    m.activeForInstance i.id ≤ (c.quotaFor i).hardLimitGiBPerGpu
  instanceInflight : 0 < c.maxInstanceInflight →
    ∀ instanceId, (m.inflightForInstance instanceId : Int) ≤ c.maxInstanceInflight
  groupInflight : 0 < c.maxGpuGroupInflight →
    ∀ gpuGroup, (m.inflightForGroup gpuGroup : Int) ≤ c.maxGpuGroupInflight

section Bounds

variable {c : AdmissionConfig} {fleet : Fleet} {m m' : Reservations}

theorem bounded_empty : Bounded c fleet ∅ where
  group r h := by cases h
  perInstance i _ h := by
    obtain ⟨r, hr, _⟩ := h
    cases hr
  instanceInflight h _ := h.le
  groupInflight h _ := h.le

theorem Bounded.within (h : Bounded c fleet m) (hw : m'.Within m) : Bounded c fleet m' where
  group r hr := (activeForGroup_le hw _).trans (h.group r (hw.values.subset hr))
  perInstance i hi := by
    rintro ⟨r, hr, hri⟩
    exact (activeForInstance_le hw _).trans
      (h.perInstance i hi ⟨r, hw.values.subset hr, hri⟩)
  instanceInflight hpos instanceId :=
    (Int.ofNat_le.mpr (inflightForInstance_le hw instanceId)).trans
      (h.instanceInflight hpos instanceId)
  groupInflight hpos gpuGroup :=
    (Int.ofNat_le.mpr (inflightForGroup_le hw gpuGroup)).trans (h.groupInflight hpos gpuGroup)

/-- The map after the admission: for the group and the instance of the new reservation the checks
give the bounds, for the others nothing has changed. -/
theorem Bounded.insert {store : List ModelInstance} {i : ModelInstance} {e : KvEstimate}
    {id : String} {now : Int} (h : Bounded c fleet m) (hi : i ∈ fleet.instances)
    (hadmits : Admits c store m i e)
    (hvalues : m'.values = ActiveReservation.ofRequest i e id now :: m.values) :
    Bounded c fleet m' := by
  constructor
  case group =>
    intro r hr
    rw [activeForGroup_grant hvalues]
    split_ifs with hg
    · rw [← hg, add_comm]
      exact hadmits.groupLeSafe
    · rw [hvalues, List.mem_cons] at hr
      rw [zero_add]
      rcases hr with rfl | hr
      · exact absurd rfl hg
      · exact h.group r hr
  case perInstance =>
    rintro j hj ⟨r, hr, hrj⟩
    rw [activeForInstance_grant hvalues]
    split_ifs with hij
    · have heq : i = j := List.inj_on_of_nodup_map fleet.nodup hi hj hij
      rw [← heq, add_comm]
      exact hadmits.instanceLeHard
    · rw [hvalues, List.mem_cons] at hr
      rw [zero_add]
      rcases hr with rfl | hr
      · exact absurd hrj hij
      · exact h.perInstance j hj ⟨r, hr, hrj⟩
  case instanceInflight =>
    intro hpos j
    have hbefore := h.instanceInflight hpos j
    have hcheck := hadmits.instanceInflight
    rw [inflightForInstance_grant hvalues]
    split_ifs with hij
    · rw [← hij]
      push_cast
      omega
    · exact hbefore
  case groupInflight =>
    intro hpos g
    have hbefore := h.groupInflight hpos g
    have hcheck := hadmits.groupInflight
    rw [inflightForGroup_grant hvalues]
    split_ifs with hg
    · rw [← hg]
      push_cast
      omega
    · exact hbefore

end Bounds

namespace AdmissionController

variable {c : AdmissionConfig} {fleet : Fleet} {s t : AdmissionController} {a : AdmissionAct}

theorem bounded_step (hs : Served fleet s ∧ Bounded c fleet s.reservations)
    (h : step c fleet s a = some t) : Served fleet t ∧ Bounded c fleet t.reservations := by
  refine ⟨served_step h hs.1, ?_⟩
  rcases step_cases h with ⟨hwithin, _⟩ | ⟨x, e, id, g⟩
  · exact hs.2.within hwithin
  · exact (hs.2.within g.within).insert (caller_mem_of_granted g h hs.1) g.admits
      (values_of_granted g hs.1)

/-- The step takes the reservation `r` out of the map. -/
def Removes (c : AdmissionConfig) (s : AdmissionController) (r : ActiveReservation) :
    AdmissionAct → Prop
  | .release reservation => reservation = some r
  | .releaseForInstance instanceId => r ∈ s.reservations.values ∧ r.instanceId = instanceId
  | .snapshot =>
    r ∈ s.reservations.values ∧ 0 < c.reservationTtlMs ∧ c.reservationTtlMs < s.now - r.createdAt
  | .acquire _ _ _ _ =>
    c.enabled ∧ r ∈ s.reservations.values ∧ 0 < c.reservationTtlMs ∧
      c.reservationTtlMs < s.now - r.createdAt
  | _ => False

theorem notMem_deleteWhere {p : ActiveReservation → Bool} {rs : List ActiveReservation}
    {m : Reservations} {r : ActiveReservation} (hr : r ∈ rs) (hp : p r) :
    r.id ∉ deleteWhere p m rs := by
  induction rs generalizing m with
  | nil => cases hr
  | cons r' rs ih =>
    rcases List.mem_cons.mp hr with rfl | hr
    · intro hmem
      have hmem := mem_of_within (within_deleteWhere p rs _) hmem
      simp only [if_pos hp, AList.mem_erase] at hmem
      exact hmem.1 rfl
    · exact ih hr

theorem notMem_cleanupExpired {m : Reservations} {r : ActiveReservation} {now : Int}
    (hr : r ∈ m.values) (hpos : 0 < c.reservationTtlMs)
    (hold : c.reservationTtlMs < now - r.createdAt) : r.id ∉ m.cleanupExpired c now := by
  unfold cleanupExpired
  rw [if_neg (not_le.mpr hpos)]
  exact notMem_deleteWhere hr (decide_eq_true hold)

/-- The reservation with this id has left the map. -/
def Gone (s : AdmissionController) (id : String) : Prop := id ∈ s.issued ∧ id ∉ s.reservations

theorem gone_of_removes {r : ActiveReservation} (hid : r.id ∈ s.issued)
    (hr : Removes c s r a) (h : step c fleet s a = some t) : Gone t r.id := by
  cases a with
  | release reservation =>
    cases h
    refine ⟨hid, ?_⟩
    change reservation = some r at hr
    subst hr
    exact fun hmem => (AList.mem_erase.mp hmem).1 rfl
  | releaseForInstance instanceId =>
    cases h
    exact ⟨hid, notMem_deleteWhere hr.1 (decide_eq_true hr.2)⟩
  | snapshot =>
    cases h
    exact ⟨hid, notMem_cleanupExpired hr.1 hr.2.1 hr.2.2⟩
  | acquire i requestTokens store id =>
    obtain ⟨hc, hmem, hpos, hold⟩ := hr
    have hclean := notMem_cleanupExpired hmem hpos hold
    simp only [step] at h
    split_ifs at h with hin henabled
    · simp [hc] at henabled
    · cases h
      refine ⟨List.mem_cons_of_mem _ hid, ?_⟩
      have hne : r.id ≠ id := fun heq => (not_or.mp hin).2 (heq ▸ hid)
      rcases attempt_cases c s.now (s.reservations.cleanupExpired c s.now) _ store id with
        heq | ⟨e, _, _, heq⟩
      · rw [heq]
        exact hclean
      · rw [heq, AList.mem_insert]
        exact not_or.mpr ⟨hne, hclean⟩
  | resume k store id => cases hr
  | tick now => cases hr

theorem gone_step {id : String} (hs : Gone s id) (h : step c fleet s a = some t) : Gone t id := by
  rcases step_cases h with ⟨hwithin, hissued⟩ | ⟨x, e, id', g⟩
  · exact ⟨hissued id hs.1, fun hmem => hs.2 (mem_of_within hwithin hmem)⟩
  · refine ⟨g.issued ▸ List.mem_cons_of_mem _ hs.1, ?_⟩
    rw [g.inserted, AList.mem_insert]
    rintro (rfl | hmem)
    · exact g.fresh hs.1
    · exact hs.2 (mem_of_within g.within hmem)

theorem release_of_gone {r : ActiveReservation} (h : Gone s r.id) :
    step c fleet s (.release (some r)) = some s := by
  have herase : AList.erase r.id s.reservations = s.reservations :=
    AList.ext (List.kerase_of_notMem_keys h.2)
  simp only [step, release, herase]

/-- Along every run the groups and instances with reservations stay within their limits and the
requests in flight within the positive maxima; a reservation that was released or has expired is
released again without effect. -/
theorem admission_bounds {now : Int} {ls : List AdmissionAct}
    (hrun : run (step c fleet) (init now) ls = some s) :
    Bounded c fleet s.reservations ∧
    ∀ r a u ms t, r.id ∈ s.issued → Removes c s r a → step c fleet s a = some u →
      run (step c fleet) u ms = some t → step c fleet t (.release (some r)) = some t := by
  refine ⟨(run_invariant (fun _ _ _ hs h => bounded_step hs h) ⟨served_init now, bounded_empty⟩
    hrun).2, ?_⟩
  intro r a u ms t hid hr hu ht
  exact release_of_gone
    (run_invariant (fun _ _ _ hs h => gone_step hs h) (gone_of_removes hid hr hu) ht)

/-- The defaults of the configuration, with the admission switched on. -/
def defaultConfig : AdmissionConfig where
  enabled := true
  poolCapacityGiBPerGpu := 15
  globalSafeLimitGiBPerGpu := 14
  globalReservedGiBPerGpu := 1
  maxQueueMs := 1000
  queuePollMs := 50
  reservationTtlMs := 3600000
  estimateTokensPerGiB := 32768
  maxInstanceInflight := 0
  maxGpuGroupInflight := 0
  defaultQuota := ⟨5, 6, 7⟩
  instanceOverrides := []

def runningOn (id : String) (gpuIds : List Nat) : ModelInstance :=
  ⟨id, "llama", gpuIds, none, .running, true⟩

def oneInstance : Fleet := ⟨[runningOn "a" [0]], by decide⟩

/-- One request of 2 GiB on the instance. -/
def oneRequest : List AdmissionAct :=
  [.acquire (runningOn "a" [0]) 65536 [runningOn "a" [0]] "r"]

def twoGib : ActiveReservation :=
  .ofRequest (runningOn "a" [0]) ⟨2, by norm_num⟩ "r" 0

theorem admission_bounds_oneRequest :
    let s := (run (step defaultConfig oneInstance) (init 0) oneRequest).get (by decide +kernel)
    s.reservations.activeForGroup "GPU0" = 2 ∧ Bounded defaultConfig oneInstance s.reservations ∧
    let u := (step defaultConfig oneInstance s (.release (some twoGib))).get (by decide +kernel)
    let t := (run (step defaultConfig oneInstance) u [.tick 5]).get (by decide +kernel)
    step defaultConfig oneInstance t (.release (some twoGib)) = some t := by
  have hrun : run (step defaultConfig oneInstance) (init 0) oneRequest =
      some ((run (step defaultConfig oneInstance) (init 0) oneRequest).get (by decide +kernel)) :=
    (Option.some_get _).symm
  have h := admission_bounds hrun
  exact ⟨by decide +kernel, h.1, h.2 twoGib (.release (some twoGib)) _ [.tick 5] _
    (by decide +kernel) rfl (Option.some_get _).symm (Option.some_get _).symm⟩

/-- With more reserved than the pool holds the limit is below zero, and so below the nothing that an
idle group has. -/
theorem idle_group_over_negative_limit :
    ∃ s, run (step { defaultConfig with globalReservedGiBPerGpu := 16 } oneInstance) (init 0) []
        = some s ∧
      ¬s.reservations.activeForGroup "GPU0"
        ≤ ({ defaultConfig with globalReservedGiBPerGpu := 16 } : AdmissionConfig).globalLimit :=
  ⟨init 0, rfl, by decide +kernel⟩

end AdmissionController

end GpuSharing.Sardeenz
