import GpuSharing.Sardeenz.KvAdmissionBounds

namespace GpuSharing.Sardeenz

open Transition Reservations

/-- The reservation is one of an instance that uses the GPU. `uses` is `gpuIds`, or
`schedulingGpuIds` where an instance counts on every GPU of its topology. -/
def onGpu (fleet : Fleet) (uses : ModelInstance → List Nat) (gpu : Nat) (r : ActiveReservation) :
    Bool :=
  fleet.instances.any fun i => i.id = r.instanceId ∧ gpu ∈ uses i

def activeOnGpu (fleet : Fleet) (uses : ModelInstance → List Nat) (m : Reservations) (gpu : Nat) :
    ℚ :=
  Ledger.total (·.estimatedGiBPerGpu) (onGpu fleet uses gpu) m.values

section OnGpu

variable {c : AdmissionConfig} {fleet : Fleet} {uses : ModelInstance → List Nat}
  {m m' : Reservations} {gpu : Nat} {r : ActiveReservation}

theorem onGpu_iff : onGpu fleet uses gpu r ↔
    ∃ i ∈ fleet.instances, i.id = r.instanceId ∧ gpu ∈ uses i := by
  simp [onGpu, List.any_eq_true]

theorem onGpu_ofRequest {i : ModelInstance} {e : KvEstimate} {id : String} {now : Int}
    (hi : i ∈ fleet.instances) :
    onGpu fleet uses gpu (.ofRequest i e id now) ↔ gpu ∈ uses i := by
  rw [onGpu_iff]
  constructor
  · rintro ⟨j, hj, hid, hgpu⟩
    rwa [← List.inj_on_of_nodup_map fleet.nodup hj hi hid]
  · exact fun hgpu => ⟨i, hi, rfl, hgpu⟩

/-- Where the reservations on the GPUs of the caller are all of its own group, the check of the group
bounds each GPU. -/
theorem activeOnGpu_grant {store : List ModelInstance} {i : ModelInstance} {e : KvEstimate}
    {id : String} {now : Int} (hm : activeOnGpu fleet uses m gpu ≤ c.globalLimit)
    (hi : i ∈ fleet.instances) (hadmits : Admits c store m i e)
    (hsole : ∀ r ∈ m.values, gpu ∈ uses i → onGpu fleet uses gpu r → r.gpuGroup = i.gpuGroupKey)
    (hvalues : m'.values = ActiveReservation.ofRequest i e id now :: m.values) :
    activeOnGpu fleet uses m' gpu ≤ c.globalLimit := by
  by_cases hgpu : gpu ∈ uses i
  · calc activeOnGpu fleet uses m' gpu
        ≤ m'.activeForGroup i.gpuGroupKey := by
          refine Ledger.total_le_of_imp (fun r hr hon => decide_eq_true ?_) estimate_nonneg
          rw [hvalues, List.mem_cons] at hr
          rcases hr with rfl | hr
          · rfl
          · exact hsole r hr hgpu hon
      _ = m.activeForGroup i.gpuGroupKey + e.gib := by
          rw [activeForGroup_grant hvalues, if_pos rfl, add_comm]
      _ ≤ c.globalLimit := hadmits.groupLeSafe
  · unfold activeOnGpu
    rw [hvalues, Ledger.total_cons_of_neg (mt (onGpu_ofRequest hi).mp hgpu)]
    exact hm

end OnGpu

namespace AdmissionController

variable {c : AdmissionConfig} {fleet : Fleet} {uses : ModelInstance → List Nat}
  {s t : AdmissionController} {a : AdmissionAct}

/-- The GPUs of a request that the step admits have no reservation made under another group. -/
def SoleGroup (c : AdmissionConfig) (fleet : Fleet) (uses : ModelInstance → List Nat)
    (s : AdmissionController) (a : AdmissionAct) : Prop :=
  ∀ x ∈ attempted c s a, ∀ e, x.estimate = some e →
    Admits c x.store x.reservations x.caller e →
    ∀ r ∈ x.reservations.values, ∀ gpu ∈ uses x.caller, onGpu fleet uses gpu r →
      r.gpuGroup = x.caller.gpuGroupKey

theorem onGpu_bounded_step
    (hs : Served fleet s ∧ ∀ gpu, activeOnGpu fleet uses s.reservations gpu ≤ c.globalLimit)
    (ha : SoleGroup c fleet uses s a) (h : step c fleet s a = some t) :
    Served fleet t ∧ ∀ gpu, activeOnGpu fleet uses t.reservations gpu ≤ c.globalLimit := by
  refine ⟨served_step h hs.1, fun gpu => ?_⟩
  have hwithin_le : ∀ m : Reservations, m.Within s.reservations →
      activeOnGpu fleet uses m gpu ≤ c.globalLimit := fun m hw =>
    (Ledger.total_le_of_sublist hw.values estimate_nonneg).trans (hs.2 gpu)
  rcases step_cases h with ⟨hwithin, _⟩ | ⟨x, e, id, g⟩
  · exact hwithin_le _ hwithin
  · exact activeOnGpu_grant (hwithin_le _ g.within) (caller_mem_of_granted g h hs.1) g.admits
      (fun r hr hgpu => ha x g.attempted e g.estimate g.admits r hr gpu hgpu)
      (values_of_granted g hs.1)

/-- No GPU is over a limit that is not negative, as long as no request is admitted on a GPU where
there are reservations of another group. -/
theorem gpu_within_limit {now : Int} {ls : List AdmissionAct} (hlimit : 0 ≤ c.globalLimit)
    (hsole : Along (step c fleet) (SoleGroup c fleet uses) (init now) ls)
    (hrun : run (step c fleet) (init now) ls = some s) (gpu : Nat) :
    activeOnGpu fleet uses s.reservations gpu ≤ c.globalLimit :=
  (run_invariant_along (fun _ _ _ hs ha h => onGpu_bounded_step hs ha h)
    ⟨served_init now, fun _ => hlimit⟩ hsole hrun).2 gpu

/-- Requests of up to 10 GiB, with nothing guaranteed. -/
def wideConfig : AdmissionConfig := { defaultConfig with defaultQuota := ⟨0, 10, 10⟩ }

def overlapping : Fleet := ⟨[runningOn "a" [0, 1], runningOn "b" [1, 2]], by decide⟩

def tenGibOn (i : ModelInstance) (id : String) : AdmissionAct :=
  .acquire i 327680 overlapping.instances id

theorem gpu_within_limit_first :
    let s := (run (step wideConfig overlapping) (init 0) [tenGibOn (runningOn "a" [0, 1]) "r"]).get
      (by decide +kernel)
    0 ≤ wideConfig.globalLimit ∧
      activeOnGpu overlapping (·.gpuIds) s.reservations 1 ≤ wideConfig.globalLimit := by
  have hrun : run (step wideConfig overlapping) (init 0) [tenGibOn (runningOn "a" [0, 1]) "r"] =
      some ((run (step wideConfig overlapping) (init 0)
        [tenGibOn (runningOn "a" [0, 1]) "r"]).get (by decide +kernel)) := (Option.some_get _).symm
  have hsole : Along (step wideConfig overlapping) (SoleGroup wideConfig overlapping (·.gpuIds))
      (init 0) [tenGibOn (runningOn "a" [0, 1]) "r"] :=
    along_singleton.mpr fun x hx e _ _ r hr => by
      cases hx
      cases hr
  exact ⟨by decide +kernel, gpu_within_limit (by decide +kernel) hsole hrun 1⟩

/-- The instances on the GPUs 0 and 1 and on the GPUs 1 and 2 get 10 GiB each of the 14. -/
theorem overlapping_groups_over_limit :
    let s := (run (step wideConfig overlapping) (init 0)
      [tenGibOn (runningOn "a" [0, 1]) "r", tenGibOn (runningOn "b" [1, 2]) "q"]).get
        (by decide +kernel)
    wideConfig.globalLimit = 14 ∧ activeOnGpu overlapping (·.gpuIds) s.reservations 1 = 20 :=
  ⟨by decide +kernel, by decide +kernel⟩

end AdmissionController

end GpuSharing.Sardeenz
