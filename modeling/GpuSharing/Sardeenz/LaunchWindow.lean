import Mathlib.Algebra.BigOperators.Ring.Finset
import GpuSharing.Lib.Ledger
import GpuSharing.Sardeenz.ModelManager

namespace GpuSharing.Sardeenz.ModelManager

variable {Id : Type}

/-- The events after which an instance is in the store although it may have been removed from it. -/
def storesAgain : InstanceEvent Id → Bool
  | .sleepDone => true
  | .wakeDone => true
  | .monitorDone => true
  | _ => false

section Ports

/-- A starting or running instance, or one with a live process. -/
def ownsPort (e : Launch Id) : Bool :=
  e.stored ∧ (e.status = .starting ∨ e.status = .running) ∨ e.process = .alive

/-- The launch has chosen its port and not yet recorded it, or its port is in the store or that of a
live process. -/
def holdsPort (e : Launch Id) : Bool := e.pc = .preparing ∨ e.stored ∨ e.process = .alive

def PortsApart (s : ModelManager Id) : Prop :=
  ∀ i ∈ s.ids, ∀ j ∈ s.ids, i ≠ j → ownsPort (s.launch i) → ownsPort (s.launch j) →
    (s.launch i).port ≠ (s.launch j).port

/-- A port is chosen while no other launch with that port is in `prepareLaunchContext` and no
process outside the store has it, and an instance that is stored again finds its port free. -/
def PortWindow (s : ModelManager Id) : ManagerAct Id → Prop
  | .event i (.choosePort port) => ∀ j ∈ s.ids, j ≠ i →
    (s.launch j).pc = .preparing ∨ (s.launch j).process = .alive → (s.launch j).port ≠ port
  | .event i ev => storesAgain ev → ¬holdsPort (s.launch i) → ∀ j ∈ s.ids, j ≠ i →
    holdsPort (s.launch j) → (s.launch j).port ≠ (s.launch i).port
  | .launch _ _ => True

instance [DecidableEq Id] (s : ModelManager Id) : ∀ a : ManagerAct Id, Decidable (PortWindow s a)
  | .event _ ev => by
    cases ev <;> unfold PortWindow <;> infer_instance
  | .launch _ _ => .isTrue trivial

instance [DecidableEq Id] (s : ModelManager Id) : Decidable (PortsApart s) := by
  unfold PortsApart
  infer_instance

/-- All ports that launches hold are different. -/
def HeldApart (s : ModelManager Id) : Prop :=
  ∀ i ∈ s.ids, ∀ j ∈ s.ids, i ≠ j → holdsPort (s.launch i) → holdsPort (s.launch j) →
    (s.launch i).port ≠ (s.launch j).port

theorem holdsPort_of_owns {e : Launch Id} (h : ownsPort e) : holdsPort e := by
  simp only [ownsPort, holdsPort, decide_eq_true_eq] at h ⊢
  tauto

theorem HeldApart.apart {s : ModelManager Id} (h : HeldApart s) : PortsApart s := by
  intro i hi j hj hij howns howns'
  exact h i hi j hj hij (holdsPort_of_owns howns) (holdsPort_of_owns howns')

variable [DecidableEq Id] {c : ManagerConfig} {s t : ModelManager Id} {a : ManagerAct Id}
  {i j : Id} {e e' : Launch Id} {ev : InstanceEvent Id}

/-- An event gives an instance a port only by choosing it, and makes it hold one only by that or by
storing it again. -/
theorem holdsPort_next (hnext : e.next ev = some e') (hholds : holdsPort e') :
    ev = .choosePort e'.port ∨ e'.port = e.port ∧ (holdsPort e ∨ storesAgain ev) := by
  cases ev <;> (simp only [Launch.next] at hnext; grind [holdsPort, storesAgain])

/-- The other launches' ports differ from the one that `i` holds after the event. -/
theorem port_next_ne (h : HeldApart s) (hi : i ∈ s.ids) (hen : enabled c s i ev)
    (hw : PortWindow s (.event i ev)) (hnext : (s.launch i).next ev = some e')
    (hholds : holdsPort e') (hj : j ∈ s.ids) (hji : j ≠ i) (hholdsj : holdsPort (s.launch j)) :
    (s.launch j).port ≠ e'.port := by
  rcases holdsPort_next hnext hholds with rfl | ⟨hport, hheld⟩
  · -- the choice avoids the ports of the store, the window those outside it
    have hunused := getNextPort_unused (of_decide_eq_true hen)
    by_cases hstored : (s.launch j).stored
    · intro heq
      apply hunused
      exact List.mem_map.mpr ⟨j, List.mem_filter.mpr ⟨hj, hstored⟩, heq⟩
    · apply hw j hj hji
      simp only [holdsPort, decide_eq_true_eq] at hholdsj
      tauto
  · rw [hport]
    by_cases hholdsi : holdsPort (s.launch i)
    · exact h j hj i hi hji hholdsj hholdsi
    · have hagain : storesAgain ev := hheld.resolve_left hholdsi
      cases ev with
      | choosePort port => simp [storesAgain] at hagain
      | _ => exact hw hagain hholdsi j hj hji hholdsj

theorem step_heldApart (h : HeldApart s) (hw : PortWindow s a) (hstep : step c s a = some t) :
    HeldApart t := by
  cases a with
  | launch k options =>
    obtain ⟨-, rfl⟩ := step_launch_some.mp hstep
    have hnew : ¬holdsPort (Launch.start options c.enableKvcached : Launch Id) := by
      simp [holdsPort, Launch.start]
    have hold : ∀ i ∈ (s.admitLaunch c k options).ids,
        holdsPort ((s.admitLaunch c k options).launch i) →
        i ∈ s.ids ∧ (s.admitLaunch c k options).launch i = s.launch i := by
      intro i hi hholds
      by_cases hik : i = k
      · subst hik
        rw [admitLaunch_launch_self] at hholds
        exact absurd hholds hnew
      · refine ⟨?_, admitLaunch_launch_of_ne hik⟩
        simpa [hik] using hi
    intro i hi j hj hij hholds hholdsj
    obtain ⟨hi', heq⟩ := hold i hi hholds
    obtain ⟨hj', heqj⟩ := hold j hj hholdsj
    rw [heq] at hholds ⊢
    rw [heqj] at hholdsj ⊢
    exact h i hi' j hj' hij hholds hholdsj
  | event k ev =>
    obtain ⟨⟨hk, hen⟩, e', hnext, rfl⟩ := step_event_some.mp hstep
    intro i hi j hj hij hholds hholdsj
    by_cases hik : i = k
    · subst hik
      rw [put_launch_self] at hholds ⊢
      rw [put_launch_of_ne hij.symm] at hholdsj ⊢
      exact (port_next_ne h hi hen hw hnext hholds hj hij.symm hholdsj).symm
    · rw [put_launch_of_ne hik] at hholds ⊢
      by_cases hjk : j = k
      · subst hjk
        rw [put_launch_self] at hholdsj ⊢
        exact port_next_ne h hj hen hw hnext hholdsj hi hij hholds
      · rw [put_launch_of_ne hjk] at hholdsj ⊢
        exact h i hi j hj hij hholds hholdsj

/-- Ports are apart in every state of a run whose choices of ports meet the condition. -/
theorem ports_apart (c : ManagerConfig) (acts : List (ManagerAct Id)) (s : ModelManager Id)
    (hrun : run c empty acts = some s) (hw : Transition.Along (step c) PortWindow empty acts) :
    PortsApart s := by
  have hheld : HeldApart s :=
    Transition.run_invariant_along (fun _ _ _ h hw hstep => step_heldApart h hw hstep)
      (by simp [HeldApart, empty]) hw hrun
  exact hheld.apart

section Examples

/-- Both launches choose their ports before either of them has recorded its instance. -/
def launchesOverlap : List (ManagerAct Nat) :=
  [.launch 0 ⟨[0], none, false⟩, .event 0 (.choosePort 12346),
    .launch 1 ⟨[1], none, false⟩, .event 1 (.choosePort 12346), .event 0 .spawn, .event 1 .spawn]

theorem launches_share_port : ∃ s, run defaultConfig empty launchesOverlap = some s ∧
    ¬PortsApart s :=
  ⟨(run defaultConfig empty launchesOverlap).get (by decide +kernel),
    (Option.some_get _).symm, by decide +kernel⟩

theorem ports_apart_inTurn : PortsApart ((run defaultConfig empty
    (startup 0 12346 ⟨[0], none, false⟩ ++ startup 1 12347 ⟨[0], none, false⟩)).get
      (by decide +kernel)) :=
  ports_apart defaultConfig _ _ (Option.some_get _).symm (by decide +kernel)

end Examples

end Ports

section Budget

/-- The store shows the instance as one that holds its KV cache. -/
def counts (e : Launch Id) : Bool := e.stored ∧ Launch.isActive e.status

/-- What the instance holds of a GPU's KV cache, and what its launch will need of it. -/
def claimedBytes (e : Launch Id) : Nat :=
  if e.pc ≠ .returned ∨ counts e then e.options.kvCacheMemoryBytes.getD 0 else 0

/-- The bytes of the instances whose scheduling GPUs include the GPU. -/
def gpuBytes (s : ModelManager Id) (bytes : Launch Id → Nat) (gpuId : Nat) : ℚ :=
  Ledger.total (fun i => (bytes (s.launch i) : ℚ))
    (fun i => gpuId ∈ (s.launch i).options.targetGpuIds) s.ids

def WithinLimit (c : ManagerConfig) (s : ModelManager Id) : Prop :=
  ∀ gpuId, gpuBytes s Launch.storedBytes gpuId ≤ c.safeLimitBytes

/-- The event makes an instance hold its KV cache again. -/
def countsAgain (e : Launch Id) : InstanceEvent Id → Bool
  | .sleepDone => !counts e
  | .wakeDone => !counts e
  | .monitorReady => e.stored ∧ !counts e
  | .monitorDone => Launch.isActive e.status ∧ !counts e
  | _ => false

theorem counts_next [DecidableEq Id] {e e' : Launch Id} {ev : InstanceEvent Id}
    (hnext : e.next ev = some e') : e'.options = e.options ∧
      (e'.pc ≠ .returned ∨ counts e' → e.pc ≠ .returned ∨ counts e ∨ countsAgain e ev) := by
  cases ev <;> (simp only [Launch.next] at hnext; grind [counts, countsAgain, Launch.isActive])

theorem kvcachedEnabled_next [DecidableEq Id] {e e' : Launch Id} {ev : InstanceEvent Id}
    (hnext : e.next ev = some e') : e'.kvcachedEnabled = e.kvcachedEnabled := by
  cases ev <;> (simp only [Launch.next] at hnext; grind)

/-- The budget of a launch also holds with the launches counted that have passed theirs and have not
recorded an instance yet, and so it does for an instance that holds its KV cache again. -/
def BudgetWindow (c : ManagerConfig) [DecidableEq Id] (s : ModelManager Id) :
    ManagerAct Id → Prop
  | .launch _ options => startupBudgetOk c s claimedBytes options
  | .event i ev => countsAgain (s.launch i) ev →
    startupBudgetOk c s claimedBytes (s.launch i).options

instance [DecidableEq Id] (c : ManagerConfig) (s : ModelManager Id) :
    ∀ a : ManagerAct Id, Decidable (BudgetWindow c s a)
  | .launch _ options => inferInstanceAs (Decidable (startupBudgetOk c s claimedBytes options))
  | .event i ev => inferInstanceAs (Decidable (countsAgain (s.launch i) ev →
      startupBudgetOk c s claimedBytes (s.launch i).options))

theorem storedBytes_le_claimed (e : Launch Id) : e.storedBytes ≤ claimedBytes e := by
  simp only [Launch.storedBytes, claimedBytes, counts]
  grind

theorem claimedBytes_le (e : Launch Id) :
    claimedBytes e ≤ e.options.kvCacheMemoryBytes.getD 0 := by
  simp only [claimedBytes]
  split_ifs <;> omega

/-- The check of the KV startup budget counts whatever is on one of its GPUs. -/
theorem gpuBytes_le_existing {s : ModelManager Id} (bytes : Launch Id → Nat)
    (h : ∀ i ∈ s.ids, (s.launch i).kvcachedEnabled) {gpuId : Nat} {gpuIds : List Nat}
    (hgpu : gpuId ∈ gpuIds) :
    gpuBytes s bytes gpuId ≤ s.existingBytes bytes gpuIds := by
  have hexisting : (s.existingBytes bytes gpuIds : ℚ)
      = Ledger.total (fun i => (bytes (s.launch i) : ℚ))
        (fun i => (s.launch i).kvcachedEnabled ∧ (s.launch i).overlaps gpuIds) s.ids := by
    rw [existingBytes, Nat.cast_list_sum, List.map_map]
    rfl
  rw [hexisting]
  refine Ledger.total_le_of_imp (fun i hi hmem => ?_) (fun i _ => Nat.cast_nonneg _)
  have hoverlaps : (s.launch i).overlaps gpuIds := by
    apply List.any_eq_true.mpr
    exact ⟨gpuId, of_decide_eq_true hmem, decide_eq_true hgpu⟩
  simp [h i hi, hoverlaps]

/-- The invariant: the launches in their window have their bytes within the limit already. -/
structure InBudget (c : ManagerConfig) (s : ModelManager Id) : Prop where
  nodup : s.ids.Nodup
  enabled : ∀ i ∈ s.ids, (s.launch i).kvcachedEnabled
  within : ∀ gpuId, gpuBytes s claimedBytes gpuId ≤ c.safeLimitBytes

theorem InBudget.withinLimit {c : ManagerConfig} {s : ModelManager Id} (h : InBudget c s) :
    WithinLimit c s := by
  intro gpuId
  have hle : gpuBytes s Launch.storedBytes gpuId ≤ gpuBytes s claimedBytes gpuId := by
    apply Ledger.total_le_of_le
    intro i _ _
    exact_mod_cast storedBytes_le_claimed (s.launch i)
  exact hle.trans (h.within gpuId)

variable {c : ManagerConfig} {s t : ModelManager Id} {a : ManagerAct Id} {i j : Id}
  {e e' : Launch Id} {ev : InstanceEvent Id} {options : LaunchOptions} {gpuId : Nat}

/-- What a passed check leaves for the bytes of its launch. -/
theorem gpuBytes_add_le (hkv : c.enableKvcached) (hadm : c.admission.enabled) (h : InBudget c s)
    (hok : startupBudgetOk c s claimedBytes options) (hgpu : gpuId ∈ options.targetGpuIds) :
    gpuBytes s claimedBytes gpuId + (options.kvCacheMemoryBytes.getD 0 : ℚ) ≤ c.safeLimitBytes := by
  have hwithin := h.within gpuId
  have hexisting := gpuBytes_le_existing claimedBytes h.enabled hgpu
  cases hbytes : options.kvCacheMemoryBytes with
  | none => simpa using hwithin
  | some bytes =>
    simp [startupBudgetOk, hbytes, hkv, hadm] at hok
    simp only [Option.getD_some]
    linarith

variable [DecidableEq Id]

/-- An instance keeps its scheduling GPUs. -/
theorem gpuBytes_put_options {bytes : Launch Id → Nat} (h : e'.options = (s.launch i).options) :
    gpuBytes (s.put i e') bytes gpuId =
      Ledger.total (fun j => (bytes ((s.put i e').launch j) : ℚ))
        (fun j => gpuId ∈ (s.launch j).options.targetGpuIds) s.ids := by
  apply Ledger.total_congr
  intro j _
  by_cases hji : j = i
  · subst hji
    simp [h]
  · simp [put_launch_of_ne hji]

theorem admitLaunch_inBudget (hkv : c.enableKvcached) (hadm : c.admission.enabled) (h : InBudget c s)
    (hi : i ∉ s.ids) (hok : startupBudgetOk c s claimedBytes options) :
    InBudget c (s.admitLaunch c i options) := by
  have hne : ∀ j ∈ s.ids, j ≠ i := fun j hj heq => hi (heq ▸ hj)
  refine ⟨List.nodup_append.mpr ⟨h.nodup, List.nodup_singleton i, ?_⟩, ?_, ?_⟩
  · intro j hj k hk
    rw [List.mem_singleton.mp hk]
    exact hne j hj
  · intro j hj
    by_cases hji : j = i
    · subst hji
      rw [admitLaunch_launch_self]
      exact hkv
    · rw [admitLaunch_launch_of_ne hji]
      exact h.enabled j (by simpa [hji] using hj)
  · intro gpuId
    have hold : Ledger.total (fun j => (claimedBytes ((s.admitLaunch c i options).launch j) : ℚ))
        (fun j => gpuId ∈ ((s.admitLaunch c i options).launch j).options.targetGpuIds) s.ids
        = gpuBytes s claimedBytes gpuId := by
      apply Ledger.total_congr
      intro j hj
      rw [admitLaunch_launch_of_ne (hne j hj)]
      exact ⟨rfl, rfl⟩
    rw [gpuBytes, admitLaunch_ids, Ledger.total_append, hold, Ledger.total_cons, admitLaunch_launch_self]
    by_cases hgpu : gpuId ∈ options.targetGpuIds
    · have hle := gpuBytes_add_le hkv hadm h hok hgpu
      simpa [Launch.start, claimedBytes, hgpu] using hle
    · have hle := h.within gpuId
      simpa [Launch.start, hgpu] using hle

theorem put_inBudget (hkv : c.enableKvcached) (hadm : c.admission.enabled) (h : InBudget c s)
    (hi : i ∈ s.ids) (hok : countsAgain (s.launch i) ev →
      startupBudgetOk c s claimedBytes (s.launch i).options)
    (hnext : (s.launch i).next ev = some e') : InBudget c (s.put i e') := by
  obtain ⟨hoptions, hcounts⟩ := counts_next hnext
  have hkvcached := kvcachedEnabled_next hnext
  refine ⟨h.nodup, fun j hj => ?_, fun gpuId => ?_⟩
  · by_cases hji : j = i
    · subst hji
      rw [put_launch_self, hkvcached]
      exact h.enabled j hj
    · rw [put_launch_of_ne hji]
      exact h.enabled j hj
  · rw [gpuBytes_put_options hoptions]
    by_cases hagain : countsAgain (s.launch i) ev ∧ gpuId ∈ (s.launch i).options.targetGpuIds
    · -- the instance counts again
      have hle := gpuBytes_add_le hkv hadm h (hok hagain.1) hagain.2
      apply le_trans ?_ hle
      apply Ledger.total_le_add h.nodup (Nat.cast_nonneg _)
      · have hmost := claimedBytes_le e'
        rw [put_launch_self, ← hoptions]
        exact_mod_cast le_add_of_nonneg_of_le (Nat.zero_le _) hmost
      · intro j _ hji
        rw [put_launch_of_ne hji]
    · apply le_trans (Ledger.total_le_of_le fun j hj hgpu => ?_) (h.within gpuId)
      by_cases hji : j = i
      · subst hji
        have hkept : ¬countsAgain (s.launch j) ev := by
          intro hc
          exact hagain ⟨hc, of_decide_eq_true hgpu⟩
        rw [put_launch_self]
        simp only [claimedBytes, hoptions]
        split_ifs with hnew hold
        · exact le_rfl
        · exact absurd (hcounts hnew) (by tauto)
        · exact Nat.cast_le.mpr (Nat.zero_le _)
        · exact le_rfl
      · rw [put_launch_of_ne hji]

/-- In a run whose budget checks also hold with the launches counted that are not recorded yet,
every GPU stays within the limit. -/
theorem budget_within_limit (c : ManagerConfig) (acts : List (ManagerAct Id)) (s : ModelManager Id)
    (hkv : c.enableKvcached) (hadm : c.admission.enabled) (hlimit : 0 ≤ c.safeLimitBytes)
    (hrun : run c empty acts = some s)
    (hw : Transition.Along (step c) (BudgetWindow c) empty acts) : WithinLimit c s := by
  have hbudget : InBudget c s := by
    refine Transition.run_invariant_along (fun s a t h hw hstep => ?_) ?_ hw hrun
    · cases a with
      | launch i options =>
        obtain ⟨⟨hi, -⟩, rfl⟩ := step_launch_some.mp hstep
        exact admitLaunch_inBudget hkv hadm h hi hw
      | event i ev =>
        obtain ⟨⟨hi, -⟩, e', hnext, rfl⟩ := step_event_some.mp hstep
        exact put_inBudget hkv hadm h hi hw hnext
    · exact ⟨List.nodup_nil, by simp [empty], fun _ => by simpa [gpuBytes, empty] using hlimit⟩
  exact hbudget.withinLimit

section Examples

def tenGiB : LaunchOptions := ⟨[0], some 10737418240, true⟩

/-- Both launches pass the KV startup budget before either of them has recorded its instance. -/
def launchesTogether : List (ManagerAct Nat) :=
  [.launch 0 tenGiB, .launch 1 tenGiB, .event 0 (.choosePort 12346), .event 0 .spawn,
    .event 1 (.choosePort 12347), .event 1 .spawn]

theorem launches_exceed_limit : ∃ s, run defaultConfig empty launchesTogether = some s ∧
    ¬WithinLimit defaultConfig s := by
  refine ⟨(run defaultConfig empty launchesTogether).get (by decide +kernel),
    (Option.some_get _).symm, fun hwithin => ?_⟩
  exact absurd (hwithin 0) (by decide +kernel)

theorem budget_within_limit_oneLaunch : WithinLimit defaultConfig
    ((run defaultConfig empty (startup 0 12346 tenGiB)).get (by decide +kernel)) :=
  budget_within_limit defaultConfig _ _ rfl rfl (by decide +kernel) (Option.some_get _).symm
    (by decide +kernel)

end Examples

end Budget

end GpuSharing.Sardeenz.ModelManager
