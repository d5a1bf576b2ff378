import GpuSharing.Sardeenz.ModelManager

namespace GpuSharing.Sardeenz.ModelManager

variable {Id : Type}

section Unload

/-- A sleep, a wake or a startup monitor of the instance comes to its last write only while
`unloadModel` has not removed it. -/
def WritesLoaded (s : ModelManager Id) : ManagerAct Id → Prop
  | .event i .sleepDone => ¬(s.launch i).unloaded
  | .event i .wakeDone => ¬(s.launch i).unloaded
  | .event i .monitorDone => ¬(s.launch i).unloaded
  | _ => True

instance (s : ModelManager Id) (a : ManagerAct Id) : Decidable (WritesLoaded s a) := by
  unfold WritesLoaded
  split <;> infer_instance

theorem writesLoaded_event {s : ModelManager Id} {i : Id} {ev : InstanceEvent Id} :
    WritesLoaded s (.event i ev) ↔
      ((s.launch i).unloaded → ev ≠ .sleepDone ∧ ev ≠ .wakeDone ∧ ev ≠ .monitorDone) := by
  cases ev <;> simp [WritesLoaded]

/-- An unloaded instance is out of the store, and its launch has returned. -/
structure Removed (e : Launch Id) : Prop where
  fresh : e.pc ≠ .returned → e.Fresh
  unstored : e.unloaded → ¬e.stored

variable [DecidableEq Id] {c : ManagerConfig} {s t : ModelManager Id} {a : ManagerAct Id}
  {acts : List (ManagerAct Id)} {i : Id} {e e' : Launch Id} {ev : InstanceEvent Id}

/-- No later step stores an unloaded instance again or marks it as running or sleeping. -/
def StaysUnloaded (c : ManagerConfig) (s : ModelManager Id) (a : ManagerAct Id) : Prop :=
  ∀ t, step c s a = some t → ∀ i ∈ s.ids, (s.launch i).unloaded →
    ¬(t.launch i).stored ∧
    ((t.launch i).status = .running ∨ (t.launch i).status = .sleeping →
      (t.launch i).status = (s.launch i).status)

/-- The three last writes are the only events that store an unloaded instance. -/
theorem unloaded_next (h : Removed e) (hu : e.unloaded) (hnext : e.next ev = some e') :
    (e'.stored ↔ ev = .sleepDone ∨ ev = .wakeDone ∨ ev = .monitorDone) ∧
      (¬e'.stored → e'.status = e.status) ∧ e'.unloaded := by
  have hstored := h.unstored hu
  have hpc : e.pc = .returned := by
    by_contra hpc
    simp [(h.fresh hpc).loaded] at hu
  cases ev <;> (simp only [Launch.next] at hnext; grind)

theorem Removed.next (h : Removed e) (hu : e.unloaded →
    ev ≠ .sleepDone ∧ ev ≠ .wakeDone ∧ ev ≠ .monitorDone) (hnext : e.next ev = some e') :
    Removed e' := by
  refine ⟨Launch.next_fresh h.fresh hnext, fun hu' => ?_⟩
  by_cases hu₀ : e.unloaded
  · obtain ⟨hstored, -, -⟩ := unloaded_next h hu₀ hnext
    have := hu hu₀
    tauto
  · -- the event is the removal
    cases ev <;> (simp only [Launch.next] at hnext; grind)

/-- What a step has to do with an unloaded instance is decided by the last writes. -/
theorem staysUnloaded_iff (h : ∀ i ∈ s.ids, Removed (s.launch i)) (hstep : step c s a = some t) :
    StaysUnloaded c s a ↔ WritesLoaded s a := by
  cases a with
  | launch j options =>
    refine iff_of_true ?_ trivial
    intro t' ht' i hi hu
    obtain ⟨⟨hj, -⟩, rfl⟩ := step_launch_some.mp ht'
    have hij : i ≠ j := fun heq => hj (heq ▸ hi)
    rw [admitLaunch_launch_of_ne hij]
    exact ⟨(h i hi).unstored hu, fun _ => rfl⟩
  | event j ev =>
    obtain ⟨⟨hj, hen⟩, e', hnext, rfl⟩ := step_event_some.mp hstep
    rw [writesLoaded_event]
    constructor
    · intro hstays hu
      have hkept := (hstays _ hstep j hj hu).1
      rw [put_launch_self] at hkept
      have := (unloaded_next (h j hj) hu hnext).1
      tauto
    · intro hwrites t' ht' i hi hu
      rw [hstep] at ht'
      cases ht'
      by_cases hij : i = j
      · subst hij
        rw [put_launch_self]
        obtain ⟨hstored, hstatus, -⟩ := unloaded_next (h i hi) hu hnext
        have hunstored : ¬e'.stored := by
          have := hwrites hu
          tauto
        exact ⟨hunstored, fun _ => hstatus hunstored⟩
      · rw [put_launch_of_ne hij]
        exact ⟨(h i hi).unstored hu, fun _ => rfl⟩

theorem step_removed (h : ∀ i ∈ s.ids, Removed (s.launch i)) (hw : WritesLoaded s a)
    (hstep : step c s a = some t) : ∀ i ∈ t.ids, Removed (t.launch i) := by
  refine step_launches ?_ ?_ h hstep
  · intro i options
    exact ⟨fun _ => Launch.start_fresh options _, fun hu => by simp [Launch.start] at hu⟩
  · intro i ev e' ha _ _ hr hnext
    rw [ha, writesLoaded_event] at hw
    exact hr.next hw hnext

/-- In every run, unloaded instances stay so exactly when the last writes meet the condition. -/
theorem unloaded_stays_iff (c : ManagerConfig) (acts : List (ManagerAct Id)) (t : ModelManager Id)
    (hrun : run c empty acts = some t) :
    Transition.Along (step c) (StaysUnloaded c) empty acts ↔
      Transition.Along (step c) WritesLoaded empty acts := by
  refine Transition.along_congr (I := fun s => ∀ i ∈ s.ids, Removed (s.launch i))
    (E := fun s a => ∃ t, step c s a = some t) ?_ ?_ (by simp [empty])
    (Transition.along_enabled hrun)
  · intro s a h hen
    obtain ⟨t, ht⟩ := hen
    exact staysUnloaded_iff h ht
  · intro s a t h _ hw ht
    exact step_removed h hw ht

section Examples

/-- `sleepModel` has sent its request when `unloadModel` comes. -/
def unloadDuringSleep : List (ManagerAct Nat) :=
  startup 0 12346 ⟨[0], none, true⟩ ++ [.event 0 .sleep, .event 0 .unload, .event 0 .unloadDone]

theorem sleep_stores_unloaded : ∃ s, run defaultConfig empty unloadDuringSleep = some s ∧
    ¬StaysUnloaded defaultConfig s (.event 0 .sleepDone) := by
  refine ⟨(run defaultConfig empty unloadDuringSleep).get (by decide +kernel),
    (Option.some_get _).symm, fun hstays => ?_⟩
  have hkept := hstays _ (Option.some_get (by decide +kernel)).symm 0 (by decide +kernel)
    (by decide +kernel)
  exact absurd hkept.1 (by decide +kernel)

/-- The unload comes after the sleep. -/
def unloadAfterSleep : List (ManagerAct Nat) :=
  startup 0 12346 ⟨[0], none, true⟩ ++
    [.event 0 .sleep, .event 0 .sleepDone, .event 0 .unload, .event 0 .unloadDone]

theorem unloaded_stays_afterSleep :
    Transition.Along (step defaultConfig) (StaysUnloaded defaultConfig) empty unloadAfterSleep :=
  (unloaded_stays_iff defaultConfig unloadAfterSleep _
    (Option.some_get (by decide +kernel)).symm).mpr (by decide +kernel)

end Examples

end Unload

section Startup

/-- The monitor has an answer that it has not taken up yet. -/
def hasAnswer : MonitorPc Id → Bool
  | .answered _ => true
  | _ => false

/-- A health poll of a stored instance is answered by no process of another instance and not after a
handler of its process has run, no handler runs between the answer and the monitor taking it up, and
no wake comes to an end after a handler. -/
def PollsUndisturbed (s : ModelManager Id) : ManagerAct Id → Prop
  | .event i (.pollAnswered _) =>
    ((s.launch i).stored → ¬(s.launch i).ended) ∧
      ∀ k ∈ s.ids, k ≠ i → (s.launch k).process = .alive → (s.launch k).port ≠ (s.launch i).port
  | .event i .handleExit => (s.launch i).stored → ¬hasAnswer (s.launch i).monitor
  | .event i .handleError => (s.launch i).stored → ¬hasAnswer (s.launch i).monitor
  | .event i .wakeDone => ¬(s.launch i).ended ∧ (s.launch i).status ≠ .failed
  | _ => True

/-- The monitor is not done with its polls. -/
def awaitsReady : MonitorPc Id → Bool
  | .polling => true
  | .answered _ => true
  | _ => false

instance [DecidableEq Id] (s : ModelManager Id) (a : ManagerAct Id) :
    Decidable (PollsUndisturbed s a) := by
  unfold PollsUndisturbed
  split <;> infer_instance

/-- Until the monitor has taken up an answer nothing but the process's handlers and an unload has
touched the instance, and the answer is from its own process. -/
structure Monitored (i : Id) (e : Launch Id) : Prop where
  fresh : e.pc ≠ .returned → e.Fresh
  early : awaitsReady e.monitor →
    e.sleeps = 0 ∧ e.wakes = 0 ∧ e.status ≠ .running ∧ e.status ≠ .sleeping
  failed : e.monitor = .polling → e.stored → e.status = .failed → e.ended
  answered : ∀ k, e.monitor = .answered k → k = i ∧ (e.stored → ¬e.ended ∧ e.status ≠ .failed)

theorem start_monitored {i : Id} (options : LaunchOptions) (kvcachedEnabled : Bool) :
    Monitored i (Launch.start options kvcachedEnabled) := by
  refine ⟨fun _ => Launch.start_fresh options _, ?_, ?_, ?_⟩ <;> simp [Launch.start, awaitsReady]

theorem monitored_of_done {i : Id} {e : Launch Id} (hfresh : e.pc ≠ .returned → e.Fresh)
    (hdone : ¬awaitsReady e.monitor) : Monitored i e := by
  refine ⟨hfresh, fun hawaits => absurd hawaits hdone, fun hm => ?_, fun k hm => ?_⟩
  · exact absurd (by rw [hm]; rfl) hdone
  · exact absurd (by rw [hm]; rfl) hdone

variable [DecidableEq Id] {c : ManagerConfig} {s t : ModelManager Id} {a : ManagerAct Id}
  {acts : List (ManagerAct Id)} {i : Id} {e e' : Launch Id} {ev : InstanceEvent Id}

/-- An instance that becomes running has not failed and no handler of its process has run, and the
startup monitor has the answer of its own process. -/
def RunsAnswered (c : ManagerConfig) (s : ModelManager Id) (a : ManagerAct Id) : Prop :=
  ∀ t, step c s a = some t → ∀ i ∈ s.ids,
    (t.launch i).status = .running → (s.launch i).status ≠ .running →
    ¬(s.launch i).ended ∧ (s.launch i).status ≠ .failed ∧
      (a = .event i .monitorReady → (s.launch i).monitor = .answered i)

/-- What the condition says of an event of the instance itself. -/
def EventUndisturbed (i : Id) (e : Launch Id) : InstanceEvent Id → Prop
  | .pollAnswered k => k = i ∧ (e.stored → ¬e.ended)
  | .handleExit => e.stored → ¬hasAnswer e.monitor
  | .handleError => e.stored → ¬hasAnswer e.monitor
  | .wakeDone => ¬e.ended ∧ e.status ≠ .failed
  | _ => True

theorem PollsUndisturbed.event (hen : enabled c s i ev) (h : PollsUndisturbed s (.event i ev)) :
    EventUndisturbed i (s.launch i) ev := by
  cases ev with
  | pollAnswered j =>
    obtain ⟨hj, halive, hport⟩ := of_decide_eq_true hen
    refine ⟨?_, h.1⟩
    by_contra hij
    exact h.2 j hj hij halive hport
  | handleExit => exact h
  | handleError => exact h
  | wakeDone => exact h
  | _ => trivial

/-- Only the start of the monitor makes it await the instance. -/
theorem awaitsReady_next (hnext : e.next ev = some e') (hawaits : awaitsReady e'.monitor) :
    ev = .spawn ∨ awaitsReady e.monitor := by
  cases ev with
  | spawn => exact .inl rfl
  | choosePort | abandon | spawnFail =>
    simp only [Launch.next] at hnext
    split_ifs at hnext
    cases hnext
    exact .inr hawaits
  | pollAnswered process =>
    simp only [Launch.next] at hnext
    split_ifs at hnext with hm
    rw [hm]
    exact .inr rfl
  | _ =>
    simp only [Launch.next] at hnext
    grind [awaitsReady]

/-- A handler runs before the monitor has an answer, and nobody puts the instance to sleep. -/
theorem Monitored.next_awaits (h : Monitored i e) (hawaits : awaitsReady e.monitor)
    (hev : EventUndisturbed i e ev) (hnext : e.next ev = some e') : Monitored i e' := by
  have hfresh := Launch.next_fresh h.fresh hnext
  obtain ⟨hsleeps, hwakes, hrunning, hsleeping⟩ := h.early hawaits
  cases ev with
  | choosePort | abandon | spawn | spawnFail =>
    simp only [Launch.next] at hnext
    split_ifs at hnext with hpc
    rw [(h.fresh (by simp [hpc])).unmonitored] at hawaits
    cases hawaits
  | pollAnswered process =>
    simp only [Launch.next] at hnext
    split_ifs at hnext with hm
    cases hnext
    refine ⟨hfresh, fun _ => h.early hawaits, by simp, fun k hk => ?_⟩
    cases hk
    refine ⟨hev.1, fun hstored => ⟨hev.2 hstored, fun hfailed => ?_⟩⟩
    exact hev.2 hstored (h.failed hm hstored hfailed)
  | monitorReady =>
    simp only [Launch.next] at hnext
    split at hnext
    · split_ifs at hnext <;> cases hnext <;> exact monitored_of_done hfresh (by simp [awaitsReady])
    · cases hnext
  | monitorDone | monitorThrow | monitorFail | monitorCleaned =>
    simp only [Launch.next] at hnext
    split_ifs at hnext <;> cases hnext <;> exact monitored_of_done hfresh (by simp [awaitsReady])
  | exit =>
    simp only [Launch.next] at hnext
    split_ifs at hnext
    cases hnext
    exact ⟨hfresh, h.early, h.failed, h.answered⟩
  | handleExit =>
    have hnone : e.stored → ∀ k, e.monitor ≠ .answered k :=
      fun hstored k hk => hev hstored (by rw [hk]; rfl)
    simp only [Launch.next] at hnext
    split_ifs at hnext with hexited hstored hstopping <;> cases hnext
    · exact ⟨hfresh, fun _ => ⟨hsleeps, hwakes, by simp, by simp⟩, fun _ _ _ => rfl,
        fun k hk => absurd hk (hnone hstored k)⟩
    · exact ⟨hfresh, fun _ => ⟨hsleeps, hwakes, by simp, by simp⟩, fun _ _ _ => rfl,
        fun k hk => absurd hk (hnone hstored k)⟩
    · exact ⟨hfresh, h.early, fun _ hst => absurd hst hstored,
        fun k hk => ⟨(h.answered k hk).1, fun hst => absurd hst hstored⟩⟩
  | handleError =>
    have hnone : e.stored → ∀ k, e.monitor ≠ .answered k :=
      fun hstored k hk => hev hstored (by rw [hk]; rfl)
    simp only [Launch.next] at hnext
    split_ifs at hnext with hunspawned hstored <;> cases hnext
    · exact ⟨hfresh, fun _ => ⟨hsleeps, hwakes, by simp, by simp⟩, fun _ _ _ => rfl,
        fun k hk => absurd hk (hnone hstored k)⟩
    · exact ⟨hfresh, h.early, fun _ hst => absurd hst hstored,
        fun k hk => ⟨(h.answered k hk).1, fun hst => absurd hst hstored⟩⟩
  | unload =>
    simp only [Launch.next] at hnext
    split_ifs at hnext with hstored <;> cases hnext
    · exact ⟨hfresh, fun _ => ⟨hsleeps, hwakes, by simp, by simp⟩, by simp,
        fun k hk => ⟨(h.answered k hk).1, fun _ => ⟨((h.answered k hk).2 hstored).1, by simp⟩⟩⟩
    · exact ⟨hfresh, h.early, by simp, fun k hk => ⟨(h.answered k hk).1, by simp⟩⟩
  | unloadDone =>
    simp only [Launch.next] at hnext
    split_ifs at hnext
    cases hnext
    exact ⟨hfresh, h.early, by simp, fun k hk => ⟨(h.answered k hk).1, by simp⟩⟩
  | unloadFail =>
    simp only [Launch.next] at hnext
    split_ifs at hnext
    cases hnext
    exact ⟨hfresh, h.early, h.failed, h.answered⟩
  | sleep =>
    simp only [Launch.next] at hnext
    split_ifs at hnext with hsleep
    exact absurd hsleep.2.2 hrunning
  | wake =>
    simp only [Launch.next] at hnext
    split_ifs at hnext with hwake
    exact absurd hwake.2 hsleeping
  | sleepDone | sleepFail | wakeDone | wakeFail =>
    simp only [Launch.next] at hnext
    split_ifs at hnext
    omega

theorem Monitored.next (h : Monitored i e) (hev : EventUndisturbed i e ev)
    (hnext : e.next ev = some e') : Monitored i e' := by
  have hfresh := Launch.next_fresh h.fresh hnext
  by_cases hawaits : awaitsReady e'.monitor
  · rcases awaitsReady_next hnext hawaits with rfl | hbefore
    · -- the monitor has just been started
      simp only [Launch.next] at hnext
      split_ifs at hnext with hpc
      have hnew := h.fresh (by simp [hpc])
      cases hnext
      refine ⟨hfresh, fun _ => ?_, fun _ _ hfailed => ?_, by simp⟩
      · simp [hnew.noSleeps, hnew.noWakes, hnew.starting]
      · exact absurd hnew.starting (by simp [show e.status = .failed from hfailed])
    · exact h.next_awaits hbefore hev hnext
  · exact monitored_of_done hfresh hawaits

/-- Only the monitor and a wake make an instance running. -/
theorem running_next (h : Monitored i e) (hev : EventUndisturbed i e ev)
    (hnext : e.next ev = some e') (hrunning : e'.status = .running) (hne : e.status ≠ .running) :
    ¬e.ended ∧ e.status ≠ .failed ∧ (ev = .monitorReady → e.monitor = .answered i) := by
  cases ev with
  | monitorReady =>
    simp only [Launch.next] at hnext
    split at hnext
    · rename_i k hk
      obtain ⟨rfl, hstored⟩ := h.answered k hk
      split_ifs at hnext with hst
      · exact ⟨(hstored hst).1, (hstored hst).2, fun _ => hk⟩
      · cases hnext
        exact absurd hrunning hne
    · cases hnext
  | wakeDone => exact ⟨hev.1, hev.2, by simp⟩
  | _ =>
    simp only [Launch.next] at hnext
    grind

theorem step_monitored (h : ∀ i ∈ s.ids, Monitored i (s.launch i)) (hp : PollsUndisturbed s a)
    (hstep : step c s a = some t) : ∀ i ∈ t.ids, Monitored i (t.launch i) := by
  refine step_launches (P := Monitored) ?_ ?_ h hstep
  · intro i options
    exact start_monitored options _
  · intro i ev e' ha _ hen hm hnext
    rw [ha] at hp
    exact hm.next (hp.event hen) hnext

theorem runsAnswered_of_undisturbed (h : ∀ i ∈ s.ids, Monitored i (s.launch i))
    (hp : PollsUndisturbed s a) : RunsAnswered c s a := by
  intro t hstep i hi hrunning hne
  cases a with
  | launch j options =>
    obtain ⟨⟨hj, -⟩, rfl⟩ := step_launch_some.mp hstep
    have hij : i ≠ j := fun heq => hj (heq ▸ hi)
    rw [admitLaunch_launch_of_ne hij] at hrunning
    exact absurd hrunning hne
  | event j ev =>
    obtain ⟨⟨hj, hen⟩, e', hnext, rfl⟩ := step_event_some.mp hstep
    by_cases hij : i = j
    · subst hij
      rw [put_launch_self] at hrunning
      obtain ⟨hended, hfailed, hown⟩ := running_next (h i hi) (hp.event hen) hnext hrunning hne
      refine ⟨hended, hfailed, fun ha => hown ?_⟩
      cases ha
      rfl
    · rw [put_launch_of_ne hij] at hrunning
      exact absurd hrunning hne

section Examples

/-- The process ends after it has answered its health poll. -/
def exitAfterAnswer : List (ManagerAct Nat) :=
  (startup 0 12346 ⟨[0], none, false⟩).take 4 ++ [.event 0 .exit, .event 0 .handleExit]

end Examples

end Startup

end GpuSharing.Sardeenz.ModelManager
