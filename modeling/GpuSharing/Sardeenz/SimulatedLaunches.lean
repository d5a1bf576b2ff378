import GpuSharing.Sardeenz.InstanceRaces
import GpuSharing.Sardeenz.SimGpuTracker

namespace GpuSharing.Sardeenz

open ModelMemory SimGpuTracker Transition

/-- The settings of the simulation. -/
structure SimConfig where
  arithmetic : Rounding
  manager : ManagerConfig
  gpuCount : Nat
  simGpuMemoryGB : Nat
  simModelMemoryGB : Nat

/-- A manager in simulation mode, with the path of the model of each launch. -/
structure SimManager (Id : Type) where
  manager : ModelManager Id
  modelPath : Id → List Char
  gpus : SimGpuTracker Id

inductive SimAct (Id : Type)
  | launch (i : Id) (options : LaunchOptions) (modelPath : List Char)
  | event (i : Id) (ev : InstanceEvent Id)
  deriving DecidableEq, Repr

namespace SimManager

variable {Id : Type} [DecidableEq Id] (c : SimConfig)

def start : SimManager Id where
  manager := .empty
  modelPath _ := []
  gpus := initGpus c.gpuCount c.simGpuMemoryGB

/-- The memory that the startup monitor of `i` asks for on each GPU. -/
def memoryMB (s : SimManager Id) (i : Id) : ℚ :=
  perGpuMemoryMB c.arithmetic
    (estimateModelMemory c.arithmetic (s.modelPath i) c.simModelMemoryGB).estimatedMemoryGB
    (s.manager.launch i).options.targetGpuIds.length

/-- From the answer of the health poll on, the monitor does not wait: when an allocation throws, it
goes to its `catch`. -/
def monitorReady (s : SimManager Id) (i : Id) : Option (SimManager Id) :=
  match s.manager.step c.manager (.event i .monitorReady) with
  | none => none
  | some m =>
    if (s.manager.launch i).stored then
      let r := allocateAll c.arithmetic i (s.memoryMB c i)
        (s.manager.launch i).options.targetGpuIds s.gpus
      let next := match r.1 with
        | .ok () => InstanceEvent.monitorDone
        | .error _ => .monitorThrow
      (m.step c.manager (.event i next)).map fun m => { s with manager := m, gpus := r.2 }
    else some { s with manager := m }

/-- The selected GPUs are distinct. Nothing here is put to sleep, and `killProcessGracefully` waits
for the event of the exit, which `handleProcessExit` gets before. -/
def step (s : SimManager Id) : SimAct Id → Option (SimManager Id)
  | .launch i options modelPath =>
    if options.targetGpuIds.Nodup then
      (s.manager.step c.manager (.launch i options)).map fun m =>
        { s with manager := m, modelPath := Function.update s.modelPath i modelPath }
    else none
  | .event i .monitorReady => s.monitorReady c i
  | .event i .handleExit =>
    (s.manager.step c.manager (.event i .handleExit)).map fun m =>
      { s with
        manager := m
        gpus := if (s.manager.launch i).stored then deallocate c.arithmetic i s.gpus else s.gpus }
  | .event i .unloadDone =>
    if (s.manager.launch i).process = .reaped then
      (s.manager.step c.manager (.event i .unloadDone)).map fun m =>
        { s with manager := m, gpus := deallocate c.arithmetic i s.gpus }
    else none
  | .event _ .monitorDone | .event _ .unloadFail | .event _ .sleep | .event _ .sleepDone
  | .event _ .sleepFail | .event _ .wake | .event _ .wakeDone | .event _ .wakeFail => none
  | .event i ev =>
    (s.manager.step c.manager (.event i ev)).map fun m => { s with manager := m }

/-- The process of the launch has exited or the instance is unloaded, and no handler of it is
running or due. -/
def Over (e : Launch Id) : Prop :=
  (e.process = .reaped ∨ e.unloaded = true) ∧ e.process ≠ .exited ∧ e.monitor = .idle ∧
    e.unloads = 0

/-- On every GPU the used memory is that of the models recorded and within the total, and nothing is
recorded for an instance that is over. -/
structure Accounted (s : SimManager Id) : Prop where
  balanced : ∀ gpu ∈ s.gpus, Balanced gpu
  freed : ∀ i ∈ s.manager.ids, Over (s.manager.launch i) → ¬Recorded s.gpus i

/-- The first GPU of the instance has no room for its model. -/
def NoRoom (s : SimManager Id) (i : Id) : Prop :=
  ∀ gpuIndex ∈ (s.manager.launch i).options.targetGpuIds.head?, ∀ gpu ∈ s.gpus[gpuIndex]?,
    gpu.totalMemoryMB < usedWith c.arithmetic gpu (s.memoryMB c i)

/-- The handler of the process's exit is still to come, or an unload waits to go on after it. -/
def WillFree (e : Launch Id) : Prop := e.process ≠ .reaped ∨ 0 < e.unloads

/-- The memory of an instance is recorded only where some handler will free it, and the instance is
not taken out of the store before that. -/
def Frees (s : SimManager Id) : SimAct Id → Prop
  | .event i .monitorReady => (s.manager.launch i).stored = true →
    (WillFree (s.manager.launch i) ∨ s.NoRoom c i) ∧
      SumsExact c.arithmetic (s.memoryMB c i) s.gpus (s.manager.launch i).options.targetGpuIds
  | .event i .unload => (s.manager.launch i).handle = false → ¬Recorded s.gpus i
  | .event i .handleExit => (s.manager.launch i).stored = true →
    DifferencesExact c.arithmetic s.gpus i
  | .event i .unloadDone => DifferencesExact c.arithmetic s.gpus i
  | _ => True

instance decidableNoRoom (s : SimManager Id) (i : Id) : Decidable (s.NoRoom c i) :=
  inferInstanceAs (Decidable (∀ gpuIndex ∈ (s.manager.launch i).options.targetGpuIds.head?, _))

instance decidableWillFree (e : Launch Id) : Decidable (WillFree e) :=
  inferInstanceAs (Decidable (_ ∨ _))

instance decidableFrees (s : SimManager Id) : ∀ a, Decidable (Frees c s a)
  | .event i .monitorReady => inferInstanceAs (Decidable (_ → (_ ∨ s.NoRoom c i) ∧ _))
  | .event i .unload => inferInstanceAs (Decidable (_ → ¬Recorded s.gpus i))
  | .event i .handleExit => inferInstanceAs (Decidable (_ → DifferencesExact c.arithmetic s.gpus i))
  | .event i .unloadDone => inferInstanceAs (Decidable (DifferencesExact c.arithmetic s.gpus i))
  | .launch .. | .event _ (.choosePort _) | .event _ .abandon | .event _ .spawn | .event _ .spawnFail
  | .event _ (.pollAnswered _) | .event _ .monitorDone | .event _ .monitorThrow
  | .event _ .monitorFail | .event _ .monitorCleaned | .event _ .exit | .event _ .handleError
  | .event _ .unloadFail | .event _ .sleep | .event _ .sleepDone | .event _ .sleepFail
  | .event _ .wake | .event _ .wakeDone | .event _ .wakeFail => .isTrue trivial

/-- A launch as the simulation leaves it between two steps. -/
structure Simulated (e : Launch Id) : Prop where
  fresh : e.pc ≠ .returned → e.Fresh
  unloaded : e.unloaded = true → e.stored = false
  quiet : e.monitor ≠ .capturing
  nodup : e.options.targetGpuIds.Nodup

/-- A launch for which memory may be recorded. -/
structure Holding (e : Launch Id) : Prop where
  stored : e.stored = true
  returned : e.pc = .returned
  willFree : WillFree e
  answered : e.monitor = .failing ∨ e.monitor = .cleaning ∨ e.monitor = .idle

/-- The events that do not touch the tracker. -/
def IsPlain : InstanceEvent Id → Prop
  | .choosePort _ | .abandon | .spawn | .spawnFail | .pollAnswered _ | .monitorThrow
  | .monitorFail | .monitorCleaned | .exit | .handleError | .unload => True
  | _ => False

variable {c} {e e' : Launch Id} {ev : InstanceEvent Id} {s t : SimManager Id} {i j : Id}

omit [DecidableEq Id] in
theorem simulated_start (options : LaunchOptions) (kvcachedEnabled : Bool)
    (h : options.targetGpuIds.Nodup) :
    Simulated (Launch.start options kvcachedEnabled : Launch Id) :=
  ⟨fun _ => Launch.start_fresh options kvcachedEnabled, nofun, nofun, h⟩

omit [DecidableEq Id] in
theorem Simulated.removed (h : Simulated e) : ModelManager.Removed e :=
  ⟨h.fresh, fun hu => by simp [h.unloaded hu]⟩

theorem Simulated.next (h : Simulated e) (hev : IsPlain ev ∨ ev = .handleExit ∨ ev = .unloadDone)
    (hnext : e.next ev = some e') : Simulated e' := by
  have hready : ev ≠ .monitorReady := by
    intro hev'
    simp [hev', IsPlain] at hev
  -- the events that would store an unloaded instance again do not happen alone
  have hlast : ev ≠ .sleepDone ∧ ev ≠ .wakeDone ∧ ev ≠ .monitorDone := by
    refine ⟨?_, ?_, ?_⟩ <;> intro hev' <;> simp [hev', IsPlain] at hev
  have hremoved := h.removed.next (fun _ => hlast) hnext
  refine ⟨hremoved.fresh, fun hu => by simpa using hremoved.unstored hu, ?_, ?_⟩
  · intro hcapturing
    obtain hbefore | hev' := Launch.next_capturing hnext hcapturing
    · exact h.quiet hbefore
    · exact hready hev'
  · rw [Launch.next_options hnext]
    exact h.nodup

theorem Holding.next_stored (h : Holding e) (hplain : IsPlain ev) (hnext : e.next ev = some e')
    (hunload : ev = .unload → e.handle = true) : e'.stored = true := by
  have hstored := h.stored
  cases ev <;> first | exact hplain.elim | (simp only [Launch.next] at hnext; grind)

theorem WillFree.next (h : WillFree e) (hreturned : e.pc = .returned) (hplain : IsPlain ev)
    (hnext : e.next ev = some e') : WillFree e' := by
  unfold WillFree at h ⊢
  cases ev <;> first | exact hplain.elim | (simp only [Launch.next] at hnext; grind)

theorem Holding.next_answered (h : Holding e) (hplain : IsPlain ev) (hnext : e.next ev = some e') :
    e'.monitor = .failing ∨ e'.monitor = .cleaning ∨ e'.monitor = .idle := by
  have hreturned := h.returned
  have hanswered := h.answered
  cases ev <;> first | exact hplain.elim | (simp only [Launch.next] at hnext; grind)

theorem Holding.next (h : Holding e) (hplain : IsPlain ev) (hnext : e.next ev = some e')
    (hunload : ev = .unload → e.handle = true) : Holding e' :=
  ⟨h.next_stored hplain hnext hunload, Launch.next_returned hnext h.returned,
    h.willFree.next h.returned hplain hnext, h.next_answered hplain hnext⟩

/-- What a step does. -/
inductive Outcome (c : SimConfig) (s : SimManager Id) : SimAct Id → SimManager Id → Prop
  | launch (i : Id) (options : LaunchOptions) (modelPath : List Char)
      (hnodup : options.targetGpuIds.Nodup) (hi : i ∉ s.manager.ids) :
      Outcome c s (.launch i options modelPath)
        { s with
          manager := s.manager.admitLaunch c.manager i options
          modelPath := Function.update s.modelPath i modelPath }
  | plain (i : Id) (ev : InstanceEvent Id) (e : Launch Id) (hi : i ∈ s.manager.ids)
      (hplain : IsPlain ev) (hnext : (s.manager.launch i).next ev = some e) :
      Outcome c s (.event i ev) { s with manager := s.manager.put i e }
  | forgotten (i : Id) (hi : i ∈ s.manager.ids) (hstored : (s.manager.launch i).stored = false) :
      Outcome c s (.event i .monitorReady)
        { s with manager := s.manager.put i { s.manager.launch i with monitor := .idle } }
  | allocates (i j : Id) (monitor : MonitorPc Id) (hi : i ∈ s.manager.ids)
      (hanswered : (s.manager.launch i).monitor = .answered j)
      (hstored : (s.manager.launch i).stored = true)
      (hmonitor : monitor = .failing ∨ monitor = .idle) :
      Outcome c s (.event i .monitorReady)
        { s with
          manager := s.manager.put i { s.manager.launch i with
            status := .running
            monitor := monitor }
          gpus := (allocateAll c.arithmetic i (s.memoryMB c i)
            (s.manager.launch i).options.targetGpuIds s.gpus).2 }
  | exits (i : Id) (e : Launch Id) (hi : i ∈ s.manager.ids)
      (hnext : (s.manager.launch i).next .handleExit = some e) :
      Outcome c s (.event i .handleExit)
        { s with
          manager := s.manager.put i e
          gpus := if (s.manager.launch i).stored then deallocate c.arithmetic i s.gpus else s.gpus }
  | unloads (i : Id) (e : Launch Id) (hi : i ∈ s.manager.ids)
      (hnext : (s.manager.launch i).next .unloadDone = some e) :
      Outcome c s (.event i .unloadDone)
        { s with manager := s.manager.put i e, gpus := deallocate c.arithmetic i s.gpus }

theorem event_outcome {m : ModelManager Id} (h : s.manager.step c.manager (.event i ev) = some m) :
    i ∈ s.manager.ids ∧ ∃ e, (s.manager.launch i).next ev = some e ∧ m = s.manager.put i e := by
  obtain ⟨⟨hi, -⟩, e, he, rfl⟩ := ModelManager.step_event_some.mp h
  exact ⟨hi, e, he, rfl⟩

theorem next_monitorReady (h : e.next .monitorReady = some e') :
    ∃ j, e.monitor = .answered j ∧
      ((e.stored = true ∧ e' = { e with status := .running, monitor := .capturing }) ∨
        (e.stored = false ∧ e' = { e with monitor := .idle })) := by
  simp only [Launch.next] at h
  split at h
  case h_1 j hanswered =>
    refine ⟨j, hanswered, ?_⟩
    split_ifs at h with hstored
    · exact .inl ⟨hstored, (Option.some.inj h).symm⟩
    · exact .inr ⟨by simpa using hstored, (Option.some.inj h).symm⟩
  case h_2 => cases h

theorem put_put {m : ModelManager Id} : (m.put i e).put i e' = m.put i e' := by
  simp [ModelManager.put]

/-- The end of the monitor's section, after its loop over the GPUs. -/
theorem capturing_next {r : Except SimGpuError Unit} (hstored : e.stored = true)
    (hnext : ({ e with status := .running, monitor := .capturing } : Launch Id).next
      (match r with
        | .ok () => .monitorDone
        | .error _ => .monitorThrow) = some e') :
    ∃ monitor, (monitor = .failing ∨ monitor = .idle) ∧
      e' = { e with status := .running, monitor := monitor } := by
  cases r with
  | ok =>
    simp only [Launch.next, if_true] at hnext
    refine ⟨.idle, .inr rfl, ?_⟩
    rw [← Option.some.inj hnext, hstored]
  | error =>
    simp only [Launch.next, or_true, if_true] at hnext
    exact ⟨.failing, .inl rfl, (Option.some.inj hnext).symm⟩

theorem monitorReady_outcome (h : s.monitorReady c i = some t) :
    Outcome c s (.event i .monitorReady) t := by
  unfold monitorReady at h
  split at h
  case h_1 => cases h
  case h_2 m hready =>
    obtain ⟨hi, e, he, rfl⟩ := event_outcome hready
    obtain ⟨j, hanswered, ⟨hstored, rfl⟩ | ⟨hstored, rfl⟩⟩ := next_monitorReady he
    · rw [if_pos hstored] at h
      obtain ⟨m, hdone, rfl⟩ := Option.map_eq_some_iff.mp h
      obtain ⟨-, e, hnext, rfl⟩ := event_outcome (s := { s with manager := s.manager.put i _ }) hdone
      rw [ModelManager.put_launch_self] at hnext
      obtain ⟨monitor, hmonitor, rfl⟩ := capturing_next hstored hnext
      rw [put_put]
      exact .allocates i j monitor hi hanswered hstored hmonitor
    · rw [if_neg (by simp [hstored])] at h
      cases h
      exact .forgotten i hi hstored

theorem step_outcome {a : SimAct Id} (h : step c s a = some t) : Outcome c s a t := by
  cases a with
  | launch i options modelPath =>
    simp only [step] at h
    split_ifs at h with hnodup
    obtain ⟨m, hm, rfl⟩ := Option.map_eq_some_iff.mp h
    obtain ⟨⟨hi, -⟩, rfl⟩ := ModelManager.step_launch_some.mp hm
    exact .launch i options modelPath hnodup hi
  | event i ev =>
    cases ev with
    | monitorReady => exact monitorReady_outcome h
    | handleExit =>
      obtain ⟨m, hm, rfl⟩ := Option.map_eq_some_iff.mp h
      obtain ⟨hi, e, he, rfl⟩ := event_outcome hm
      exact .exits i e hi he
    | unloadDone =>
      simp only [step] at h
      split_ifs at h
      obtain ⟨m, hm, rfl⟩ := Option.map_eq_some_iff.mp h
      obtain ⟨hi, e, he, rfl⟩ := event_outcome hm
      exact .unloads i e hi he
    | monitorDone | unloadFail | sleep | sleepDone | sleepFail | wake | wakeDone | wakeFail => cases h
    | _ =>
      obtain ⟨m, hm, rfl⟩ := Option.map_eq_some_iff.mp h
      obtain ⟨hi, e, he, rfl⟩ := event_outcome hm
      exact .plain i _ e hi trivial he

/-- What holds between two steps. -/
structure Sound (s : SimManager Id) : Prop where
  kept : Kept s.gpus
  simulated : ∀ i ∈ s.manager.ids, Simulated (s.manager.launch i)
  holding : ∀ i, Recorded s.gpus i → i ∈ s.manager.ids ∧ Holding (s.manager.launch i)

theorem start_sound (c : SimConfig) : (start c : SimManager Id).Sound :=
  ⟨kept_initGpus _ _, nofun, fun _ hi => absurd hi (not_recorded_initGpus _ _)⟩

/-- A step for one launch keeps what holds if it does so for that launch. -/
theorem Sound.put (hs : s.Sound) (hi : i ∈ s.manager.ids) {gpus : SimGpuTracker Id}
    (hkept : Kept gpus) (he : Simulated e) (hother : ∀ j ≠ i, Recorded gpus j → Recorded s.gpus j)
    (hself : Recorded gpus i → Holding e) :
    Sound { s with manager := s.manager.put i e, gpus := gpus } := by
  refine ⟨hkept, ?_, ?_⟩
  · intro j hj
    by_cases hij : j = i
    · subst hij
      rw [ModelManager.put_launch_self]
      exact he
    · rw [ModelManager.put_launch_of_ne hij]
      exact hs.simulated j hj
  · intro j hj
    by_cases hij : j = i
    · subst hij
      rw [ModelManager.put_launch_self]
      exact ⟨hi, hself hj⟩
    · rw [ModelManager.put_launch_of_ne hij]
      exact hs.holding j (hother j hij hj)

theorem Sound.allocates (hs : s.Sound) {monitor : MonitorPc Id} (hi : i ∈ s.manager.ids)
    (hanswered : (s.manager.launch i).monitor = .answered j)
    (hstored : (s.manager.launch i).stored = true) (hmonitor : monitor = .failing ∨ monitor = .idle)
    (hfrees : Frees c s (.event i .monitorReady)) :
    Sound { s with
      manager := s.manager.put i { s.manager.launch i with status := .running, monitor := monitor }
      gpus := (allocateAll c.arithmetic i (s.memoryMB c i)
        (s.manager.launch i).options.targetGpuIds s.gpus).2 } := by
  obtain ⟨hfresh, hunloaded, -, hnodup⟩ := hs.simulated i hi
  obtain ⟨hwill, hexact⟩ := hfrees hstored
  have hreturned : (s.manager.launch i).pc = .returned := by
    by_contra hpc
    have hidle := (hfresh hpc).unmonitored
    rw [hanswered] at hidle
    cases hidle
  have hnew : ¬Recorded s.gpus i := by
    intro hrecorded
    have hpast := (hs.holding i hrecorded).2.answered
    rw [hanswered] at hpast
    simp at hpast
  have hnone : ∀ gpuIndex ∈ (s.manager.launch i).options.targetGpuIds, ∀ gpu,
      s.gpus[gpuIndex]? = some gpu → i ∉ gpu.models :=
    fun _ _ gpu hgpu hmem => hnew ⟨gpu, List.mem_of_getElem? hgpu, hmem⟩
  have hmem : 0 ≤ s.memoryMB c i :=
    perGpuMemoryMB_nonneg _ (estimatedMemoryGB_nonneg _ _ _) _
  apply hs.put hi (hs.kept.allocateAll hmem hnodup hnone hexact)
  · refine ⟨fun hpc => absurd hreturned hpc, hunloaded, ?_, hnodup⟩
    rcases hmonitor with rfl | rfl <;> exact nofun
  · intro k hk hrecorded
    exact (recorded_allocateAll hrecorded).resolve_left hk
  · intro hrecorded
    refine ⟨hstored, hreturned, ?_, ?_⟩
    · rcases hwill with hwill | hroom
      · exact hwill
      · rw [allocateAll_noRoom hroom] at hrecorded
        exact absurd hrecorded hnew
    · rcases hmonitor with rfl | rfl
      · exact .inl rfl
      · exact .inr (.inr rfl)

theorem step_sound {a : SimAct Id} (hs : s.Sound) (hfrees : Frees c s a)
    (h : step c s a = some t) : t.Sound := by
  cases step_outcome h with
  | launch i options modelPath hnodup hi =>
    have hne : ∀ j ∈ s.manager.ids, j ≠ i := fun j hj heq => hi (heq ▸ hj)
    refine ⟨hs.kept, ?_, ?_⟩
    · intro j hj
      rcases List.mem_append.mp hj with hj | hj
      · change Simulated ((s.manager.admitLaunch c.manager i options).launch j)
        rw [ModelManager.admitLaunch_launch_of_ne (hne j hj)]
        exact hs.simulated j hj
      · obtain rfl := List.mem_singleton.mp hj
        change Simulated ((s.manager.admitLaunch c.manager j options).launch j)
        rw [ModelManager.admitLaunch_launch_self]
        exact simulated_start options _ hnodup
    · intro j hj
      obtain ⟨hin, hholding⟩ := hs.holding j hj
      refine ⟨List.mem_append_left _ hin, ?_⟩
      change Holding ((s.manager.admitLaunch c.manager i options).launch j)
      rw [ModelManager.admitLaunch_launch_of_ne (hne j hin)]
      exact hholding
  | plain i ev e hi hplain hnext =>
    apply hs.put hi hs.kept ((hs.simulated i hi).next (.inl hplain) hnext) fun _ _ hj => hj
    intro hrecorded
    apply (hs.holding i hrecorded).2.next hplain hnext
    rintro rfl
    by_contra hhandle
    exact hfrees (by simpa using hhandle) hrecorded
  | forgotten i hi hstored =>
    obtain ⟨hfresh, hunloaded, -, hnodup⟩ := hs.simulated i hi
    apply hs.put hi hs.kept
    · refine ⟨fun hpc => ?_, hunloaded, nofun, hnodup⟩
      obtain ⟨h1, h2, h3, -, h5, h6, h7, h8, h9⟩ := hfresh hpc
      exact ⟨h1, h2, h3, rfl, h5, h6, h7, h8, h9⟩
    · exact fun _ _ hj => hj
    · intro hrecorded
      have hin := (hs.holding i hrecorded).2.stored
      rw [hstored] at hin
      cases hin
  | allocates i j monitor hi hanswered hstored hmonitor =>
    exact hs.allocates hi hanswered hstored hmonitor hfrees
  | exits i e hi hnext =>
    have hsimulated := (hs.simulated i hi).next (.inr (.inl rfl)) hnext
    cases hstored : (s.manager.launch i).stored with
    | true =>
      rw [if_pos rfl]
      apply hs.put hi (hs.kept.deallocate (hfrees hstored)) hsimulated
      · exact fun _ _ hj => (recorded_deallocate hj).2
      · exact fun hrecorded => absurd rfl (recorded_deallocate hrecorded).1
    | false =>
      rw [if_neg (by simp)]
      apply hs.put hi hs.kept hsimulated fun _ _ hj => hj
      intro hrecorded
      have hin := (hs.holding i hrecorded).2.stored
      rw [hstored] at hin
      cases hin
  | unloads i e hi hnext =>
    apply hs.put hi (hs.kept.deallocate hfrees) ((hs.simulated i hi).next (.inr (.inr rfl)) hnext)
    · exact fun _ _ hj => (recorded_deallocate hj).2
    · exact fun hrecorded => absurd rfl (recorded_deallocate hrecorded).1

theorem Sound.accounted (hs : s.Sound) : s.Accounted := by
  refine ⟨fun gpu hgpu => (hs.kept gpu hgpu).1, ?_⟩
  intro i hi hover hrecorded
  obtain ⟨hdone, -, -, hunloads⟩ := hover
  obtain ⟨hstored, -, hwill, -⟩ := (hs.holding i hrecorded).2
  rcases hdone with hreaped | hunloaded
  · rcases hwill with hwill | hwill
    · exact hwill hreaped
    · omega
  · have hgone := (hs.simulated i hi).unloaded hunloaded
    rw [hstored] at hgone
    cases hgone

/-- In every run in which memory is recorded only where a handler will free it, the memory of every
simulated GPU is accounted for in every state. -/
theorem launches_accounted (c : SimConfig) (acts : List (SimAct Id)) (t : SimManager Id)
    (hrun : run (step c) (start c) acts = some t)
    (hfrees : Along (step c) (Frees c) (start c) acts) : t.Accounted := by
  have hsound := run_invariant_along (I := Sound) (fun _ _ _ hs => step_sound hs) (start_sound c)
    hfrees hrun
  exact hsound.accounted

def exactNumbers : Rounding := ⟨id, monotone_id, rfl⟩

/-- Two GPUs of 24 GB. -/
def twoGpus : SimConfig where
  arithmetic := exactNumbers
  manager := ModelManager.defaultConfig
  gpuCount := 2
  simGpuMemoryGB := 24
  simModelMemoryGB := 4

/-- A model on both GPUs, up to the answer of its health poll. -/
def answeredLaunch : List (SimAct Nat) :=
  [.launch 0 ⟨[0, 1], none, false⟩ "org/model-7b".toList, .event 0 (.choosePort 12346),
    .event 0 .spawn, .event 0 (.pollAnswered 0)]

theorem launches_accounted_unload : ∃ t, run (step twoGpus) (start twoGpus)
      (answeredLaunch ++ [.event 0 .monitorReady, .event 0 .unload, .event 0 .exit,
        .event 0 .handleExit, .event 0 .unloadDone]) = some t ∧ t.Accounted := by
  have hrun : run (step twoGpus) (start twoGpus)
      (answeredLaunch ++ [.event 0 .monitorReady, .event 0 .unload, .event 0 .exit,
        .event 0 .handleExit, .event 0 .unloadDone]) = some _ :=
    (Option.some_get (by decide +kernel)).symm
  exact ⟨_, hrun, launches_accounted twoGpus _ _ hrun (by decide +kernel)⟩

/-- The process dies after its answer, and its exit is handled before the answer is taken up: both
GPUs keep the memory of an instance that is over. -/
theorem exited_model_recorded : ∃ t, run (step twoGpus) (start twoGpus)
      (answeredLaunch ++ [.event 0 .exit, .event 0 .handleExit, .event 0 .monitorReady]) = some t ∧
      (t.gpus.map fun gpu => (gpu.usedMemoryMB, gpu.models.lookup 0)) =
        [(7168, some 7168), (7168, some 7168)] ∧ ¬t.Accounted := by
  have hrun : run (step twoGpus) (start twoGpus)
      (answeredLaunch ++ [.event 0 .exit, .event 0 .handleExit, .event 0 .monitorReady]) = some _ :=
    (Option.some_get (by decide +kernel)).symm
  refine ⟨_, hrun, by decide +kernel, fun haccounted => ?_⟩
  have hover : Over (((run (step twoGpus) (start twoGpus) (answeredLaunch ++
      [.event 0 .exit, .event 0 .handleExit, .event 0 .monitorReady])).get
        (by decide +kernel)).manager.launch 0) :=
    ⟨.inl (by decide +kernel), by decide +kernel, by decide +kernel, by decide +kernel⟩
  exact haccounted.freed 0 (by decide +kernel) hover (by decide +kernel)

end SimManager

end GpuSharing.Sardeenz
