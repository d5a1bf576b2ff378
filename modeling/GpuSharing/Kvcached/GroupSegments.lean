import GpuSharing.Kvcached.Group

namespace GpuSharing.Kvcached

open Transition

/-- A call that does not resize by itself. -/
def GroupAct.Plain : GroupAct → Prop
  | .call _ act => act.Plain false
  | _ => True

namespace Group

/-- Nothing has asked the manager for a resize, and the segment holds its own limit. -/
structure Untouched (g : Group) (shm : Shm) : Prop where
  sound : KvCacheManager.Sound false (Linked g.allocatorConfig false) [] g.session.manager
  limit : g.tracker.limit shm = some g.allocatorConfig.totalMemorySize

variable {g g' : Group} {shm shm' : Shm} {act : GroupAct}

theorem create_untouched (names : IpcNames) (C : KvCacheManagerConfig) (c : PageAllocatorConfig)
    (schedule : List (List WorkerMove)) (shm : Shm) :
    (create names C c schedule shm).1.Untouched (create names C c schedule shm).2 :=
  ⟨KvCacheManager.Sound.init (Linked.init c false schedule), create_limit names C c schedule shm⟩

theorem targetOf_totalMemorySize (g : Group) :
    g.targetOf g.allocatorConfig.totalMemorySize = -1 := by
  have hbuffers := Int.mul_tdiv_cancel (g.allocatorConfig.memSizePerLayer *
    g.allocatorConfig.numKvBuffers) g.allocatorConfig.numLayers_pos.ne'
  have hlayer := Int.mul_tdiv_cancel g.allocatorConfig.memSizePerLayer
    g.allocatorConfig.numKvBuffers_pos.ne'
  unfold targetOf PageAllocatorConfig.totalMemorySize
  dsimp only
  rw [mul_right_comm, hbuffers, hlayer, if_neg (not_not.mpr rfl)]

theorem step_untouched (hg : g.Untouched shm) (hact : act.Plain)
    (h : g.step shm act = some (g', shm')) : g'.Untouched shm' := by
  have hlimit := step_limit hg.limit h
  rw [← (step_frame h).2.1] at hlimit
  refine ⟨?_, hlimit⟩
  cases act with
  | call memGetInfo act =>
    simp only [step] at h
    split at h
    case h_1 s hs =>
      cases h
      exact Session.step_sound (Linked.keeps g.allocatorConfig false memGetInfo) hg.sound hact hs
    case h_2 => cases h
  | publish =>
    cases h
    exact hg.sound
  | poll =>
    simp only [step] at h
    split_ifs at h
    cases h
    obtain ⟨hlinked, hopened, hkeyed, hissued, hsettled⟩ := hg.sound
    refine ⟨⟨⟨hlinked.1.ran, hlinked.1.engine, ?_⟩, hlinked.2⟩, hopened, hkeyed, hissued, hsettled⟩
    intro _
    exact (MemInfoTracker.checkAndGetResizeTarget_of_limit hg.limit).trans
      g.targetOf_totalMemorySize

/-- The group has no target to resize to, and its pages are those of the start. -/
theorem Untouched.quiet (hg : g.Untouched shm) : g.process.resizeTarget = -1 ∧
    g.numTotalPages = g.allocatorConfig.numPages :=
  ⟨hg.sound.source.1.target rfl, hg.sound.source.1.ran.total⟩

end Group

/-- The managers of one process by their group id, and the segments. -/
structure GroupProcess where
  groups : Dict Int Group
  shm : Shm

/-- `writeLimit` is an external process that writes a limit to the segment of a name. -/
inductive GroupProcessAct
  | construct (C : KvCacheManagerConfig) (c : PageAllocatorConfig)
      (schedule : List (List WorkerMove))
  | group (groupId : Int) (act : GroupAct)
  | writeLimit (ipcName : String) (kvCacheLimit : Int)
  | destroy (groupId : Int)

def GroupProcessAct.Plain : GroupProcessAct → Prop
  | .group _ act => act.Plain
  | _ => True

namespace GroupProcess

def start (shm : Shm) : GroupProcess := ⟨∅, shm⟩

def step (names : IpcNames) (s : GroupProcess) : GroupProcessAct → Option GroupProcess
  | .construct C c schedule =>
    if c.groupId ∈ s.groups then none
    else
      let r := Group.create names C c schedule s.shm
      some ⟨s.groups.insert c.groupId r.1, r.2⟩
  | .group id act => match s.groups.lookup id with
    | some g => match g.step s.shm act with
      | some (g', shm) => some ⟨s.groups.insert id g', shm⟩
      | none => none
    | none => none
  | .writeLimit name l => some { s with shm := s.shm.updateKvCacheLimit name l }
  | .destroy id => match s.groups.lookup id with
    | some g => some ⟨s.groups.erase id, g.tracker.cleanup s.shm⟩
    | none => none

/-- No two page allocators publish to and poll one segment. -/
def OwnSegments (s : GroupProcess) : Prop :=
  ∀ i j g h, s.groups.lookup i = some g → s.groups.lookup j = some h → i ≠ j →
    g.tracker.path ≠ h.tracker.path

/-- At most one manager is alive. -/
def Single (s : GroupProcess) : Prop := ∀ i j, i ∈ s.groups → j ∈ s.groups → i = j

/-- A manager is constructed when none is alive. -/
def ConstructsAlone (s : GroupProcess) : GroupProcessAct → Prop
  | .construct .. => s.groups.keys = []
  | _ => True

instance : ∀ (s : GroupProcess) (act : GroupProcessAct), Decidable (s.ConstructsAlone act)
  | s, .construct .. => inferInstanceAs (Decidable (s.groups.keys = []))
  | _, .group .. | _, .writeLimit .. | _, .destroy _ => .isTrue trivial

/-- The act writes a limit to the segment of the group. -/
def WritesFor (id : Int) (s : GroupProcess) : GroupProcessAct → Prop
  | .writeLimit name _ => ∃ g, s.groups.lookup id = some g ∧ getIpcPath name = g.tracker.path
  | _ => False

/-- Every tracker has been given the default name, its group id notwithstanding. -/
def NamedDefault (names : IpcNames) (s : GroupProcess) : Prop :=
  ∀ i g, s.groups.lookup i = some g → g.tracker.ipcName = names.defaultIpcName

variable {names : IpcNames} {s t : GroupProcess} {act : GroupProcessAct} {id : Int}

/-- What a step does to the groups. -/
inductive Outcome (names : IpcNames) (s : GroupProcess) : GroupProcessAct → GroupProcess → Prop
  | construct (C c schedule) (hnew : c.groupId ∉ s.groups) :
      Outcome names s (.construct C c schedule)
        ⟨s.groups.insert c.groupId (Group.create names C c schedule s.shm).1,
          (Group.create names C c schedule s.shm).2⟩
  | group (i act g g' shm) (hg : s.groups.lookup i = some g)
      (hstep : g.step s.shm act = some (g', shm)) :
      Outcome names s (.group i act) ⟨s.groups.insert i g', shm⟩
  | writeLimit (name l) :
      Outcome names s (.writeLimit name l) { s with shm := s.shm.updateKvCacheLimit name l }
  | destroy (i g) (hg : s.groups.lookup i = some g) :
      Outcome names s (.destroy i) ⟨s.groups.erase i, g.tracker.cleanup s.shm⟩

theorem step_outcome (h : step names s act = some t) : Outcome names s act t := by
  cases act with
  | construct C c schedule =>
    simp only [step] at h
    split_ifs at h with hnew
    cases h
    exact .construct C c schedule hnew
  | group i act =>
    simp only [step] at h
    split at h
    case h_1 g hg =>
      split at h
      case h_1 g' shm hstep =>
        cases h
        exact .group i act g g' shm hg hstep
      case h_2 => cases h
    case h_2 => cases h
  | writeLimit name l =>
    cases h
    exact .writeLimit name l
  | destroy i =>
    simp only [step] at h
    split at h
    case h_1 g hg =>
      cases h
      exact .destroy i g hg
    case h_2 => cases h

theorem step_namedDefault (hs : s.NamedDefault names) (h : step names s act = some t) :
    t.NamedDefault names := by
  intro j h' hj
  cases step_outcome h with
  | construct C c schedule hnew =>
    rcases Dict.lookup_insert_some hj with ⟨-, rfl⟩ | ⟨-, hj⟩
    · exact MemInfoTracker.create_ipcName _ _ _ _ names.ne_empty s.shm
    · exact hs j h' hj
  | group i act g g' shm hg hstep =>
    rcases Dict.lookup_insert_some hj with ⟨-, rfl⟩ | ⟨-, hj⟩
    · rw [(Group.step_frame hstep).2.2]
      exact hs i g hg
    · exact hs j h' hj
  | writeLimit name l => exact hs j h' hj
  | destroy i g hg => exact hs j h' (Dict.lookup_erase_some hj).2

/-- Two managers alive share their segment, so that every segment has one owner exactly when at
most one is alive. -/
theorem ownSegments_iff_single (hs : s.NamedDefault names) : s.OwnSegments ↔ s.Single := by
  constructor
  · intro hown i j hi hj
    obtain ⟨g, hg⟩ := Dict.mem_iff_lookup.mp hi
    obtain ⟨h, hh⟩ := Dict.mem_iff_lookup.mp hj
    by_contra hij
    refine hown i j g h hg hh hij ?_
    rw [MemInfoTracker.path, MemInfoTracker.path, hs i g hg, hs j h hh]
  · intro hsingle i j g h hg hh hij
    exact absurd (hsingle i j (Dict.mem_iff_lookup.mpr ⟨g, hg⟩) (Dict.mem_iff_lookup.mpr ⟨h, hh⟩))
      hij

theorem step_single_iff (hs : s.Single) (h : step names s act = some t) :
    t.Single ↔ s.ConstructsAlone act := by
  cases step_outcome h with
  | construct C c schedule hnew =>
    constructor
    · intro ht
      refine List.eq_nil_iff_forall_not_mem.mpr fun i hi => ?_
      have heq : i = c.groupId := by
        apply ht
        · exact (AList.mem_insert s.groups).mpr (.inr hi)
        · exact (AList.mem_insert s.groups).mpr (.inl rfl)
      rw [heq] at hi
      exact hnew hi
    · intro halone i j hi hj
      have hnone := List.eq_nil_iff_forall_not_mem.mp halone
      have hi' := ((AList.mem_insert s.groups).mp hi).resolve_right (hnone i)
      have hj' := ((AList.mem_insert s.groups).mp hj).resolve_right (hnone j)
      exact hi'.trans hj'.symm
  | group i act g g' shm hg hstep =>
    refine iff_of_true ?_ trivial
    have hi : i ∈ s.groups := Dict.mem_iff_lookup.mpr ⟨g, hg⟩
    have hall : ∀ j, j ∈ AList.insert i g' s.groups → j = i := by
      intro j hj
      rcases (AList.mem_insert s.groups).mp hj with hji | hj
      · exact hji
      · exact hs j i hj hi
    intro j k hj hk
    exact (hall j hj).trans (hall k hk).symm
  | writeLimit name l => exact iff_of_true hs trivial
  | destroy i g hg =>
    refine iff_of_true ?_ trivial
    intro j k hj hk
    exact hs j k (AList.mem_erase.mp hj).2 (AList.mem_erase.mp hk).2

/-- The segments have one owner each throughout a run exactly when every manager of it is
constructed with none alive. -/
theorem along_ownSegments_iff {acts : List GroupProcessAct} (hs : s.Single)
    (hnamed : s.NamedDefault names) (hrun : run (step names) s acts = some t) :
    Along (step names) (fun s act => ∀ u, step names s act = some u → u.OwnSegments) s acts ↔
      Along (step names) ConstructsAlone s acts := by
  refine along_next_iff (I := NamedDefault names) (E := fun _ _ => True) ?_ ?_ hnamed
    ((ownSegments_iff_single hnamed).mpr hs) (along_of_mem (fun _ _ _ => trivial) s) hrun
  · intro s act u hnamed hown _ hu
    have hs := (ownSegments_iff_single hnamed).mp hown
    rw [ownSegments_iff_single (step_namedDefault hnamed hu), step_single_iff hs hu]
  · intro s act u hnamed _ hu
    exact step_namedDefault hnamed hu

/-- The manager of group `id`, when it is alive, has not been asked for a resize. -/
def UntouchedFor (id : Int) (s : GroupProcess) : Prop :=
  ∀ g, s.groups.lookup id = some g → g.Untouched s.shm

theorem step_untouchedFor (hs : s.Single) (hu : s.UntouchedFor id)
    (halone : s.ConstructsAlone act) (hplain : act.Plain) (hwrites : ¬s.WritesFor id act)
    (h : step names s act = some t) : t.UntouchedFor id := by
  intro h' hid
  cases step_outcome h with
  | construct C c schedule hnew =>
    rcases Dict.lookup_insert_some hid with ⟨-, rfl⟩ | ⟨-, hid⟩
    · exact Group.create_untouched names C c schedule s.shm
    · exact absurd (Dict.mem_iff_lookup.mpr ⟨h', hid⟩)
        (List.eq_nil_iff_forall_not_mem.mp halone id)
  | group i act g g' shm hg hstep =>
    rcases Dict.lookup_insert_some hid with ⟨rfl, rfl⟩ | ⟨hne, hid⟩
    · exact Group.step_untouched (hu g hg) hplain hstep
    · exact absurd (hs id i (Dict.mem_iff_lookup.mpr ⟨h', hid⟩)
        (Dict.mem_iff_lookup.mpr ⟨g, hg⟩)) hne
  | writeLimit name l =>
    obtain ⟨hsound, hlimit⟩ := hu h' hid
    refine ⟨hsound, Eq.trans ?_ hlimit⟩
    have hne : h'.tracker.path ≠ getIpcPath name := fun heq => hwrites ⟨h', hid, heq.symm⟩
    exact MemInfoTracker.limit_updateKvCacheLimit_of_ne hne l s.shm
  | destroy i g hg =>
    obtain ⟨hne, hid⟩ := Dict.lookup_erase_some hid
    exact absurd (hs id i (Dict.mem_iff_lookup.mpr ⟨h', hid⟩)
      (Dict.mem_iff_lookup.mpr ⟨g, hg⟩)) hne

/-- In every run the page allocators have segments of their own, and keep target and pages while
nobody writes a limit to their segment, exactly when every manager is constructed with none
alive. -/
theorem own_segments_iff (names : IpcNames) (shm : Shm) {acts : List GroupProcessAct}
    (hrun : run (step names) (start shm) acts = some t) :
    (Along (step names) (fun s act => ∀ u, step names s act = some u → u.OwnSegments) (start shm)
        acts ∧
      ∀ id g, t.groups.lookup id = some g →
        Along (step names) (fun s act => act.Plain ∧ ¬s.WritesFor id act) (start shm) acts →
        g.process.resizeTarget = -1 ∧ g.numTotalPages = g.allocatorConfig.numPages) ↔
      Along (step names) ConstructsAlone (start shm) acts := by
  have hsingle : (start shm).Single := fun i _ hi => absurd hi (AList.notMem_empty i)
  have hnamed : (start shm).NamedDefault names := by
    intro i g hg
    cases hg
  have hown := along_ownSegments_iff hsingle hnamed hrun
  constructor
  · intro h
    exact hown.mp h.1
  · intro halone
    refine ⟨hown.mpr halone, ?_⟩
    intro id g hg hquiet
    have huntouched : (start shm).UntouchedFor id := by
      intro h hh
      cases hh
    have hinv : t.Single ∧ t.UntouchedFor id := by
      refine run_invariant_along (I := fun s => s.Single ∧ s.UntouchedFor id) ?_
        ⟨hsingle, huntouched⟩ (along_and.mpr ⟨halone, hquiet⟩) hrun
      intro s act u hs hact hu
      exact ⟨(step_single_iff hs.1 hu).mpr hact.1,
        step_untouchedFor hs.1 hs.2 hact.1 hact.2.1 hact.2.2 hu⟩
    exact (hinv.2 g hg).quiet

/-- The pool of the full attention layers, eight pages. -/
def fullAttention : PageAllocatorConfig where
  numLayers := 1
  memSizePerLayer := 8 * 2^21
  pageSize := 2^21

/-- The pool of the sliding window layers, four pages. -/
def slidingWindow : PageAllocatorConfig where
  numLayers := 1
  memSizePerLayer := 4 * 2^21
  pageSize := 2^21
  groupId := 1

def hybridManager : KvCacheManagerConfig where
  blockMemSize := 2^20
  pageSize := 2^21

def hybridNames : IpcNames := ⟨"kvcached_vLLM_7", "kvcached_vLLM_7_1", by decide⟩

def hybridDevice : System → Nat × Nat := fun _ => (64 * 2^21, 0)

def useGroup (groupId : Int) : List GroupProcessAct :=
  [.group groupId (.call hybridDevice (.postInit true)), .group groupId .poll,
    .group groupId (.call hybridDevice (.alloc 1)), .group groupId .publish]

/-- Each pool is in use alone. -/
def oneAfterTheOther : List GroupProcessAct :=
  .construct hybridManager fullAttention [] :: useGroup 0 ++
    .destroy 0 :: .construct hybridManager slidingWindow [] :: useGroup 1

def sideBySide : List GroupProcessAct :=
  .construct hybridManager fullAttention [] :: .construct hybridManager slidingWindow [] ::
    useGroup 0

theorem own_segments_iff_oneAfterTheOther :
    ∃ t g, run (step hybridNames) (start fun _ => none) oneAfterTheOther = some t ∧
      t.groups.lookup 1 = some g ∧ g.process.resizeTarget = -1 ∧ g.numTotalPages = 4 := by
  have hrun : run (step hybridNames) (start fun _ => none) oneAfterTheOther = some _ :=
    (Option.some_get (by decide +kernel)).symm
  obtain ⟨-, hquiet⟩ := (own_segments_iff hybridNames (fun _ => none) hrun).mpr (by decide +kernel)
  have hacts : ∀ act ∈ oneAfterTheOther, ∀ s : GroupProcess, act.Plain ∧ ¬s.WritesFor 1 act := by
    simp [oneAfterTheOther, useGroup, GroupProcessAct.Plain, GroupAct.Plain, ManagerAct.Plain,
      WritesFor]
  refine ⟨_, _, hrun, (Option.some_get (by decide +kernel)).symm, ?_⟩
  obtain ⟨htarget, htotal⟩ := hquiet 1 _ (Option.some_get _).symm (along_of_mem hacts _)
  refine ⟨htarget, htotal.trans ?_⟩
  decide +kernel

/-- Nobody writes a limit, and the first pool shrinks to the size of the second. -/
theorem sideBySide_shrinks :
    (∀ act ∈ sideBySide, act.Plain ∧ ∀ name l, act ≠ .writeLimit name l) ∧
    ∃ t g h, run (step hybridNames) (start fun _ => none) sideBySide = some t ∧
      t.groups.lookup 0 = some g ∧ t.groups.lookup 1 = some h ∧
      g.tracker.path = h.tracker.path ∧ g.process.resizeTarget = 4 * 2^21 ∧
      g.allocatorConfig.numPages = 8 ∧ g.numTotalPages = 4 := by
  constructor
  · simp [sideBySide, useGroup, GroupProcessAct.Plain, GroupAct.Plain, ManagerAct.Plain]
  · refine ⟨_, _, _, (Option.some_get (by decide +kernel)).symm,
      (Option.some_get (by decide +kernel)).symm, (Option.some_get (by decide +kernel)).symm, ?_⟩
    decide +kernel

end GroupProcess

end GpuSharing.Kvcached
