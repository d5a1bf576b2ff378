import Mathlib.Data.Finset.Basic
import Mathlib.Data.List.Sort
import GpuSharing.Lib.Dict
import GpuSharing.Lib.JoinedNumbers
import GpuSharing.Lib.Transition
import GpuSharing.Sardeenz.KvAdmission

namespace GpuSharing.Sardeenz.IpcSegments

open Transition

/-- With virtual GPUs all of them are the physical GPU 0. -/
def buildIpcSegmentName (virtualGpuCount : Nat) (gpuIds : List Nat) : String :=
  if 0 < virtualGpuCount then "kvcached_vllm_GPU0"
  else "kvcached_vllm_GPU" ++
    "_GPU".intercalate ((gpuIds.insertionSort (· ≤ ·)).map toString)

def hasGpuOverlap (leftGpuIds rightGpuIds : List Nat) : Bool :=
  leftGpuIds.any (· ∈ rightGpuIds)

/-- The selection of the GPUs of a launch is never empty. -/
abbrev GpuSelection := { gpuIds : List Nat // gpuIds ≠ [] }

/-- An instance, whether or not it is in the model store. Its segment is the `KVCACHED_IPC_NAME` of
its process, and empty without kvcached. -/
structure Instance where
  gpuIds : GpuSelection
  topologyGpuIds : List Nat
  kvcachedEnabled : Bool
  status : ModelStatus
  stored : Bool
  ipcSegmentName : String
  deriving DecidableEq, Repr

def isActive (status : ModelStatus) : Bool :=
  status = .starting || status = .running || status = .sleeping

namespace Instance

def getSchedulingGpuIds (e : Instance) : GpuSelection :=
  if h : e.topologyGpuIds ≠ [] then ⟨e.topologyGpuIds, h⟩ else e.gpuIds

/-- Its process uses a segment. -/
def usesSegment (e : Instance) : Bool := e.stored && isActive e.status && e.kvcachedEnabled

/-- What `launchModel` makes. -/
def launched (virtualGpuCount : Nat) (targetGpuIds : GpuSelection) (enableKvcached : Bool)
    (status : ModelStatus) : Instance where
  gpuIds := targetGpuIds
  topologyGpuIds := targetGpuIds
  kvcachedEnabled := enableKvcached
  status := status
  stored := true
  ipcSegmentName := if enableKvcached then buildIpcSegmentName virtualGpuCount targetGpuIds else ""

end Instance

/-- Where a call of `deleteStaleKvcachedIpcSegment` stands: `deleting` is its `kvctl` that has not
exited, and `spawned` that its launch has gone on to its process. -/
inductive DeletionPc
  | called
  | deleting
  | returned
  | spawned
  deriving DecidableEq, Repr

/-- A call of `deleteStaleKvcachedIpcSegment`, by a launch if it ignores no instance and else by the
cleanup of the instance that it ignores. -/
structure Deletion where
  targetGpuIds : GpuSelection
  enableKvcached : Bool
  ignoredInstanceId : Option String
  pc : DeletionPc
  deriving DecidableEq, Repr

structure Manager where
  instances : Dict String Instance
  deletions : List Deletion
  segments : Finset String

/-- A launch that has selected its GPUs, the steps of a call of `deleteStaleKvcachedIpcSegment`, a
segment that a process creates, a launch that spawns its process or fails to, an instance that fails,
and every other write of the status or of the model store. -/
inductive ManagerAct
  | launch (targetGpuIds : GpuSelection) (enableKvcached : Bool)
  | check (k : Nat)
  | deleteSegment (k : Nat)
  | kvctlExits (k : Nat)
  | createSegment (instanceId : String)
  | spawn (k : Nat) (instanceId : String)
  | spawnFails (k : Nat) (instanceId : String)
  | fail (instanceId : String)
  | update (instanceId : String) (status : ModelStatus) (stored : Bool)
  deriving DecidableEq, Repr

namespace Manager

variable (virtualGpuCount : Nat)

def hasActiveOverlappingKvcachedInstance (s : Manager) (targetGpuIds : List Nat)
    (ignoredInstanceId : Option String) : Bool :=
  s.instances.entries.any fun x =>
    some x.1 ≠ ignoredInstanceId && x.2.usesSegment &&
      hasGpuOverlap x.2.getSchedulingGpuIds targetGpuIds

def setPc (s : Manager) (k : Nat) (d : Deletion) (pc : DeletionPc) : Manager :=
  { s with deletions := s.deletions.set k { d with pc } }

/-- `cleanupFailedInstanceResources`, which ends with the deletion. -/
def cleanup (s : Manager) (instanceId : String) (e : Instance) : Manager :=
  { s with
    instances := s.instances.setItem instanceId { e with status := .failed, stored := true }
    deletions := s.deletions ++
      [⟨e.getSchedulingGpuIds, e.kvcachedEnabled, some instanceId, .called⟩] }

def step (s : Manager) : ManagerAct → Option Manager
  | .launch targetGpuIds enableKvcached =>
    some { s with deletions := s.deletions ++ [⟨targetGpuIds, enableKvcached, none, .called⟩] }
  | .check k => match s.deletions[k]? with
    | some d =>
      if d.pc = .called then
        some (s.setPc k d (if d.enableKvcached &&
            !s.hasActiveOverlappingKvcachedInstance d.targetGpuIds d.ignoredInstanceId
          then .deleting else .returned))
      else none
    | none => none
  | .deleteSegment k => match s.deletions[k]? with
    | some d =>
      if d.pc = .deleting then
        some { s with
          segments := s.segments.erase (buildIpcSegmentName virtualGpuCount d.targetGpuIds) }
      else none
    | none => none
  | .kvctlExits k => match s.deletions[k]? with
    | some d => if d.pc = .deleting then some (s.setPc k d .returned) else none
    | none => none
  | .createSegment instanceId => match s.instances.lookup instanceId with
    | some e =>
      if e.usesSegment then some { s with segments := insert e.ipcSegmentName s.segments } else none
    | none => none
  | .spawn k instanceId => match s.deletions[k]? with
    | some d =>
      if d.pc = .returned ∧ d.ignoredInstanceId = none ∧ s.instances.lookup instanceId = none then
        some { s.setPc k d .spawned with
          instances := s.instances.setItem instanceId
            (.launched virtualGpuCount d.targetGpuIds d.enableKvcached .starting) }
      else none
    | none => none
  | .spawnFails k instanceId => match s.deletions[k]? with
    | some d =>
      if d.pc = .returned ∧ d.ignoredInstanceId = none ∧ s.instances.lookup instanceId = none then
        some ((s.setPc k d .spawned).cleanup instanceId
          (.launched virtualGpuCount d.targetGpuIds d.enableKvcached .starting))
      else none
    | none => none
  | .fail instanceId => match s.instances.lookup instanceId with
    | some e => some (s.cleanup instanceId e)
    | none => none
  | .update instanceId status stored => match s.instances.lookup instanceId with
    | some e => some { s with
        instances := s.instances.setItem instanceId { e with status, stored } }
    | none => none

def start : Manager := ⟨∅, [], ∅⟩

/-- No deletion of the segment is under way, but by the cleanup of the instance itself. -/
def NotDeleting (s : Manager) (segmentName instanceId : String) : Prop :=
  ∀ d ∈ s.deletions, d.pc = .deleting → d.ignoredInstanceId ≠ some instanceId →
    buildIpcSegmentName virtualGpuCount d.targetGpuIds ≠ segmentName

/-- No deletion that is under way is of the segment of another instance. -/
def OnlyStale (s : Manager) : Prop :=
  ∀ instanceId e, s.instances.lookup instanceId = some e → e.usesSegment = true →
    s.NotDeleting virtualGpuCount e.ipcSegmentName instanceId

/-- A segment that is deleted is not that of another instance. -/
def DeletesStale (s : Manager) : ManagerAct → Prop
  | .deleteSegment k => ∀ d ∈ s.deletions[k]?, d.pc = .deleting →
      buildIpcSegmentName virtualGpuCount d.targetGpuIds ∈ s.segments →
      ∀ x ∈ s.instances.entries, x.2.usesSegment = true → some x.1 ≠ d.ignoredInstanceId →
        x.2.ipcSegmentName ≠ buildIpcSegmentName virtualGpuCount d.targetGpuIds
  | _ => True

/-- With virtual GPUs an instance that overlaps is found whenever another one uses a segment, and no
instance comes to use a segment of which a deletion is under way. -/
def Unshared (s : Manager) : ManagerAct → Prop
  | .check k => 0 < virtualGpuCount → ∀ d ∈ s.deletions[k]?, d.enableKvcached = true →
      (∃ x ∈ s.instances.entries, some x.1 ≠ d.ignoredInstanceId ∧ x.2.usesSegment = true) →
      s.hasActiveOverlappingKvcachedInstance d.targetGpuIds d.ignoredInstanceId = true
  | .spawn k instanceId => ∀ d ∈ s.deletions[k]?, d.enableKvcached = true →
      s.NotDeleting virtualGpuCount (buildIpcSegmentName virtualGpuCount d.targetGpuIds) instanceId
  | .update instanceId status stored => ∀ e ∈ s.instances.lookup instanceId,
      { e with status, stored : Instance }.usesSegment = true →
      s.NotDeleting virtualGpuCount e.ipcSegmentName instanceId
  | _ => True

instance decidableNotDeleting (s : Manager) (segmentName instanceId : String) :
    Decidable (s.NotDeleting virtualGpuCount segmentName instanceId) :=
  inferInstanceAs (Decidable (∀ d ∈ s.deletions, _ → _ → _))

instance decidableDeletesStale (s : Manager) : ∀ a, Decidable (s.DeletesStale virtualGpuCount a)
  | .deleteSegment k => inferInstanceAs (Decidable (∀ d ∈ s.deletions[k]?, _ → _ → _))
  | .launch .. | .check _ | .kvctlExits _ | .createSegment _ | .spawn .. | .spawnFails .. | .fail _
  | .update .. => .isTrue trivial

instance decidableUnshared (s : Manager) : ∀ a, Decidable (s.Unshared virtualGpuCount a)
  | .check k => inferInstanceAs (Decidable (_ → ∀ d ∈ s.deletions[k]?, _ → _ → _))
  | .spawn k _ => inferInstanceAs (Decidable (∀ d ∈ s.deletions[k]?, _ → _))
  | .update instanceId _ _ =>
    inferInstanceAs (Decidable (∀ e ∈ s.instances.lookup instanceId, _ → _))
  | .launch .. | .deleteSegment _ | .kvctlExits _ | .createSegment _ | .spawnFails .. | .fail _ =>
    .isTrue trivial

end Manager

/-- Without virtual GPUs the name says which GPUs they are. -/
theorem mem_of_buildIpcSegmentName {gpuIds gpuIds' : List Nat}
    (h : buildIpcSegmentName 0 gpuIds = buildIpcSegmentName 0 gpuIds') (g : Nat) :
    g ∈ gpuIds ↔ g ∈ gpuIds' := by
  have hjoin := congrArg String.toList h
  simp only [buildIpcSegmentName, if_neg (Nat.lt_irrefl 0), String.toList_append,
    List.append_cancel_left_eq, JoinedNumbers.toList_intercalate] at hjoin
  have hsorted := JoinedNumbers.join_injective ⟨'_', _, rfl, by decide⟩ hjoin
  rw [← (List.perm_insertionSort (· ≤ ·) gpuIds).mem_iff, hsorted,
    (List.perm_insertionSort (· ≤ ·) gpuIds').mem_iff]

namespace Manager

variable {virtualGpuCount : Nat} {s t : Manager} {a : ManagerAct}

/-- The segment of an instance is that of its scheduling GPUs. -/
def Named (virtualGpuCount : Nat) (e : Instance) : Prop :=
  e.kvcachedEnabled = true →
    e.ipcSegmentName = buildIpcSegmentName virtualGpuCount e.getSchedulingGpuIds

theorem launched_named (targetGpuIds : GpuSelection) (enableKvcached : Bool) (status : ModelStatus) :
    Named virtualGpuCount (.launched virtualGpuCount targetGpuIds enableKvcached status) := by
  rw [Named]
  intro hkvcached
  simp only [Instance.launched] at hkvcached ⊢
  simp [hkvcached, Instance.getSchedulingGpuIds, targetGpuIds.2]

/-- The names of all instances are those of their GPUs. -/
def AllNamed (virtualGpuCount : Nat) (s : Manager) : Prop :=
  ∀ instanceId e, s.instances.lookup instanceId = some e → Named virtualGpuCount e

theorem AllNamed.setItem (h : s.AllNamed virtualGpuCount) {instanceId : String} {e : Instance}
    (he : Named virtualGpuCount e) (deletions : List Deletion) (segments : Finset String) :
    AllNamed virtualGpuCount ⟨s.instances.setItem instanceId e, deletions, segments⟩ := by
  intro i e' hi
  rw [Dict.lookup_setItem] at hi
  split_ifs at hi
  · cases hi
    exact he
  · exact h i e' hi

theorem AllNamed.step (h : s.AllNamed virtualGpuCount) (ht : s.step virtualGpuCount a = some t) :
    t.AllNamed virtualGpuCount := by
  cases a with
  | launch targetGpuIds enableKvcached =>
    cases ht
    exact h
  | check k | deleteSegment k | kvctlExits k =>
    simp only [Manager.step] at ht
    split at ht
    · split at ht
      · cases ht
        exact h
      · cases ht
    · cases ht
  | createSegment instanceId =>
    simp only [Manager.step] at ht
    split at ht
    · split_ifs at ht
      cases ht
      exact h
    · cases ht
  | spawn k instanceId =>
    simp only [Manager.step] at ht
    split at ht
    · split_ifs at ht
      cases ht
      exact h.setItem (launched_named _ _ _) _ _
    · cases ht
  | spawnFails k instanceId =>
    simp only [Manager.step] at ht
    split at ht
    · split_ifs at ht
      cases ht
      exact h.setItem (launched_named _ _ _) _ _
    · cases ht
  | fail instanceId =>
    simp only [Manager.step] at ht
    split at ht
    · rename_i e he
      cases ht
      have hnamed : Named virtualGpuCount { e with status := .failed, stored := true } :=
        h instanceId e he
      exact h.setItem hnamed _ _
    · cases ht
  | update instanceId status stored =>
    simp only [Manager.step] at ht
    split at ht
    · rename_i e he
      cases ht
      have hnamed : Named virtualGpuCount { e with status, stored } := h instanceId e he
      exact h.setItem hnamed _ _
    · cases ht

theorem hasActiveOverlapping_iff {targetGpuIds : List Nat} {ignoredInstanceId : Option String} :
    s.hasActiveOverlappingKvcachedInstance targetGpuIds ignoredInstanceId = true ↔
      ∃ instanceId e, s.instances.lookup instanceId = some e ∧ some instanceId ≠ ignoredInstanceId ∧
        e.usesSegment = true ∧ ∃ g ∈ e.getSchedulingGpuIds.1, g ∈ targetGpuIds := by
  simp only [hasActiveOverlappingKvcachedInstance, List.any_eq_true, Bool.and_eq_true,
    decide_eq_true_eq, hasGpuOverlap]
  constructor
  · rintro ⟨⟨i, e⟩, hmem, ⟨hne, huses⟩, hoverlap⟩
    exact ⟨i, e, AList.mem_lookup_iff.mpr hmem, hne, huses, hoverlap⟩
  · rintro ⟨i, e, he, hne, huses, hoverlap⟩
    exact ⟨⟨i, e⟩, AList.mem_lookup_iff.mp he, ⟨hne, huses⟩, hoverlap⟩

section Deletions

variable {k : Nat} {d : Deletion} {pc : DeletionPc} {segmentName instanceId : String}

theorem NotDeleting.append (h : s.NotDeleting virtualGpuCount segmentName instanceId)
    (hpc : d.pc ≠ .deleting) (instances : Dict String Instance) (segments : Finset String) :
    NotDeleting virtualGpuCount ⟨instances, s.deletions ++ [d], segments⟩ segmentName instanceId := by
  intro d' hd' hdeleting
  rcases List.mem_append.mp hd' with hd' | hd'
  · exact h d' hd' hdeleting
  · rw [List.mem_singleton.mp hd'] at hdeleting
    exact absurd hdeleting hpc

theorem NotDeleting.cleanup (h : s.NotDeleting virtualGpuCount segmentName instanceId)
    (failed : String) (e : Instance) :
    (s.cleanup failed e).NotDeleting virtualGpuCount segmentName instanceId :=
  h.append (show DeletionPc.called ≠ .deleting from nofun) _ _

theorem NotDeleting.setPc (h : s.NotDeleting virtualGpuCount segmentName instanceId)
    (hpc : pc ≠ .deleting) :
    (s.setPc k d pc).NotDeleting virtualGpuCount segmentName instanceId := by
  intro d' hd' hdeleting
  rcases List.mem_or_eq_of_mem_set hd' with hd' | rfl
  · exact h d' hd' hdeleting
  · exact absurd hdeleting hpc

theorem NotDeleting.of_setPc
    (h : (s.setPc k d pc).NotDeleting virtualGpuCount segmentName instanceId)
    (hk : s.deletions[k]? = some d) (hd : d.pc ≠ .deleting) :
    s.NotDeleting virtualGpuCount segmentName instanceId := by
  intro d' hd' hdeleting
  obtain ⟨j, hj⟩ := List.mem_iff_getElem?.mp hd'
  have hne : k ≠ j := by
    rintro rfl
    rw [hk] at hj
    cases hj
    exact hd hdeleting
  have hset : (s.deletions.set k { d with pc })[j]? = some d' := by
    rw [List.getElem?_set_ne hne, hj]
  exact h d' (List.mem_of_getElem? hset) hdeleting

/-- What else a deletion that begins must not be of. -/
theorem notDeleting_begin (h : s.NotDeleting virtualGpuCount segmentName instanceId)
    (hk : s.deletions[k]? = some d) :
    (s.setPc k d .deleting).NotDeleting virtualGpuCount segmentName instanceId ↔
      (d.ignoredInstanceId ≠ some instanceId →
        buildIpcSegmentName virtualGpuCount d.targetGpuIds ≠ segmentName) := by
  constructor
  · intro hbegin hne
    have hlt := (List.getElem?_eq_some_iff.mp hk).1
    have hmem := List.mem_set hlt { d with pc := .deleting }
    exact hbegin { d with pc := .deleting } hmem rfl hne
  · intro hbegin d' hd' hdeleting hne
    rcases List.mem_or_eq_of_mem_set hd' with hd' | rfl
    · exact h d' hd' hdeleting hne
    · exact hbegin hne

end Deletions

/-- The instances after one of them was written, and the segments that none of the others loses. -/
theorem onlyStale_setItem_iff (h : s.OnlyStale virtualGpuCount) (instanceId : String) (e : Instance)
    {deletions : List Deletion} {segments : Finset String}
    (hkept : ∀ segmentName i, s.NotDeleting virtualGpuCount segmentName i →
      NotDeleting virtualGpuCount ⟨s.instances.setItem instanceId e, deletions, segments⟩ segmentName i) :
    OnlyStale virtualGpuCount ⟨s.instances.setItem instanceId e, deletions, segments⟩ ↔
      (e.usesSegment = true →
        NotDeleting virtualGpuCount ⟨s.instances.setItem instanceId e, deletions, segments⟩
          e.ipcSegmentName instanceId) := by
  constructor
  · intro honly huses
    exact honly instanceId e (by simp) huses
  · intro hnew i e' hi huses
    rw [Dict.lookup_setItem] at hi
    split_ifs at hi with heq
    · cases hi
      rw [heq]
      exact hnew huses
    · exact hkept _ _ (h i e' hi huses)

/-- A deletion that begins is of no other instance's segment, but with virtual GPUs only if no other
instance uses one. -/
theorem onlyStale_check_iff (h : s.OnlyStale virtualGpuCount) (hnamed : s.AllNamed virtualGpuCount)
    {k : Nat} {d : Deletion} (hk : s.deletions[k]? = some d)
    (hfree : s.hasActiveOverlappingKvcachedInstance d.targetGpuIds d.ignoredInstanceId = false) :
    (s.setPc k d .deleting).OnlyStale virtualGpuCount ↔
      (0 < virtualGpuCount →
        ¬ ∃ x ∈ s.instances.entries, some x.1 ≠ d.ignoredInstanceId ∧ x.2.usesSegment = true) := by
  have hbegin : (s.setPc k d .deleting).OnlyStale virtualGpuCount ↔
      ∀ i e, s.instances.lookup i = some e → e.usesSegment = true →
        d.ignoredInstanceId ≠ some i →
        buildIpcSegmentName virtualGpuCount d.targetGpuIds ≠ e.ipcSegmentName := by
    refine forall_congr' fun i => forall_congr' fun e => forall_congr' fun hi =>
      forall_congr' fun huses => ?_
    exact notDeleting_begin (h i e hi huses) hk
  have hname : ∀ i e, s.instances.lookup i = some e → e.usesSegment = true →
      e.ipcSegmentName = buildIpcSegmentName virtualGpuCount e.getSchedulingGpuIds := by
    intro i e hi huses
    simp only [Instance.usesSegment, Bool.and_eq_true] at huses
    exact hnamed i e hi huses.2
  rw [hbegin]
  rcases Nat.eq_zero_or_pos virtualGpuCount with rfl | hvirtual
  · refine iff_of_true (fun i e hi huses hne heq => ?_) nofun
    rw [hname i e hi huses] at heq
    obtain ⟨g, hg⟩ := List.exists_mem_of_ne_nil _ e.getSchedulingGpuIds.2
    have hoverlap := hasActiveOverlapping_iff.mpr
      ⟨i, e, hi, hne.symm, huses, g, hg, (mem_of_buildIpcSegmentName heq g).mpr hg⟩
    rw [hfree] at hoverlap
    cases hoverlap
  · constructor
    · rintro hnone - ⟨⟨i, e⟩, hmem, hne, huses⟩
      have hi := AList.mem_lookup_iff.mpr hmem
      refine hnone i e hi huses hne.symm ?_
      rw [hname i e hi huses, buildIpcSegmentName, buildIpcSegmentName, if_pos hvirtual,
        if_pos hvirtual]
    · intro hnone i e hi huses hne
      exact absurd ⟨⟨i, e⟩, AList.mem_lookup_iff.mp hi, hne.symm, huses⟩ (hnone hvirtual)

theorem onlyStale_step_iff (h : s.OnlyStale virtualGpuCount) (hnamed : s.AllNamed virtualGpuCount)
    (ht : s.step virtualGpuCount a = some t) :
    t.OnlyStale virtualGpuCount ↔ s.Unshared virtualGpuCount a := by
  have hcalled : DeletionPc.called ≠ .deleting := nofun
  cases a with
  | launch targetGpuIds enableKvcached =>
    cases ht
    exact iff_of_true (fun i e hi huses => (h i e hi huses).append hcalled _ _) trivial
  | check k =>
    simp only [Manager.step] at ht
    split at ht
    · rename_i d hk
      split at ht
      · cases ht
        simp only [Unshared, hk, Option.mem_def, Option.some.injEq, forall_eq']
        by_cases hdelete : (d.enableKvcached &&
            !s.hasActiveOverlappingKvcachedInstance d.targetGpuIds d.ignoredInstanceId) = true
        · obtain ⟨henable, hfree⟩ := Bool.and_eq_true_iff.mp hdelete
          rw [Bool.not_eq_true'] at hfree
          rw [if_pos hdelete, onlyStale_check_iff h hnamed hk hfree, henable, hfree]
          simp
        · rw [if_neg hdelete]
          refine iff_of_true (fun i e hi huses => (h i e hi huses).setPc nofun) ?_
          intro _ henable _
          simpa [henable] using hdelete
      · cases ht
    · cases ht
  | deleteSegment k =>
    simp only [Manager.step] at ht
    split at ht
    · split at ht
      · cases ht
        exact iff_of_true h trivial
      · cases ht
    · cases ht
  | kvctlExits k =>
    simp only [Manager.step] at ht
    split at ht
    · split at ht
      · cases ht
        exact iff_of_true (fun i e hi huses => (h i e hi huses).setPc nofun) trivial
      · cases ht
    · cases ht
  | createSegment instanceId =>
    simp only [Manager.step] at ht
    split at ht
    · split at ht
      · cases ht
        exact iff_of_true h trivial
      · cases ht
    · cases ht
  | spawn k instanceId =>
    simp only [Manager.step] at ht
    split at ht
    · rename_i d hk
      split at ht
      · rename_i hreturned
        cases ht
        have hd : d.pc ≠ .deleting := by simp [hreturned.1]
        have hsame : ∀ segmentName i, NotDeleting virtualGpuCount
            { s.setPc k d .spawned with
              instances := s.instances.setItem instanceId
                (.launched virtualGpuCount d.targetGpuIds d.enableKvcached .starting) } segmentName i ↔
            s.NotDeleting virtualGpuCount segmentName i :=
          fun _ _ => ⟨fun hnot => NotDeleting.of_setPc hnot hk hd, fun hnot => hnot.setPc nofun⟩
        rw [onlyStale_setItem_iff h _ _ fun _ _ => (hsame _ _).mpr, hsame]
        simp only [Unshared, hk, Option.mem_def, Option.some.injEq, forall_eq', Instance.launched,
          Instance.usesSegment, isActive, decide_true, Bool.true_or, Bool.true_and]
        refine forall_congr' fun henable => ?_
        rw [if_pos henable]
      · cases ht
    · cases ht
  | spawnFails k instanceId =>
    simp only [Manager.step] at ht
    split at ht
    · rename_i d hk
      split at ht
      · cases ht
        refine iff_of_true ((onlyStale_setItem_iff h _ _ fun _ _ hkept => ?_).mpr
          fun huses => absurd huses (by simp [Instance.usesSegment, isActive])) trivial
        exact NotDeleting.cleanup (hkept.setPc (show DeletionPc.spawned ≠ .deleting from nofun)) _ _
      · cases ht
    · cases ht
  | fail instanceId =>
    simp only [Manager.step] at ht
    split at ht
    · rename_i e he
      cases ht
      exact iff_of_true ((onlyStale_setItem_iff h _ _ fun _ _ hkept => hkept.cleanup _ _).mpr
        fun huses => absurd huses (by simp [Instance.usesSegment, isActive])) trivial
    · cases ht
  | update instanceId status stored =>
    simp only [Manager.step] at ht
    split at ht
    · rename_i e he
      cases ht
      rw [onlyStale_setItem_iff h _ _ fun _ _ hkept => hkept]
      simp only [Unshared, he, Option.mem_def, Option.some.injEq, forall_eq']
      rfl
    · cases ht

theorem OnlyStale.deletesStale (h : s.OnlyStale virtualGpuCount) (a : ManagerAct) :
    s.DeletesStale virtualGpuCount a := by
  cases a with
  | deleteSegment k =>
    rintro d hd hdeleting - ⟨i, e⟩ hmem huses hne heq
    exact h i e (AList.mem_lookup_iff.mpr hmem) huses d (List.mem_of_getElem? hd) hdeleting hne.symm
      heq.symm
  | _ => trivial

/-- In every run no deletion that is under way is of the segment of another instance exactly when all
steps are unshared, and then no segment of another instance is deleted. -/
theorem deletions_stale_iff {acts : List ManagerAct}
    (hrun : run (step virtualGpuCount) start acts = some s) :
    (Along (step virtualGpuCount)
        (fun s a => ∀ t, s.step virtualGpuCount a = some t → t.OnlyStale virtualGpuCount) start acts ↔
      Along (step virtualGpuCount) (Unshared virtualGpuCount) start acts) ∧
    (Along (step virtualGpuCount) (Unshared virtualGpuCount) start acts →
      Along (step virtualGpuCount) (DeletesStale virtualGpuCount) start acts) := by
  have honly : start.OnlyStale virtualGpuCount := nofun
  have hnamed : start.AllNamed virtualGpuCount := nofun
  constructor
  · exact along_next_iff (I := AllNamed virtualGpuCount) (E := fun _ _ => True)
      (fun _ _ _ hnamed honly _ ht => onlyStale_step_iff honly hnamed ht)
      (fun _ _ _ hnamed _ ht => hnamed.step ht) hnamed honly
      (along_of_mem (fun _ _ _ => trivial) _) hrun
  · refine along_imp (I := fun s => s.OnlyStale virtualGpuCount ∧ s.AllNamed virtualGpuCount)
      (fun s a h _ => h.1.deletesStale a) (fun s a t h ha ht => ?_) ⟨honly, hnamed⟩
    exact ⟨(onlyStale_step_iff h.1 h.2 ht).mpr ha, h.2.step ht⟩

def gpu (g : Nat) : GpuSelection := ⟨[g], by simp⟩

/-- A process that creates its segment, and a launch on another virtual GPU. -/
def otherVirtualGpu : List ManagerAct :=
  [.launch (gpu 0) true, .check 0, .kvctlExits 0, .spawn 0 "a", .createSegment "a",
    .launch (gpu 1) true, .check 1, .deleteSegment 1]

/-- Two launches on one GPU, of which the second deletes after the first has started. -/
def lateDeletion : List ManagerAct :=
  [.launch (gpu 0) true, .launch (gpu 0) true, .check 0, .check 1, .kvctlExits 0, .spawn 0 "a",
    .createSegment "a", .deleteSegment 1]

theorem used_segments_deleted :
    ((run (step 2) start otherVirtualGpu).isSome ∧
      ¬ Along (step 2) (DeletesStale 2) start otherVirtualGpu) ∧
    (run (step 0) start lateDeletion).isSome ∧
      ¬ Along (step 0) (DeletesStale 0) start lateDeletion := by
  decide +kernel

/-- A launch, one beside it on another GPU, the failure of the first and its cleanup. -/
theorem deletions_stale_iff_cleanup :
    Along (step 0) (DeletesStale 0) start
      [.launch (gpu 0) true, .check 0, .deleteSegment 0, .kvctlExits 0, .spawn 0 "a",
        .createSegment "a", .launch (gpu 1) true, .check 1, .kvctlExits 1, .spawn 1 "b",
        .createSegment "b", .fail "a", .check 2, .deleteSegment 2, .kvctlExits 2] := by
  have hrun : (run (step 0) start
      [.launch (gpu 0) true, .check 0, .deleteSegment 0, .kvctlExits 0, .spawn 0 "a",
        .createSegment "a", .launch (gpu 1) true, .check 1, .kvctlExits 1, .spawn 1 "b",
        .createSegment "b", .fail "a", .check 2, .deleteSegment 2, .kvctlExits 2]).isSome := by
    decide +kernel
  obtain ⟨s, hrun⟩ := Option.isSome_iff_exists.mp hrun
  exact (deletions_stale_iff hrun).2 (by decide +kernel)

end Manager

end GpuSharing.Sardeenz.IpcSegments
