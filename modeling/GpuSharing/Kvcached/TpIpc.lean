import Mathlib.Data.Finset.Basic
import Mathlib.Data.Finset.SDiff
import Mathlib.Logic.Function.Basic
import Std.Data.String.ToNat

namespace GpuSharing.Kvcached

inductive Command
  | mapToKvTensors
  | unmapFromKvTensors
  deriving DecidableEq, Repr

structure Message where
  cmd : Command
  offsets : List Int
  groupId : Int
  deriving DecidableEq, Repr

/-- The path of a worker's socket; a pipeline stage other than the first has a directory of its
own. -/
def workerSocketPath (socketDir : String) (rank : Nat) (ppRank : Int) : String :=
  if 0 < ppRank then socketDir ++ "/pp" ++ toString ppRank ++ "/w" ++ toString rank ++ ".sock"
  else socketDir ++ "/w" ++ toString rank ++ ".sock"

def getWorkerSocketPath (socketDir : String) (rank : Nat) (ppRank : Int) : Except String String :=
  let socketPath := workerSocketPath socketDir rank ppRank
  if 108 < socketPath.length then
    .error s!"Socket path too long ({socketPath.length} chars, max 108): {socketPath}"
  else .ok socketPath

theorem getWorkerSocketPath_ok {dir path : String} {rank : Nat} {ppRank : Int}
    (h : getWorkerSocketPath dir rank ppRank = .ok path) :
    path = workerSocketPath dir rank ppRank := by
  unfold getWorkerSocketPath at h
  dsimp only at h
  split_ifs at h
  exact (Except.ok.inj h).symm

theorem workerSocketPath_inj {dir : String} {r q : Nat} {ppRank : Int}
    (h : workerSocketPath dir r ppRank = workerSocketPath dir q ppRank) : r = q := by
  unfold workerSocketPath at h
  split_ifs at h <;> simpa [String.append_right_inj, String.append_left_inj] using h

/-- No worker of another stage listens at the path of one of the first. -/
theorem workerSocketPath_stage_ne {dir : String} {r q : Nat} {ppRank : Int} (hpp : 0 < ppRank) :
    workerSocketPath dir r ppRank ≠ workerSocketPath dir q 0 := by
  intro h
  unfold workerSocketPath at h
  rw [if_pos hpp, if_neg (by omega)] at h
  have hlist := congrArg String.toList h
  simp only [String.toList_append, List.append_assoc, List.append_cancel_left_eq] at hlist
  have hchar := congrArg (fun cs => cs[1]?) hlist
  simp at hchar

/-- What a worker process has mapped, by group. -/
abbrev Worker := Int → Finset Int

/-- The workers by the path of their socket; nobody answers any more at the others. -/
abbrev Workers := String → Option Worker

/-- What the broadcast gets for a message. A failed one, be it an error reply or a lost connection,
leaves the worker after it has acted on the offsets `done`. -/
inductive Answer
  | success
  | failure (response : String) (done : List Int)
  deriving DecidableEq, Repr

def Answer.acted (offsets : List Int) : Answer → List Int
  | .success => offsets
  | .failure _ done => offsets.filter (· ∈ done)

/-- `map_to_kv_tensors` or `unmap_from_kv_tensors` in the worker. -/
def Worker.act (w : Worker) (m : Message) (offsets : List Int) : Worker :=
  Function.update w m.groupId (match m.cmd with
    | .mapToKvTensors => w m.groupId ∪ offsets.toFinset
    | .unmapFromKvTensors => w m.groupId \ offsets.toFinset)

@[simp] theorem Worker.act_map (w : Worker) (offsets done : List Int) (g : Int) :
    w.act ⟨.mapToKvTensors, offsets, g⟩ done g = w g ∪ done.toFinset := Function.update_self ..

@[simp] theorem Worker.act_unmap (w : Worker) (offsets done : List Int) (g : Int) :
    w.act ⟨.unmapFromKvTensors, offsets, g⟩ done g = w g \ done.toFinset := Function.update_self ..

theorem Worker.act_other (w : Worker) (m : Message) (done : List Int) {g : Int}
    (h : g ≠ m.groupId) : w.act m done g = w g := Function.update_of_ne h ..

def Command.failed (cmd : Command) (rank : Nat) (response : String) : String :=
  match cmd with
  | .mapToKvTensors => s!"Worker {rank} failed to map: {response}"
  | .unmapFromKvTensors => s!"Worker {rank} failed to unmap: {response}"

section Broadcast

variable (dir : String) (message : Message) (ppRank : Int) (answers : Nat → Answer)

def sendAndReceiveMessage (rank : Nat) (ws : Workers) : Except String Unit × Workers :=
  match getWorkerSocketPath dir rank ppRank with
  | .error e => (.error e, ws)
  | .ok path => match ws path with
    | none => (.error "[Errno 111] Connection refused", ws)
    | some w =>
      (match answers rank with
        | .success => .ok ()
        | .failure response _ => .error response,
        Function.update ws path
          (some (w.act message ((answers rank).acted message.offsets))))

/-- Send to all ranks, whatever the others answer, and raise for the first that failed. -/
def gather : List Nat → Workers → Except String Unit × Workers
  | [], ws => (.ok (), ws)
  | rank :: ranks, ws =>
    let response := sendAndReceiveMessage dir message ppRank answers rank ws
    let others := gather ranks response.2
    (match response.1 with
      | .ok () => others.1
      | .error e => .error (message.cmd.failed rank e), others.2)

end Broadcast

section

variable {dir path : String} {message : Message} {ppRank : Int} {answers : Nat → Answer}
  {rank : Nat} {ranks : List Nat} {ws : Workers}

/-- A message changes nothing but the worker at the path of its rank. -/
theorem send_other (h : getWorkerSocketPath dir rank ppRank ≠ .ok path) :
    (sendAndReceiveMessage dir message ppRank answers rank ws).2 path = ws path := by
  unfold sendAndReceiveMessage
  split
  case h_1 => rfl
  case h_2 q hq =>
    split
    case h_1 => rfl
    case h_2 w hw =>
      have hne : path ≠ q := fun heq => h (heq ▸ hq)
      exact Function.update_of_ne hne _ _

theorem send_at (h : getWorkerSocketPath dir rank ppRank = .ok path) :
    (sendAndReceiveMessage dir message ppRank answers rank ws).2 path =
      (ws path).map fun w => w.act message ((answers rank).acted message.offsets) := by
  unfold sendAndReceiveMessage
  rw [h]
  dsimp only
  cases hw : ws path with
  | none => exact hw
  | some w => exact Function.update_self path _ ws

theorem send_eq_none : (sendAndReceiveMessage dir message ppRank answers rank ws).2 path = none ↔
    ws path = none := by
  by_cases h : getWorkerSocketPath dir rank ppRank = .ok path
  · rw [send_at h, Option.map_eq_none_iff]
  · rw [send_other h]

theorem send_isOk_iff :
    (sendAndReceiveMessage dir message ppRank answers rank ws).1.isOk = true ↔
      answers rank = .success ∧
        ∃ path, getWorkerSocketPath dir rank ppRank = .ok path ∧ ws path ≠ none := by
  unfold sendAndReceiveMessage
  cases hpath : getWorkerSocketPath dir rank ppRank with
  | error e => simp [Except.isOk, Except.toBool]
  | ok path =>
    cases hw : ws path with
    | none => simp [Except.isOk, Except.toBool, hw]
    | some w => cases answers rank <;> simp [Except.isOk, Except.toBool, hw]

theorem gather_other (h : ∀ rank ∈ ranks, getWorkerSocketPath dir rank ppRank ≠ .ok path) :
    (gather dir message ppRank answers ranks ws).2 path = ws path := by
  induction ranks generalizing ws with
  | nil => rfl
  | cons rank ranks ih =>
    refine (ih fun r hr => h r (List.mem_cons_of_mem _ hr)).trans ?_
    exact send_other (h rank List.mem_cons_self)

/-- Every worker of the ranks acts once, as its answer says. -/
theorem gather_at (hranks : ranks.Nodup) (hrank : rank ∈ ranks)
    (h : getWorkerSocketPath dir rank ppRank = .ok path) :
    (gather dir message ppRank answers ranks ws).2 path =
      (ws path).map fun w => w.act message ((answers rank).acted message.offsets) := by
  induction ranks generalizing ws with
  | nil => cases hrank
  | cons r ranks ih =>
    obtain ⟨hr, hranks⟩ := List.nodup_cons.mp hranks
    have hinj : ∀ q, getWorkerSocketPath dir q ppRank = .ok path → q = rank := fun q hq =>
      workerSocketPath_inj ((getWorkerSocketPath_ok hq).symm.trans (getWorkerSocketPath_ok h))
    by_cases heq : rank = r
    · subst heq
      have hrest : ∀ q ∈ ranks, getWorkerSocketPath dir q ppRank ≠ .ok path := by
        intro q hq hpath
        rw [hinj q hpath] at hq
        exact hr hq
      exact (gather_other hrest).trans (send_at h)
    · have hmem : rank ∈ ranks := (List.mem_cons.mp hrank).resolve_left heq
      refine (ih hranks hmem).trans ?_
      rw [send_other fun hpath => heq (hinj r hpath).symm]

theorem gather_isOk_iff : (gather dir message ppRank answers ranks ws).1.isOk = true ↔
    ∀ rank ∈ ranks, answers rank = .success ∧
      ∃ path, getWorkerSocketPath dir rank ppRank = .ok path ∧ ws path ≠ none := by
  induction ranks generalizing ws with
  | nil => simp [gather, Except.isOk, Except.toBool]
  | cons r ranks ih =>
    have hrest := @ih (sendAndReceiveMessage dir message ppRank answers r ws).2
    simp only [ne_eq, send_eq_none] at hrest
    rw [List.forall_mem_cons, ← send_isOk_iff, ← hrest]
    simp only [gather]
    cases (sendAndReceiveMessage dir message ppRank answers r ws).1 with
    | ok u => simp [Except.isOk, Except.toBool]
    | error e => simp [Except.isOk, Except.toBool]

end

end GpuSharing.Kvcached
