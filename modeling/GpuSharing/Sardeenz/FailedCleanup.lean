import GpuSharing.Lib.Dict
import GpuSharing.Lib.ProcessTable
import GpuSharing.Lib.Transition
import GpuSharing.Sardeenz.ModelManager
import GpuSharing.Sardeenz.ProcessLog

namespace GpuSharing.Sardeenz.FailedCleanup

open ProcessLog (isSpace)
open ProcessTable Transition

/-- What `randomUUID` returns. -/
abbrev InstanceId := { id : String // id.length = 36 }

/-- The command line of a process and the value of `SARDEENZ_INSTANCE_ID` in its environment. -/
structure ProcessData where
  args : List Char
  marker : Option InstanceId
  deriving DecidableEq, Repr

/-- The processes of the machine, below the one with the pid 1. The owner of a process is the instance
for which it was spawned, or by whose processes it was started. -/
abbrev Processes := Table InstanceId ProcessData 1

/-- The fields of a `ModelInstance` that its cleanup reads, as long as it is in the model store. -/
structure Instance where
  processId : Nat
  engineCorePid : Option Nat
  port : Nat
  status : ModelStatus
  deriving DecidableEq, Repr

/-- Where `cleanupFailedInstanceResources` stands: in `getDescendantPids` of the next of its roots, in
`findProcessesByEnvMarker` before and after it has the directories of `/proc`, in
`findVllmProcessesByPort` before and after `ps`, or in the loop that kills. -/
inductive CleanupPc
  | descendants (roots queue found : List Nat)
  | readdir
  | environs (dirs found : List Nat)
  | ps
  | listed (portPids : List Nat)
  | killing (pids : List Nat)
  | done
  deriving DecidableEq, Repr

structure Cleanup where
  instanceId : InstanceId
  port : Nat
  candidatePids : List Nat
  pc : CleanupPc
  deriving DecidableEq, Repr

/-- `pid` is `process.pid`, `launches` the ports of the launches that have chosen one. -/
structure Manager where
  pid : Nat
  processes : Processes
  instances : Dict InstanceId Instance
  launches : List Nat
  cleanups : List Cleanup

inductive ManagerAct
  | choosePort
  | spawn (k : Nat) (instanceId : InstanceId) (pid : Nat) (before after : List Char)
  | fork (parent pid : Nat)
  | exec (pid : Nat) (args : List Char) (keepsMarker : Bool)
  | exit (pid : Nat)
  | engineCoreSeen (instanceId : InstanceId) (pid : Nat)
  | setStatus (instanceId : InstanceId) (status : ModelStatus)
  | unload (instanceId : InstanceId)
  | fail (instanceId : InstanceId)
  | goOn (k : Nat)
  deriving DecidableEq, Repr

/-- `Set.add` of some pids. -/
def addPids (candidatePids pids : List Nat) : List Nat :=
  pids.foldl (fun candidates pid => if pid ∈ candidates then candidates else candidates ++ [pid])
    candidatePids

def portArg (port : Nat) : List Char := "--port=".toList ++ Nat.toDigits 10 port

/-- The port and then white space or the end. -/
def endsPort (port : Nat) (text : List Char) : Bool :=
  (Nat.toDigits 10 port).isPrefixOf text &&
    match text.drop (Nat.toDigits 10 port).length with
    | [] => true
    | c :: _ => isSpace c

/-- `--port[=\\s]?<port>(?:\\s|$)` at the beginning of a text. -/
def portHere (port : Nat) (text : List Char) : Bool :=
  "--port".toList.isPrefixOf text &&
    match text.drop "--port".toList.length with
    | [] => false
    | c :: rest => ((c = '=' || isSpace c) && endsPort port rest) || endsPort port (c :: rest)

def contains (text part : List Char) : Bool := text.tails.any part.isPrefixOf

/-- A line of `ps` of which `findVllmProcessesByPort` takes the pid. -/
def isVllmWithPort (port : Nat) (p : Process InstanceId ProcessData) : Bool :=
  let trimmed := TrimmedLines.trim isSpace (Nat.toDigits 10 p.pid ++ ' ' :: p.data.args)
  contains trimmed "vllm".toList &&
    !(contains trimmed "grep".toList || contains trimmed "ps -eo".toList) &&
    trimmed.tails.any (portHere port)

/-- `environ.includes(marker)`. -/
def isMarked (instanceId : InstanceId) (p : Process InstanceId ProcessData) : Bool :=
  match p.data.marker with
  | some marker => instanceId.1.toList.isPrefixOf marker.1.toList
  | none => false

namespace Manager

variable (vllmBasePort : Nat)

def findVllmProcessesByPort (s : Manager) (port : Nat) : List Nat :=
  (s.processes.processes.filter fun p => isVllmWithPort port p && p.pid ≠ s.pid).map (·.pid)

def getUsedPorts (s : Manager) : List Nat := s.instances.entries.map (·.2.port)

/-- The loops up to the next `await`, or one process that is killed. -/
def goOn (s : Manager) (c : Cleanup) : Processes × Cleanup :=
  match c.pc with
  | .descendants roots (pid :: queue) found =>
    let childPids := s.processes.children pid
    (s.processes, { c with pc := .descendants roots (queue ++ childPids) (found ++ childPids) })
  | .descendants (root :: roots) [] found =>
    (s.processes, { c with
      candidatePids := addPids c.candidatePids found
      pc := .descendants roots [root] [] })
  | .descendants [] [] found =>
    (s.processes, { c with candidatePids := addPids c.candidatePids found, pc := .readdir })
  | .readdir => (s.processes, { c with pc := .environs s.processes.pids [] })
  | .environs (pid :: dirs) found =>
    let marked := s.processes.processes.any fun p => p.pid = pid && isMarked c.instanceId p
    (s.processes, { c with
      pc := .environs dirs (if pid ≠ s.pid ∧ marked then found ++ [pid] else found) })
  | .environs [] found =>
    (s.processes, { c with candidatePids := addPids c.candidatePids found, pc := .ps })
  | .ps => (s.processes, { c with pc := .listed (s.findVllmProcessesByPort c.port) })
  | .listed portPids =>
    let candidatePids := addPids c.candidatePids portPids
    (s.processes, { c with candidatePids, pc := .killing candidatePids })
  | .killing (pid :: pids) =>
    -- a signal to a pid that is not in use, or to the process 1, has no effect
    (if h : pid ≠ s.pid ∧ pid ≠ 1 then s.processes.remove pid h.2 else s.processes,
      { c with pc := .killing pids })
  | .killing [] => (s.processes, { c with pc := .done })
  | .done => (s.processes, c)

/-- The pids that are recorded with an instance. -/
def recordedPids (e : Instance) : List Nat :=
  (if 0 < e.processId then [e.processId] else []) ++
    match e.engineCorePid with
    | some pid => if pid ≠ 0 ∧ pid ≠ e.processId then [pid] else []
    | none => []

def Runs (s : Manager) (p : Process InstanceId ProcessData) : Prop :=
  p.pid ∉ s.processes.pids ∧
    ∃ parent ∈ s.processes.processes, parent.pid = p.parent ∧
      (parent.owner ≠ none → p.owner = parent.owner)

instance decidableRuns (s : Manager) (p : Process InstanceId ProcessData) : Decidable (s.Runs p) :=
  inferInstanceAs (Decidable (_ ∧ ∃ parent ∈ s.processes.processes, _))

def step (s : Manager) : ManagerAct → Option Manager
  | .choosePort => (getNextPort s.getUsedPorts vllmBasePort (65536 - vllmBasePort)).map fun port =>
      { s with launches := s.launches ++ [port] }
  | .spawn k instanceId pid before after => match s.launches[k]? with
    | some port =>
      let p : Process InstanceId ProcessData :=
        ⟨pid, s.pid, some instanceId, ⟨before ++ ' ' :: portArg port ++ ' ' :: after, some instanceId⟩⟩
      if h : s.Runs p then
        if s.instances.lookup instanceId = none then
          some { s with
            processes := s.processes.create p h.1 h.2
            instances := s.instances.setItem instanceId ⟨pid, none, port, .starting⟩
            launches := s.launches.eraseIdx k }
        else none
      else none
    | none => none
  | .fork parent pid => match s.processes.processes.find? (·.pid = parent) with
    | some q =>
      let p : Process InstanceId ProcessData := ⟨pid, parent, q.owner, q.data⟩
      if h : s.Runs p then some { s with processes := s.processes.create p h.1 h.2 } else none
    | none => none
  | .exec pid args keepsMarker => some { s with
      processes := s.processes.setData fun p =>
        if p.pid = pid then ⟨args, if keepsMarker then p.data.marker else none⟩ else p.data }
  | .exit pid =>
    if h : pid ≠ s.pid ∧ pid ≠ 1 then some { s with processes := s.processes.remove pid h.2 } else none
  | .engineCoreSeen instanceId pid => match s.instances.lookup instanceId with
    | some e => some { s with
        instances := s.instances.setItem instanceId { e with engineCorePid := some pid } }
    | none => none
  | .setStatus instanceId status => match s.instances.lookup instanceId with
    | some e => some { s with instances := s.instances.setItem instanceId { e with status } }
    | none => none
  | .unload instanceId => some { s with instances := AList.erase instanceId s.instances }
  | .fail instanceId => match s.instances.lookup instanceId with
    | some e =>
      if e.status ≠ .stopping then
        let pids := recordedPids e
        some { s with
          instances := s.instances.setItem instanceId { e with status := .failed }
          cleanups := s.cleanups ++ [⟨instanceId, e.port, pids, .descendants pids [] []⟩] }
      else none
    | none => none
  | .goOn k => match s.cleanups[k]? with
    | some c => some { s with
        processes := (s.goOn c).1
        cleanups := s.cleanups.set k (s.goOn c).2 }
    | none => none

def start (pid : Nat) (processes : Processes) : Manager := ⟨pid, processes, ∅, [], []⟩

end Manager

/-- The pids that a cleanup may still kill. -/
def Cleanup.held (c : Cleanup) : List Nat :=
  match c.pc with
  | .descendants roots queue found => c.candidatePids ++ roots ++ queue ++ found
  | .readdir | .ps => c.candidatePids
  | .environs _ found => c.candidatePids ++ found
  | .listed portPids => c.candidatePids ++ portPids
  | .killing pids => pids
  | .done => []

/-- The pid that the next round of the loop kills. -/
def Cleanup.nextKill (c : Cleanup) : Option Nat :=
  match c.pc with
  | .killing (pid :: _) => some pid
  | _ => none

/-- No process of another owner has a pid that the cleanup may still kill. -/
def Cleanup.Owns (processes : Processes) (c : Cleanup) : Prop :=
  ∀ pid ∈ c.held, processes.Own c.instanceId pid

namespace Manager

def Safe (s : Manager) : Prop := ∀ c ∈ s.cleanups, c.Owns s.processes

/-- A process that is killed belongs to the instance that failed. -/
def KillsOwn (s : Manager) : ManagerAct → Prop
  | .goOn k => ∀ c ∈ s.cleanups[k]?, ∀ pid ∈ c.nextKill, pid ≠ s.pid →
      s.processes.Own c.instanceId pid
  | _ => True

/-- The pid is given to no process of another owner than that of a cleanup that may still kill it. -/
def Unheld (s : Manager) (pid : Nat) (owner : Option InstanceId) : Prop :=
  ∀ c ∈ s.cleanups, pid ∈ c.held → owner = some c.instanceId

/-- The pids that are recorded with an instance that fails are those of no other process, a process
with the port of a cleanup that runs `ps` is one of its instance, and no pid that a cleanup may still
kill is given to another process. -/
def Undisturbed (s : Manager) : ManagerAct → Prop
  | .fail instanceId => ∀ e ∈ s.instances.lookup instanceId, ∀ pid ∈ recordedPids e,
      s.processes.Own instanceId pid
  | .goOn k => ∀ c ∈ s.cleanups[k]?, c.pc = .ps →
      ∀ pid ∈ s.findVllmProcessesByPort c.port, s.processes.Own c.instanceId pid
  | .spawn _ instanceId pid _ _ => s.Unheld pid (some instanceId)
  | .fork parent pid =>
    s.Unheld pid ((s.processes.processes.find? (·.pid = parent)).bind (·.owner))
  | _ => True

instance decidableKillsOwn (s : Manager) : ∀ a, Decidable (s.KillsOwn a)
  | .goOn k => inferInstanceAs (Decidable (∀ c ∈ s.cleanups[k]?, ∀ pid ∈ c.nextKill, _ → _))
  | .choosePort | .spawn .. | .fork .. | .exec .. | .exit _ | .engineCoreSeen .. | .setStatus ..
  | .unload _ | .fail _ => .isTrue trivial

instance decidableUnheld (s : Manager) (pid : Nat) (owner : Option InstanceId) :
    Decidable (s.Unheld pid owner) :=
  inferInstanceAs (Decidable (∀ c ∈ s.cleanups, _ → _))

instance decidableUndisturbed (s : Manager) : ∀ a, Decidable (s.Undisturbed a)
  | .fail instanceId => inferInstanceAs (Decidable (∀ e ∈ s.instances.lookup instanceId, _))
  | .goOn k => inferInstanceAs (Decidable (∀ c ∈ s.cleanups[k]?, _ → _))
  | .spawn .. => decidableUnheld ..
  | .fork .. => decidableUnheld ..
  | .choosePort | .exec .. | .exit _ | .engineCoreSeen .. | .setStatus .. | .unload _ => .isTrue trivial

variable {vllmBasePort : Nat} {s t : Manager} {a : ManagerAct} {c : Cleanup}

theorem mem_addPids {candidatePids pids : List Nat} {pid : Nat} :
    pid ∈ addPids candidatePids pids ↔ pid ∈ candidatePids ∨ pid ∈ pids := by
  induction pids generalizing candidatePids with
  | nil => simp [addPids]
  | cons p pids ih =>
    have hcons : addPids candidatePids (p :: pids) =
        addPids (if p ∈ candidatePids then candidatePids else candidatePids ++ [p]) pids := rfl
    rw [hcons, ih]
    split_ifs with hp
    · rw [List.mem_cons]
      constructor
      · exact Or.imp_right .inr
      · rintro (h | rfl | h)
        · exact .inl h
        · exact .inl hp
        · exact .inr h
    · simp [or_assoc]

/-- A process has the marker of its owner, if it has one. -/
def Marked (processes : Processes) : Prop :=
  ∀ p ∈ processes.processes, ∀ marker ∈ p.data.marker, p.owner = some marker

theorem eq_of_isMarked {instanceId : InstanceId} {p : Process InstanceId ProcessData}
    (h : isMarked instanceId p = true) : p.data.marker = some instanceId := by
  unfold isMarked at h
  cases hmarker : p.data.marker with
  | none => simp [hmarker] at h
  | some marker =>
    rw [hmarker] at h
    have hlength : instanceId.1.toList.length = marker.1.toList.length := by
      simp only [String.length_toList]
      rw [instanceId.2, marker.2]
    have heq := (List.isPrefixOf_iff_prefix.mp h).eq_of_length hlength
    rw [Subtype.ext (String.toList_injective heq)]

theorem Marked.create (h : Marked s.processes) {p : Process InstanceId ProcessData} (hruns : s.Runs p)
    (hp : ∀ marker ∈ p.data.marker, p.owner = some marker) :
    Marked (s.processes.create p hruns.1 hruns.2) := by
  intro q hq
  rcases List.mem_append.mp hq with hq | hq
  · exact h q hq
  · rw [List.mem_singleton.mp hq]
    exact hp

theorem Marked.remove (h : Marked s.processes) {pid : Nat} (hpid : pid ≠ 1) :
    Marked (s.processes.remove pid hpid) := by
  intro q hq marker hmarker
  obtain ⟨p, hp, rfl⟩ := List.mem_map.mp hq
  rw [Table.orphan_data] at hmarker
  rw [Table.orphan_owner]
  exact h p (List.mem_of_mem_filter hp) marker hmarker

theorem goOn_processes (s : Manager) (c : Cleanup) :
    (s.goOn c).1 = s.processes ∨
      ∃ pid, ∃ hpid : pid ≠ 1, (s.goOn c).1 = s.processes.remove pid hpid := by
  obtain ⟨instanceId, port, candidatePids, pc⟩ := c
  cases pc with
  | descendants roots queue found => cases queue <;> cases roots <;> exact .inl rfl
  | environs dirs found => cases dirs <;> exact .inl rfl
  | readdir | ps | listed _ | done => exact .inl rfl
  | killing pids =>
    cases pids with
    | nil => exact .inl rfl
    | cons pid pids =>
      simp only [goOn]
      split_ifs with h
      · exact .inr ⟨pid, h.2, rfl⟩
      · exact .inl rfl

theorem own_goOn {owner : InstanceId} {pid : Nat} (h : s.processes.Own owner pid) (c : Cleanup) :
    (s.goOn c).1.Own owner pid := by
  rcases s.goOn_processes c with heq | ⟨ended, hended, heq⟩
  · rw [heq]
    exact h
  · rw [heq]
    exact h.remove hended

theorem Marked.step (h : Marked s.processes) (ht : s.step vllmBasePort a = some t) :
    Marked t.processes := by
  cases a with
  | choosePort =>
    obtain ⟨port, -, rfl⟩ := Option.map_eq_some_iff.mp ht
    exact h
  | spawn k instanceId pid before after =>
    simp only [Manager.step] at ht
    split at ht
    · split_ifs at ht with hruns hfresh
      cases ht
      exact h.create hruns fun _ hmarker => hmarker
    · cases ht
  | fork parent pid =>
    simp only [Manager.step] at ht
    split at ht
    · rename_i q hq
      split_ifs at ht with hruns
      cases ht
      exact h.create hruns fun marker hmarker => h q (List.mem_of_find?_eq_some hq) marker hmarker
    · cases ht
  | exec pid args keepsMarker =>
    cases ht
    intro q hq marker hmarker
    obtain ⟨p, hp, rfl⟩ := List.mem_map.mp hq
    refine h p hp marker ?_
    dsimp only at hmarker
    split_ifs at hmarker
    · exact hmarker
    · cases hmarker
    · exact hmarker
  | exit pid =>
    simp only [Manager.step] at ht
    split_ifs at ht with hpid
    cases ht
    exact h.remove hpid.2
  | engineCoreSeen instanceId pid | setStatus instanceId status =>
    simp only [Manager.step] at ht
    split at ht
    · cases ht
      exact h
    · cases ht
  | unload instanceId =>
    cases ht
    exact h
  | fail instanceId =>
    simp only [Manager.step] at ht
    split at ht
    · split_ifs at ht
      cases ht
      exact h
    · cases ht
  | goOn k =>
    simp only [Manager.step] at ht
    split at ht
    · rename_i c hc
      cases ht
      rcases s.goOn_processes c with heq | ⟨ended, hended, heq⟩
      · rw [heq]
        exact h
      · rw [heq]
        exact h.remove hended
    · cases ht

/-- A process of which `findProcessesByEnvMarker` takes the pid belongs to the instance. -/
theorem own_of_marked (hmarked : Marked s.processes) {instanceId : InstanceId} {pid : Nat}
    (h : s.processes.processes.any (fun p => p.pid = pid && isMarked instanceId p) = true) :
    s.processes.Own instanceId pid := by
  obtain ⟨p, hp, hboth⟩ := List.any_eq_true.mp h
  rw [Bool.and_eq_true, decide_eq_true_eq] at hboth
  intro q hq hpid
  rw [s.processes.eq_of_pid hq hp (hpid.trans hboth.1.symm)]
  exact hmarked p hp instanceId (eq_of_isMarked hboth.2)

/-- A cleanup that goes on may kill more, which are processes of its instance, but for those that it
finds by their port. -/
theorem owns_goOn_iff (hmarked : Marked s.processes) (h : c.Owns s.processes) :
    (s.goOn c).2.Owns (s.goOn c).1 ↔
      (c.pc = .ps → ∀ pid ∈ s.findVllmProcessesByPort c.port, s.processes.Own c.instanceId pid) := by
  obtain ⟨instanceId, port, candidatePids, pc⟩ := c
  rw [Cleanup.Owns] at h
  cases pc with
  | descendants roots queue found =>
    refine iff_of_true ?_ nofun
    cases queue with
    | cons pid queue =>
      simp only [goOn, Cleanup.Owns, Cleanup.held, List.mem_append, List.mem_cons] at h ⊢
      intro q hq
      by_cases hchild : q ∈ s.processes.children pid
      · exact (h pid (by simp)).children hchild
      · exact h q (by tauto)
    | nil =>
      cases roots with
      | cons root roots =>
        simp only [goOn, Cleanup.Owns, Cleanup.held, List.mem_append, List.mem_cons, mem_addPids,
          List.not_mem_nil] at h ⊢
        exact fun q hq => h q (by tauto)
      | nil =>
        simp only [goOn, Cleanup.Owns, Cleanup.held, List.mem_append, mem_addPids,
          List.not_mem_nil] at h ⊢
        exact fun q hq => h q (by tauto)
  | readdir =>
    refine iff_of_true ?_ nofun
    simp only [goOn, Cleanup.Owns, Cleanup.held, List.append_nil] at h ⊢
    exact h
  | environs dirs found =>
    refine iff_of_true ?_ nofun
    cases dirs with
    | cons pid dirs =>
      simp only [goOn, Cleanup.Owns, Cleanup.held, List.mem_append] at h ⊢
      intro q hq
      split_ifs at hq with hmark
      · rw [List.mem_append, List.mem_singleton] at hq
        rcases hq with hq | hq | rfl
        · exact h q (.inl hq)
        · exact h q (.inr hq)
        · exact own_of_marked hmarked hmark.2
      · exact h q hq
    | nil =>
      simp only [goOn, Cleanup.Owns, Cleanup.held, List.mem_append, mem_addPids] at h ⊢
      exact h
  | ps =>
    simp only [goOn, Cleanup.Owns, Cleanup.held, List.mem_append, forall_const] at h ⊢
    exact ⟨fun hall q hq => hall q (.inr hq), fun hfound q hq => hq.elim (h q) (hfound q)⟩
  | listed portPids =>
    refine iff_of_true ?_ nofun
    simp only [goOn, Cleanup.Owns, Cleanup.held, List.mem_append, mem_addPids] at h ⊢
    exact h
  | killing pids =>
    refine iff_of_true ?_ nofun
    cases pids with
    | nil => exact nofun
    | cons pid pids =>
      intro q hq
      exact own_goOn (h q (List.mem_cons_of_mem _ hq)) _
  | done => exact iff_of_true nofun nofun

/-- A process that is started leaves the cleanups safe exactly when its pid is not held. -/
theorem safe_create_iff (h : s.Safe) {p : Process InstanceId ProcessData} (hruns : s.Runs p)
    {instances : Dict InstanceId Instance} {launches : List Nat} :
    Safe ⟨s.pid, s.processes.create p hruns.1 hruns.2, instances, launches, s.cleanups⟩ ↔
      s.Unheld p.pid p.owner := by
  constructor
  · intro hsafe c hc hheld
    exact ((Table.own_create_iff hruns.1 hruns.2).mp (hsafe c hc p.pid hheld)).2 rfl
  · intro hunheld c hc pid hheld
    refine (Table.own_create_iff hruns.1 hruns.2).mpr ⟨h c hc pid hheld, ?_⟩
    rintro rfl
    exact hunheld c hc hheld

theorem safe_step_iff (h : s.Safe) (hmarked : Marked s.processes)
    (ht : s.step vllmBasePort a = some t) : t.Safe ↔ s.Undisturbed a := by
  cases a with
  | choosePort =>
    obtain ⟨port, -, rfl⟩ := Option.map_eq_some_iff.mp ht
    exact iff_of_true h trivial
  | spawn k instanceId pid before after =>
    simp only [Manager.step] at ht
    split at ht
    · split_ifs at ht with hruns hfresh
      cases ht
      exact safe_create_iff h hruns
    · cases ht
  | fork parent pid =>
    simp only [Manager.step] at ht
    split at ht
    · rename_i q hq
      split_ifs at ht with hruns
      cases ht
      rw [Undisturbed, hq]
      exact safe_create_iff h hruns
    · cases ht
  | exec pid args keepsMarker =>
    cases ht
    exact iff_of_true (fun c hc q hq => Table.own_setData_iff.mpr (h c hc q hq)) trivial
  | exit pid =>
    simp only [Manager.step] at ht
    split_ifs at ht with hpid
    cases ht
    exact iff_of_true (fun c hc q hq => (h c hc q hq).remove hpid.2) trivial
  | engineCoreSeen instanceId pid | setStatus instanceId status =>
    simp only [Manager.step] at ht
    split at ht
    · cases ht
      exact iff_of_true h trivial
    · cases ht
  | unload instanceId =>
    cases ht
    exact iff_of_true h trivial
  | fail instanceId =>
    simp only [Manager.step] at ht
    split at ht
    · rename_i e he
      split_ifs at ht
      cases ht
      simp only [Undisturbed, he, Option.mem_def, Option.some.injEq, forall_eq', Safe,
        List.mem_append, List.mem_singleton, or_imp, forall_and, forall_eq, Cleanup.Owns,
        Cleanup.held, List.append_nil]
      exact ⟨fun hall => hall.2.1, fun hpids => ⟨h, hpids, hpids⟩⟩
    · cases ht
  | goOn k =>
    simp only [Manager.step] at ht
    split at ht
    · rename_i c hc
      cases ht
      have hmem := List.mem_of_getElem? hc
      rw [Undisturbed, hc]
      simp only [Option.mem_def, Option.some.injEq, forall_eq']
      rw [← owns_goOn_iff hmarked (h c hmem)]
      constructor
      · intro hsafe
        exact hsafe _ (List.mem_set (List.getElem?_eq_some_iff.mp hc).1 _)
      · intro howns c' hc'
        rcases List.mem_or_eq_of_mem_set hc' with hc' | rfl
        · exact fun q hq => own_goOn (h c' hc' q hq) c
        · exact howns
    · cases ht

theorem Safe.killsOwn (h : s.Safe) (a : ManagerAct) : s.KillsOwn a := by
  cases a with
  | goOn k =>
    rintro c hc pid hpid -
    obtain ⟨instanceId, port, candidatePids, pc⟩ := c
    have howns := h _ (List.mem_of_getElem? hc)
    match pc, hpid with
    | .killing (_ :: _), rfl => exact howns _ List.mem_cons_self
  | _ => trivial

/-- In every run no cleanup may kill a process of another owner exactly when no step disturbs one, and
then every process that is killed belongs to the instance that failed. -/
theorem kills_own_iff {pid : Nat} {processes : Processes} {acts : List ManagerAct}
    (hmarked : Marked processes)
    (hrun : run (step vllmBasePort) (start pid processes) acts = some s) :
    (Along (step vllmBasePort) (fun s a => ∀ t, s.step vllmBasePort a = some t → t.Safe)
        (start pid processes) acts ↔
      Along (step vllmBasePort) Undisturbed (start pid processes) acts) ∧
    (Along (step vllmBasePort) Undisturbed (start pid processes) acts →
      Along (step vllmBasePort) KillsOwn (start pid processes) acts) := by
  have hsafe : (start pid processes).Safe := nofun
  have hstart : Marked (start pid processes).processes := hmarked
  constructor
  · exact along_next_iff (I := fun s => Marked s.processes) (E := fun _ _ => True)
      (fun _ _ _ hmarked hsafe _ ht => safe_step_iff hsafe hmarked ht)
      (fun _ _ _ hmarked _ ht => hmarked.step ht) hstart hsafe
      (along_of_mem (fun _ _ _ => trivial) _) hrun
  · refine along_imp (I := fun s => s.Safe ∧ Marked s.processes) (fun s a h _ => h.1.killsOwn a)
      (fun s a t h ha ht => ?_) ⟨hsafe, hstart⟩
    exact ⟨(safe_step_iff h.1 h.2 ht).mpr ha, h.2.step ht⟩

/-- The process 1 and this one, with the pid 7. -/
def machine : Processes where
  processes := [⟨1, 1, none, ⟨"init".toList, none⟩⟩, ⟨7, 1, none, ⟨"node server.js".toList, none⟩⟩]
  nodup := by decide
  parented := by decide
  inherits := by decide
  initRuns := by decide

def instanceA : InstanceId := ⟨String.ofList (List.replicate 36 'a'), by decide⟩

def instanceB : InstanceId := ⟨String.ofList (List.replicate 36 'b'), by decide⟩

def entrypoint : List Char := "python3 vllm-entrypoint.py serve org/model --disable-log-stats".toList

/-- An instance that starts and ends, and its cleanup up to `ps`. -/
def failsAndCleansUp (rounds : Nat) : List ManagerAct :=
  [.choosePort, .spawn 0 instanceA 10 entrypoint [], .exit 10, .fail instanceA] ++
    List.replicate rounds (.goOn 0)

/-- The instance is unloaded and another one gets its port before `ps` runs. -/
def portReused : List ManagerAct :=
  failsAndCleansUp 3 ++ [.unload instanceA, .choosePort, .spawn 0 instanceB 11 entrypoint []] ++
    List.replicate 9 (.goOn 0)

/-- Another instance gets the pid before the loop that kills. -/
def pidReused : List ManagerAct :=
  failsAndCleansUp 9 ++ [.choosePort, .spawn 0 instanceB 10 entrypoint [], .goOn 0]

/-- The status of the other instance, and the pids that are in use. -/
def outcome (s : Manager) : Option ModelStatus × List Nat :=
  ((s.instances.lookup instanceB).map (·.status), s.processes.pids)

theorem others_killed :
    ((run (step 8000) (start 7 machine) portReused).map outcome = some (some .starting, [1, 7]) ∧
      ¬ Along (step 8000) KillsOwn (start 7 machine) portReused) ∧
    (run (step 8000) (start 7 machine) pidReused).map outcome = some (some .starting, [1, 7]) ∧
      ¬ Along (step 8000) KillsOwn (start 7 machine) pidReused := by
  decide +kernel

/-- An instance that has started another process, which outlives the first one, and an instance
beside it. -/
def orphanLeft : List ManagerAct :=
  [.choosePort, .spawn 0 instanceA 10 entrypoint [], .fork 10 11, .exec 11 "VLLM::EngineCore".toList true,
    .engineCoreSeen instanceA 11, .choosePort, .spawn 0 instanceB 12 entrypoint [], .exit 10,
    .fail instanceA] ++ List.replicate 20 (.goOn 0)

theorem machine_marked : Marked machine := by
  unfold Marked
  decide

theorem kills_own_iff_orphan : Along (step 8000) KillsOwn (start 7 machine) orphanLeft := by
  have hrun : (run (step 8000) (start 7 machine) orphanLeft).isSome := by decide +kernel
  obtain ⟨s, hrun⟩ := Option.isSome_iff_exists.mp hrun
  exact (kills_own_iff machine_marked hrun).2 (by decide +kernel)

end Manager

end GpuSharing.Sardeenz.FailedCleanup
