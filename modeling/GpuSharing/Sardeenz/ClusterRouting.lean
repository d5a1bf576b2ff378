import GpuSharing.Lib.Dict
import GpuSharing.Sardeenz.HeartbeatElection
import GpuSharing.Sardeenz.KvAdmission

namespace GpuSharing.Sardeenz.ClusterRouting

inductive PeerRole
  | leader
  | follower
  deriving DecidableEq, Repr

structure PeerModelEntry where
  instanceId : String
  modelPath : String
  modelName : String
  port : Nat
  status : ModelStatus
  gpuIds : List Nat
  tensorParallelSize : Nat
  maxTokens : Nat
  deriving DecidableEq, Repr

structure PeerGpuInfo where
  gpuId : Nat
  name : String
  totalVramMB : Nat
  usedVramMB : Nat
  temperature : Int
  utilization : Nat
  deriving DecidableEq, Repr

/-- A peer of the `PeerStore`, which holds it under its `podId`. -/
structure PeerInfo where
  address : String
  role : PeerRole
  status : PeerStatus
  lastHeartbeat : Int
  term : Int
  models : List PeerModelEntry
  gpus : List PeerGpuInfo
  deriving DecidableEq, Repr

structure HeartbeatMessage where
  podId : String
  role : PeerRole
  term : Int
  timestamp : Int
  models : List PeerModelEntry
  gpus : List PeerGpuInfo
  deriving DecidableEq, Repr

structure RoutingEntry where
  podId : String
  podAddress : String
  vllmPort : Nat
  weight : Nat
  lastVerified : Int
  deriving DecidableEq, Repr

abbrev PeerStore := Dict String PeerInfo

namespace PeerStore

/-- The peers in the order in which they were added. -/
def getAllPeers (peers : PeerStore) : List (String × PeerInfo) :=
  peers.entries.reverse.map fun x => (x.1, x.2)

/-- `updatePeer`: a peer that is not known stays unknown. -/
def updatePeer (peers : PeerStore) (podId : String) (f : PeerInfo → PeerInfo) : PeerStore :=
  match peers.lookup podId with
  | some peer => AList.replace podId (f peer) peers
  | none => peers

def updateLastHeartbeat (peers : PeerStore) (podId : String) (timestamp : Int) : PeerStore :=
  peers.updatePeer podId fun peer => { peer with lastHeartbeat := timestamp, status := .healthy }

def markSuspect (peers : PeerStore) (podId : String) : PeerStore :=
  peers.updatePeer podId fun peer =>
    if peer.status = .healthy then { peer with status := .suspect } else peer

def markUnavailable (peers : PeerStore) (podId : String) : PeerStore :=
  peers.updatePeer podId fun peer =>
    if peer.status = .healthy ∨ peer.status = .suspect then { peer with status := .unavailable }
    else peer

theorem mem_getAllPeers {peers : PeerStore} {podId : String} {peer : PeerInfo} :
    (podId, peer) ∈ peers.getAllPeers ↔ peers.lookup podId = some peer := by
  have hmem : peers.lookup podId = some peer ↔
      (⟨podId, peer⟩ : Sigma fun _ : String => PeerInfo) ∈ peers.entries :=
    AList.mem_lookup_iff
  rw [hmem]
  constructor
  · intro h
    obtain ⟨x, hx, heq⟩ := List.mem_map.mp h
    cases heq
    exact List.mem_reverse.mp hx
  · intro h
    exact List.mem_map.mpr ⟨_, List.mem_reverse.mpr h, rfl⟩

@[simp] theorem lookup_updatePeer (peers : PeerStore) (p q : String) (f : PeerInfo → PeerInfo) :
    (peers.updatePeer p f).lookup q =
      if q = p then (peers.lookup p).map f else peers.lookup q := by
  unfold updatePeer
  cases hp : peers.lookup p with
  | none =>
    by_cases hq : q = p
    · subst hq
      simp [hp]
    · simp [hq]
  | some peer =>
    rw [Dict.lookup_replace]
    by_cases hq : q = p
    · subst hq
      simp [hp]
    · simp [hq]

end PeerStore

/-- What `processIncomingHeartbeat` writes over the fields of a known peer: the timestamp of the
message is not looked at. -/
def HeartbeatMessage.updates (message : HeartbeatMessage) (sourceIp : Option String) (now : Int)
    (peer : PeerInfo) : PeerInfo where
  address := if peer.address = "" then sourceIp.getD "" else peer.address
  role := message.role
  status := .healthy
  lastHeartbeat := now
  term := message.term
  models := message.models
  gpus := message.gpus

/-- The peer that `processIncomingHeartbeat` adds when the sender is not known. -/
def HeartbeatMessage.newPeer (message : HeartbeatMessage) (sourceIp : Option String) (now : Int) :
    PeerInfo where
  address := sourceIp.getD ""
  role := message.role
  status := .healthy
  lastHeartbeat := now
  term := message.term
  models := message.models
  gpus := message.gpus

/-- What `processIncomingHeartbeat` does with the peers. -/
def PeerStore.processIncomingHeartbeat (peers : PeerStore) (message : HeartbeatMessage)
    (sourceIp : Option String) (now : Int) : PeerStore :=
  match peers.lookup message.podId with
  | some _ => peers.updatePeer message.podId (message.updates sourceIp now)
  | none => AList.insert message.podId (message.newPeer sourceIp now) peers

/-- The peer that the sender of a heartbeat is after it. -/
def PeerStore.heardFrom (peers : PeerStore) (message : HeartbeatMessage) (sourceIp : Option String)
    (now : Int) : PeerInfo :=
  match peers.lookup message.podId with
  | some peer => message.updates sourceIp now peer
  | none => message.newPeer sourceIp now

theorem PeerStore.lookup_processIncomingHeartbeat (peers : PeerStore) (message : HeartbeatMessage)
    (sourceIp : Option String) (now : Int) (p : String) :
    (peers.processIncomingHeartbeat message sourceIp now).lookup p =
      if p = message.podId then some (peers.heardFrom message sourceIp now)
      else peers.lookup p := by
  unfold PeerStore.processIncomingHeartbeat PeerStore.heardFrom
  cases hp : peers.lookup message.podId with
  | none =>
    by_cases hq : p = message.podId
    · subst hq
      simp
    · simp [hq, AList.lookup_insert_ne hq]
  | some peer => simp [hp]

/-- The routing table of a pod: `localPodId` is the pod itself. -/
structure ClusterRoutingStore where
  localPodId : String
  entries : Dict String (List RoutingEntry)
  version : Nat

namespace ClusterRoutingStore

def getRoutingEntries (t : ClusterRoutingStore) (modelName : String) : List RoutingEntry :=
  (t.entries.lookup modelName).getD []

def getLocalEntries (t : ClusterRoutingStore) (modelName : String) : List RoutingEntry :=
  (t.getRoutingEntries modelName).filter (·.podId = t.localPodId)

/-- The entry that `rebuildFromPeers` makes of one model of a peer. -/
def entryOf (localPodId : String) (now : Int) (podId : String) (peer : PeerInfo)
    (model : PeerModelEntry) : RoutingEntry where
  podId := podId
  podAddress := peer.address
  vllmPort := model.port
  weight := if podId = localPodId then 2 else 1
  lastVerified := now

/-- The inner loop of `rebuildFromPeers`, for one model of a peer. -/
def addModel (localPodId : String) (now : Int) (podId : String) (peer : PeerInfo)
    (entries : Dict String (List RoutingEntry)) (model : PeerModelEntry) :
    Dict String (List RoutingEntry) :=
  if model.status ≠ .running then entries
  else entries.setItem model.modelName
    ((entries.lookup model.modelName).getD [] ++ [entryOf localPodId now podId peer model])

/-- The outer loop of `rebuildFromPeers`, for one peer. -/
def addPeer (localPodId : String) (now : Int) (entries : Dict String (List RoutingEntry))
    (x : String × PeerInfo) : Dict String (List RoutingEntry) :=
  if x.2.status = .unavailable then entries
  else x.2.models.foldl (addModel localPodId now x.1 x.2) entries

def rebuildFromPeers (t : ClusterRoutingStore) (now : Int) (peers : List (String × PeerInfo)) :
    ClusterRoutingStore :=
  { t with
    entries := peers.foldl (addPeer t.localPodId now) ∅
    version := t.version + 1 }

/-- Take the entries of a pod out of those of one model; a model that has none left goes too. -/
def dropPod (podId : String) (entries : Dict String (List RoutingEntry)) (modelName : String) :
    Dict String (List RoutingEntry) :=
  match entries.lookup modelName with
  | none => entries
  | some modelEntries =>
    let filtered := modelEntries.filter (·.podId ≠ podId)
    if filtered.length = modelEntries.length then entries
    else if filtered.length = 0 then AList.erase modelName entries
    else AList.replace modelName filtered entries

/-- Whether taking the entries of the pod out changes those of a model. -/
def holdsPod (podId : String) (modelEntries : List RoutingEntry) : Bool :=
  modelEntries.any (·.podId = podId)

def removeEntriesForPod (t : ClusterRoutingStore) (podId : String) : ClusterRoutingStore :=
  { t with
    entries := t.entries.keys.reverse.foldl (dropPod podId) t.entries
    version := if t.entries.entries.any (holdsPod podId ·.2) then t.version + 1 else t.version }

/-- `removeEntry` takes out every entry that the pod has for the model. -/
def removeEntry (t : ClusterRoutingStore) (modelName podId : String) : ClusterRoutingStore :=
  { t with
    entries := dropPod podId t.entries modelName
    version := if holdsPod podId (t.getRoutingEntries modelName) then t.version + 1 else t.version }

/-- The entries of a model that a rebuild makes of one peer. -/
def reported (localPodId : String) (now : Int) (modelName : String) (x : String × PeerInfo) :
    List RoutingEntry :=
  if x.2.status = .unavailable then []
  else (x.2.models.filter fun m => m.status = .running ∧ m.modelName = modelName).map
    (entryOf localPodId now x.1 x.2)

theorem lookup_addModel (localPodId : String) (now : Int) (podId : String) (peer : PeerInfo)
    (entries : Dict String (List RoutingEntry)) (model : PeerModelEntry) (modelName : String) :
    ((addModel localPodId now podId peer entries model).lookup modelName).getD [] =
      (entries.lookup modelName).getD [] ++
        if model.status = .running ∧ model.modelName = modelName then
          [entryOf localPodId now podId peer model] else [] := by
  unfold addModel
  by_cases hrun : model.status = .running
  · by_cases hname : model.modelName = modelName
    · subst hname
      simp [hrun]
    · simp [hrun, hname, Ne.symm hname]
  · simp [hrun]

theorem lookup_foldl_addModel (localPodId : String) (now : Int) (podId : String) (peer : PeerInfo)
    (models : List PeerModelEntry) (entries : Dict String (List RoutingEntry))
    (modelName : String) :
    ((models.foldl (addModel localPodId now podId peer) entries).lookup modelName).getD [] =
      (entries.lookup modelName).getD [] ++
        (models.filter fun m => m.status = .running ∧ m.modelName = modelName).map
          (entryOf localPodId now podId peer) := by
  induction models generalizing entries with
  | nil => simp
  | cons model models ih =>
    rw [List.foldl_cons, ih, lookup_addModel, List.append_assoc, List.filter_cons]
    by_cases h : model.status = .running ∧ model.modelName = modelName <;> simp [h]

theorem lookup_addPeer (localPodId : String) (now : Int) (x : String × PeerInfo)
    (entries : Dict String (List RoutingEntry)) (modelName : String) :
    ((addPeer localPodId now entries x).lookup modelName).getD [] =
      (entries.lookup modelName).getD [] ++ reported localPodId now modelName x := by
  unfold addPeer reported
  split_ifs
  · simp
  · rw [lookup_foldl_addModel]

theorem getRoutingEntries_rebuildFromPeers (t : ClusterRoutingStore) (now : Int)
    (peers : List (String × PeerInfo)) (modelName : String) :
    (t.rebuildFromPeers now peers).getRoutingEntries modelName =
      peers.flatMap (reported t.localPodId now modelName) := by
  have hfold : ∀ (entries : Dict String (List RoutingEntry)),
      ((peers.foldl (addPeer t.localPodId now) entries).lookup modelName).getD [] =
        (entries.lookup modelName).getD [] ++
          peers.flatMap (reported t.localPodId now modelName) := by
    induction peers with
    | nil => simp
    | cons x peers ih =>
      intro entries
      rw [List.foldl_cons, ih, lookup_addPeer, List.append_assoc, List.flatMap_cons]
  exact hfold ∅

/-- After a rebuild the table holds one entry for each running model of each peer that is not
unavailable, and no other. -/
theorem mem_rebuildFromPeers {t : ClusterRoutingStore} {now : Int} {peers : PeerStore}
    {modelName : String} {e : RoutingEntry} :
    e ∈ (t.rebuildFromPeers now peers.getAllPeers).getRoutingEntries modelName ↔
      ∃ podId peer, peers.lookup podId = some peer ∧ peer.status ≠ .unavailable ∧
        ∃ m ∈ peer.models, m.status = .running ∧ m.modelName = modelName ∧
          entryOf t.localPodId now podId peer m = e := by
  rw [getRoutingEntries_rebuildFromPeers, List.mem_flatMap]
  constructor
  · rintro ⟨⟨podId, peer⟩, hmem, he⟩
    unfold reported at he
    split_ifs at he with hstatus
    · cases he
    · obtain ⟨m, hm, heq⟩ := List.mem_map.mp he
      simp only [List.mem_filter, decide_eq_true_eq] at hm
      exact ⟨podId, peer, PeerStore.mem_getAllPeers.mp hmem, hstatus, m, hm.1, hm.2.1, hm.2.2, heq⟩
  · rintro ⟨podId, peer, hpeer, hstatus, m, hm, hrun, hname, heq⟩
    refine ⟨(podId, peer), PeerStore.mem_getAllPeers.mpr hpeer, ?_⟩
    rw [reported, if_neg hstatus]
    exact List.mem_map.mpr ⟨m, by simp [hm, hrun, hname], heq⟩

theorem lookup_dropPod (podId : String) (entries : Dict String (List RoutingEntry))
    (modelName name : String) :
    ((dropPod podId entries modelName).lookup name).getD [] =
      if name = modelName then ((entries.lookup name).getD []).filter (·.podId ≠ podId)
      else (entries.lookup name).getD [] := by
  unfold dropPod
  cases hlookup : entries.lookup modelName with
  | none =>
    by_cases hname : name = modelName
    · subst hname
      simp [hlookup]
    · simp [hname]
  | some modelEntries =>
    by_cases hname : name = modelName
    · subst hname
      simp only [hlookup, if_true, Option.getD_some]
      split_ifs with hsame hempty
      · rw [hlookup, Option.getD_some]
        exact (List.filter_sublist.eq_of_length hsame).symm
      · rw [AList.lookup_erase]
        exact (List.eq_nil_of_length_eq_zero hempty).symm
      · simp [Dict.lookup_replace, hlookup]
    · simp only [if_neg hname]
      split_ifs
      · rfl
      · rw [AList.lookup_erase_ne hname]
      · rw [Dict.lookup_replace, if_neg hname]

theorem getRoutingEntries_removeEntry (t : ClusterRoutingStore) (modelName podId name : String) :
    (t.removeEntry modelName podId).getRoutingEntries name =
      if name = modelName then (t.getRoutingEntries name).filter (·.podId ≠ podId)
      else t.getRoutingEntries name :=
  lookup_dropPod podId t.entries modelName name

theorem lookup_foldl_dropPod (podId : String) (names : List String)
    (entries : Dict String (List RoutingEntry)) (name : String) :
    ((names.foldl (dropPod podId) entries).lookup name).getD [] =
      if name ∈ names then ((entries.lookup name).getD []).filter (·.podId ≠ podId)
      else (entries.lookup name).getD [] := by
  induction names generalizing entries with
  | nil => simp
  | cons modelName names ih =>
    rw [List.foldl_cons, ih, lookup_dropPod]
    by_cases hhead : name = modelName <;> by_cases htail : name ∈ names <;>
      simp [hhead, htail]

theorem getRoutingEntries_removeEntriesForPod (t : ClusterRoutingStore) (podId name : String) :
    (t.removeEntriesForPod podId).getRoutingEntries name =
      (t.getRoutingEntries name).filter (·.podId ≠ podId) := by
  have hfold := lookup_foldl_dropPod podId t.entries.keys.reverse t.entries name
  by_cases hname : name ∈ t.entries.keys.reverse
  · rw [if_pos hname] at hfold
    exact hfold
  · rw [if_neg hname] at hfold
    have hnone : t.entries.lookup name = none := by
      rw [AList.lookup_eq_none]
      exact fun h => hname (List.mem_reverse.mpr h)
    have hnil : t.getRoutingEntries name = [] := by rw [getRoutingEntries, hnone]; rfl
    rw [hnil, List.filter_nil, ← hnil]
    exact hfold

end ClusterRoutingStore

/-- The parts of a pod that its peers' heartbeats change. `rebuildPending` is whether a debounced
rebuild is scheduled. -/
structure Pod where
  podId : String
  now : Int
  peers : PeerStore
  table : ClusterRoutingStore
  rebuildPending : Bool

/-- What happens at a pod: `forwardFails` is a request forwarded to an entry that could not be
reached or was answered with 404. -/
inductive PeerAct
  | heartbeat (message : HeartbeatMessage) (sourceIp : Option String)
  | ack (podId : String)
  | reapPeers
  | rebuild
  | forwardFails (modelName : String) (entry : RoutingEntry)
  | clock (now : Int)

namespace Pod

/-- A pod whose `ClusterManager` has registered it as its own peer. -/
def start (podId address : String) (now : Int) : Pod where
  podId := podId
  now := now
  peers := AList.singleton podId
    { address := address
      role := .follower
      status := .healthy
      lastHeartbeat := now
      term := 0
      models := []
      gpus := [] }
  table := ⟨podId, ∅, 0⟩
  rebuildPending := false

/-- What `reapPeers` does with one peer. -/
def reapPeer (s : Pod) (podId : String) : Pod :=
  match s.peers.lookup podId with
  | none => s
  | some peer =>
    if peer.status = .healthy ∧ suspectThresholdMs < s.now - peer.lastHeartbeat then
      { s with peers := s.peers.markSuspect podId }
    else if peer.status = .suspect ∧ unavailableThresholdMs < s.now - peer.lastHeartbeat then
      { s with
        peers := s.peers.markUnavailable podId
        table := s.table.removeEntriesForPod podId }
    else s

def reapPeers (s : Pod) : Pod :=
  ((s.peers.getAllPeers.map (·.1)).filter (· ≠ s.podId)).foldl reapPeer s

def step (s : Pod) : PeerAct → Option Pod
  | .heartbeat message sourceIp => some { s with
      peers := s.peers.processIncomingHeartbeat message sourceIp s.now
      rebuildPending := true }
  | .ack podId => some { s with peers := s.peers.updateLastHeartbeat podId s.now }
  | .reapPeers => some s.reapPeers
  | .rebuild =>
    if s.rebuildPending then some { s with
      table := s.table.rebuildFromPeers s.now s.peers.getAllPeers
      rebuildPending := false }
    else none
  | .forwardFails modelName entry => some { s with table := s.table.removeEntry modelName entry.podId }
  | .clock now => some { s with now := now }

end Pod

end GpuSharing.Sardeenz.ClusterRouting
