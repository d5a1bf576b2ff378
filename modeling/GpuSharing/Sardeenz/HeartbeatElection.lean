import Mathlib.Data.List.Sort
import GpuSharing.Lib.Dict
import GpuSharing.Sardeenz.LeaseElection

namespace GpuSharing.Sardeenz

inductive PeerStatus
  | healthy
  | suspect
  | unavailable
  deriving DecidableEq, Repr

structure PeerInfo where
  status : PeerStatus
  lastHeartbeat : Int
  deriving DecidableEq, Repr

/-- The `PeerStore` of a pod: the peers that it knows, itself among them, by their pod id. -/
abbrev PeerStore (Pod : Type) := Dict Pod PeerInfo

def suspectThresholdMs : Int := 10000

def unavailableThresholdMs : Int := 15000

def maxClusterSize : Nat := 8

def calculateQuorum (clusterSize : Nat) : Nat := clusterSize / 2 + 1

namespace PeerStore

variable {Pod : Type}

/-- The pods that are not `unavailable`. -/
def healthyPeers (store : PeerStore Pod) : List Pod :=
  (store.entries.filter fun x => x.2.status ≠ .unavailable).map (·.1)

variable [DecidableEq Pod]

def updateLastHeartbeat (store : PeerStore Pod) (p : Pod) (now : Int) : PeerStore Pod :=
  if p ∈ store then AList.replace p ⟨.healthy, now⟩ store else store

/-- `handlePeerAdded` -/
def handlePeerAdded (store : PeerStore Pod) (p : Pod) (now : Int) : PeerStore Pod :=
  if maxClusterSize ≤ store.entries.length then store
  else if p ∈ store then store
  else AList.insert p ⟨.healthy, now⟩ store

/-- `handlePeerRemoved` -/
def handlePeerRemoved (store : PeerStore Pod) (p : Pod) : PeerStore Pod := AList.erase p store

/-- What `processIncomingHeartbeat` makes of a heartbeat from the pod `p`. -/
def processIncomingHeartbeat (store : PeerStore Pod) (p : Pod) (now : Int) : PeerStore Pod :=
  if p ∈ store then updateLastHeartbeat store p now else AList.insert p ⟨.healthy, now⟩ store

/-- What `reapPeers` does with one peer. -/
def reapPeer (now : Int) (store : PeerStore Pod) (p : Pod) : PeerStore Pod :=
  match store.lookup p with
  | some ⟨.healthy, lastHeartbeat⟩ =>
    if suspectThresholdMs < now - lastHeartbeat then
      AList.replace p ⟨.suspect, lastHeartbeat⟩ store
    else store
  | some ⟨.suspect, lastHeartbeat⟩ =>
    if unavailableThresholdMs < now - lastHeartbeat then
      AList.replace p ⟨.unavailable, lastHeartbeat⟩ store
    else store
  | _ => store

def reapPeers (store : PeerStore Pod) (self : Pod) (now : Int) : PeerStore Pod :=
  (store.keys.filter (· ≠ self)).foldl (reapPeer now) store

end PeerStore

/-- One pod of the cluster: its peers, the fields of its `HeartbeatLeaderElection`, and how many
healthy peers it counted when it last kept or took the leadership. -/
structure HeartbeatPod (Pod : Type) where
  peers : PeerStore Pod
  election : ElectionState Pod
  backing : Nat

section RunElection

variable {Pod : Type}

/-- The cluster size that the quorum is taken of; `expectedPods` is `CLUSTER_EXPECTED_PODS`. -/
def expectedSize (expectedPods : Int) (peers : PeerStore Pod) : Nat :=
  if 0 < expectedPods then expectedPods.toNat else peers.entries.length

variable [LinearOrder Pod]

/-- `runElection` of the pod `self`. -/
def runElection (expectedPods : Int) (self : Pod) (peers : PeerStore Pod) (e : ElectionState Pod) :
    ElectionState Pod :=
  let healthyPeers := peers.healthyPeers
  let quorum := calculateQuorum (expectedSize expectedPods peers)
  if healthyPeers.length < quorum then { e with isLeader := false }
  else match (healthyPeers.insertionSort (· ≤ ·)).head? with
    | none => e
    | some elected =>
      if e.leaderId ≠ some elected then ⟨elected = self, e.term + 1, some elected⟩
      else if elected = self ∧ !e.isLeader then { e with isLeader := true }
      else if elected ≠ self ∧ e.isLeader then { e with isLeader := false }
      else e

end RunElection

/-- The pods under way and the network: pods on the same side of a partition reach each other. -/
structure HeartbeatCluster (Pod : Type) where
  side : Pod → Nat
  now : Int
  pods : Pod → Option (HeartbeatPod Pod)

/-- `discover p q` and `lose p q` are the answers to the pings of `p`'s discovery, `heartbeat p q` is a
heartbeat from `p` that `q` gets, and whose acknowledgement `p` gets or not. -/
inductive HeartbeatAct (Pod : Type)
  | start (p : Pod)
  | stop (p : Pod)
  | discover (p q : Pod)
  | lose (p q : Pod)
  | heartbeat (p q : Pod) (acked : Bool)
  | reap (p : Pod)
  | election (p : Pod)
  | partition (side : Pod → Nat)
  | tick (now : Int)

namespace HeartbeatCluster

variable {Pod : Type} [LinearOrder Pod]

def init (side : Pod → Nat) (now : Int) : HeartbeatCluster Pod := ⟨side, now, fun _ => none⟩

def setPod (s : HeartbeatCluster Pod) (p : Pod) (pod : Option (HeartbeatPod Pod)) :
    HeartbeatCluster Pod :=
  { s with pods := Function.update s.pods p pod }

def setPeers (s : HeartbeatCluster Pod) (p : Pod) (pod : HeartbeatPod Pod)
    (peers : PeerStore Pod) : HeartbeatCluster Pod :=
  s.setPod p (some { pod with peers := peers })

/-- The steps of the pods listed in `members`. -/
def step (expectedPods : Int) (members : List Pod) (s : HeartbeatCluster Pod) :
    HeartbeatAct Pod → Option (HeartbeatCluster Pod)
  | .start p => match s.pods p with
    | some _ => none
    | none =>
      if p ∈ members then
        some (s.setPod p (some ⟨AList.insert p ⟨.healthy, s.now⟩ ∅, ⟨false, 0, none⟩, 0⟩))
      else none
  | .stop p => some (s.setPod p none)
  | .discover p q => match s.pods p, s.pods q with
    | some pod, some _ =>
      if s.side p = s.side q then some (s.setPeers p pod (pod.peers.handlePeerAdded q s.now))
      else none
    | _, _ => none
  | .lose p q => match s.pods p with
    | some pod => some (s.setPeers p pod (pod.peers.handlePeerRemoved q))
    | none => none
  | .heartbeat p q acked => match s.pods p, s.pods q with
    | some sender, some receiver =>
      if p ≠ q ∧ q ∈ sender.peers ∧ s.side p = s.side q then
        let s' := s.setPeers q receiver (receiver.peers.processIncomingHeartbeat p s.now)
        some (if acked then s'.setPeers p sender (sender.peers.updateLastHeartbeat q s.now) else s')
      else none
    | _, _ => none
  | .reap p => match s.pods p with
    | some pod => some (s.setPeers p pod (pod.peers.reapPeers p s.now))
    | none => none
  | .election p => match s.pods p with
    | some pod =>
      some (s.setPod p (some
        { pod with
          election := runElection expectedPods p pod.peers pod.election
          backing := pod.peers.healthyPeers.length }))
    | none => none
  | .partition side => some { s with side := side }
  | .tick now => if s.now ≤ now then some { s with now := now } else none

/-- The pod considers itself leader for the term `n`. -/
def LeaderFor (s : HeartbeatCluster Pod) (p : Pod) (n : Nat) : Prop :=
  ∃ pod ∈ s.pods p, pod.election.isLeader = true ∧ pod.election.term = n

/-- No two leaders for one term, none on two sides of a partition, and none without a quorum of the
cluster behind it. -/
structure SafeLeadership (members : List Pod) (s : HeartbeatCluster Pod) : Prop where
  oneTerm : ∀ p q n, LeaderFor s p n → LeaderFor s q n → p = q
  oneSide : ∀ p q n m, LeaderFor s p n → LeaderFor s q m → s.side p = s.side q
  quorum : ∀ p, ∀ pod ∈ s.pods p, pod.election.isLeader = true →
    calculateQuorum members.length ≤ pod.backing

end HeartbeatCluster

end GpuSharing.Sardeenz
