import GpuSharing.Lib.Transition
import GpuSharing.Sardeenz.ClusterRouting

namespace GpuSharing.Sardeenz.ClusterRouting

def maxClusterSize : Nat := 8

structure DiscoveredPeer where
  podId : String
  address : String
  deriving DecidableEq, Repr

/-- A cluster event with the part of its payload that its handler reads. -/
inductive ClusterEvent
  | modelChanged
  | leaderElected (leaderId : String) (term : Int)
  | podJoined (podId : String) (address : Option String)
  | podLeft (podId : String)
  deriving DecidableEq, Repr

/-- What happens at a pod. `servicesSettle` is the end of the start of the cluster services, and
`eventTerm` the term in the envelope of an event. -/
inductive MemberAct
  | peer (a : PeerAct)
  | peerAdded (peer : DiscoveredPeer)
  | peerRemoved (podId : String)
  | servicesSettle (ok : Bool)
  | clusterEvent (event : ClusterEvent) (eventTerm : Int)

structure Member where
  pod : Pod
  isClusterMode : Bool
  clusterServicesStarted : Bool

def isPrivate172 : List Char → Bool
  | '1' :: '7' :: '2' :: '.' :: a :: b :: '.' :: _ =>
    (a = '1' && '6' ≤ b && b ≤ '9') || (a = '2' && b.isDigit) || (a = '3' && (b = '0' || b = '1'))
  | _ => false

/-- A first label of word characters and hyphens. -/
def hasHostLabel (address : List Char) : Bool :=
  let isLabel := fun c : Char => c.isAlphanum || c = '_' || c = '-'
  address.takeWhile isLabel ≠ [] && (address.dropWhile isLabel).head? = some '.'

def isPlausibleAddress (address : String) : Bool :=
  "10.".toList.isPrefixOf address.toList || isPrivate172 address.toList ||
    "192.168.".toList.isPrefixOf address.toList || hasHostLabel address.toList

/-- A `pod-joined` event without an address is accepted. -/
def acceptsAddress (address : Option String) : Bool :=
  address.all fun a => a = "" || isPlausibleAddress a

def newPeer (address : String) (term now : Int) : PeerInfo where
  address := address
  role := .follower
  status := .healthy
  lastHeartbeat := now
  term := term
  models := []
  gpus := []

namespace Member

def count (s : Member) : Nat := s.pod.peers.keys.length

def setPeers (s : Member) (peers : PeerStore) : Member := { s with pod := { s.pod with peers := peers } }

def addPeer (s : Member) (podId : String) (peer : PeerInfo) : Member :=
  s.setPeers (AList.insert podId peer s.pod.peers)

/-- The first peer starts the cluster services. -/
def activateServices (s : Member) : Member :=
  if ¬ s.clusterServicesStarted ∧ ¬ s.isClusterMode then { s with clusterServicesStarted := true }
  else s

def handlePeerAdded (s : Member) (peer : DiscoveredPeer) : Member :=
  if maxClusterSize ≤ s.count then s
  else if s.pod.peers.lookup peer.podId = none then
    (s.addPeer peer.podId (newPeer peer.address 0 s.pod.now)).activateServices
  else s.activateServices

/-- Also what a `pod-left` event does. -/
def handlePeerRemoved (s : Member) (podId : String) : Member :=
  { s with pod := { s.pod with
      peers := AList.erase podId s.pod.peers
      table := s.pod.table.removeEntriesForPod podId } }

def handleClusterEvent (s : Member) (eventTerm : Int) : ClusterEvent → Member
  | .modelChanged => { s with pod := { s.pod with
      table := s.pod.table.rebuildFromPeers s.pod.now s.pod.peers.getAllPeers } }
  | .leaderElected leaderId term =>
    if leaderId ≠ "" ∧ term ≠ 0 then
      s.setPeers (s.pod.peers.updatePeer leaderId fun peer => { peer with role := .leader, term := term })
    else s
  | .podJoined podId address =>
    if podId ≠ "" ∧ s.pod.peers.lookup podId = none ∧ acceptsAddress address then
      s.addPeer podId (newPeer (address.getD "") eventTerm s.pod.now)
    else s
  | .podLeft podId => if podId ≠ "" then s.handlePeerRemoved podId else s

def step (s : Member) : MemberAct → Option Member
  | .peer a => (s.pod.step a).map fun pod => { s with pod := pod }
  | .peerAdded peer => some (s.handlePeerAdded peer)
  | .peerRemoved podId => some (s.handlePeerRemoved podId)
  | .servicesSettle ok => some (if ok then { s with isClusterMode := true }
      else { s with clusterServicesStarted := false })
  | .clusterEvent event eventTerm => some (s.handleClusterEvent eventTerm event)

def start (podId address : String) (now : Int) (isClusterMode : Bool) : Member :=
  ⟨.start podId address now, isClusterMode, isClusterMode⟩

/-- Only an unknown peer that a heartbeat or a `pod-joined` event brings needs room. -/
def WithinLimit (s : Member) : MemberAct → Prop
  | .peer (.heartbeat message _) =>
    s.pod.peers.lookup message.podId = none → s.count < maxClusterSize
  | .clusterEvent (.podJoined podId address) _ =>
    podId ≠ "" → s.pod.peers.lookup podId = none → acceptsAddress address → s.count < maxClusterSize
  | _ => True

instance decidableWithinLimit (s : Member) : ∀ a, Decidable (s.WithinLimit a)
  | .peer (.heartbeat message _) =>
    inferInstanceAs (Decidable (s.pod.peers.lookup message.podId = none → s.count < maxClusterSize))
  | .clusterEvent (.podJoined podId address) _ =>
    inferInstanceAs (Decidable (podId ≠ "" → s.pod.peers.lookup podId = none →
      acceptsAddress address → s.count < maxClusterSize))
  | .peer (.ack _) | .peer .reapPeers | .peer .rebuild | .peer (.forwardFails _ _)
  | .peer (.clock _) | .peerAdded _ | .peerRemoved _ | .servicesSettle _
  | .clusterEvent .modelChanged _ | .clusterEvent (.leaderElected _ _) _
  | .clusterEvent (.podLeft _) _ => .isTrue trivial

end Member

/-- The peer is taken out by this, which names it. -/
def MemberAct.Removes (p : String) : MemberAct → Prop
  | .peerRemoved podId => p = podId
  | .clusterEvent (.podLeft podId) _ => podId ≠ "" ∧ p = podId
  | _ => False

/-- What `reapPeers` makes of a peer. -/
def reaped (now : Int) (peer : PeerInfo) : PeerInfo :=
  if peer.status = .healthy ∧ suspectThresholdMs < now - peer.lastHeartbeat then
    { peer with status := .suspect }
  else if peer.status = .suspect ∧ unavailableThresholdMs < now - peer.lastHeartbeat then
    { peer with status := .unavailable }
  else peer

/-- What becomes of a known peer `p`, whatever else is in the store. -/
def MemberAct.entryAfter (self : String) (now : Int) (p : String) (peer : PeerInfo) :
    MemberAct → Option PeerInfo
  | .peer (.heartbeat message sourceIp) =>
    some (if p = message.podId then message.updates sourceIp now peer else peer)
  | .peer (.ack podId) =>
    some (if p = podId then { peer with lastHeartbeat := now, status := .healthy } else peer)
  | .peer .reapPeers => some (if p = self then peer else reaped now peer)
  | .peerRemoved podId => if p = podId then none else some peer
  | .clusterEvent (.leaderElected leaderId term) _ =>
    some (if leaderId ≠ "" ∧ term ≠ 0 ∧ p = leaderId then { peer with role := .leader, term := term }
      else peer)
  | .clusterEvent (.podLeft podId) _ => if podId ≠ "" ∧ p = podId then none else some peer
  | _ => some peer

theorem entryAfter_eq_none_iff {a : MemberAct} {self p : String} {now : Int} {peer : PeerInfo} :
    a.entryAfter self now p peer = none ↔ a.Removes p := by
  unfold MemberAct.entryAfter MemberAct.Removes
  rcases a with (_ | _ | _ | _ | _ | _) | _ | _ | _ | ⟨_ | _ | _ | _, _⟩ <;> simp

variable {s t u : Member} {a : MemberAct} {p : String} {peer : PeerInfo}

theorem keys_updatePeer (peers : PeerStore) (p : String) (f : PeerInfo → PeerInfo) :
    (peers.updatePeer p f).keys = peers.keys := by
  unfold PeerStore.updatePeer
  split
  · exact AList.keys_replace ..
  · rfl

section Reaping

theorem reapPeer_self (s : Pod) (podId : String) : (s.reapPeer podId).podId = s.podId ∧
    (s.reapPeer podId).now = s.now ∧ (s.reapPeer podId).peers.keys = s.peers.keys := by
  unfold Pod.reapPeer
  split
  · exact ⟨rfl, rfl, rfl⟩
  · split_ifs
    · exact ⟨rfl, rfl, keys_updatePeer _ _ _⟩
    · exact ⟨rfl, rfl, keys_updatePeer _ _ _⟩
    · exact ⟨rfl, rfl, rfl⟩

theorem lookup_reapPeer (s : Pod) (podId p : String) :
    (s.reapPeer podId).peers.lookup p =
      if p = podId then (s.peers.lookup p).map (reaped s.now) else s.peers.lookup p := by
  unfold Pod.reapPeer
  by_cases hp : p = podId
  · subst hp
    rw [if_pos rfl]
    cases hlookup : s.peers.lookup p with
    | none => exact hlookup
    | some peer =>
      dsimp only
      split_ifs with hhealthy hsuspect
      · simp [PeerStore.markSuspect, hlookup, reaped, hhealthy]
      · simp [PeerStore.markUnavailable, hlookup, reaped, hsuspect]
      · simp [hlookup, reaped, hhealthy, hsuspect]
  · rw [if_neg hp]
    split
    · rfl
    · split_ifs
      · rw [PeerStore.markSuspect, PeerStore.lookup_updatePeer, if_neg hp]
      · rw [PeerStore.markUnavailable, PeerStore.lookup_updatePeer, if_neg hp]
      · rfl

theorem foldl_reapPeer {podIds : List String} (hnodup : podIds.Nodup) (s : Pod) :
    (podIds.foldl Pod.reapPeer s).podId = s.podId ∧ (podIds.foldl Pod.reapPeer s).now = s.now ∧
      (podIds.foldl Pod.reapPeer s).peers.keys = s.peers.keys ∧
      ∀ p, (podIds.foldl Pod.reapPeer s).peers.lookup p =
        if p ∈ podIds then (s.peers.lookup p).map (reaped s.now) else s.peers.lookup p := by
  induction podIds generalizing s with
  | nil => simp
  | cons podId podIds ih =>
    obtain ⟨hnew, hnodup⟩ := List.nodup_cons.mp hnodup
    obtain ⟨hself, hnow, hkeys⟩ := reapPeer_self s podId
    obtain ⟨ihself, ihnow, ihkeys, ihlookup⟩ := ih hnodup (s.reapPeer podId)
    refine ⟨ihself.trans hself, ihnow.trans hnow, ihkeys.trans hkeys, fun p => ?_⟩
    rw [List.foldl_cons, ihlookup, lookup_reapPeer, hnow]
    by_cases hp : p = podId
    · subst hp
      rw [if_neg hnew, if_pos rfl, if_pos List.mem_cons_self]
    · simp [hp]

theorem nodup_peers (peers : PeerStore) : (peers.getAllPeers.map (·.1)).Nodup := by
  have hnodup := peers.nodupKeys
  rw [PeerStore.getAllPeers, List.map_map, List.map_reverse, List.nodup_reverse]
  exact hnodup

theorem keys_reapPeers (s : Pod) : s.reapPeers.peers.keys = s.peers.keys :=
  (foldl_reapPeer ((nodup_peers s.peers).filter _) s).2.2.1

theorem lookup_reapPeers (s : Pod) (h : s.peers.lookup p = some peer) :
    s.reapPeers.peers.lookup p = some (if p = s.podId then peer else reaped s.now peer) := by
  rw [Pod.reapPeers, (foldl_reapPeer ((nodup_peers s.peers).filter _) s).2.2.2, h]
  have hmem : p ∈ s.peers.getAllPeers.map (·.1) :=
    List.mem_map.mpr ⟨(p, peer), PeerStore.mem_getAllPeers.mpr h, rfl⟩
  by_cases hp : p = s.podId <;> simp [List.mem_filter, hmem, hp]

end Reaping

/-- A step of the pod leaves of a known peer what it says, and adds only an unknown one. -/
theorem lookup_peerStep {s t : Pod} {a : PeerAct} (ht : s.step a = some t)
    (h : s.peers.lookup p = some peer) :
    t.peers.lookup p = (MemberAct.peer a).entryAfter s.podId s.now p peer := by
  cases a with
  | heartbeat message sourceIp =>
    cases ht
    rw [PeerStore.lookup_processIncomingHeartbeat]
    by_cases hp : p = message.podId
    · subst hp
      simp [MemberAct.entryAfter, PeerStore.heardFrom, h]
    · simp [MemberAct.entryAfter, hp, h]
  | ack podId =>
    cases ht
    rw [PeerStore.updateLastHeartbeat, PeerStore.lookup_updatePeer]
    by_cases hp : p = podId
    · subst hp
      simp [MemberAct.entryAfter, h]
    · simp [MemberAct.entryAfter, hp, h]
  | reapPeers =>
    cases ht
    exact lookup_reapPeers s h
  | rebuild =>
    simp only [Pod.step] at ht
    split_ifs at ht
    cases ht
    exact h
  | forwardFails modelName entry =>
    cases ht
    exact h
  | clock now =>
    cases ht
    exact h

namespace Member

@[simp] theorem activateServices_pod : s.activateServices.pod = s.pod := by
  unfold activateServices
  split_ifs <;> rfl

theorem lookup_addPeer {podId : String} {new : PeerInfo} (hnew : s.pod.peers.lookup podId = none)
    (h : s.pod.peers.lookup p = some peer) :
    (s.addPeer podId new).pod.peers.lookup p = some peer := by
  have hne : p ≠ podId := by
    rintro rfl
    rw [hnew] at h
    cases h
  rw [← h]
  exact AList.lookup_insert_ne hne

theorem lookup_handlePeerRemoved (podId : String) (h : s.pod.peers.lookup p = some peer) :
    (s.handlePeerRemoved podId).pod.peers.lookup p = if p = podId then none else some peer := by
  split_ifs with hp
  · rw [hp]
    exact AList.lookup_erase ..
  · rw [← h]
    exact AList.lookup_erase_ne hp

theorem lookup_handleClusterEvent {event : ClusterEvent} {eventTerm : Int}
    (h : s.pod.peers.lookup p = some peer) :
    (s.handleClusterEvent eventTerm event).pod.peers.lookup p =
      (MemberAct.clusterEvent event eventTerm).entryAfter s.pod.podId s.pod.now p peer := by
  cases event with
  | modelChanged => exact h
  | leaderElected leaderId term =>
    simp only [handleClusterEvent, MemberAct.entryAfter]
    by_cases hgood : leaderId ≠ "" ∧ term ≠ 0
    · rw [if_pos hgood, setPeers, PeerStore.lookup_updatePeer]
      by_cases hp : p = leaderId
      · subst hp
        simp [h, hgood]
      · simp [h, hp]
    · have hnot : ¬ (leaderId ≠ "" ∧ term ≠ 0 ∧ p = leaderId) := fun hall =>
        hgood ⟨hall.1, hall.2.1⟩
      rw [if_neg hgood, if_neg hnot, h]
  | podJoined podId address =>
    change (s.handleClusterEvent eventTerm (.podJoined podId address)).pod.peers.lookup p = some peer
    rw [handleClusterEvent]
    split_ifs with hjoin
    · exact lookup_addPeer hjoin.2.1 h
    · exact h
  | podLeft podId =>
    rw [handleClusterEvent, MemberAct.entryAfter]
    by_cases hempty : podId = ""
    · simpa [hempty] using h
    · simp [hempty, lookup_handlePeerRemoved podId h]

/-- What becomes of a known peer depends on nothing else in the store. -/
theorem lookup_step (ht : s.step a = some t) (h : s.pod.peers.lookup p = some peer) :
    t.pod.peers.lookup p = a.entryAfter s.pod.podId s.pod.now p peer := by
  cases a with
  | peer a =>
    obtain ⟨pod, hpod, rfl⟩ := Option.map_eq_some_iff.mp ht
    exact lookup_peerStep hpod h
  | peerAdded new =>
    cases ht
    change (s.handlePeerAdded new).pod.peers.lookup p = some peer
    rw [handlePeerAdded]
    split_ifs with hfull hnew
    · exact h
    · rw [activateServices_pod]
      exact lookup_addPeer hnew h
    · rwa [activateServices_pod]
  | peerRemoved podId =>
    cases ht
    exact lookup_handlePeerRemoved podId h
  | servicesSettle ok =>
    cases ht
    cases ok <;> exact h
  | clusterEvent event eventTerm =>
    cases ht
    exact lookup_handleClusterEvent h

section Size

theorem count_addPeer {podId : String} {new : PeerInfo} (hnew : s.pod.peers.lookup podId = none) :
    (s.addPeer podId new).count = s.count + 1 := by
  have hnot : podId ∉ s.pod.peers.keys := AList.lookup_eq_none.mp hnew
  simp [count, addPeer, setPeers, List.erase_of_not_mem hnot]

theorem count_activateServices : s.activateServices.count = s.count := by
  simp [count]

theorem count_handlePeerRemoved_le (podId : String) :
    (s.handlePeerRemoved podId).count ≤ s.count := by
  rw [count, handlePeerRemoved, AList.keys_erase]
  exact List.length_erase_le

/-- Whether there is room after the step: a peer is only added where it was looked for in vain. -/
theorem count_step_iff (h : s.count ≤ maxClusterSize) (ht : s.step a = some t) :
    t.count ≤ maxClusterSize ↔ s.WithinLimit a := by
  have hadd : ∀ {podId} new, s.pod.peers.lookup podId = none →
      ((s.addPeer podId new).count ≤ maxClusterSize ↔ s.count < maxClusterSize) := by
    intro podId new hnew
    rw [count_addPeer hnew]
    exact Nat.succ_le_iff
  have hsame : t.pod.peers.keys = s.pod.peers.keys → t.count ≤ maxClusterSize := by
    intro hkeys
    rw [count, hkeys]
    exact h
  cases a with
  | peer a =>
    obtain ⟨pod, hpod, rfl⟩ := Option.map_eq_some_iff.mp ht
    cases a with
    | heartbeat message sourceIp =>
      cases hpod
      rw [WithinLimit]
      cases hknown : s.pod.peers.lookup message.podId with
      | none =>
        have hcount := hadd (message.newPeer sourceIp s.pod.now) hknown
        simp only [count, PeerStore.processIncomingHeartbeat, hknown, forall_const]
        exact hcount
      | some peer =>
        refine iff_of_true (hsame ?_) nofun
        simp only [PeerStore.processIncomingHeartbeat, hknown]
        exact keys_updatePeer _ _ _
    | ack podId =>
      cases hpod
      exact iff_of_true (hsame (keys_updatePeer _ _ _)) trivial
    | reapPeers =>
      cases hpod
      exact iff_of_true (hsame (keys_reapPeers s.pod)) trivial
    | rebuild =>
      simp only [Pod.step] at hpod
      split_ifs at hpod
      cases hpod
      exact iff_of_true h trivial
    | forwardFails modelName entry =>
      cases hpod
      exact iff_of_true h trivial
    | clock now =>
      cases hpod
      exact iff_of_true h trivial
  | peerAdded new =>
    cases ht
    refine iff_of_true ?_ trivial
    rw [handlePeerAdded]
    split_ifs with hfull hnew
    · exact h
    · rw [count_activateServices]
      exact (hadd _ hnew).mpr (Nat.lt_of_not_le hfull)
    · rwa [count_activateServices]
  | peerRemoved podId =>
    cases ht
    exact iff_of_true ((count_handlePeerRemoved_le podId).trans h) trivial
  | servicesSettle ok =>
    cases ht
    cases ok <;> exact iff_of_true h trivial
  | clusterEvent event eventTerm =>
    cases ht
    cases event with
    | modelChanged => exact iff_of_true h trivial
    | leaderElected leaderId term =>
      refine iff_of_true ?_ trivial
      rw [handleClusterEvent]
      split_ifs
      · rw [count, setPeers, keys_updatePeer]
        exact h
      · exact h
    | podJoined podId address =>
      rw [handleClusterEvent, WithinLimit]
      by_cases hjoin : podId ≠ "" ∧ s.pod.peers.lookup podId = none ∧ acceptsAddress address
      · rw [if_pos hjoin, hadd _ hjoin.2.1]
        simp [hjoin]
      · rw [if_neg hjoin]
        exact iff_of_true h fun hname hnew haddress => absurd ⟨hname, hnew, haddress⟩ hjoin
    | podLeft podId =>
      refine iff_of_true ?_ trivial
      rw [handleClusterEvent]
      split_ifs
      · exact (count_handlePeerRemoved_le podId).trans h
      · exact h

end Size

/-- In every run the store keeps to the limit exactly when every unknown peer that a heartbeat or a
`pod-joined` event brings finds room. A known peer goes only when it is removed, and what is written of
it never depends on how full the store is. -/
theorem cluster_size_iff {podId address : String} {now : Int} {isClusterMode : Bool}
    {acts : List MemberAct} (hrun : Transition.run step (start podId address now isClusterMode) acts =
      some u) :
    (Transition.Along step (fun s a => ∀ t, s.step a = some t → t.count ≤ maxClusterSize)
        (start podId address now isClusterMode) acts ↔
      Transition.Along step WithinLimit (start podId address now isClusterMode) acts) ∧
    Transition.Along step (fun s a => ∀ t, s.step a = some t → ∀ p peer,
        s.pod.peers.lookup p = some peer →
          t.pod.peers.lookup p = a.entryAfter s.pod.podId s.pod.now p peer ∧
          (t.pod.peers.lookup p = none ↔ a.Removes p))
      (start podId address now isClusterMode) acts := by
  constructor
  · refine Transition.along_next_iff (I := fun _ => True) (E := fun _ _ => True)
      (fun _ _ _ _ hcount _ ht => count_step_iff hcount ht) (fun _ _ _ _ _ _ => trivial) trivial ?_
      (Transition.along_of_mem (fun _ _ _ => trivial) _) hrun
    change 1 ≤ maxClusterSize
    decide
  · refine Transition.along_of_mem (fun a _ s t ht p peer h => ?_) _
    have hentry := lookup_step ht h
    exact ⟨hentry, by rw [hentry, entryAfter_eq_none_iff]⟩

def heartbeatOf (podId : String) : MemberAct :=
  .peer (.heartbeat ⟨podId, .follower, 1, 0, [], []⟩ (some "10.0.0.9"))

def discover (podIds : List String) : List MemberAct :=
  podIds.map fun podId => .peerAdded ⟨podId, "10.0.0.2"⟩

/-- A full cluster, which refuses the next pod until that sends its first heartbeat. -/
def overfull : List MemberAct :=
  discover ["b", "c", "d", "e", "f", "g", "h", "i"] ++ [heartbeatOf "i"]

theorem heartbeat_exceeds_limit :
    ∃ u, Transition.run step (start "a" "10.0.0.1" 0 true) overfull = some u ∧
      maxClusterSize < u.count := by
  have hcount : ((Transition.run step (start "a" "10.0.0.1" 0 true) overfull).map count) = some 9 := by
    decide +kernel
  obtain ⟨u, hrun, hu⟩ := Option.map_eq_some_iff.mp hcount
  exact ⟨u, hrun, by rw [hu]; decide⟩

/-- A full cluster that hears from a known peer, refuses a pod, and takes it in once another has
left. -/
theorem cluster_size_iff_full :
    Transition.Along step (fun s a => ∀ t, s.step a = some t → t.count ≤ maxClusterSize)
      (start "a" "10.0.0.1" 0 true) (discover ["b", "c", "d", "e", "f", "g", "h", "i"] ++
        [heartbeatOf "c", .clusterEvent (.podLeft "d") 1, heartbeatOf "i",
          .clusterEvent (.podJoined "c" none) 1]) := by
  have hrun : ∃ u, Transition.run step (start "a" "10.0.0.1" 0 true)
      (discover ["b", "c", "d", "e", "f", "g", "h", "i"] ++
        [heartbeatOf "c", .clusterEvent (.podLeft "d") 1, heartbeatOf "i",
          .clusterEvent (.podJoined "c" none) 1]) = some u :=
    Option.isSome_iff_exists.mp (by decide +kernel)
  obtain ⟨u, hrun⟩ := hrun
  exact (cluster_size_iff hrun).1.mpr (by decide +kernel)

end Member

end GpuSharing.Sardeenz.ClusterRouting
