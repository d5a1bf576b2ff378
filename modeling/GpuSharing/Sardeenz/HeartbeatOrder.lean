import GpuSharing.Lib.Transition
import GpuSharing.Sardeenz.ClusterRouting

namespace GpuSharing.Sardeenz.ClusterRouting

/-- What a heartbeat says of its sender. -/
structure PeerReport where
  role : PeerRole
  term : Int
  models : List PeerModelEntry
  gpus : List PeerGpuInfo
  deriving DecidableEq, Repr

def HeartbeatMessage.report (m : HeartbeatMessage) : PeerReport :=
  ⟨m.role, m.term, m.models, m.gpus⟩

def PeerInfo.report (peer : PeerInfo) : PeerReport := ⟨peer.role, peer.term, peer.models, peer.gpus⟩

/-- What the pod has stored of a peer's last report. -/
def PeerStore.storedReport (peers : PeerStore) (podId : String) : Option PeerReport :=
  (peers.lookup podId).map PeerInfo.report

theorem PeerStore.storedReport_updatePeer {f : PeerInfo → PeerInfo}
    (hf : ∀ peer, (f peer).report = peer.report) (peers : PeerStore) (p q : String) :
    (peers.updatePeer p f).storedReport q = peers.storedReport q := by
  rw [PeerStore.storedReport, PeerStore.lookup_updatePeer, PeerStore.storedReport]
  split_ifs with hq
  · subst hq
    rw [Option.map_map]
    exact congrArg (Option.map · (peers.lookup q)) (funext hf)
  · rfl

theorem PeerStore.storedReport_updateLastHeartbeat (peers : PeerStore) (p q : String) (now : Int) :
    (peers.updateLastHeartbeat p now).storedReport q = peers.storedReport q := by
  apply PeerStore.storedReport_updatePeer
  intro peer
  rfl

theorem PeerStore.storedReport_processIncomingHeartbeat (peers : PeerStore)
    (message : HeartbeatMessage) (sourceIp : Option String) (now : Int) (p : String) :
    (peers.processIncomingHeartbeat message sourceIp now).storedReport p =
      if p = message.podId then some message.report else peers.storedReport p := by
  have hheard : (peers.heardFrom message sourceIp now).report = message.report := by
    unfold PeerStore.heardFrom
    cases peers.lookup message.podId <;> rfl
  rw [PeerStore.storedReport, PeerStore.lookup_processIncomingHeartbeat]
  split_ifs
  · rw [Option.map_some, hheard]
  · rfl

theorem Pod.storedReport_reapPeer (s : Pod) (podId p : String) :
    (s.reapPeer podId).peers.storedReport p = s.peers.storedReport p := by
  unfold Pod.reapPeer
  cases s.peers.lookup podId with
  | none => rfl
  | some peer =>
    dsimp only
    split_ifs
    · apply PeerStore.storedReport_updatePeer
      intro peer
      split_ifs <;> rfl
    · apply PeerStore.storedReport_updatePeer
      intro peer
      split_ifs <;> rfl
    · rfl

theorem Pod.storedReport_reapPeers (s : Pod) (p : String) :
    s.reapPeers.peers.storedReport p = s.peers.storedReport p := by
  unfold Pod.reapPeers
  induction (s.peers.getAllPeers.map (·.1)).filter (· ≠ s.podId) generalizing s with
  | nil => rfl
  | cons podId podIds ih => rw [List.foldl_cons, ih, Pod.storedReport_reapPeer]

/-- A pod with the heartbeats that have been delivered to it. -/
structure Receiver where
  pod : Pod
  delivered : List HeartbeatMessage

namespace Receiver

def deliveredAfter (delivered : List HeartbeatMessage) : PeerAct → List HeartbeatMessage
  | .heartbeat message _ => message :: delivered
  | _ => delivered

def step (s : Receiver) (a : PeerAct) : Option Receiver :=
  (s.pod.step a).map fun pod => ⟨pod, deliveredAfter s.delivered a⟩

/-- No delivered heartbeat of the same peer was sent after this one. -/
def Latest (s : Receiver) (m : HeartbeatMessage) : Prop :=
  m ∈ s.delivered ∧ ∀ other ∈ s.delivered, other.podId = m.podId → other.timestamp ≤ m.timestamp

/-- What is stored of each peer is what the delivered heartbeat sent last says. -/
def UpToDate (s : Receiver) : Prop :=
  ∀ m, s.Latest m → s.pod.peers.storedReport m.podId = some m.report

/-- A heartbeat that was not sent after one delivered before it says what that one says. -/
def InOrder (s : Receiver) : PeerAct → Prop
  | .heartbeat message _ => ∀ m, s.Latest m → m.podId = message.podId →
      message.timestamp ≤ m.timestamp → message.report = m.report
  | _ => True

variable {s t : Receiver}

theorem step_receiver {a : PeerAct} (ht : s.step a = some t) :
    s.pod.step a = some t.pod ∧ t.delivered = deliveredAfter s.delivered a := by
  obtain ⟨pod, hpod, rfl⟩ := Option.map_eq_some_iff.mp ht
  exact ⟨hpod, rfl⟩

/-- Only a heartbeat changes what is stored of a peer's report. -/
theorem storedReport_step {a : PeerAct} (ha : ∀ message sourceIp, a ≠ .heartbeat message sourceIp)
    {s t : Pod} (ht : s.step a = some t) (p : String) :
    t.peers.storedReport p = s.peers.storedReport p := by
  cases a with
  | heartbeat message sourceIp => exact absurd rfl (ha message sourceIp)
  | ack podId =>
    cases ht
    exact PeerStore.storedReport_updateLastHeartbeat s.peers podId p s.now
  | reapPeers =>
    cases ht
    exact s.storedReport_reapPeers p
  | rebuild =>
    simp only [Pod.step] at ht
    split_ifs at ht
    cases ht
    rfl
  | forwardFails modelName entry =>
    cases ht
    rfl
  | clock now =>
    cases ht
    rfl

/-- A delivered heartbeat is stored, so what was stored before has to be no newer. -/
theorem upToDate_heartbeat_iff (h : s.UpToDate) (message : HeartbeatMessage)
    (sourceIp : Option String) :
    UpToDate ⟨{ s.pod with
        peers := s.pod.peers.processIncomingHeartbeat message sourceIp s.pod.now
        rebuildPending := true }, message :: s.delivered⟩ ↔
      s.InOrder (.heartbeat message sourceIp) := by
  have hstored := s.pod.peers.storedReport_processIncomingHeartbeat message sourceIp s.pod.now
  constructor
  · intro hafter m hm hpeer htime
    have hlatest : Latest ⟨{ s.pod with
        peers := s.pod.peers.processIncomingHeartbeat message sourceIp s.pod.now
        rebuildPending := true }, message :: s.delivered⟩ m := by
      refine ⟨List.mem_cons_of_mem _ hm.1, fun other hother hsame => ?_⟩
      rcases List.mem_cons.mp hother with rfl | hother
      · exact htime
      · exact hm.2 other hother hsame
    have hreport := hafter m hlatest
    dsimp only at hreport
    rw [hstored, if_pos hpeer] at hreport
    exact Option.some.inj hreport
  · intro horder m hm
    have hold : m ∈ s.delivered → s.Latest m := fun hmem =>
      ⟨hmem, fun other hother => hm.2 other (List.mem_cons_of_mem _ hother)⟩
    dsimp only
    rw [hstored]
    rcases List.mem_cons.mp hm.1 with rfl | hmem
    · rw [if_pos rfl]
    · split_ifs with hpeer
      · have htime := hm.2 message List.mem_cons_self hpeer.symm
        rw [horder m (hold hmem) hpeer htime]
      · exact h m (hold hmem)

/-- The step lemma: what the delivery of a heartbeat leaves up to date. -/
theorem upToDate_step_iff (h : s.UpToDate) {a : PeerAct} (ht : s.step a = some t) :
    t.UpToDate ↔ s.InOrder a := by
  obtain ⟨hpod, hdelivered⟩ := step_receiver ht
  have hother : (∀ message sourceIp, a ≠ .heartbeat message sourceIp) →
      deliveredAfter s.delivered a = s.delivered → t.UpToDate := by
    intro ha hsame m hm
    rw [storedReport_step ha hpod]
    refine h m ?_
    rw [Latest, hdelivered, hsame] at hm
    exact hm
  cases a with
  | heartbeat message sourceIp =>
    obtain ⟨pod, delivered⟩ := t
    dsimp only at hpod hdelivered
    cases hpod
    subst hdelivered
    exact upToDate_heartbeat_iff h message sourceIp
  | ack podId => exact iff_of_true (hother (by simp) rfl) trivial
  | reapPeers => exact iff_of_true (hother (by simp) rfl) trivial
  | rebuild => exact iff_of_true (hother (by simp) rfl) trivial
  | forwardFails modelName entry => exact iff_of_true (hother (by simp) rfl) trivial
  | clock now => exact iff_of_true (hother (by simp) rfl) trivial

/-- Whatever else happens at the pod, the stored state of every peer is that of the delivered
heartbeat sent last, after every delivery, exactly when no heartbeat overtaken by another arrives
with different contents. -/
theorem heartbeats_up_to_date_iff {u : Receiver} {acts : List PeerAct} (hs : s.delivered = [])
    (hrun : Transition.run step s acts = some u) :
    Transition.Along step (fun s a => ∀ t, s.step a = some t → t.UpToDate) s acts ↔
      Transition.Along step InOrder s acts := by
  have hinit : s.UpToDate := by
    intro m hm
    rw [Latest, hs] at hm
    exact absurd hm.1 List.not_mem_nil
  exact Transition.along_next_iff (I := fun _ => True) (E := fun _ _ => True)
    (fun _ _ _ _ hdate _ ht => upToDate_step_iff hdate ht) (fun _ _ _ _ _ _ => trivial) trivial
    hinit (Transition.along_of_mem (fun _ _ _ => trivial) s) hrun

def start : Receiver := ⟨.start "a:8000" "10.0.0.1" 0, []⟩

/-- The first heartbeat of a peer, sent while its model is starting. -/
def sentFirst : HeartbeatMessage where
  podId := "b:8000"
  role := .follower
  term := 1
  timestamp := 0
  models := [⟨"4f1c", "org/model", "model", 9000, .starting, [0], 1, 4096⟩]
  gpus := []

/-- The next one, sent once the model is running and the peer leads in a new term. -/
def sentSecond : HeartbeatMessage where
  podId := "b:8000"
  role := .leader
  term := 2
  timestamp := 5000
  models := [⟨"4f1c", "org/model", "model", 9000, .running, [0], 1, 4096⟩]
  gpus := []

/-- The second heartbeat overtakes the first. -/
def overtaken : List PeerAct :=
  [.clock 5001, .heartbeat sentSecond (some "10.0.0.2"), .clock 5002,
    .heartbeat sentFirst (some "10.0.0.2")]

def afterOvertaken : Receiver := (Transition.run step start overtaken).get (by decide +kernel)

theorem late_heartbeat_overwrites :
    Transition.run step start overtaken = some afterOvertaken ∧ ¬ afterOvertaken.UpToDate := by
  refine ⟨(Option.some_get _).symm, fun hdate => ?_⟩
  have hdelivered : afterOvertaken.delivered = [sentFirst, sentSecond] := by decide +kernel
  have hlatest : afterOvertaken.Latest sentSecond := by
    rw [Latest, hdelivered]
    decide +kernel
  exact absurd (hdate sentSecond hlatest) (by decide +kernel)

/-- Delivered in the order in which they were sent, both leave the stored state up to date. -/
theorem heartbeats_up_to_date_iff_inOrder :
    Transition.Along step (fun s a => ∀ t, s.step a = some t → t.UpToDate) start
      [.heartbeat sentFirst none, .heartbeat sentSecond none] := by
  have hrun : (Transition.run step start
      [.heartbeat sentFirst none, .heartbeat sentSecond none]).isSome := by
    decide +kernel
  refine (heartbeats_up_to_date_iff rfl (Option.some_get hrun).symm).mpr
    ⟨fun m hm => absurd hm.1 List.not_mem_nil, fun m hm _ htime => ?_, trivial⟩
  have hfirst : m = sentFirst := List.mem_singleton.mp hm.1
  subst hfirst
  exact absurd htime (by decide)

end Receiver

end GpuSharing.Sardeenz.ClusterRouting
