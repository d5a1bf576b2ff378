import GpuSharing.Lib.Transition
import GpuSharing.Sardeenz.ClusterRouting

namespace GpuSharing.Sardeenz.ClusterRouting

/-- A running instance as a forwarded request addresses it: its pod, its model name, its port. -/
structure InstanceAddress where
  podId : String
  modelName : String
  vllmPort : Nat
  deriving DecidableEq, Repr

def PeerModelEntry.addressAt (m : PeerModelEntry) (podId : String) : InstanceAddress :=
  ⟨podId, m.modelName, m.port⟩

/-- A pod with the instances to which a forward has failed since the last heartbeat of their pod. -/
structure WatchedPod where
  pod : Pod
  failed : List InstanceAddress

namespace WatchedPod

def failedAfter (failed : List InstanceAddress) : PeerAct → List InstanceAddress
  | .heartbeat message _ => failed.filter (·.podId ≠ message.podId)
  | .forwardFails modelName entry => ⟨entry.podId, modelName, entry.vllmPort⟩ :: failed
  | _ => failed

def step (s : WatchedPod) (a : PeerAct) : Option WatchedPod :=
  (s.pod.step a).map fun pod => ⟨pod, failedAfter s.failed a⟩

/-- The table agrees with the peers' stored state. -/
structure Agrees (s : WatchedPod) : Prop where
  available : ∀ modelName, ∀ e ∈ s.pod.table.getRoutingEntries modelName, ∀ peer,
    s.pod.peers.lookup e.podId = some peer → peer.status ≠ .unavailable
  complete : ∀ podId peer, s.pod.peers.lookup podId = some peer → peer.status ≠ .unavailable →
    ∀ m ∈ peer.models, m.status = .running → m.addressAt podId ∉ s.failed →
      ∃ e ∈ s.pod.table.getRoutingEntries m.modelName,
        e.podId = podId ∧ e.podAddress = peer.address ∧ e.vllmPort = m.port

/-- What the table owes to the peers' state whenever no rebuild is pending. -/
def InSync (s : WatchedPod) : Prop := s.pod.rebuildPending = false → s.Agrees

/-- A pod that has just started: no peer that it knows has reported a model yet. -/
structure Started (s : WatchedPod) : Prop where
  models : ∀ podId peer, s.pod.peers.lookup podId = some peer → peer.models = []
  entries : ∀ modelName, s.pod.table.getRoutingEntries modelName = []

/-- An acknowledgement does not bring an unavailable peer back that has a running model, and a
forward does not fail to a pod that has another running instance of the same name, unless forwards
to these instances have failed already or a rebuild is pending. -/
def KeepsEntries (s : WatchedPod) : PeerAct → Prop
  | .ack podId => s.pod.rebuildPending = false → ∀ peer, s.pod.peers.lookup podId = some peer →
      peer.status = .unavailable →
        ∀ m ∈ peer.models, m.status = .running → m.addressAt podId ∈ s.failed
  | .forwardFails modelName entry => s.pod.rebuildPending = false →
      ∀ peer, s.pod.peers.lookup entry.podId = some peer → peer.status ≠ .unavailable →
        ∀ m ∈ peer.models, m.status = .running → m.modelName = modelName →
          m.port ≠ entry.vllmPort → m.addressAt entry.podId ∈ s.failed
  | _ => True

variable {s t : WatchedPod}

theorem inSync_of_started (h : s.Started) : s.InSync := by
  refine fun _ => ⟨fun modelName e he => ?_, fun podId peer hpeer _ m hm => ?_⟩
  · rw [h.entries] at he
    cases he
  · rw [h.models podId peer hpeer] at hm
    cases hm

/-- A rebuild makes the table agree, whatever it held before. -/
theorem agrees_rebuild (s : WatchedPod) : Agrees ⟨{ s.pod with
    table := s.pod.table.rebuildFromPeers s.pod.now s.pod.peers.getAllPeers
    rebuildPending := false }, s.failed⟩ := by
  refine ⟨fun modelName e he peer hpeer => ?_, fun podId peer hpeer hstatus m hm hrun _ => ?_⟩
  · obtain ⟨podId, other, hother, hstatus, m, -, -, -, rfl⟩ :=
      ClusterRoutingStore.mem_rebuildFromPeers.mp he
    have heq : some peer = some other := hpeer.symm.trans hother
    cases heq
    exact hstatus
  · exact ⟨_, ClusterRoutingStore.mem_rebuildFromPeers.mpr
      ⟨podId, peer, hpeer, hstatus, m, hm, hrun, rfl, rfl⟩, rfl, rfl, rfl⟩

/-- A peer that becomes suspect keeps its entries. -/
theorem agrees_markSuspect (h : s.Agrees) (podId : String) :
    Agrees ⟨{ s.pod with peers := s.pod.peers.markSuspect podId }, s.failed⟩ := by
  have hlookup : ∀ q peer, (s.pod.peers.markSuspect podId).lookup q = some peer →
      ∃ old, s.pod.peers.lookup q = some old ∧ peer.models = old.models ∧
        peer.address = old.address ∧ (peer.status = .unavailable ↔ old.status = .unavailable) := by
    intro q peer hpeer
    simp only [PeerStore.markSuspect, PeerStore.lookup_updatePeer] at hpeer
    split_ifs at hpeer with hq
    · obtain ⟨old, hold, rfl⟩ := Option.map_eq_some_iff.mp hpeer
      subst hq
      by_cases hhealthy : old.status = .healthy <;> exact ⟨old, hold, by simp [hhealthy]⟩
    · exact ⟨peer, hpeer, by simp⟩
  refine ⟨fun modelName e he peer hpeer => ?_, fun q peer hpeer hstatus m hm hrun hfailed => ?_⟩
  · obtain ⟨old, hold, -, -, hiff⟩ := hlookup _ _ hpeer
    exact fun hun => h.available modelName e he old hold (hiff.mp hun)
  · obtain ⟨old, hold, hmodels, haddress, hiff⟩ := hlookup _ _ hpeer
    rw [hmodels] at hm
    rw [haddress]
    exact h.complete q old hold (fun hun => hstatus (hiff.mpr hun)) m hm hrun hfailed

/-- A peer that becomes unavailable loses its entries, and no other peer does. -/
theorem agrees_markUnavailable (h : s.Agrees) (podId : String) :
    Agrees ⟨{ s.pod with
      peers := s.pod.peers.markUnavailable podId
      table := s.pod.table.removeEntriesForPod podId }, s.failed⟩ := by
  have hlookup : ∀ q peer, (s.pod.peers.markUnavailable podId).lookup q = some peer →
      if q = podId then peer.status = .unavailable else s.pod.peers.lookup q = some peer := by
    intro q peer hpeer
    simp only [PeerStore.markUnavailable, PeerStore.lookup_updatePeer] at hpeer
    split_ifs at hpeer ⊢ with hq
    · obtain ⟨old, -, rfl⟩ := Option.map_eq_some_iff.mp hpeer
      cases hold : old.status <;> simp [hold]
    · exact hpeer
  refine ⟨fun modelName e he peer hpeer => ?_, fun q peer hpeer hstatus m hm hrun hfailed => ?_⟩
  · rw [ClusterRoutingStore.getRoutingEntries_removeEntriesForPod] at he
    obtain ⟨he, hne⟩ := List.mem_filter.mp he
    have hold := hlookup _ _ hpeer
    rw [if_neg (by simpa using hne)] at hold
    exact h.available modelName e he peer hold
  · have hold := hlookup _ _ hpeer
    split_ifs at hold with hq
    · exact absurd hold hstatus
    · obtain ⟨e, he, hpod, haddress, hport⟩ := h.complete q peer hold hstatus m hm hrun hfailed
      refine ⟨e, ?_, hpod, haddress, hport⟩
      rw [ClusterRoutingStore.getRoutingEntries_removeEntriesForPod]
      exact List.mem_filter.mpr ⟨he, by simpa [hpod] using hq⟩

theorem agrees_reapPeer (h : s.Agrees) (podId : String) :
    Agrees ⟨s.pod.reapPeer podId, s.failed⟩ := by
  unfold Pod.reapPeer
  cases s.pod.peers.lookup podId with
  | none => exact h
  | some peer =>
    dsimp only
    split_ifs
    · exact agrees_markSuspect h podId
    · exact agrees_markUnavailable h podId
    · exact h

theorem rebuildPending_reapPeer (s : Pod) (podId : String) :
    (s.reapPeer podId).rebuildPending = s.rebuildPending := by
  unfold Pod.reapPeer
  cases s.peers.lookup podId with
  | none => rfl
  | some peer =>
    dsimp only
    split_ifs <;> rfl

/-- The reaper goes through the peers one by one. -/
theorem inSync_reapPeers (h : s.InSync) : InSync ⟨s.pod.reapPeers, s.failed⟩ := by
  have hfold : ∀ (podIds : List String) (pod : Pod), InSync ⟨pod, s.failed⟩ →
      InSync ⟨podIds.foldl Pod.reapPeer pod, s.failed⟩ := by
    intro podIds
    induction podIds with
    | nil => exact fun pod hpod => hpod
    | cons podId podIds ih =>
      intro pod hpod
      rw [List.foldl_cons]
      apply ih
      intro hpending
      have hbefore : pod.rebuildPending = false :=
        (rebuildPending_reapPeer pod podId).symm.trans hpending
      exact agrees_reapPeer (s := ⟨pod, s.failed⟩) (hpod hbefore) podId
  exact hfold _ s.pod h

/-- An acknowledgement from an unavailable peer makes it available while the table holds no entry of
it. -/
theorem agrees_ack_iff (h : s.Agrees) (podId : String) :
    Agrees ⟨{ s.pod with peers := s.pod.peers.updateLastHeartbeat podId s.pod.now }, s.failed⟩ ↔
      ∀ peer, s.pod.peers.lookup podId = some peer → peer.status = .unavailable →
        ∀ m ∈ peer.models, m.status = .running → m.addressAt podId ∈ s.failed := by
  have hlookup : ∀ q, (s.pod.peers.updateLastHeartbeat podId s.pod.now).lookup q =
      if q = podId then (s.pod.peers.lookup podId).map fun peer =>
        { peer with lastHeartbeat := s.pod.now, status := .healthy }
      else s.pod.peers.lookup q :=
    fun q => PeerStore.lookup_updatePeer _ _ _ _
  constructor
  · intro hafter peer hpeer hstatus m hm hrun
    by_contra hfailed
    obtain ⟨e, he, hpod, -⟩ := hafter.complete podId
      { peer with lastHeartbeat := s.pod.now, status := .healthy }
      (by rw [hlookup, if_pos rfl, hpeer]; rfl) (by simp) m hm hrun hfailed
    exact h.available _ e he peer (by rw [hpod]; exact hpeer) hstatus
  · intro hcond
    refine ⟨fun modelName e he peer hpeer => ?_, fun q peer hpeer hstatus m hm hrun hfailed => ?_⟩
    · rw [hlookup] at hpeer
      split_ifs at hpeer with hq
      · obtain ⟨old, -, rfl⟩ := Option.map_eq_some_iff.mp hpeer
        simp
      · exact h.available modelName e he peer hpeer
    · rw [hlookup] at hpeer
      split_ifs at hpeer with hq
      · obtain ⟨old, hold, rfl⟩ := Option.map_eq_some_iff.mp hpeer
        subst hq
        by_cases hun : old.status = .unavailable
        · exact absurd (hcond old hold hun m hm hrun) hfailed
        · exact h.complete q old hold hun m hm hrun hfailed
      · exact h.complete q peer hpeer hstatus m hm hrun hfailed

/-- The entries that a failed forward removes are all those that the pod has for the model name. -/
theorem agrees_forwardFails_iff (h : s.Agrees) (modelName : String) (entry : RoutingEntry) :
    Agrees ⟨{ s.pod with table := s.pod.table.removeEntry modelName entry.podId },
        ⟨entry.podId, modelName, entry.vllmPort⟩ :: s.failed⟩ ↔
      ∀ peer, s.pod.peers.lookup entry.podId = some peer → peer.status ≠ .unavailable →
        ∀ m ∈ peer.models, m.status = .running → m.modelName = modelName →
          m.port ≠ entry.vllmPort → m.addressAt entry.podId ∈ s.failed := by
  have hentries := fun name => ClusterRoutingStore.getRoutingEntries_removeEntry s.pod.table
    modelName entry.podId name
  constructor
  · intro hafter peer hpeer hstatus m hm hrun hname hport
    by_contra hfailed
    have hnot : m.addressAt entry.podId ∉
        (⟨entry.podId, modelName, entry.vllmPort⟩ : InstanceAddress) :: s.failed := by
      intro hmem
      rcases List.mem_cons.mp hmem with heq | hmem
      · exact hport (congrArg InstanceAddress.vllmPort heq)
      · exact hfailed hmem
    obtain ⟨e, he, hpod, -⟩ := hafter.complete entry.podId peer hpeer hstatus m hm hrun hnot
    rw [hentries, if_pos hname] at he
    exact absurd hpod (by simpa using (List.mem_filter.mp he).2)
  · intro hcond
    refine ⟨fun name e he peer hpeer => ?_, fun q peer hpeer hstatus m hm hrun hfailed => ?_⟩
    · rw [hentries] at he
      split_ifs at he
      · exact h.available name e (List.mem_filter.mp he).1 peer hpeer
      · exact h.available name e he peer hpeer
    · simp only [List.mem_cons, not_or] at hfailed
      obtain ⟨e, he, hpod, haddress, hport⟩ :=
        h.complete q peer hpeer hstatus m hm hrun hfailed.2
      refine ⟨e, ?_, hpod, haddress, hport⟩
      rw [hentries]
      split_ifs with hname
      · refine List.mem_filter.mpr ⟨he, ?_⟩
        rw [decide_eq_true_eq, hpod]
        rintro rfl
        refine hfailed.2 (hcond peer hpeer hstatus m hm hrun hname fun heq => hfailed.1 ?_)
        rw [PeerModelEntry.addressAt, hname, heq]
      · exact he

theorem step_pod {a : PeerAct} (ht : s.step a = some t) :
    s.pod.step a = some t.pod ∧ t.failed = failedAfter s.failed a := by
  obtain ⟨pod, hpod, rfl⟩ := Option.map_eq_some_iff.mp ht
  exact ⟨hpod, rfl⟩

/-- The step lemma: what each act of a pod in sync leaves in sync. -/
theorem inSync_step_iff (h : s.InSync) {a : PeerAct} (ht : s.step a = some t) :
    t.InSync ↔ s.KeepsEntries a := by
  obtain ⟨hpod, hfailed⟩ := step_pod ht
  obtain ⟨pod, failed⟩ := t
  dsimp only at hpod hfailed
  subst hfailed
  cases a with
  | heartbeat message sourceIp =>
    cases hpod
    exact iff_of_true (fun hpending => by cases hpending) trivial
  | ack podId =>
    cases hpod
    exact forall_congr' fun hpending => agrees_ack_iff (h hpending) podId
  | reapPeers =>
    cases hpod
    exact iff_of_true (inSync_reapPeers h) trivial
  | rebuild =>
    simp only [Pod.step] at hpod
    split_ifs at hpod
    cases hpod
    exact iff_of_true (fun _ => agrees_rebuild s) trivial
  | forwardFails modelName entry =>
    cases hpod
    exact forall_congr' fun hpending => agrees_forwardFails_iff (h hpending) modelName entry
  | clock now =>
    cases hpod
    exact iff_of_true (fun hpending => ⟨(h hpending).available, (h hpending).complete⟩) trivial

/-- The table of a pod is in sync after every act of a run exactly when every act keeps the entries
that it has to. -/
theorem routing_table_in_sync_iff {u : WatchedPod} {acts : List PeerAct} (hs : s.Started)
    (hrun : Transition.run step s acts = some u) :
    Transition.Along step (fun s a => ∀ t, s.step a = some t → t.InSync) s acts ↔
      Transition.Along step KeepsEntries s acts :=
  Transition.along_next_iff (I := fun _ => True) (E := fun _ _ => True)
    (fun _ _ _ _ hsync _ ht => inSync_step_iff hsync ht) (fun _ _ _ _ _ _ => trivial) trivial
    (inSync_of_started hs) (Transition.along_of_mem (fun _ _ _ => trivial) s) hrun

/-- A pod of which no forward has failed yet. -/
def start : WatchedPod := ⟨.start "a:8000" "10.0.0.1" 0, []⟩

theorem started_start : start.Started := by
  refine ⟨fun podId peer hpeer => ?_, fun modelName => rfl⟩
  have hmem := AList.mem_lookup_iff.mp hpeer
  simp only [start, Pod.start, AList.singleton_entries, List.mem_singleton] at hmem
  cases hmem
  rfl

/-- A peer with one running instance. -/
def oneModel : HeartbeatMessage where
  podId := "b:8000"
  role := .follower
  term := 1
  timestamp := 0
  models := [⟨"4f1c", "org/model", "model", 9000, .running, [0], 1, 4096⟩]
  gpus := []

/-- The peer is heard from once, is silent until the reaper has taken it for unavailable, and then
answers a heartbeat of this pod. -/
def peerReturns : List PeerAct :=
  [.heartbeat oneModel (some "10.0.0.2"), .rebuild, .clock 11000, .reapPeers, .clock 16000,
    .reapPeers, .ack "b:8000"]

def afterReturn : WatchedPod :=
  (Transition.run step start peerReturns).get (by decide +kernel)

theorem returned_peer_has_no_entry :
    Transition.run step start peerReturns = some afterReturn ∧ ¬ afterReturn.InSync := by
  refine ⟨(Option.some_get _).symm, fun hsync => ?_⟩
  have hagrees := hsync (by decide +kernel)
  obtain ⟨e, he, -⟩ := hagrees.complete "b:8000" (oneModel.newPeer (some "10.0.0.2") 16000)
    (by decide +kernel) (by decide) _ List.mem_cons_self rfl (by decide +kernel)
  have hnone : afterReturn.pod.table.getRoutingEntries "model" = [] := by decide +kernel
  exact absurd (hnone ▸ he) List.not_mem_nil

/-- A heartbeat and its rebuild leave the table in sync. -/
theorem routing_table_in_sync_iff_heartbeat :
    Transition.Along step (fun s a => ∀ t, s.step a = some t → t.InSync) start
      [.heartbeat oneModel (some "10.0.0.2"), .rebuild] := by
  have hrun : (Transition.run step start
      [.heartbeat oneModel (some "10.0.0.2"), .rebuild]).isSome := by
    decide +kernel
  exact (routing_table_in_sync_iff started_start (Option.some_get hrun).symm).mpr
    ⟨trivial, trivial, trivial⟩

end WatchedPod

end GpuSharing.Sardeenz.ClusterRouting
