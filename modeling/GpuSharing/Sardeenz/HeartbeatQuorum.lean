import GpuSharing.Sardeenz.HeartbeatElection

namespace GpuSharing.Sardeenz

open Transition

namespace PeerStore

variable {Pod : Type} {store : PeerStore Pod} {p q : Pod} {now : Int}

theorem healthyPeers_sublist (store : PeerStore Pod) : store.healthyPeers.Sublist store.keys :=
  List.Sublist.map _ List.filter_sublist

theorem healthyPeers_nodup (store : PeerStore Pod) : store.healthyPeers.Nodup :=
  store.keys_nodup.sublist (healthyPeers_sublist store)

variable [DecidableEq Pod]

theorem keys_updateLastHeartbeat : (store.updateLastHeartbeat p now).keys = store.keys := by
  unfold updateLastHeartbeat
  split_ifs
  · exact AList.keys_replace _ _ _
  · rfl

theorem mem_handlePeerAdded (h : q ∈ store.handlePeerAdded p now) : q = p ∨ q ∈ store := by
  unfold handlePeerAdded at h
  split_ifs at h
  · exact .inr h
  · exact .inr h
  · exact (AList.mem_insert _).mp h

theorem mem_handlePeerRemoved (h : q ∈ store.handlePeerRemoved p) : q ∈ store :=
  (AList.mem_erase.mp h).2

theorem mem_processIncomingHeartbeat (h : q ∈ store.processIncomingHeartbeat p now) :
    q = p ∨ q ∈ store := by
  unfold processIncomingHeartbeat at h
  split_ifs at h
  · rw [AList.mem_keys, keys_updateLastHeartbeat] at h
    exact .inr h
  · exact (AList.mem_insert _).mp h

theorem keys_reapPeer : (reapPeer now store p).keys = store.keys := by
  unfold reapPeer
  split
  · split_ifs
    · exact AList.keys_replace _ _ _
    · rfl
  · split_ifs
    · exact AList.keys_replace _ _ _
    · rfl
  · rfl

theorem keys_reapPeers : (store.reapPeers p now).keys = store.keys := by
  unfold reapPeers
  generalize store.keys.filter (· ≠ p) = ps
  induction ps generalizing store with
  | nil => rfl
  | cons p ps ih => exact ih.trans keys_reapPeer

end PeerStore

theorem calculateQuorum_pos (n : Nat) : 0 < calculateQuorum n := Nat.succ_pos _

theorem calculateQuorum_le {n : Nat} (h : 0 < n) : calculateQuorum n ≤ n := by
  unfold calculateQuorum
  omega

section RunElection

variable {Pod : Type} [LinearOrder Pod] {expectedPods : Int} {self : Pod} {peers : PeerStore Pod}
  {e : ElectionState Pod}

/-- A pod that is leader after its election has a quorum of the expected size, and no healthy peer
has a lower id. -/
theorem leader_of_runElection (h : (runElection expectedPods self peers e).isLeader = true) :
    calculateQuorum (expectedSize expectedPods peers) ≤ peers.healthyPeers.length ∧
    ∀ q ∈ peers.healthyPeers, self ≤ q := by
  unfold runElection at h
  dsimp only at h
  by_cases hquorum :
      peers.healthyPeers.length < calculateQuorum (expectedSize expectedPods peers)
  · rw [if_pos hquorum] at h
    cases h
  rw [if_neg hquorum] at h
  refine ⟨not_lt.mp hquorum, ?_⟩
  split at h
  case h_1 hnone =>
    have hlen := List.length_insertionSort (· ≤ ·) peers.healthyPeers
    rw [List.head?_eq_none_iff.mp hnone] at hlen
    exact absurd (hlen ▸ calculateQuorum_pos _) hquorum
  case h_2 elected hsome =>
    have helected : elected = self := by
      split_ifs at h with h1 h2 h3
      · exact of_decide_eq_true h
      · exact h2.1
      · by_contra hne
        exact h3 ⟨hne, h⟩
    obtain ⟨rest, hsorted⟩ := List.head?_eq_some_iff.mp hsome
    intro q hq
    have hpair := List.pairwise_insertionSort (· ≤ ·) peers.healthyPeers
    have hmem := (List.perm_insertionSort (· ≤ ·) peers.healthyPeers).mem_iff.mpr hq
    rw [hsorted] at hpair hmem
    rw [← helected]
    rcases List.mem_cons.mp hmem with rfl | hmem
    · exact le_rfl
    · exact List.rel_of_pairwise_cons hpair hmem

/-- The first election of a pod that has a quorum and the lowest id among its healthy peers. -/
theorem runElection_first
    (hquorum : calculateQuorum (expectedSize expectedPods peers) ≤ peers.healthyPeers.length)
    (hself : self ∈ peers.healthyPeers) (hmin : ∀ q ∈ peers.healthyPeers, self ≤ q) :
    runElection expectedPods self peers ⟨false, 0, none⟩ = ⟨true, 1, some self⟩ := by
  unfold runElection
  dsimp only
  rw [if_neg (not_lt.mpr hquorum)]
  have hperm := List.perm_insertionSort (· ≤ ·) peers.healthyPeers
  have hpair := List.pairwise_insertionSort (· ≤ ·) peers.healthyPeers
  cases hsorted : peers.healthyPeers.insertionSort (· ≤ ·) with
  | nil =>
    rw [hsorted] at hperm
    exact absurd (hperm.mem_iff.mpr hself) List.not_mem_nil
  | cons elected rest =>
    rw [hsorted] at hperm hpair
    have helected : elected = self := by
      refine le_antisymm ?_ (hmin _ (hperm.mem_iff.mp List.mem_cons_self))
      rcases List.mem_cons.mp (hperm.mem_iff.mpr hself) with rfl | hmem
      · exact le_rfl
      · exact List.rel_of_pairwise_cons hpair hmem
    simp [helected]

end RunElection

namespace HeartbeatCluster

variable {Pod : Type} [LinearOrder Pod] {expectedPods : Int} {members : List Pod}
  {s t : HeartbeatCluster Pod} {act : HeartbeatAct Pod}

/-- A quorum of the configured size is the whole cluster, or there is one pod at most. -/
def QuorumIsAll (expectedPods : Int) (members : List Pod) : Prop :=
  members.length ≤ 1 ∨ 0 < expectedPods ∧ members.length ≤ calculateQuorum expectedPods.toNat

/-- The pod knows members only, and leads only as the lowest member and with a quorum of the cluster
behind it. -/
structure PodOk (members : List Pod) (p : Pod) (pod : HeartbeatPod Pod) : Prop where
  member : p ∈ members
  peers : ∀ q ∈ pod.peers, q ∈ members
  leads : pod.election.isLeader = true →
    (∀ q ∈ members, p ≤ q) ∧ calculateQuorum members.length ≤ pod.backing

def PodsOk (members : List Pod) (s : HeartbeatCluster Pod) : Prop :=
  ∀ p, ∀ pod ∈ s.pods p, PodOk members p pod

theorem PodsOk.setPod (h : PodsOk members s) {p : Pod} {new : Option (HeartbeatPod Pod)}
    (hnew : ∀ pod ∈ new, PodOk members p pod) : PodsOk members (s.setPod p new) := by
  intro q pod hpod
  change pod ∈ Function.update s.pods p new q at hpod
  by_cases hq : q = p
  · subst hq
    rw [Function.update_self] at hpod
    exact hnew pod hpod
  · rw [Function.update_of_ne hq] at hpod
    exact h q pod hpod

theorem PodsOk.setPeers (h : PodsOk members s) {p : Pod} {pod : HeartbeatPod Pod}
    {peers : PeerStore Pod} (hp : PodOk members p pod) (hpeers : ∀ q ∈ peers, q ∈ members) :
    PodsOk members (s.setPeers p pod peers) :=
  h.setPod fun _ hnew => Option.some.inj hnew ▸ ⟨hp.member, hpeers, hp.leads⟩

/-- A quorum of the whole cluster behind a leader means that no pod has a lower id. -/
theorem leads_of_runElection (hall : QuorumIsAll expectedPods members) {p : Pod}
    {pod : HeartbeatPod Pod} (hp : PodOk members p pod)
    (h : (runElection expectedPods p pod.peers pod.election).isLeader = true) :
    (∀ q ∈ members, p ≤ q) ∧ calculateQuorum members.length ≤ pod.peers.healthyPeers.length := by
  obtain ⟨hquorum, hmin⟩ := leader_of_runElection h
  have hpos : 0 < members.length := List.length_pos_of_mem hp.member
  rcases hall with hone | ⟨hpods, hlen⟩
  · have hsingle : members = [p] := by
      obtain ⟨q, hq⟩ := List.length_eq_one_iff.mp (le_antisymm hone hpos)
      have hmem := hp.member
      rw [hq, List.mem_singleton] at hmem
      rw [hq, hmem]
    refine ⟨fun q hq => ?_, ?_⟩
    · rw [hsingle, List.mem_singleton] at hq
      exact hq.ge
    · have hhealthy := (calculateQuorum_pos (expectedSize expectedPods pod.peers)).trans_le hquorum
      rw [hsingle]
      simpa [calculateQuorum] using Nat.succ_le_of_lt hhealthy
  · have hsize : expectedSize expectedPods pod.peers = expectedPods.toNat := if_pos hpods
    rw [hsize] at hquorum
    have hsub : pod.peers.healthyPeers ⊆ members := fun q hq =>
      hp.peers q (AList.mem_keys.mpr ((PeerStore.healthyPeers_sublist _).subset hq))
    have hperm : pod.peers.healthyPeers.Perm members :=
      (List.subperm_of_subset (PeerStore.healthyPeers_nodup pod.peers) hsub).perm_of_length_le
        (hlen.trans hquorum)
    exact ⟨fun q hq => hmin q (hperm.mem_iff.mpr hq),
      (calculateQuorum_le hpos).trans (hlen.trans hquorum)⟩

theorem podsOk_step (hall : QuorumIsAll expectedPods members) (hs : PodsOk members s)
    (h : step expectedPods members s act = some t) : PodsOk members t := by
  cases act with
  | start p =>
    simp only [step] at h
    split at h
    · cases h
    · split_ifs at h with hp
      cases h
      refine hs.setPod fun pod hpod => ?_
      cases hpod
      refine ⟨hp, fun q hq => ?_, fun hleads => by cases hleads⟩
      rcases (AList.mem_insert _).mp hq with rfl | hq
      · exact hp
      · exact absurd hq (AList.notMem_empty _)
  | stop p =>
    cases h
    exact hs.setPod fun pod hpod => by cases hpod
  | discover p q =>
    simp only [step] at h
    split at h
    · rename_i pod other hp hq
      split_ifs at h
      cases h
      have hok := hs p pod hp
      refine hs.setPeers hok fun r hr => ?_
      rcases PeerStore.mem_handlePeerAdded hr with rfl | hr
      · exact (hs _ other hq).member
      · exact hok.peers r hr
    · cases h
  | lose p q =>
    simp only [step] at h
    split at h
    · rename_i pod hp
      cases h
      have hok := hs p pod hp
      exact hs.setPeers hok fun r hr => hok.peers r (PeerStore.mem_handlePeerRemoved hr)
    · cases h
  | heartbeat p q acked =>
    simp only [step] at h
    split at h
    · rename_i sender receiver hp hq
      have hsender := hs p sender hp
      have hreceiver := hs q receiver hq
      have hreceived : PodsOk members
          (s.setPeers q receiver (receiver.peers.processIncomingHeartbeat p s.now)) := by
        refine hs.setPeers hreceiver fun r hr => ?_
        rcases PeerStore.mem_processIncomingHeartbeat hr with rfl | hr
        · exact hsender.member
        · exact hreceiver.peers r hr
      split_ifs at h
      · cases h
        refine hreceived.setPeers hsender fun r hr => hsender.peers r ?_
        rw [AList.mem_keys, PeerStore.keys_updateLastHeartbeat] at hr
        exact hr
      · cases h
        exact hreceived
    · cases h
  | reap p =>
    simp only [step] at h
    split at h
    · rename_i pod hp
      cases h
      have hok := hs p pod hp
      refine hs.setPeers hok fun r hr => hok.peers r ?_
      rw [AList.mem_keys, PeerStore.keys_reapPeers] at hr
      exact hr
    · cases h
  | election p =>
    simp only [step] at h
    split at h
    · rename_i pod hp
      cases h
      have hok := hs p pod hp
      refine hs.setPod fun pod' hpod => ?_
      cases hpod
      exact ⟨hok.member, hok.peers, leads_of_runElection hall hok⟩
    · cases h
  | partition side =>
    cases h
    exact hs
  | tick now =>
    simp only [step] at h
    split_ifs at h
    cases h
    exact hs

theorem safeLeadership_of_podsOk (hs : PodsOk members s) : SafeLeadership members s := by
  have hunique : ∀ p q n m, LeaderFor s p n → LeaderFor s q m → p = q := by
    rintro p q n m ⟨pod, hp, hpleads, _⟩ ⟨pod', hq, hqleads, _⟩
    have hpok := hs p pod hp
    have hqok := hs q pod' hq
    exact le_antisymm ((hpok.leads hpleads).1 q hqok.member) ((hqok.leads hqleads).1 p hpok.member)
  exact ⟨fun p q n hp hq => hunique p q n n hp hq,
    fun p q n m hp hq => congrArg s.side (hunique p q n m hp hq),
    fun p pod hp hleads => ((hs p pod hp).leads hleads).2⟩

end HeartbeatCluster

end GpuSharing.Sardeenz
