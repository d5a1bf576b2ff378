import GpuSharing.Sardeenz.HeartbeatQuorum

namespace GpuSharing.Sardeenz

open Transition

namespace PeerStore

variable {Pod : Type} {store : PeerStore Pod}

theorem length_entries {known : List Pod} (h : store.keys.Perm known) :
    store.entries.length = known.length := by
  rw [← h.length_eq, AList.keys, List.keys, List.length_map]

variable [DecidableEq Pod] {q : Pod} {now : Int}

theorem keys_insert_new (h : q ∉ store) :
    AList.keys (AList.insert q (⟨.healthy, now⟩ : PeerInfo) store) = q :: store.keys := by
  rw [AList.keys, AList.entries_insert_of_notMem h]
  rfl

theorem healthyPeers_insert_new (h : q ∉ store) :
    healthyPeers (AList.insert q (⟨.healthy, now⟩ : PeerInfo) store) = q :: store.healthyPeers := by
  unfold healthyPeers
  rw [AList.entries_insert_of_notMem h]
  rfl

theorem perm_insert_new {a : Pod} {known : List Pod} (h : q ∉ store)
    (hkeys : store.keys.Perm (a :: known)) (hhealthy : store.healthyPeers.Perm (a :: known)) :
    (AList.keys (AList.insert q (⟨.healthy, now⟩ : PeerInfo) store)).Perm (a :: q :: known) ∧
      (healthyPeers (AList.insert q (⟨.healthy, now⟩ : PeerInfo) store)).Perm (a :: q :: known) := by
  rw [keys_insert_new h, healthyPeers_insert_new h]
  exact ⟨(hkeys.cons q).trans (List.Perm.swap a q known),
    (hhealthy.cons q).trans (List.Perm.swap a q known)⟩

end PeerStore

namespace HeartbeatCluster

variable {Pod : Type} [LinearOrder Pod] {s t : HeartbeatCluster Pod}

/-- The pod `a` has held no election, and it knows itself and `known`, all of them healthy. -/
def Knows (s : HeartbeatCluster Pod) (a : Pod) (known : List Pod) : Prop :=
  ∃ pod, s.pods a = some pod ∧ pod.election = ⟨false, 0, none⟩ ∧ pod.peers.keys.Perm (a :: known) ∧
    pod.peers.healthyPeers.Perm (a :: known)

theorem setPod_self (p : Pod) (pod : Option (HeartbeatPod Pod)) : (s.setPod p pod).pods p = pod :=
  Function.update_self _ _ _

theorem setPod_of_ne {p q : Pod} (pod : Option (HeartbeatPod Pod)) (h : q ≠ p) :
    (s.setPod p pod).pods q = s.pods q := Function.update_of_ne h _ _

theorem Knows.setPod_of_ne {a p : Pod} {known : List Pod} {pod : Option (HeartbeatPod Pod)}
    (h : Knows s a known) (hne : a ≠ p) : Knows (s.setPod p pod) a known := by
  obtain ⟨x, hx, hrest⟩ := h
  exact ⟨x, (HeartbeatCluster.setPod_of_ne pod hne).trans hx, hrest⟩

/-- `q` discovers `a`, and its heartbeat makes it known to `a`. -/
def introduces (q a : Pod) : List (HeartbeatAct Pod) := [.discover q a, .heartbeat q a false]

variable (expectedPods : Int) (members : List Pod)

theorem run_introduces {a q : Pod} {known friends : List Pod} (ha : Knows s a known)
    (hq : Knows s q friends) (hne : q ≠ a) (hside : ∀ p r, s.side p = s.side r)
    (hlen : friends.length + 1 < maxClusterSize) (hnew : q ∉ known) (hfriends : a ∉ friends) :
    ∃ t, run (step expectedPods members) s (introduces q a) = some t ∧ t.side = s.side ∧
      Knows t a (q :: known) ∧ Knows t q (a :: friends) ∧
      ∀ p known', p ≠ a → p ≠ q → Knows s p known' → Knows t p known' := by
  obtain ⟨receiver, hreceiver, heReceiver, hkReceiver, hhReceiver⟩ := ha
  obtain ⟨sender, hsender, heSender, hkSender, hhSender⟩ := hq
  have haNew : a ∉ sender.peers := fun h => by
    rcases List.mem_cons.mp (hkSender.mem_iff.mp h) with heq | h
    · exact hne heq.symm
    · exact hfriends h
  have hqNew : q ∉ receiver.peers := fun h => by
    rcases List.mem_cons.mp (hkReceiver.mem_iff.mp h) with heq | h
    · exact hne heq
    · exact hnew h
  have hcount : ¬maxClusterSize ≤ sender.peers.entries.length := by
    have hkeys := PeerStore.length_entries hkSender
    rw [List.length_cons] at hkeys
    omega
  let sender' : HeartbeatPod Pod :=
    { sender with peers := AList.insert a ⟨.healthy, s.now⟩ sender.peers }
  let receiver' : HeartbeatPod Pod :=
    { receiver with peers := AList.insert q ⟨.healthy, s.now⟩ receiver.peers }
  have hdiscover : step expectedPods members s (.discover q a)
      = some (s.setPod q (some sender')) := by
    simp only [step, hsender, hreceiver, if_pos (hside q a), setPeers,
      PeerStore.handlePeerAdded, if_neg hcount, if_neg haNew, sender']
  have hheartbeat : step expectedPods members (s.setPod q (some sender')) (.heartbeat q a false)
      = some ((s.setPod q (some sender')).setPod a (some receiver')) := by
    have hmem : a ∈ sender'.peers := (AList.mem_insert _).mpr (.inl rfl)
    have hr : (s.setPod q (some sender')).pods a = some receiver :=
      (setPod_of_ne _ hne.symm).trans hreceiver
    have hguard : q ≠ a ∧ a ∈ sender'.peers ∧
        (s.setPod q (some sender')).side q = (s.setPod q (some sender')).side a :=
      ⟨hne, hmem, hside q a⟩
    simp only [step, setPod_self, hr, if_pos hguard, setPeers, PeerStore.processIncomingHeartbeat,
      if_neg hqNew]
    rfl
  refine ⟨_, run_cons.mpr ⟨_, hdiscover, run_cons.mpr ⟨_, hheartbeat, rfl⟩⟩, rfl, ?_, ?_, ?_⟩
  · exact ⟨receiver', setPod_self _ _, heReceiver,
      PeerStore.perm_insert_new hqNew hkReceiver hhReceiver⟩
  · exact ⟨sender', (setPod_of_ne _ hne).trans (setPod_self _ _), heSender,
      PeerStore.perm_insert_new haNew hkSender hhSender⟩
  · exact fun p known' hpa hpq h => (h.setPod_of_ne hpq).setPod_of_ne hpa

/-- Every pod of `rest` makes itself known to `a` and to `b`, which never hear of each other. -/
def gather (a b : Pod) : List Pod → List (HeartbeatAct Pod)
  | [] => []
  | q :: rest => introduces q a ++ (introduces q b ++ gather a b rest)

theorem run_gather {a b : Pod} {rest known : List Pod} (ha : Knows s a known)
    (hb : Knows s b known) (hrest : ∀ q ∈ rest, Knows s q []) (hside : ∀ p r, s.side p = s.side r)
    (hn : (a :: b :: (rest ++ known)).Nodup) :
    ∃ t known', run (step expectedPods members) s (gather a b rest) = some t ∧
      known'.Perm (rest ++ known) ∧ Knows t a known' ∧ Knows t b known' := by
  induction rest generalizing s known with
  | nil => exact ⟨s, known, rfl, .refl _, ha, hb⟩
  | cons q rest ih =>
    simp only [List.cons_append, List.nodup_cons, List.mem_cons, List.mem_append] at hn
    obtain ⟨hna, hnb, hnq, hn⟩ := hn
    have hab : a ≠ b := fun h => hna (.inl h)
    have hqa : q ≠ a := fun h => hna (.inr (.inl h.symm))
    have hqb : q ≠ b := fun h => hnb (.inl h.symm)
    have hfew : ([] : List Pod).length + 1 < maxClusterSize := by simp [maxClusterSize]
    have hfew' : [a].length + 1 < maxClusterSize := by simp [maxClusterSize]
    obtain ⟨s1, hrun1, hside1, ha1, hq1, hother1⟩ := run_introduces expectedPods members ha
      (hrest q List.mem_cons_self) hqa hside hfew (fun h => hnq (.inr h)) List.not_mem_nil
    have hside1' : ∀ p r, s1.side p = s1.side r := hside1 ▸ hside
    have hb1 : Knows s1 b known := hother1 b known hab.symm hqb.symm hb
    obtain ⟨s2, hrun2, hside2, hb2, _, hother2⟩ := run_introduces expectedPods members hb1 hq1 hqb
      hside1' hfew' (fun h => hnq (.inr h)) (fun h => hab (List.mem_singleton.mp h).symm)
    have ha2 : Knows s2 a (q :: known) := hother2 a _ hab hqa.symm ha1
    have hrest2 : ∀ r ∈ rest, Knows s2 r [] := fun r hr => by
      have hra : r ≠ a := fun h => hna (.inr (.inr (.inl (h ▸ hr))))
      have hrb : r ≠ b := fun h => hnb (.inr (.inl (h ▸ hr)))
      have hrq : r ≠ q := fun h => hnq (.inl (h ▸ hr))
      exact hother2 r [] hrb hrq (hother1 r [] hra hrq (hrest r (List.mem_cons_of_mem _ hr)))
    have hperm : (rest ++ q :: known).Perm (q :: (rest ++ known)) := List.perm_middle
    have hn2 : (a :: b :: (rest ++ q :: known)).Nodup := by
      refine (((hperm.cons b).cons a).nodup_iff).mpr ?_
      simp only [List.nodup_cons, List.mem_cons, List.mem_append]
      exact ⟨hna, hnb, hnq, hn⟩
    obtain ⟨t, known', hrun, hknown, hat, hbt⟩ :=
      ih ha2 hb2 hrest2 (hside2 ▸ hside1') hn2
    exact ⟨t, known', run_append.mpr ⟨s1, hrun1, run_append.mpr ⟨s2, hrun2, hrun⟩⟩,
      hknown.trans hperm, hat, hbt⟩

theorem run_start {todo : List Pod} (hmem : ∀ p ∈ todo, p ∈ members)
    (hnone : ∀ p ∈ todo, s.pods p = none) (hn : todo.Nodup) :
    ∃ t, run (step expectedPods members) s (todo.map .start) = some t ∧ t.side = s.side ∧
      (∀ p ∈ todo, Knows t p []) ∧ ∀ p, p ∉ todo → t.pods p = s.pods p := by
  induction todo generalizing s with
  | nil => exact ⟨s, rfl, rfl, fun p hp => absurd hp List.not_mem_nil, fun _ _ => rfl⟩
  | cons q todo ih =>
    obtain ⟨hq, hn⟩ := List.nodup_cons.mp hn
    let fresh : HeartbeatPod Pod :=
      ⟨AList.insert q ⟨.healthy, s.now⟩ ∅, ⟨false, 0, none⟩, 0⟩
    have hstart : step expectedPods members s (.start q) = some (s.setPod q (some fresh)) := by
      simp only [step, hnone q List.mem_cons_self, if_pos (hmem q List.mem_cons_self), fresh]
    have hother : ∀ p ∈ todo, (s.setPod q (some fresh)).pods p = none := fun p hp => by
      have hpq : p ≠ q := fun h => hq (h ▸ hp)
      exact (setPod_of_ne _ hpq).trans (hnone p (List.mem_cons_of_mem _ hp))
    obtain ⟨t, hrun, hside, hknows, hsame⟩ :=
      ih (fun p hp => hmem p (List.mem_cons_of_mem _ hp)) hother hn
    refine ⟨t, run_cons.mpr ⟨_, hstart, hrun⟩, hside, fun p hp => ?_, fun p hp => ?_⟩
    · rcases List.mem_cons.mp hp with rfl | hp
      · refine ⟨fresh, (hsame p hq).trans (setPod_self _ _), rfl, ?_, ?_⟩
        · exact (PeerStore.keys_insert_new (AList.notMem_empty p)).symm ▸ .refl _
        · exact (PeerStore.healthyPeers_insert_new (AList.notMem_empty p)).symm ▸ .refl _
      · exact hknows p hp
    · obtain ⟨hpq, hp⟩ := not_or.mp (mt List.mem_cons.mpr hp)
      exact (hsame p hp).trans (setPod_of_ne _ hpq)

/-- A pod that knows enough healthy pods, none with a lower id, becomes leader for the term 1. -/
theorem step_election {a : Pod} {known : List Pod} (ha : Knows s a known)
    (hmin : ∀ q ∈ known, a ≤ q)
    (hquorum : expectedPods ≤ 0 ∨ calculateQuorum expectedPods.toNat ≤ known.length + 1) :
    ∃ t, step expectedPods members s (.election a) = some t ∧ LeaderFor t a 1 ∧
      ∀ p, p ≠ a → t.pods p = s.pods p := by
  obtain ⟨pod, hpod, he, hkeys, hhealthy⟩ := ha
  have hlen : pod.peers.healthyPeers.length = known.length + 1 := hhealthy.length_eq
  have hcount : pod.peers.entries.length = known.length + 1 := PeerStore.length_entries hkeys
  have henough : calculateQuorum (expectedSize expectedPods pod.peers)
      ≤ pod.peers.healthyPeers.length := by
    rw [hlen, expectedSize]
    split_ifs with hpos
    · exact hquorum.resolve_left (not_le.mpr hpos)
    · rw [hcount]
      exact calculateQuorum_le (Nat.succ_pos _)
  have hself : ∀ q ∈ pod.peers.healthyPeers, a ≤ q := fun q hq => by
    rcases List.mem_cons.mp (hhealthy.mem_iff.mp hq) with rfl | hq
    · exact le_rfl
    · exact hmin q hq
  have hfirst := runElection_first henough (hhealthy.mem_iff.mpr List.mem_cons_self) hself
  refine ⟨_, by simp only [step, hpod]; rfl, ?_, fun p hp => setPod_of_ne _ hp⟩
  exact ⟨_, setPod_self _ _, by simp [he, hfirst], by simp [he, hfirst]⟩

variable {members}

/-- Two leaders for one term, once the quorum is less than the whole cluster. -/
theorem two_leaders (hn : members.Nodup) (h : ¬QuorumIsAll expectedPods members) :
    ∃ ls t a b, run (step expectedPods members) (init (fun _ => 0) 0) ls = some t ∧
      a ≠ b ∧ LeaderFor t a 1 ∧ LeaderFor t b 1 := by
  obtain ⟨hmany, hquorum⟩ := not_or.mp h
  have hperm := List.perm_insertionSort (· ≤ ·) members
  have hpair := List.pairwise_insertionSort (· ≤ ·) members
  match hsorted : members.insertionSort (· ≤ ·) with
  | [] | [_] =>
    rw [hsorted] at hperm
    have hlen := hperm.length_eq
    simp only [List.length_nil, List.length_cons] at hlen
    omega
  | a :: b :: rest =>
    rw [hsorted] at hperm hpair
    have hn' : (a :: b :: (rest ++ [])).Nodup := by
      rw [List.append_nil]
      exact hperm.nodup_iff.mpr hn
    have hlen : rest.length + 2 = members.length := hperm.length_eq
    have hab : a ≠ b := fun heq => by simp [heq] at hn'
    obtain ⟨haMin, hpair⟩ := List.pairwise_cons.mp hpair
    obtain ⟨hbMin, _⟩ := List.pairwise_cons.mp hpair
    obtain ⟨s1, hrun1, hside1, hknows1, _⟩ := run_start expectedPods members
      (s := init (fun _ => 0) 0) (fun p hp => hperm.mem_iff.mp hp) (fun _ _ => rfl)
      (hperm.nodup_iff.mpr hn)
    have hrest1 : ∀ q ∈ rest, Knows s1 q [] := fun q hq =>
      hknows1 q (List.mem_cons_of_mem _ (List.mem_cons_of_mem _ hq))
    obtain ⟨s2, known, hrun2, hknown, ha2, hb2⟩ := run_gather expectedPods members
      (hknows1 a List.mem_cons_self) (hknows1 b (List.mem_cons_of_mem _ List.mem_cons_self))
      hrest1 (fun _ _ => by rw [hside1]; rfl) hn'
    rw [List.append_nil] at hknown
    have henough : expectedPods ≤ 0 ∨ calculateQuorum expectedPods.toNat ≤ known.length + 1 := by
      rcases not_and_or.mp hquorum with hneg | hless
      · exact .inl (not_lt.mp hneg)
      · have := hknown.length_eq
        exact .inr (by omega)
    obtain ⟨s3, hrun3, ha3, hsame3⟩ := step_election expectedPods members ha2
      (fun q hq => haMin q (List.mem_cons_of_mem _ (hknown.mem_iff.mp hq))) henough
    have hb3 : Knows s3 b known := by
      obtain ⟨pod, hpod, hrest⟩ := hb2
      exact ⟨pod, (hsame3 b hab.symm).trans hpod, hrest⟩
    obtain ⟨s4, hrun4, hb4, hsame4⟩ := step_election expectedPods members hb3
      (fun q hq => hbMin q (hknown.mem_iff.mp hq)) henough
    have ha4 : LeaderFor s4 a 1 := by
      obtain ⟨pod, hpod, hrest⟩ := ha3
      exact ⟨pod, (hsame4 a hab).trans hpod, hrest⟩
    exact ⟨(a :: b :: rest).map .start ++ (gather a b rest ++ [.election a, .election b]), s4, a, b,
      run_append.mpr ⟨s1, hrun1, run_append.mpr ⟨s2, hrun2, run_cons.mpr ⟨s3, hrun3,
        run_cons.mpr ⟨s4, hrun4, rfl⟩⟩⟩⟩, hab, ha4, hb4⟩

/-- Leadership is safe in all runs exactly where the quorum of the configured size is the whole
cluster, or where there is one pod at most. -/
theorem safeLeadership_iff (hn : members.Nodup) :
    (∀ side now ls s, run (step expectedPods members) (init side now) ls = some s →
      SafeLeadership members s) ↔ QuorumIsAll expectedPods members := by
  constructor
  · intro hsafe
    by_contra h
    obtain ⟨ls, t, a, b, hrun, hab, ha, hb⟩ := two_leaders expectedPods hn h
    exact hab ((hsafe _ _ ls t hrun).oneTerm a b 1 ha hb)
  · intro hall side now ls s hrun
    have hinit : PodsOk members (init side now) := fun p pod hpod => by cases hpod
    exact safeLeadership_of_podsOk (run_invariant (fun _ _ _ hs h => podsOk_step hall hs h) hinit
      hrun)

def twoPods : List Nat := [0, 1]

theorem safeLeadership_iff_twoPods :
    QuorumIsAll 2 twoPods ∧ ∀ side now ls s, run (step 2 twoPods) (init side now) ls = some s →
      SafeLeadership twoPods s :=
  have hall : QuorumIsAll 2 twoPods := .inr ⟨by decide, by decide⟩
  ⟨hall, (safeLeadership_iff 2 (by decide)).mpr hall⟩

/-- Two pods that start without a connection, with the size left to their peer tables, each elect
themselves for the term 1. -/
theorem partitioned_pods_both_lead :
    let s := (run (step 0 twoPods) (init id 0)
      [.start 0, .start 1, .election 0, .election 1]).get (by decide +kernel)
    s.side 0 ≠ s.side 1 ∧ (s.pods 0).map (·.election) = some ⟨true, 1, some 0⟩ ∧
      (s.pods 1).map (·.election) = some ⟨true, 1, some 1⟩ := by
  decide +kernel

end HeartbeatCluster

end GpuSharing.Sardeenz
