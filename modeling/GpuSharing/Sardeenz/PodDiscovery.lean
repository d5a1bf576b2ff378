import GpuSharing.Lib.Transition
import GpuSharing.Sardeenz.ClusterMembership

namespace GpuSharing.Sardeenz.PodDiscovery

open ClusterRouting (DiscoveredPeer)

inductive PodPhase
  | pending
  | running
  | succeeded
  | failed
  | unknown
  deriving DecidableEq, Repr

structure PodStatus where
  phase : PodPhase
  podIP : Option String
  deriving DecidableEq, Repr

/-- The address of a pod that is running and has one. -/
def PodStatus.runningIP (status : PodStatus) : Option String :=
  if status.phase = .running then status.podIP.filter (· ≠ "") else none

inductive EventPhase
  | added
  | modified
  | deleted
  deriving DecidableEq, Repr

structure PodEvent where
  phase : EventPhase
  podName : String
  status : PodStatus
  deriving DecidableEq, Repr

/-- A call of `onPeerAdded` or `onPeerRemoved`. -/
inductive Report
  | peerAdded (peer : DiscoveredPeer)
  | peerRemoved (podId : String)
  deriving DecidableEq, Repr

/-- Where the watch stands. `connecting` is a call of `watch` whose promise is not settled, `waiting`
the five seconds before `startWatch` is called again, and `dead` that no call will follow. `queue` are
the events that the server has sent. -/
inductive WatchState
  | connecting
  | connected (queue : List PodEvent)
  | waiting
  | dead
  deriving DecidableEq, Repr

/-- The discovery with the labelled pods as they are; `aborter` is whether there is an
`abortController`. -/
structure Discovery where
  pods : Dict String PodStatus
  knownPods : Dict String DiscoveredPeer
  reports : List Report
  aborter : Bool
  watch : WatchState

/-- What happens: pods come, change and go, and the watch connects (and is sent the pods, in some
order), delivers, fails to connect, ends, or is called again. -/
inductive DiscoveryAct
  | podCreated (podName : String) (status : PodStatus)
  | podChanged (podName : String) (status : PodStatus)
  | podDeleted (podName : String)
  | connect (order : List (String × PodStatus))
  | deliver
  | fail (rejects : Bool)
  | close
  | restart
  deriving Repr

namespace Discovery

def addPod (s : Discovery) (podName address : String) : Discovery :=
  { s with
    knownPods := s.knownPods.setItem podName ⟨podName, address⟩
    reports := s.reports ++ [.peerAdded ⟨podName, address⟩] }

def removePod (s : Discovery) (podName : String) : Discovery :=
  { s with
    knownPods := AList.erase podName s.knownPods
    reports := s.reports ++ [.peerRemoved podName] }

/-- `ADDED` and `MODIFIED`: a known pod keeps the address that it was added with. -/
def podSeen (s : Discovery) (podName : String) (status : PodStatus) : Discovery :=
  match status.runningIP with
  | some podIp => if s.knownPods.lookup podName = none then s.addPod podName podIp else s
  | none =>
    if status.phase ≠ .running ∧ s.knownPods.lookup podName ≠ none then s.removePod podName else s

def podGone (s : Discovery) (podName : String) : Discovery :=
  if s.knownPods.lookup podName ≠ none then s.removePod podName else s

def handlePodEvent (s : Discovery) (e : PodEvent) : Discovery :=
  if e.podName = "" then s
  else match e.phase with
    | .added | .modified => s.podSeen e.podName e.status
    | .deleted => s.podGone e.podName

/-- A connected watch is sent what happens to a pod. -/
def notify (s : Discovery) (e : PodEvent) : Discovery :=
  match s.watch with
  | .connected queue => { s with watch := .connected (queue ++ [e]) }
  | _ => s

def podList (s : Discovery) : List (String × PodStatus) :=
  s.pods.entries.map fun x => (x.1, x.2)

/-- After the end of a watch `startWatch` is called again if there is an `abortController`. -/
def afterEnd (s : Discovery) : WatchState := if s.aborter then .waiting else .dead

def step (s : Discovery) : DiscoveryAct → Option Discovery
  | .podCreated podName status =>
    if podName ≠ "" ∧ s.pods.lookup podName = none then
      some (notify { s with pods := s.pods.setItem podName status } ⟨.added, podName, status⟩)
    else none
  | .podChanged podName status =>
    if s.pods.lookup podName ≠ none then
      some (notify { s with pods := s.pods.setItem podName status } ⟨.modified, podName, status⟩)
    else none
  | .podDeleted podName => match s.pods.lookup podName with
    | some status =>
      some (notify { s with pods := AList.erase podName s.pods } ⟨.deleted, podName, status⟩)
    | none => none
  | .connect order =>
    if s.watch = .connecting ∧ order.Perm s.podList then
      some { s with
        watch := .connected (order.map fun x => ⟨.added, x.1, x.2⟩)
        aborter := true }
    else none
  | .deliver => match s.watch with
    | .connected (e :: queue) => some (handlePodEvent { s with watch := .connected queue } e)
    | _ => none
  | .fail rejects =>
    if s.watch = .connecting then
      -- an error is reported before the promise is fulfilled, or the promise is rejected
      some (if rejects then { s with watch := .dead }
        else { s with watch := s.afterEnd, aborter := true })
    else none
  | .close => match s.watch with
    | .connected _ => some { s with watch := s.afterEnd }
    | _ => none
  | .restart => if s.watch = .waiting then some { s with watch := .connecting } else none

/-- The discovery after its initial pod list, when it has called `watch`. -/
def start (pods : Dict String PodStatus) : Discovery :=
  { (pods.entries.foldl (fun s x => handlePodEvent s ⟨.added, x.1, x.2⟩)
      { pods := pods, knownPods := ∅, reports := [], aborter := false, watch := .connecting }) with
    watch := .connecting }

/-- The pod as a peer, if it is running and has an address. -/
def runningPeer (s : Discovery) (podName : String) : Option DiscoveredPeer :=
  (s.pods.lookup podName).bind fun status => status.runningIP.map (DiscoveredPeer.mk podName)

/-- The peers that whoever hears the reports knows of. -/
def reportedPeers (reports : List Report) : Dict String DiscoveredPeer :=
  reports.foldl (fun peers r => match r with
    | .peerAdded peer => peers.setItem peer.podId peer
    | .peerRemoved podId => AList.erase podId peers) ∅

/-- Once a connected watch has delivered what was sent, the running pods are known and reported with
their addresses, and no others; and a watch that is not connected will be. -/
structure Current (s : Discovery) : Prop where
  known : s.watch = .connected [] → ∀ podName,
    s.knownPods.lookup podName = s.runningPeer podName ∧
      (reportedPeers s.reports).lookup podName = s.runningPeer podName
  alive : s.watch ≠ .dead

def nextEvent (s : Discovery) : Option PodEvent :=
  match s.watch with
  | .connected queue => queue.head?
  | _ => none

/-- A known pod is not seen running with another address, or none. -/
def Expected (s : Discovery) (e : PodEvent) : Prop :=
  e.phase ≠ .deleted → e.status.phase = .running →
    ∀ peer ∈ s.knownPods.lookup e.podName, e.status.runningIP = some peer.address

/-- A known pod is seen running with its known address only, no known pod is gone when the watch
connects, and only a watch that follows another one fails. -/
def Unsurprising (s : Discovery) : DiscoveryAct → Prop
  | .connect _ => ∀ podName ∈ s.knownPods.keys, podName ∈ s.pods.keys
  | .deliver => ∀ e ∈ s.nextEvent, s.Expected e
  | .fail rejects => rejects = false ∧ s.aborter = true
  | _ => True

instance decidableExpected (s : Discovery) (e : PodEvent) : Decidable (s.Expected e) :=
  inferInstanceAs (Decidable (_ → _ → _))

instance decidableUnsurprising (s : Discovery) : ∀ a, Decidable (s.Unsurprising a)
  | .connect _ => inferInstanceAs (Decidable (∀ podName ∈ s.knownPods.keys, podName ∈ s.pods.keys))
  | .deliver => inferInstanceAs (Decidable (∀ e ∈ s.nextEvent, s.Expected e))
  | .fail rejects => inferInstanceAs (Decidable (rejects = false ∧ s.aborter = true))
  | .podCreated _ _ | .podChanged _ _ | .podDeleted _ | .close | .restart => .isTrue trivial

end Discovery

/-- What a pod is as a peer after an event of it. -/
def PodEvent.peerAfter (e : PodEvent) : Option DiscoveredPeer :=
  if e.phase = .deleted then none else e.status.runningIP.map (DiscoveredPeer.mk e.podName)

/-- The last event of a pod among those that were sent. -/
def lastEvent (queue : List PodEvent) (podName : String) : Option PodEvent :=
  (queue.filter (·.podName = podName)).getLast?

theorem lastEvent_append_singleton (queue : List PodEvent) (e : PodEvent) (podName : String) :
    lastEvent (queue ++ [e]) podName =
      if e.podName = podName then some e else lastEvent queue podName := by
  rw [lastEvent, List.filter_append]
  split_ifs with hname
  · simp [hname]
  · simp [lastEvent, hname]

theorem lastEvent_cons (e : PodEvent) (queue : List PodEvent) (podName : String) :
    lastEvent (e :: queue) podName =
      (lastEvent queue podName).or (if e.podName = podName then some e else none) := by
  rw [lastEvent, List.filter_cons]
  by_cases hname : e.podName = podName
  · simp only [hname, decide_true, if_true, List.getLast?_cons]
    rw [lastEvent]
    cases (queue.filter (·.podName = podName)).getLast? <;> rfl
  · simp [hname, lastEvent]

theorem mem_of_lastEvent {queue : List PodEvent} {e : PodEvent} {podName : String}
    (h : lastEvent queue podName = some e) : e ∈ queue ∧ e.podName = podName := by
  have hmem := List.mem_of_getLast? h
  rw [List.mem_filter] at hmem
  exact ⟨hmem.1, of_decide_eq_true hmem.2⟩

theorem lastEvent_eq_none {queue : List PodEvent} {podName : String}
    (h : lastEvent queue podName = none) : ∀ e ∈ queue, e.podName ≠ podName := by
  intro e he hname
  have hnil := List.getLast?_eq_none_iff.mp h
  have hmem : e ∈ queue.filter (·.podName = podName) := List.mem_filter.mpr ⟨he, by simp [hname]⟩
  rw [hnil] at hmem
  cases hmem

namespace Discovery

variable {s t : Discovery} {e : PodEvent} {queue : List PodEvent} {podName : String}

/-- Whoever hears the reports knows what the discovery knows. -/
structure Reported (s : Discovery) : Prop where
  same : ∀ podName, (reportedPeers s.reports).lookup podName = s.knownPods.lookup podName
  named : ∀ podName, ∀ peer ∈ s.knownPods.lookup podName, peer.podId = podName

theorem reportedPeers_append_singleton (reports : List Report) (r : Report) :
    reportedPeers (reports ++ [r]) = match r with
      | .peerAdded peer => (reportedPeers reports).setItem peer.podId peer
      | .peerRemoved podId => AList.erase podId (reportedPeers reports) := by
  simp [reportedPeers]

theorem lookup_erase_eq (d : Dict String DiscoveredPeer) (p q : String) :
    (AList.erase p d).lookup q = if q = p then none else d.lookup q := by
  split_ifs with hq
  · rw [hq]
    exact AList.lookup_erase ..
  · exact AList.lookup_erase_ne hq

theorem Reported.addPod (h : s.Reported) (podName address : String) :
    (s.addPod podName address).Reported where
  same p := by
    simp only [Discovery.addPod, reportedPeers_append_singleton, Dict.lookup_setItem]
    rw [h.same]
  named p peer hpeer := by
    simp only [Discovery.addPod, Dict.lookup_setItem] at hpeer
    split_ifs at hpeer with hp
    · cases hpeer
      exact hp.symm
    · exact h.named p peer hpeer

theorem Reported.removePod (h : s.Reported) (podName : String) : (s.removePod podName).Reported where
  same p := by
    simp only [Discovery.removePod, reportedPeers_append_singleton, lookup_erase_eq]
    rw [h.same]
  named p peer hpeer := by
    simp only [Discovery.removePod, lookup_erase_eq] at hpeer
    split_ifs at hpeer
    · cases hpeer
    · exact h.named p peer hpeer

theorem Reported.podSeen (h : s.Reported) (podName : String) (status : PodStatus) :
    (s.podSeen podName status).Reported := by
  unfold Discovery.podSeen
  split
  · split_ifs
    · exact h.addPod _ _
    · exact h
  · split_ifs
    · exact h.removePod _
    · exact h

theorem Reported.podGone (h : s.Reported) (podName : String) : (s.podGone podName).Reported := by
  unfold Discovery.podGone
  split_ifs
  · exact h.removePod _
  · exact h

theorem Reported.handlePodEvent (h : s.Reported) (e : PodEvent) : (s.handlePodEvent e).Reported := by
  unfold Discovery.handlePodEvent
  split_ifs
  · exact h
  · cases e.phase with
    | added => exact h.podSeen _ _
    | modified => exact h.podSeen _ _
    | deleted => exact h.podGone _

theorem lookup_of_known {peer : Option DiscoveredPeer} (h : s.knownPods.lookup podName = peer)
    (p : String) :
    s.knownPods.lookup p = if p = podName then peer else s.knownPods.lookup p := by
  subst h
  split_ifs with hp
  · rw [hp]
  · rfl

theorem lookup_podSeen (h : s.Reported) {status : PodStatus}
    (he : status.phase = .running → ∀ peer ∈ s.knownPods.lookup podName,
      status.runningIP = some peer.address) (p : String) :
    (s.podSeen podName status).knownPods.lookup p =
      if p = podName then status.runningIP.map (DiscoveredPeer.mk podName)
      else s.knownPods.lookup p := by
  rw [podSeen]
  cases hip : status.runningIP with
  | some podIp =>
    have hrun : status.phase = .running := by
      by_contra hrun
      simp [PodStatus.runningIP, hrun] at hip
    dsimp only
    split_ifs with hknown hp hp
    · simp [addPod, hp]
    · simp [addPod, hp]
    · obtain ⟨peer, hpeer⟩ := Option.ne_none_iff_exists'.mp hknown
      have haddress := he hrun peer hpeer
      have hid := h.named podName _ hpeer
      rw [hip] at haddress
      rw [hp, hpeer, Option.map_some, ← hid, Option.some.inj haddress]
    · rfl
  | none =>
    by_cases hknown : s.knownPods.lookup podName = none
    · rw [if_neg fun hboth => hboth.2 hknown]
      exact lookup_of_known hknown p
    · have hrun : status.phase ≠ .running := by
        intro hrun
        obtain ⟨peer, hpeer⟩ := Option.ne_none_iff_exists'.mp hknown
        have haddress := he hrun peer hpeer
        rw [hip] at haddress
        cases haddress
      rw [if_pos ⟨hrun, hknown⟩]
      exact lookup_erase_eq _ _ _

theorem lookup_podGone (s : Discovery) (podName p : String) :
    (s.podGone podName).knownPods.lookup p =
      if p = podName then none else s.knownPods.lookup p := by
  rw [podGone]
  split_ifs with hknown hp hp
  · rw [hp]
    exact AList.lookup_erase ..
  · exact AList.lookup_erase_ne hp
  · rw [hp]
    exact not_not.mp hknown
  · rfl

/-- An event that is expected leaves the pod known as it is. -/
theorem lookup_handlePodEvent (h : s.Reported) (hname : e.podName ≠ "") (he : s.Expected e) (p : String) :
    (s.handlePodEvent e).knownPods.lookup p =
      if p = e.podName then e.peerAfter else s.knownPods.lookup p := by
  rw [handlePodEvent, if_neg hname, PodEvent.peerAfter]
  cases hphase : e.phase with
  | added => exact lookup_podSeen h (he (by simp [hphase])) p
  | modified => exact lookup_podSeen h (he (by simp [hphase])) p
  | deleted => exact lookup_podGone s e.podName p

/-- What is known of a pod is up to date, or the events under way will bring it up to date. -/
structure Tracks (s : Discovery) : Prop where
  reported : s.Reported
  named : s.pods.lookup "" = none
  alive : s.watch ≠ .dead
  connected : ∀ queue, s.watch = .connected queue → s.aborter = true ∧
    (∀ e ∈ queue, e.podName ≠ "") ∧
    ∀ podName, match lastEvent queue podName with
      | some e => e.peerAfter = s.runningPeer podName
      | none => s.knownPods.lookup podName = s.runningPeer podName

theorem Tracks.current (h : s.Tracks) : s.Current where
  known hwatch podName := by
    have hknown := (h.connected [] hwatch).2.2 podName
    exact ⟨hknown, (h.reported.same podName).trans hknown⟩
  alive := h.alive

/-- A change of a pod, of which a connected watch sends an event. -/
theorem Tracks.notify (h : s.Tracks) {pods : Dict String PodStatus} (hempty : pods.lookup "" = none)
    (hname : e.podName ≠ "")
    (hsame : ∀ podName, podName ≠ e.podName → pods.lookup podName = s.pods.lookup podName)
    (hafter : e.peerAfter = runningPeer { s with pods := pods } e.podName) :
    Tracks (Discovery.notify { s with pods := pods } e) := by
  have hpods : (Discovery.notify { s with pods := pods } e).pods = pods ∧
      (Discovery.notify { s with pods := pods } e).knownPods = s.knownPods ∧
      (Discovery.notify { s with pods := pods } e).reports = s.reports ∧
      (Discovery.notify { s with pods := pods } e).aborter = s.aborter := by
    unfold Discovery.notify
    split <;> exact ⟨rfl, rfl, rfl, rfl⟩
  obtain ⟨hpods, hknown, hreports, haborter⟩ := hpods
  have hpeer : ∀ p, (Discovery.notify { s with pods := pods } e).runningPeer p =
      runningPeer { s with pods := pods } p := by
    intro p
    rw [runningPeer, runningPeer, hpods]
  refine ⟨⟨fun p => ?_, fun p peer hp => ?_⟩, by rw [hpods]; exact hempty, ?_, fun queue hqueue => ?_⟩
  · rw [hknown, hreports]
    exact h.reported.same p
  · rw [hknown] at hp
    exact h.reported.named p peer hp
  · unfold Discovery.notify
    split
    · exact nofun
    · exact h.alive
  · unfold Discovery.notify at hqueue
    split at hqueue
    · rename_i old hold
      cases hqueue
      obtain ⟨hab, hnames, hlast⟩ := h.connected old hold
      refine ⟨haborter.trans hab, fun e' he' => ?_, fun p => ?_⟩
      · rcases List.mem_append.mp he' with he' | he'
        · exact hnames e' he'
        · cases List.mem_singleton.mp he'
          exact hname
      · rw [lastEvent_append_singleton, hpeer, hknown]
        by_cases hp : e.podName = p
        · subst hp
          rw [if_pos rfl]
          exact hafter
        · have hrun : runningPeer { s with pods := pods } p = s.runningPeer p := by
            rw [runningPeer, runningPeer, hsame p (Ne.symm hp)]
          rw [if_neg hp, hrun]
          exact hlast p
    · rename_i hnot
      exact absurd hqueue (hnot queue)

theorem mem_podList {x : String × PodStatus} : x ∈ s.podList ↔ s.pods.lookup x.1 = some x.2 := by
  have hmem : s.pods.lookup x.1 = some x.2 ↔
      (⟨x.1, x.2⟩ : Sigma fun _ : String => PodStatus) ∈ s.pods.entries := AList.mem_lookup_iff
  rw [hmem, podList, List.mem_map]
  constructor
  · rintro ⟨y, hy, rfl⟩
    exact hy
  · intro hx
    exact ⟨_, hx, rfl⟩

theorem Tracks.connect (h : s.Tracks) {order : List (String × PodStatus)}
    (horder : order.Perm s.podList)
    (hgone : ∀ podName ∈ s.knownPods.keys, podName ∈ s.pods.keys) :
    Tracks { s with
      watch := .connected (order.map fun x => ⟨.added, x.1, x.2⟩)
      aborter := true } := by
  have hmem : ∀ x, x ∈ order ↔ s.pods.lookup x.1 = some x.2 :=
    fun x => horder.mem_iff.trans mem_podList
  refine ⟨⟨h.reported.same, h.reported.named⟩, h.named, nofun, fun queue hqueue => ?_⟩
  cases hqueue
  refine ⟨rfl, fun e he => ?_, fun p => ?_⟩
  · obtain ⟨x, hx, rfl⟩ := List.mem_map.mp he
    intro hempty
    have hlookup := (hmem x).mp hx
    rw [show x.1 = "" from hempty, h.named] at hlookup
    cases hlookup
  · cases hlast : lastEvent (order.map fun x => ⟨.added, x.1, x.2⟩) p with
    | some e =>
      obtain ⟨he, rfl⟩ := mem_of_lastEvent hlast
      obtain ⟨x, hx, rfl⟩ := List.mem_map.mp he
      simp [PodEvent.peerAfter, runningPeer, (hmem x).mp hx]
    | none =>
      have hno : s.pods.lookup p = none := by
        rw [Option.eq_none_iff_forall_ne_some]
        intro status hstatus
        have hx := (hmem (p, status)).mpr hstatus
        exact lastEvent_eq_none hlast _ (List.mem_map.mpr ⟨_, hx, rfl⟩) rfl
      have hknown : s.knownPods.lookup p = none := by
        by_contra hknown
        have hmem : p ∈ s.knownPods.keys := not_not.mp fun h => hknown (AList.lookup_eq_none.mpr h)
        exact AList.lookup_eq_none.mp hno (hgone p hmem)
      simp [runningPeer, hno, hknown]

theorem handlePodEvent_frame (s : Discovery) (e : PodEvent) :
    (s.handlePodEvent e).pods = s.pods ∧ (s.handlePodEvent e).watch = s.watch ∧
      (s.handlePodEvent e).aborter = s.aborter := by
  have hseen : (s.podSeen e.podName e.status).pods = s.pods ∧
      (s.podSeen e.podName e.status).watch = s.watch ∧
      (s.podSeen e.podName e.status).aborter = s.aborter := by
    unfold podSeen
    split <;> split_ifs <;> exact ⟨rfl, rfl, rfl⟩
  unfold handlePodEvent
  split_ifs
  · exact ⟨rfl, rfl, rfl⟩
  · cases e.phase with
    | added => exact hseen
    | modified => exact hseen
    | deleted =>
      dsimp only [podGone]
      split_ifs <;> exact ⟨rfl, rfl, rfl⟩

theorem Tracks.deliver (h : s.Tracks) (hwatch : s.watch = .connected (e :: queue))
    (he : s.Expected e) : Tracks (handlePodEvent { s with watch := .connected queue } e) := by
  obtain ⟨hab, hnames, hlast⟩ := h.connected _ hwatch
  obtain ⟨hpods, hwatch', haborter⟩ := handlePodEvent_frame { s with watch := .connected queue } e
  have hreported : Reported { s with watch := .connected queue } :=
    ⟨h.reported.same, h.reported.named⟩
  have hlookup := lookup_handlePodEvent (s := { s with watch := .connected queue }) hreported
    (hnames e List.mem_cons_self) he
  have hpeer : ∀ p, (handlePodEvent { s with watch := .connected queue } e).runningPeer p =
      s.runningPeer p := by
    intro p
    rw [runningPeer, runningPeer, hpods]
  refine ⟨hreported.handlePodEvent e, by rw [hpods]; exact h.named, by rw [hwatch']; exact nofun,
    fun queue' hqueue => ?_⟩
  rw [hwatch'] at hqueue
  cases hqueue
  refine ⟨haborter.trans hab, fun e' he' => hnames e' (List.mem_cons_of_mem _ he'), fun p => ?_⟩
  have hp := hlast p
  rw [lastEvent_cons] at hp
  rw [hpeer, hlookup]
  cases hq : lastEvent queue p with
  | some e' => simpa [hq] using hp
  | none =>
    simp only [hq, Option.none_or] at hp
    by_cases hname : e.podName = p
    · simpa [hname] using hp
    · simpa [hname, Ne.symm hname] using hp

/-- The watch is not connected, and will be. -/
theorem Tracks.disconnect (h : s.Tracks) {watch : WatchState} (aborter : Bool)
    (hdead : watch ≠ .dead) (hnot : ∀ queue, watch ≠ .connected queue) :
    Tracks { s with watch := watch, aborter := aborter } :=
  ⟨⟨h.reported.same, h.reported.named⟩, h.named, hdead, fun queue hqueue => absurd hqueue (hnot queue)⟩

theorem Tracks.step {a : DiscoveryAct} (h : s.Tracks) (ha : s.Unsurprising a)
    (ht : s.step a = some t) : t.Tracks := by
  cases a with
  | podCreated podName status =>
    simp only [Discovery.step] at ht
    split_ifs at ht with hnew
    cases ht
    refine h.notify ?_ hnew.1 (fun p hp => ?_) ?_
    · rw [Dict.lookup_setItem, if_neg (Ne.symm hnew.1)]
      exact h.named
    · rw [Dict.lookup_setItem, if_neg hp]
    · simp [PodEvent.peerAfter, runningPeer]
  | podChanged podName status =>
    simp only [Discovery.step] at ht
    split_ifs at ht with hold
    cases ht
    have hname : podName ≠ "" := by
      rintro rfl
      exact hold h.named
    refine h.notify ?_ hname (fun p hp => ?_) ?_
    · rw [Dict.lookup_setItem, if_neg (Ne.symm hname)]
      exact h.named
    · rw [Dict.lookup_setItem, if_neg hp]
    · simp [PodEvent.peerAfter, runningPeer]
  | podDeleted podName =>
    simp only [Discovery.step] at ht
    split at ht
    · rename_i status hold
      cases ht
      have hname : podName ≠ "" := by
        rintro rfl
        rw [h.named] at hold
        cases hold
      refine h.notify ?_ hname (fun p hp => AList.lookup_erase_ne hp) ?_
      · rw [AList.lookup_erase_ne (Ne.symm hname)]
        exact h.named
      · simp [PodEvent.peerAfter, runningPeer]
    · cases ht
  | connect order =>
    simp only [Discovery.step] at ht
    split_ifs at ht with horder
    cases ht
    exact h.connect horder.2 ha
  | deliver =>
    simp only [Discovery.step] at ht
    split at ht
    · rename_i e queue hwatch
      cases ht
      exact h.deliver hwatch (ha e (by simp [nextEvent, hwatch]))
    · cases ht
  | fail rejects =>
    obtain ⟨rfl, haborter⟩ := ha
    simp only [Discovery.step, Bool.false_eq_true, if_false] at ht
    split_ifs at ht
    cases ht
    exact h.disconnect true (by simp [afterEnd, haborter]) (by simp [afterEnd, haborter])
  | close =>
    simp only [Discovery.step] at ht
    split at ht
    · rename_i queue hwatch
      cases ht
      have haborter := (h.connected queue hwatch).1
      exact h.disconnect s.aborter (by simp [afterEnd, haborter]) (by simp [afterEnd, haborter])
    · cases ht
  | restart =>
    simp only [Discovery.step] at ht
    split_ifs at ht
    cases ht
    exact h.disconnect s.aborter nofun nofun

theorem tracks_start {pods : Dict String PodStatus} (hempty : pods.lookup "" = none) :
    (start pods).Tracks := by
  have hfold : ∀ (entries : List (Sigma fun _ : String => PodStatus)) (s : Discovery), s.Reported →
      s.pods = pods →
        Reported (entries.foldl (fun s x => handlePodEvent s ⟨.added, x.1, x.2⟩) s) ∧
        (entries.foldl (fun s x => handlePodEvent s ⟨.added, x.1, x.2⟩) s).pods = pods := by
    intro entries
    induction entries with
    | nil => exact fun s h hp => ⟨h, hp⟩
    | cons x entries ih =>
      intro s h hp
      exact ih _ (h.handlePodEvent _) ((handlePodEvent_frame s _).1.trans hp)
  obtain ⟨hreported, hpods⟩ := hfold pods.entries
    { pods := pods, knownPods := ∅, reports := [], aborter := false, watch := .connecting }
    ⟨fun _ => rfl, nofun⟩ rfl
  refine ⟨⟨hreported.same, hreported.named⟩, ?_, nofun, nofun⟩
  rw [start, hpods]
  exact hempty

/-- In every run in which no known pod is seen running with another address or is gone when the watch
connects, and the first call of `watch` does not fail, the running pods are known and reported, and no
others, whenever all events were delivered. -/
theorem known_pods_current {pods : Dict String PodStatus} {acts : List DiscoveryAct}
    (hempty : pods.lookup "" = none) (hrun : Transition.run step (start pods) acts = some s)
    (h : Transition.Along step Unsurprising (start pods) acts) : s.Current :=
  (Transition.run_invariant_along (fun _ _ _ htracks ha ht => htracks.step ha ht)
    (tracks_start hempty) h hrun).current

def runningAt (address : String) : PodStatus := ⟨.running, some address⟩

def onePod : Dict String PodStatus := Dict.setItem ∅ "b" (runningAt "10.0.0.2")

/-- A pod that goes on with another address. -/
def readdressed : List DiscoveryAct :=
  [.connect [("b", runningAt "10.0.0.2")], .deliver, .podChanged "b" (runningAt "10.0.0.7"), .deliver]

/-- A pod that is deleted while no watch is connected. -/
def lostDelete : List DiscoveryAct :=
  [.connect [("b", runningAt "10.0.0.2")], .deliver, .close, .podDeleted "b", .restart, .connect []]

def knownOf (s : Discovery) : WatchState × Option DiscoveredPeer × Option DiscoveredPeer :=
  (s.watch, s.knownPods.lookup "b", s.runningPeer "b")

/-- The old address stays, a deleted pod stays, and a first watch that fails is never called again. -/
theorem known_pods_stale :
    (∃ s, Transition.run step (start onePod) readdressed = some s ∧ ¬ s.Current ∧
      knownOf s = (.connected [], some ⟨"b", "10.0.0.2"⟩, some ⟨"b", "10.0.0.7"⟩)) ∧
    (∃ s, Transition.run step (start onePod) lostDelete = some s ∧ ¬ s.Current ∧
      knownOf s = (.connected [], some ⟨"b", "10.0.0.2"⟩, none)) ∧
    ∃ s, Transition.run step (start onePod) [.fail false, .podDeleted "b"] = some s ∧ ¬ s.Current ∧
      knownOf s = (.dead, some ⟨"b", "10.0.0.2"⟩, none) := by
  have hstale : ∀ {acts known running}, ((Transition.run step (start onePod) acts).map knownOf) =
      some (.connected [], known, running) → known ≠ running →
      ∃ s, Transition.run step (start onePod) acts = some s ∧ ¬ s.Current ∧
        knownOf s = (.connected [], known, running) := by
    intro acts known running h hne
    obtain ⟨s, hrun, hs⟩ := Option.map_eq_some_iff.mp h
    simp only [knownOf, Prod.mk.injEq] at hs
    refine ⟨s, hrun, fun hcurrent => hne ?_, by simp [knownOf, hs]⟩
    have hknown := (hcurrent.known hs.1 "b").1
    rwa [hs.2.1, hs.2.2] at hknown
  refine ⟨hstale (by decide +kernel) (by decide), hstale (by decide +kernel) (by decide), ?_⟩
  have hdead : ((Transition.run step (start onePod) [.fail false, .podDeleted "b"]).map knownOf) =
      some (.dead, some ⟨"b", "10.0.0.2"⟩, none) := by decide +kernel
  obtain ⟨s, hrun, hs⟩ := Option.map_eq_some_iff.mp hdead
  exact ⟨s, hrun, fun hcurrent => hcurrent.alive (congrArg (·.1) hs), hs⟩

/-- A pod that is deleted and comes back with another address, before and after a watch that ends. -/
theorem known_pods_current_restarted :
    ∃ s, Transition.run step (start onePod) [.connect [("b", runningAt "10.0.0.2")], .deliver,
        .podDeleted "b", .deliver, .close, .podCreated "b" (runningAt "10.0.0.7"), .restart,
        .fail false, .restart, .connect [("b", runningAt "10.0.0.7")], .deliver] = some s ∧
      s.Current := by
  have hrun : ((Transition.run step (start onePod) [.connect [("b", runningAt "10.0.0.2")], .deliver,
      .podDeleted "b", .deliver, .close, .podCreated "b" (runningAt "10.0.0.7"), .restart,
      .fail false, .restart, .connect [("b", runningAt "10.0.0.7")], .deliver])).isSome := by
    decide +kernel
  obtain ⟨s, hrun⟩ := Option.isSome_iff_exists.mp hrun
  exact ⟨s, hrun, known_pods_current (by decide) hrun (by decide +kernel)⟩

end Discovery

end GpuSharing.Sardeenz.PodDiscovery
