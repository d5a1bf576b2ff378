import GpuSharing.Lib.Transition
import GpuSharing.Sardeenz.ClusterRouting

namespace GpuSharing.Sardeenz.ClusterRouting

/-- The fields of a `ModelInstance` that the router reads. -/
structure RoutedInstance where
  id : String
  modelPath : String
  modelName : String
  port : Nat
  status : ModelStatus
  routable : Bool
  autoWakeOnRequest : Bool
  deriving DecidableEq, Repr

structure CircuitBreakerState where
  failures : List Int
  cooldownUntil : Int
  deriving DecidableEq, Repr

abbrev CircuitBreaker := Dict String CircuitBreakerState

def CircuitBreaker.isOpen (breaker : CircuitBreaker) (now : Int) (podId : String) : Bool :=
  match breaker.lookup podId with
  | some state => 0 < state.cooldownUntil ∧ now < state.cooldownUntil
  | none => false

/-- The list that the weighted round-robin goes through: each entry as often as its weight says. -/
def weighted (entries : List RoutingEntry) : List RoutingEntry :=
  entries.flatMap fun e => List.replicate e.weight e

/-- A model's weighted list is kept with the version of the table that it was made of. -/
structure WeightedRoundRobin where
  counters : Dict String Nat
  cachedWeighted : Dict String (List RoutingEntry × Nat)

namespace WeightedRoundRobin

/-- The weighted list that `select` goes on with. -/
def cachedFor (rr : WeightedRoundRobin) (tableVersion : Nat) (modelName : String)
    (entries : List RoutingEntry) : List RoutingEntry :=
  match rr.cachedWeighted.lookup modelName with
  | some (cached, version) => if version = tableVersion then cached else weighted entries
  | none => weighted entries

/-- A single entry is taken as it is; otherwise the counter goes round the cached list, of which
`select` does not ask whether its entries are still among those it is given. -/
def select (rr : WeightedRoundRobin) (tableVersion : Nat) (modelName : String) :
    List RoutingEntry → Option RoutingEntry × WeightedRoundRobin
  | [entry] => (some entry, rr)
  | entries =>
    let cached := rr.cachedFor tableVersion modelName entries
    let idx := (rr.counters.lookup modelName).getD 0
    (cached[idx % cached.length]?,
      { counters := rr.counters.setItem modelName ((idx + 1) % cached.length)
        cachedWeighted := rr.cachedWeighted.setItem modelName (cached, tableVersion) })

end WeightedRoundRobin

/-- `RoundRobinBalancer.selectInstance`; there is none to select from an empty list. -/
def selectInstance (nextIndex : Dict String Nat) :
    List RoutedInstance → Option RoutedInstance × Dict String Nat
  | [] => (none, nextIndex)
  | [x] => (some x, nextIndex)
  | x :: y :: rest =>
    let instances := x :: y :: rest
    let currentIndex := (nextIndex.lookup x.modelPath).getD 0
    (instances[currentIndex % instances.length]?,
      nextIndex.setItem x.modelPath ((currentIndex + 1) % instances.length))

structure RouteError where
  statusCode : Nat
  message : String
  deriving DecidableEq, Repr

/-- Where a request goes. `wake` is the auto-wake of an instance, after which the request is routed
again. -/
inductive Route
  | localInstance (x : RoutedInstance)
  | remotePod (entry : RoutingEntry)
  | wake (x : RoutedInstance)
  | failed (error : RouteError)
  deriving DecidableEq, Repr

/-- The parts of a pod that its `ProxyRouter` works with: the instances of its `ModelStore` in the
order in which they were added, the routing table and the router's own state. -/
structure Router where
  instances : List RoutedInstance
  table : ClusterRoutingStore
  now : Int
  circuitBreaker : CircuitBreaker
  weightedRR : WeightedRoundRobin
  loadBalancer : Dict String Nat
  distinct : (instances.map (·.id)).Nodup

namespace Router

def getAllByName (s : Router) (modelName : String) : List RoutedInstance :=
  s.instances.filter (·.modelName = modelName)

def getRunningByName (s : Router) (modelName : String) : List RoutedInstance :=
  (s.getAllByName modelName).filter fun x => x.status = .running ∧ x.routable

def getAllNames (s : Router) : List String := (s.instances.map (·.modelName)).dedup

/-- The entries of the model whose pod is not circuit-broken. -/
def available (s : Router) (entries : List RoutingEntry) : List RoutingEntry :=
  entries.filter fun e => !s.circuitBreaker.isOpen s.now e.podId

def routeLocal (s : Router) (modelPath : String) : Route × Router :=
  match selectInstance s.loadBalancer (s.getRunningByName modelPath) with
  | (some x, nextIndex) => (.localInstance x, { s with loadBalancer := nextIndex })
  | (none, _) =>
    (.failed ⟨503, "Model " ++ modelPath ++ " has no running local instances"⟩, s)

/-- `forwardToRemotePod`, with the entry that the weighted round-robin has selected. -/
def forwardToRemotePod (s : Router) : Option RoutingEntry × WeightedRoundRobin → Route × Router
  | (some entry, rr) => (.remotePod entry, { s with weightedRR := rr })
  | (none, rr) => (.failed ⟨500, "Internal server error"⟩, { s with weightedRR := rr })

def routeWithWeightedRR (s : Router) (modelPath : String) (entries : List RoutingEntry) :
    Route × Router :=
  if s.available entries = [] then s.routeLocal modelPath
  else
    let selected := s.weightedRR.select s.table.version modelPath (s.available entries)
    let isLocal := selected.1.any fun entry =>
      (s.table.getLocalEntries modelPath).any (·.podId = entry.podId)
    if isLocal then { s with weightedRR := selected.2 }.routeLocal modelPath
    else s.forwardToRemotePod selected

def statusText : ModelStatus → String
  | .starting => "starting"
  | .running => "running"
  | .sleeping => "sleeping"
  | .stopping => "stopping"
  | .failed => "failed"

/-- The end of `routeRequest`, where no running instance and no available entry was found. -/
def routeIdle (s : Router) (modelPath : String) : Route :=
  let allInstances := s.getAllByName modelPath
  if allInstances = [] then
    if s.table.getRoutingEntries modelPath ≠ [] then
      .failed ⟨503, "Model " ++ modelPath ++
        " is available on remote pods but all are circuit-broken. Retry after cooldown."⟩
    else
      .failed ⟨404, "Model " ++ modelPath ++ " not loaded. Available models: " ++
        ", ".intercalate s.getAllNames⟩
  else
    let sleepingInstances := allInstances.filter (·.status = .sleeping)
    if sleepingInstances ≠ [] then
      match sleepingInstances.find? (·.autoWakeOnRequest) with
      | some x => .wake x
      | none => .failed ⟨503, "Model " ++ modelPath ++ " is sleeping. Wake it up to serve requests."⟩
    else
      .failed ⟨503, "Model " ++ modelPath ++ " has no running instances. Instance states: " ++
        ", ".intercalate (allInstances.map fun x =>
          String.ofList (x.id.toList.take 8) ++ ":" ++ statusText x.status)⟩

/-- One pass of `routeRequest`, from its start to where it forwards, waits or gives up. -/
def routeRequest (s : Router) (modelPath : String) (isForwarded : Bool) : Route × Router :=
  if isForwarded then s.routeLocal modelPath
  else
    let routingEntries := s.table.getRoutingEntries modelPath
    if s.getRunningByName modelPath ≠ [] then
      if 1 < routingEntries.length then s.routeWithWeightedRR modelPath routingEntries
      else s.routeLocal modelPath
    else if s.available routingEntries ≠ [] then
      s.forwardToRemotePod
        (s.weightedRR.select s.table.version modelPath (s.available routingEntries))
    else (s.routeIdle modelPath, s)

/-- A whole call of `routeRequest`. Each auto-wake ends in the next of the states `woken`, or throws.
The last state is the one in which the request was forwarded or given up. -/
def serve (s : Router) (woken : List (Option Router)) (modelPath : String) (isForwarded : Bool) :
    Option (Router × Route) :=
  match (s.routeRequest modelPath isForwarded).1, woken with
  | .wake _, [] => none
  | .wake _, none :: _ => some (s, .failed ⟨500, "Failed to wake model"⟩)
  | .wake _, some t :: woken =>
    if t.getRunningByName modelPath ≠ [] then t.serve woken modelPath isForwarded
    else some (t, .failed
      ⟨503, "Model " ++ modelPath ++ " is sleeping. Wake it up to serve requests."⟩)
  | route, _ => some (s, route)

/-- What changes a router: its requests, the table's updates, and whatever the pod does with its
instances, its circuit breaker and its clock. -/
inductive Act
  | request (modelPath : String) (isForwarded : Bool)
  | rebuildFromPeers (peers : PeerStore)
  | removeEntriesForPod (podId : String)
  | removeEntry (modelName podId : String)
  | store (instances : List RoutedInstance) (distinct : (instances.map (·.id)).Nodup)
  | breaker (circuitBreaker : CircuitBreaker)
  | clock (now : Int)

def step (s : Router) : Act → Router
  | .request modelPath isForwarded => (s.routeRequest modelPath isForwarded).2
  | .rebuildFromPeers peers =>
    { s with table := s.table.rebuildFromPeers s.now peers.getAllPeers }
  | .removeEntriesForPod podId => { s with table := s.table.removeEntriesForPod podId }
  | .removeEntry modelName podId => { s with table := s.table.removeEntry modelName podId }
  | .store instances distinct => { s with instances := instances, distinct := distinct }
  | .breaker circuitBreaker => { s with circuitBreaker := circuitBreaker }
  | .clock now => { s with now := now }

end Router

/-- What the router keeps of a table: a list of the table's own version holds entries of it. -/
def WeightedRoundRobin.Fits (rr : WeightedRoundRobin) (table : ClusterRoutingStore) : Prop :=
  ∀ modelName cached version, rr.cachedWeighted.lookup modelName = some (cached, version) →
    version ≤ table.version ∧
      (version = table.version → ∀ e ∈ cached, e ∈ table.getRoutingEntries modelName)

/-- The request reaches the instance: it was selected among the local ones, or the entry is the
pod's own with the port of the instance. -/
def Route.Reaches (localPodId : String) (x : RoutedInstance) : Route → Prop
  | .localInstance y => y.id = x.id
  | .remotePod entry => entry.podId = localPodId ∧ entry.vllmPort = x.port
  | _ => False

section Select

variable {rr : WeightedRoundRobin} {table : ClusterRoutingStore} {modelName : String}
  {entries : List RoutingEntry} {e : RoutingEntry}

theorem mem_weighted : e ∈ weighted entries ↔ e ∈ entries ∧ e.weight ≠ 0 := by
  rw [weighted, List.mem_flatMap]
  constructor
  · rintro ⟨x, hx, he⟩
    obtain ⟨hweight, rfl⟩ := List.mem_replicate.mp he
    exact ⟨hx, hweight⟩
  · rintro ⟨he, hweight⟩
    exact ⟨e, he, List.mem_replicate.mpr ⟨hweight, rfl⟩⟩

theorem cachedFor_subset (hfits : rr.Fits table)
    (hentries : ∀ e ∈ entries, e ∈ table.getRoutingEntries modelName) :
    ∀ e ∈ rr.cachedFor table.version modelName entries, e ∈ table.getRoutingEntries modelName := by
  intro e he
  unfold WeightedRoundRobin.cachedFor at he
  split at he
  case h_1 cached version hcached =>
    split_ifs at he with hversion
    · exact (hfits modelName cached version hcached).2 hversion e he
    · exact hentries e (mem_weighted.mp he).1
  case h_2 => exact hentries e (mem_weighted.mp he).1

/-- What is selected is an entry of the table, though perhaps of a pod that was left out. -/
theorem select_mem (hfits : rr.Fits table)
    (hentries : ∀ e ∈ entries, e ∈ table.getRoutingEntries modelName)
    (h : (rr.select table.version modelName entries).1 = some e) :
    e ∈ table.getRoutingEntries modelName := by
  unfold WeightedRoundRobin.select at h
  split at h
  case h_1 entry =>
    cases h
    exact hentries _ List.mem_cons_self
  case h_2 => exact cachedFor_subset hfits hentries e (List.mem_of_getElem? h)

theorem fits_select (hfits : rr.Fits table)
    (hentries : ∀ e ∈ entries, e ∈ table.getRoutingEntries modelName) :
    (rr.select table.version modelName entries).2.Fits table := by
  unfold WeightedRoundRobin.select
  split
  case h_1 => exact hfits
  case h_2 =>
    intro name cached version hlookup
    dsimp only at hlookup
    rw [Dict.lookup_setItem] at hlookup
    split_ifs at hlookup with hname
    · cases hlookup
      subst hname
      exact ⟨le_rfl, fun _ => cachedFor_subset hfits hentries⟩
    · exact hfits name cached version hlookup

/-- A table of a later version owes nothing to the lists kept. -/
theorem fits_of_version_lt {later : ClusterRoutingStore} (hfits : rr.Fits table)
    (h : table.version < later.version) : rr.Fits later := by
  intro name cached version hlookup
  have hle := (hfits name cached version hlookup).1
  exact ⟨by omega, fun heq => by omega⟩

theorem fits_of_entries_eq {other : ClusterRoutingStore} (hfits : rr.Fits table)
    (hversion : other.version = table.version)
    (hentries : ∀ name, other.getRoutingEntries name = table.getRoutingEntries name) :
    rr.Fits other := by
  intro name cached version hlookup
  rw [hversion, hentries]
  exact hfits name cached version hlookup

theorem filter_of_not_holdsPod {podId : String} {modelEntries : List RoutingEntry}
    (h : ClusterRoutingStore.holdsPod podId modelEntries = false) :
    modelEntries.filter (·.podId ≠ podId) = modelEntries := by
  apply List.filter_eq_self.mpr
  intro e he
  have hne := List.any_eq_false.mp h e he
  simpa using hne

theorem fits_removeEntry (hfits : rr.Fits table) (modelName podId : String) :
    rr.Fits (table.removeEntry modelName podId) := by
  cases hholds : ClusterRoutingStore.holdsPod podId (table.getRoutingEntries modelName) with
  | true =>
    apply fits_of_version_lt hfits
    simp [ClusterRoutingStore.removeEntry, hholds]
  | false =>
    apply fits_of_entries_eq hfits
    · simp [ClusterRoutingStore.removeEntry, hholds]
    · intro name
      rw [ClusterRoutingStore.getRoutingEntries_removeEntry]
      split_ifs with hname
      · rw [hname, filter_of_not_holdsPod hholds]
      · rfl

theorem fits_removeEntriesForPod (hfits : rr.Fits table) (podId : String) :
    rr.Fits (table.removeEntriesForPod podId) := by
  cases hany : table.entries.entries.any (ClusterRoutingStore.holdsPod podId ·.2) with
  | true =>
    apply fits_of_version_lt hfits
    simp [ClusterRoutingStore.removeEntriesForPod, hany]
  | false =>
    apply fits_of_entries_eq hfits
    · simp [ClusterRoutingStore.removeEntriesForPod, hany]
    · intro name
      rw [ClusterRoutingStore.getRoutingEntries_removeEntriesForPod]
      cases hlookup : table.entries.lookup name with
      | none => simp [ClusterRoutingStore.getRoutingEntries, hlookup]
      | some modelEntries =>
        have hholds := List.any_eq_false.mp hany _ (AList.mem_lookup_iff.mp hlookup)
        have hentries : table.getRoutingEntries name = modelEntries := by
          rw [ClusterRoutingStore.getRoutingEntries, hlookup]
          rfl
        rw [hentries]
        exact filter_of_not_holdsPod (by simpa using hholds)

end Select

theorem selectInstance_mem {nextIndex : Dict String Nat} {instances : List RoutedInstance}
    {x : RoutedInstance} (h : (selectInstance nextIndex instances).1 = some x) : x ∈ instances := by
  unfold selectInstance at h
  split at h
  case h_1 => cases h
  case h_2 =>
    cases h
    exact List.mem_cons_self
  case h_3 => exact List.mem_of_getElem? h

namespace Router

variable {s t : Router} {modelPath : String} {isForwarded : Bool} {x : RoutedInstance}

theorem mem_available {entries : List RoutingEntry} {e : RoutingEntry} :
    e ∈ s.available entries ↔ e ∈ entries ∧ s.circuitBreaker.isOpen s.now e.podId = false := by
  simp [available]

theorem available_subset (s : Router) (modelPath : String) :
    ∀ e ∈ s.available (s.table.getRoutingEntries modelPath),
      e ∈ s.table.getRoutingEntries modelPath :=
  fun _ he => (mem_available.mp he).1

/-- Ids tell the instances of the store apart. -/
theorem eq_of_id_eq {y : RoutedInstance} (hx : x ∈ s.instances) (hy : y ∈ s.instances)
    (h : y.id = x.id) : y = x :=
  List.inj_on_of_nodup_map s.distinct hy hx h

/-- Local routing honours the routable flag. -/
theorem not_reaches_routeLocal (hx : x ∈ s.instances) (hroutable : x.routable = false)
    (p modelPath : String) : ¬ (s.routeLocal modelPath).1.Reaches p x := by
  intro hreach
  unfold routeLocal at hreach
  split at hreach
  case h_1 y nextIndex hselect =>
    have hy : y ∈ s.getRunningByName modelPath := selectInstance_mem (congrArg Prod.fst hselect)
    simp only [getRunningByName, getAllByName, List.mem_filter, decide_eq_true_eq] at hy
    have heq := eq_of_id_eq hx hy.1.1 hreach
    rw [heq, hroutable] at hy
    exact absurd hy.2.2 (by simp)
  case h_2 => exact hreach

theorem forwardToRemotePod_reaches {selected : Option RoutingEntry × WeightedRoundRobin}
    {p : String} (h : (s.forwardToRemotePod selected).1.Reaches p x) :
    ∃ e, selected.1 = some e ∧ e.podId = p ∧ e.vllmPort = x.port := by
  obtain ⟨entry, rr⟩ := selected
  cases entry with
  | none => exact absurd h id
  | some e => exact ⟨e, rfl, h⟩

/-- With a running instance of the pod itself, the pod's own entry means that instance. -/
theorem not_reaches_routeWithWeightedRR (hfits : s.weightedRR.Fits s.table) (hx : x ∈ s.instances)
    (hroutable : x.routable = false) (modelPath : String) :
    ¬ (s.routeWithWeightedRR modelPath (s.table.getRoutingEntries modelPath)).1.Reaches
      s.table.localPodId x := by
  intro hreach
  unfold routeWithWeightedRR at hreach
  split_ifs at hreach with hnone
  · exact not_reaches_routeLocal hx hroutable _ _ hreach
  · dsimp only at hreach
    split_ifs at hreach with hlocal
    · exact not_reaches_routeLocal (s := { s with weightedRR := (s.weightedRR.select
        s.table.version modelPath (s.available (s.table.getRoutingEntries modelPath))).2 })
        hx hroutable _ _ hreach
    · obtain ⟨e, he, hpod, -⟩ := forwardToRemotePod_reaches hreach
      have hmem := select_mem hfits (s.available_subset modelPath) he
      apply hlocal
      rw [he, Option.any_some, List.any_eq_true]
      exact ⟨e, List.mem_filter.mpr ⟨hmem, by simpa using hpod⟩, by simp⟩

theorem not_reaches_routeIdle (s : Router) (p modelPath : String) (x : RoutedInstance) :
    ¬ (s.routeIdle modelPath).Reaches p x := by
  unfold routeIdle
  dsimp only
  split_ifs
  · exact id
  · exact id
  · split <;> exact id
  · exact id

/-- A list of the table that the pod's own entry for the instance is taken from. -/
def Exposes (s : Router) (modelPath : String) (x : RoutedInstance) : Prop :=
  ∃ e ∈ s.table.getRoutingEntries modelPath,
    e.podId = s.table.localPodId ∧ e.vllmPort = x.port

/-- The request was forwarded to the pod, or the pod has a routable running instance of the name, or
the table has no entry of the pod for the port of the instance, or the pod has circuit-broken
itself and the entries of at most one other pod are left. -/
def KeepsOff (s : Router) (modelPath : String) (isForwarded : Bool) (x : RoutedInstance) : Prop :=
  isForwarded = true ∨ s.getRunningByName modelPath ≠ [] ∨ ¬ s.Exposes modelPath x ∨
    s.circuitBreaker.isOpen s.now s.table.localPodId = true ∧
      (s.available (s.table.getRoutingEntries modelPath)).length ≤ 1

theorem not_reaches_of_keepsOff (hfits : s.weightedRR.Fits s.table) (hx : x ∈ s.instances)
    (hroutable : x.routable = false) (h : s.KeepsOff modelPath isForwarded x) :
    ¬ (s.routeRequest modelPath isForwarded).1.Reaches s.table.localPodId x := by
  intro hreach
  unfold routeRequest at hreach
  dsimp only at hreach
  split_ifs at hreach with hforwarded hrunning hmany havailable
  · exact not_reaches_routeLocal hx hroutable _ _ hreach
  · exact not_reaches_routeWithWeightedRR hfits hx hroutable modelPath hreach
  · exact not_reaches_routeLocal hx hroutable _ _ hreach
  · obtain ⟨e, he, hpod, hport⟩ := forwardToRemotePod_reaches hreach
    have hmem := select_mem hfits (s.available_subset modelPath) he
    rcases h with h | h | h | ⟨hopen, hlength⟩
    · exact hforwarded h
    · exact hrunning h
    · exact h ⟨e, hmem, hpod, hport⟩
    · -- the single entry left is of a pod that is not circuit-broken
      obtain ⟨a, ha⟩ : ∃ a, s.available (s.table.getRoutingEntries modelPath) = [a] := by
        apply List.length_eq_one_iff.mp
        have hpos := List.length_pos_of_ne_nil havailable
        omega
      rw [ha] at he
      cases he
      have hclosed := (mem_available.mp (ha ▸ List.mem_cons_self)).2
      rw [hpod, hopen] at hclosed
      cases hclosed
  · exact not_reaches_routeIdle s _ _ _ hreach

/-- The router whose list of the model stands at an entry of the table. -/
def pointedAt (s : Router) (modelPath : String) (idx : Nat) : WeightedRoundRobin where
  counters := AList.singleton modelPath idx
  cachedWeighted := AList.singleton modelPath
    (weighted (s.table.getRoutingEntries modelPath), s.table.version)

theorem fits_pointedAt (s : Router) (modelPath : String) (idx : Nat) :
    (s.pointedAt modelPath idx).Fits s.table := by
  intro name cached version hlookup
  have hmem := AList.mem_lookup_iff.mp hlookup
  rw [pointedAt, AList.singleton_entries, List.mem_singleton] at hmem
  cases hmem
  exact ⟨le_rfl, fun _ e he => (mem_weighted.mp he).1⟩

theorem select_pointedAt {entries : List RoutingEntry} {e : RoutingEntry} {idx : Nat}
    (hidx : (weighted (s.table.getRoutingEntries modelPath))[idx]? = some e)
    (hentries : ∀ a, entries = [a] → a = e) :
    ((s.pointedAt modelPath idx).select s.table.version modelPath entries).1 = some e := by
  unfold WeightedRoundRobin.select
  split
  case h_1 a => rw [hentries a rfl]
  case h_2 =>
    obtain ⟨hlt, -⟩ := List.getElem?_eq_some_iff.mp hidx
    have hcached : (s.pointedAt modelPath idx).cachedFor s.table.version modelPath entries =
        weighted (s.table.getRoutingEntries modelPath) := by
      simp [pointedAt, WeightedRoundRobin.cachedFor]
    have hcounter : ((s.pointedAt modelPath idx).counters.lookup modelPath).getD 0 = idx := by
      simp [pointedAt]
    dsimp only
    rw [hcached, hcounter, Nat.mod_eq_of_lt hlt, hidx]

/-- Where the condition fails, some state of the round-robin sends the request to the instance. -/
theorem exists_reaches (hweights : ∀ e ∈ s.table.getRoutingEntries modelPath, e.weight ≠ 0)
    (h : ¬ s.KeepsOff modelPath isForwarded x) :
    ∃ (rr : WeightedRoundRobin) (e : RoutingEntry), rr.Fits s.table ∧
      ({ s with weightedRR := rr }.routeRequest modelPath isForwarded).1 = .remotePod e ∧
      e.podId = s.table.localPodId ∧ e.vllmPort = x.port := by
  simp only [KeepsOff, not_or, not_and, not_le, not_not] at h
  obtain ⟨hforwarded, hrunning, ⟨e, he, hpod, hport⟩, hopen⟩ := h
  obtain ⟨idx, hidx⟩ := List.mem_iff_getElem?.mp (mem_weighted.mpr ⟨he, hweights e he⟩)
  have hmem : s.circuitBreaker.isOpen s.now s.table.localPodId = false →
      e ∈ s.available (s.table.getRoutingEntries modelPath) :=
    fun hclosed => mem_available.mpr ⟨he, by rw [hpod, hclosed]⟩
  have havailable : s.available (s.table.getRoutingEntries modelPath) ≠ [] := by
    cases hself : s.circuitBreaker.isOpen s.now s.table.localPodId with
    | true => exact List.ne_nil_of_length_pos (by have := hopen hself; omega)
    | false => exact List.ne_nil_of_mem (hmem hself)
  have hsingle : ∀ a, s.available (s.table.getRoutingEntries modelPath) = [a] → a = e := by
    intro a ha
    cases hself : s.circuitBreaker.isOpen s.now s.table.localPodId with
    | true =>
      have hlength := hopen hself
      rw [ha] at hlength
      exact absurd hlength (by simp)
    | false =>
      have hin := hmem hself
      rw [ha] at hin
      exact (List.mem_singleton.mp hin).symm
  refine ⟨s.pointedAt modelPath idx, e, s.fits_pointedAt modelPath idx, ?_, hpod, hport⟩
  have hselect := select_pointedAt hidx hsingle
  have hrun : { s with weightedRR := s.pointedAt modelPath idx }.getRunningByName modelPath = [] :=
    hrunning
  have hav : { s with weightedRR := s.pointedAt modelPath idx }.available
      (s.table.getRoutingEntries modelPath) ≠ [] := havailable
  unfold routeRequest
  rw [if_neg hforwarded]
  dsimp only
  rw [if_neg (not_not.mpr hrun), if_pos hav]
  unfold forwardToRemotePod
  split
  case h_1 entry rr hsel =>
    have heq : some entry = some e := (congrArg Prod.fst hsel).symm.trans hselect
    cases heq
    rfl
  case h_2 rr hsel =>
    have heq : none = some e := (congrArg Prod.fst hsel).symm.trans hselect
    cases heq

theorem table_routeLocal (s : Router) (modelPath : String) :
    (s.routeLocal modelPath).2.table = s.table ∧
      (s.routeLocal modelPath).2.weightedRR = s.weightedRR := by
  unfold routeLocal
  split <;> exact ⟨rfl, rfl⟩

theorem table_forwardToRemotePod (s : Router)
    (selected : Option RoutingEntry × WeightedRoundRobin) :
    (s.forwardToRemotePod selected).2.table = s.table ∧
      (s.forwardToRemotePod selected).2.weightedRR = selected.2 := by
  obtain ⟨entry, rr⟩ := selected
  cases entry <;> exact ⟨rfl, rfl⟩

/-- A request leaves the table as it is and goes on with lists of its entries. -/
theorem fits_routeRequest (hfits : s.weightedRR.Fits s.table) (modelPath : String)
    (isForwarded : Bool) :
    (s.routeRequest modelPath isForwarded).2.weightedRR.Fits
      (s.routeRequest modelPath isForwarded).2.table := by
  have hlocal : ∀ t : Router, t.weightedRR.Fits t.table →
      (t.routeLocal modelPath).2.weightedRR.Fits (t.routeLocal modelPath).2.table := by
    intro t ht
    rw [(t.table_routeLocal modelPath).1, (t.table_routeLocal modelPath).2]
    exact ht
  have hselect := fits_select hfits (s.available_subset modelPath)
  have hremote : ∀ selected : Option RoutingEntry × WeightedRoundRobin,
      selected.2.Fits s.table → (s.forwardToRemotePod selected).2.weightedRR.Fits
        (s.forwardToRemotePod selected).2.table := by
    intro selected h
    rw [(s.table_forwardToRemotePod selected).1, (s.table_forwardToRemotePod selected).2]
    exact h
  unfold routeRequest
  dsimp only
  split_ifs
  · exact hlocal s hfits
  · unfold routeWithWeightedRR
    dsimp only
    split_ifs
    · exact hlocal s hfits
    · exact hlocal _ hselect
    · exact hremote _ hselect
  · exact hlocal s hfits
  · exact hremote _ hselect
  · exact hfits

/-- The lists that a router keeps fit its table in every state that it can reach. -/
theorem fits_run (acts : List Act) (hfits : s.weightedRR.Fits s.table) :
    (acts.foldl step s).weightedRR.Fits (acts.foldl step s).table := by
  induction acts generalizing s with
  | nil => exact hfits
  | cons a acts ih =>
    apply ih
    cases a with
    | request modelPath isForwarded => exact fits_routeRequest hfits modelPath isForwarded
    | rebuildFromPeers peers => exact fits_of_version_lt hfits (Nat.lt_succ_self _)
    | removeEntriesForPod podId => exact fits_removeEntriesForPod hfits podId
    | removeEntry modelName podId => exact fits_removeEntry hfits modelName podId
    | store instances distinct => exact hfits
    | breaker circuitBreaker => exact hfits
    | clock now => exact hfits

/-- The table is as a rebuild has made it of the peers. -/
def Rebuilt (s : Router) : Prop :=
  ∃ (t : ClusterRoutingStore) (now : Int) (peers : PeerStore),
    s.table = t.rebuildFromPeers now peers.getAllPeers

theorem weight_of_rebuilt (h : s.Rebuilt) {e : RoutingEntry}
    (he : e ∈ s.table.getRoutingEntries modelPath) : e.weight ≠ 0 := by
  obtain ⟨t, now, peers, htable⟩ := h
  rw [htable] at he
  obtain ⟨podId, peer, -, -, m, -, -, -, rfl⟩ := ClusterRoutingStore.mem_rebuildFromPeers.mp he
  unfold ClusterRoutingStore.entryOf
  dsimp only
  split_ifs <;> simp

/-- The request goes to the instance although it is not routable. -/
def Sends (s : Router) (route : Route) (instanceId : String) : Prop :=
  ∃ x ∈ s.instances, x.id = instanceId ∧ x.routable = false ∧
    route.Reaches s.table.localPodId x

/-- A state in which the request is kept off the instance as long as it is not routable. -/
def Guarded (s : Router) (modelPath : String) (isForwarded : Bool) (instanceId : String) : Prop :=
  s.weightedRR.Fits s.table ∧ ∀ x ∈ s.instances, x.id = instanceId → x.routable = false →
    s.KeepsOff modelPath isForwarded x

theorem not_sends_of_guarded {instanceId : String}
    (h : s.Guarded modelPath isForwarded instanceId) :
    ¬ s.Sends (s.routeRequest modelPath isForwarded).1 instanceId := by
  rintro ⟨x, hx, hid, hroutable, hreach⟩
  exact not_reaches_of_keepsOff h.1 hx hroutable (h.2 x hx hid hroutable) hreach

theorem not_sends_failed (s : Router) (error : RouteError) (instanceId : String) :
    ¬ s.Sends (.failed error) instanceId := by
  rintro ⟨x, -, -, -, hreach⟩
  exact hreach

/-- The passes of one request, by induction on the wakes that it awaits. -/
theorem not_sends_serve {instanceId : String} {woken : List (Option Router)} {u : Router}
    {route : Route} (hs : s.Guarded modelPath isForwarded instanceId)
    (hwoken : ∀ t, some t ∈ woken → t.Guarded modelPath isForwarded instanceId)
    (h : s.serve woken modelPath isForwarded = some (u, route)) : ¬ u.Sends route instanceId := by
  induction woken generalizing s with
  | nil =>
    unfold serve at h
    split at h
    · cases h
    · contradiction
    · contradiction
    · cases h
      exact not_sends_of_guarded hs
  | cons next woken ih =>
    unfold serve at h
    split at h
    · contradiction
    · cases h
      exact not_sends_failed _ _ _
    case h_3 t rest _ heq =>
      cases heq
      split_ifs at h
      · exact ih (hwoken t List.mem_cons_self)
          (fun v hv => hwoken v (List.mem_cons_of_mem _ hv)) h
      · cases h
        exact not_sends_failed _ _ _
    · cases h
      exact not_sends_of_guarded hs

def drained : RoutedInstance := ⟨"4f1c", "org/model", "model", 9000, .running, false, true⟩

/-- A pod whose single instance is being drained, with the table that it has rebuilt of its own
state. -/
def draining : Router where
  instances := [drained]
  table := ClusterRoutingStore.rebuildFromPeers ⟨"a:8000", ∅, 0⟩ 0 (PeerStore.getAllPeers
    (AList.singleton "a:8000"
      { address := "127.0.0.1"
        role := .leader
        status := .healthy
        lastHeartbeat := 0
        term := 1
        models := [⟨"4f1c", "org/model", "model", 9000, .running, [0], 1, 4096⟩]
        gpus := [] }))
  now := 0
  circuitBreaker := ∅
  weightedRR := ⟨∅, ∅⟩
  loadBalancer := ∅
  distinct := by decide

end Router

end GpuSharing.Sardeenz.ClusterRouting
