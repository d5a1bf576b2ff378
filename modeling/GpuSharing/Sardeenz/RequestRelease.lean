import GpuSharing.Lib.ListUpdate
import GpuSharing.Lib.Transition
import GpuSharing.Sardeenz.KvAdmission

namespace GpuSharing.Sardeenz.RequestRelease

/-- Where an admitted request stands. `preparing` is `routeLocal` between the admission and its
`try`, `settling` what it still does after it has released a request that is not streamed. `opening`,
`relaying` and `closing` are the statements of `pipeStreamToReply` before its `try`, in its loop, and
in its `finally` up to the callback. `direct` is a request of the direct proxy, which counts no
connections. -/
inductive RequestPc
  | preparing
  | fetching
  | settling
  | opening
  | relaying
  | closing
  | direct
  | done
  deriving DecidableEq, Repr

/-- An admitted request, with how often its connections were counted up and down and `release` was
called for its reservation. -/
structure AdmittedRequest where
  modelPath : String
  instanceId : String
  streaming : Bool
  reservation : Option ActiveReservation
  pc : RequestPc
  increments : Nat
  decrements : Nat
  releases : Nat

/-- How `fetch` and the handling of its answer end: `error` is an answer that is not ok. -/
inductive UpstreamAnswer
  | ok
  | error
  | throws
  deriving DecidableEq, Repr

/-- The next thing that happens to a request. `throws` is an exception of the statements at hand. -/
inductive RequestEvent
  | prepare (throws : Bool)
  | answer (upstream : UpstreamAnswer)
  | noteActivity (throws : Bool)
  | openRelay (throws : Bool)
  | relayEnds
  | closeRelay (throws : Bool)
  | directEnds (again : Bool)
  deriving DecidableEq, Repr

/-- What a request's event does to the counters and the reservations. -/
inductive Effect
  | keep
  | count
  | complete
  | release
  deriving DecidableEq, Repr

namespace AdmittedRequest

/-- The request after one of the exits that count its connections down and release it. -/
def completed (r : AdmittedRequest) (pc : RequestPc) : AdmittedRequest :=
  { r with pc := pc, decrements := r.decrements + 1, releases := r.releases + 1 }

/-- Where a request stands says how its connections were counted so far, and its releases. -/
def counts : RequestPc → Option (Nat × Nat × Nat)
  | .preparing | .direct => some (0, 0, 0)
  | .fetching | .opening | .relaying | .closing => some (1, 0, 0)
  | .settling => some (1, 1, 1)
  | .done => none

def advance (r : AdmittedRequest) (e : RequestEvent) : Option (AdmittedRequest × Effect) :=
  match r.pc, e with
  | .preparing, .prepare false =>
    some ({ r with pc := .fetching, increments := r.increments + 1 }, .count)
  | .preparing, .prepare true => some ({ r with pc := .done }, .keep)
  | .fetching, .answer .ok =>
    if r.streaming then some ({ r with pc := .opening }, .keep)
    else some (r.completed .settling, .complete)
  | .fetching, .answer .error =>
    if r.streaming then some (r.completed .done, .complete)
    else some (r.completed .settling, .complete)
  -- the `catch` of `routeLocal`
  | .fetching, .answer .throws => some (r.completed .done, .complete)
  | .settling, .noteActivity false => some ({ r with pc := .done }, .keep)
  | .settling, .noteActivity true => some (r.completed .done, .complete)
  | .opening, .openRelay false => some ({ r with pc := .relaying }, .keep)
  -- no `finally` is armed yet, and the handler's `catch` does not know the callback
  | .opening, .openRelay true => some ({ r with pc := .done }, .keep)
  | .relaying, .relayEnds => some ({ r with pc := .closing }, .keep)
  | .closing, .closeRelay false => some (r.completed .done, .complete)
  | .closing, .closeRelay true => some ({ r with pc := .done }, .keep)
  -- a failing relay is released by its `finally` and again by the `catch`
  | .direct, .directEnds again =>
    some ({ r with pc := .done, releases := r.releases + if again then 2 else 1 }, .release)
  | _, _ => none

/-- The exceptions that escape: before the `try` of `routeLocal` when the request has a reservation,
after a request that is not streamed was released, in `pipeStreamToReply` before its `try`, and in
its `finally` before the callback. -/
def Escapes (r : AdmittedRequest) : RequestEvent → Prop
  | .prepare throws => throws = true ∧ r.reservation.isSome
  | .noteActivity throws | .openRelay throws | .closeRelay throws => throws = true
  | _ => False

/-- The connections of the request are counted. -/
def counted (r : AdmittedRequest) : Bool := r.decrements < r.increments

/-- The reservation was released, and the connections counted down as often as up. -/
def Settled (r : AdmittedRequest) : Prop :=
  (r.reservation.isSome → 1 ≤ r.releases) ∧ r.decrements = r.increments

end AdmittedRequest

/-- The `MetricsStore`'s connection counters and the reservations of the KV admission, with all
requests that it has admitted. A model's connections are counted only while it has an entry. -/
structure ProxyState where
  activeConnections : Dict String Nat
  instanceConnections : Dict String Nat
  reservations : Reservations
  requests : List AdmittedRequest

inductive ProxyAct
  | acquired (modelPath instanceId : String) (streaming : Bool)
    (reservation : Option ActiveReservation)
  | admitDirect (instanceId : String) (reservation : Option ActiveReservation)
  | request (k : Nat) (e : RequestEvent)
  | releaseForInstance (instanceId : String)
  | cleanupExpired (c : AdmissionConfig) (now : Int)

namespace ProxyState

def getInstanceConnections (s : ProxyState) (instanceId : String) : Nat :=
  (s.instanceConnections.lookup instanceId).getD 0

/-- `updateConnections` and `updateInstanceConnections`, each with `f` for `Math.max(0, n + delta)`. -/
def updateConnections (s : ProxyState) (modelPath instanceId : String) (f : Nat → Nat) :
    ProxyState :=
  { s with
    activeConnections := match s.activeConnections.lookup modelPath with
      | some n => s.activeConnections.setItem modelPath (f n)
      | none => s.activeConnections
    instanceConnections :=
      s.instanceConnections.setItem instanceId (f (s.getInstanceConnections instanceId)) }

def release (s : ProxyState) (reservation : Option ActiveReservation) : ProxyState :=
  { s with reservations := s.reservations.release reservation }

def apply (s : ProxyState) (r : AdmittedRequest) : Effect → ProxyState
  | .keep => s
  | .count => s.updateConnections r.modelPath r.instanceId (· + 1)
  | .complete => (s.updateConnections r.modelPath r.instanceId (· - 1)).release r.reservation
  | .release => s.release r.reservation

def addRequest (s : ProxyState) (r : AdmittedRequest) : ProxyState :=
  { s with
    reservations := match r.reservation with
      | some reservation => s.reservations.setItem reservation.id reservation
      | none => s.reservations
    requests := s.requests ++ [r] }

def step (s : ProxyState) : ProxyAct → Option ProxyState
  | .acquired modelPath instanceId streaming reservation =>
    some (s.addRequest ⟨modelPath, instanceId, streaming, reservation, .preparing, 0, 0, 0⟩)
  | .admitDirect instanceId reservation =>
    some (s.addRequest ⟨"", instanceId, false, reservation, .direct, 0, 0, 0⟩)
  | .request k e => do
    let r ← s.requests[k]?
    let (r', effect) ← r.advance e
    some ({ s with requests := s.requests.set k r' }.apply r effect)
  | .releaseForInstance instanceId =>
    some { s with reservations := s.reservations.releaseForInstance instanceId }
  | .cleanupExpired c now => some { s with reservations := s.reservations.cleanupExpired c now }

/-- Every request that has ended is settled, and when all have ended nothing is counted and nothing
reserved. -/
structure Accounted (s : ProxyState) : Prop where
  settled : ∀ r ∈ s.requests, r.pc = .done → r.Settled
  idle : (∀ r ∈ s.requests, r.pc = .done) →
    (∀ i, s.getInstanceConnections i = 0) ∧
      (∀ m n, s.activeConnections.lookup m = some n → n = 0) ∧ s.reservations.keys = []

/-- No exception of a request escapes. -/
def Caught (s : ProxyState) : ProxyAct → Prop
  | .request k e => ∀ r, s.requests[k]? = some r → ¬ r.Escapes e
  | _ => True

end ProxyState

namespace AdmittedRequest

variable {r r' : AdmittedRequest} {e : RequestEvent} {effect : Effect}

def WellCounted (r : AdmittedRequest) : Prop :=
  ∀ c, counts r.pc = some c → (r.increments, r.decrements, r.releases) = c

/-- What an event leaves of a request, whatever it does. -/
theorem advance_same (h : r.advance e = some (r', effect)) :
    r'.modelPath = r.modelPath ∧ r'.instanceId = r.instanceId ∧ r'.reservation = r.reservation := by
  unfold advance at h
  split at h <;> try split_ifs at h
  all_goals cases h
  all_goals exact ⟨rfl, rfl, rfl⟩

/-- The counts of a request are those of where it stands, after every event. -/
theorem wellCounted_advance (hr : r.WellCounted) (h : r.advance e = some (r', effect)) :
    r'.WellCounted := by
  unfold advance at h
  split at h <;> try split_ifs at h
  all_goals cases h
  all_goals
    rename_i hpc
    intro c hc
    simp only [WellCounted, *, counts, completed, Option.some.injEq, forall_eq', Prod.mk.injEq,
      reduceCtorEq] at hr hc ⊢
  all_goals
    subst hc
    simp [hr]

/-- What an event does to the counts of its request, unless it releases the request once more. -/
def Effect.Spec (r r' : AdmittedRequest) : Effect → Prop
  | .keep => r'.counted = r.counted ∧ r'.releases = r.releases
  | .count => r.counted = false ∧ r'.counted = true ∧ r'.releases = r.releases
  | .complete => r.counted = true ∧ r'.counted = false ∧ 1 ≤ r'.releases
  | .release => r'.counted = r.counted ∧ 1 ≤ r'.releases

theorem effect_advance (hr : r.WellCounted) (h : r.advance e = some (r', effect))
    (he : e ≠ .noteActivity true) : Effect.Spec r r' effect := by
  unfold advance at h
  split at h <;> try split_ifs at h
  all_goals cases h
  all_goals try exact absurd rfl he
  all_goals
    rename_i hpc
    simp only [WellCounted, *, counts, Option.some.injEq, forall_eq', Prod.mk.injEq] at hr
  all_goals simp [Effect.Spec, counted, completed, hr]

/-- A request that ends is settled exactly when no exception escapes. -/
theorem settled_advance_iff (hr : r.WellCounted) (h : r.advance e = some (r', effect))
    (hdone : r'.pc = .done) : r'.Settled ↔ ¬ r.Escapes e := by
  unfold advance at h
  split at h <;> try split_ifs at h
  all_goals cases h
  all_goals
    rename_i hpc
    simp only [WellCounted, *, counts, Option.some.injEq, forall_eq', Prod.mk.injEq] at hr
  all_goals simp_all [Settled, Escapes, completed]

end AdmittedRequest

namespace ProxyState

variable {s t : ProxyState}

/-- The counters are the requests under way, and every reservation is one that a request still has
to release. -/
structure Balanced (s : ProxyState) : Prop where
  instances : ∀ i, s.getInstanceConnections i =
    s.requests.countP fun r => r.counted ∧ r.instanceId = i
  models : ∀ m n, s.activeConnections.lookup m = some n →
    n = s.requests.countP fun r => r.counted ∧ r.modelPath = m
  reserved : ∀ id ∈ s.reservations, ∃ r ∈ s.requests,
    (∃ x, r.reservation = some x ∧ x.id = id) ∧ r.releases = 0

theorem getInstanceConnections_updateConnections (s : ProxyState) (modelPath instanceId : String)
    (f : Nat → Nat) (i : String) :
    (s.updateConnections modelPath instanceId f).getInstanceConnections i =
      if instanceId = i then f (s.getInstanceConnections i) else s.getInstanceConnections i := by
  by_cases hi : instanceId = i
  · subst hi
    simp [getInstanceConnections, updateConnections]
  · simp [getInstanceConnections, updateConnections, hi, Ne.symm hi]

theorem activeConnections_updateConnections {modelPath m : String} {f : Nat → Nat} {n : Nat}
    (instanceId : String)
    (h : (s.updateConnections modelPath instanceId f).activeConnections.lookup m = some n) :
    ∃ n₀, s.activeConnections.lookup m = some n₀ ∧ (if modelPath = m then f n₀ else n₀) = n := by
  unfold updateConnections at h
  cases hlookup : s.activeConnections.lookup modelPath with
  | none =>
    simp only [hlookup] at h
    have hm : modelPath ≠ m := by
      rintro rfl
      cases hlookup.symm.trans h
    exact ⟨n, h, if_neg hm⟩
  | some n₀ =>
    simp only [hlookup, Dict.lookup_setItem] at h
    split_ifs at h with hm
    · cases h
      exact ⟨n₀, hm ▸ hlookup, if_pos hm.symm⟩
    · exact ⟨n, h, if_neg (Ne.symm hm)⟩

/-- A request that goes on with its connections counted as before, up or down, and the counters that
follow it. -/
theorem counter_follows {requests : List AdmittedRequest} {k n : Nat} {r r' : AdmittedRequest}
    {q : AdmittedRequest → Prop} [DecidablePred q] (hk : requests[k]? = some r)
    (hq : q r' ↔ q r) (hn : n = requests.countP fun r => r.counted ∧ q r) :
    (r'.counted = r.counted → n = (requests.set k r').countP fun r => r.counted ∧ q r) ∧
    (r.counted = false → r'.counted = true →
      (if q r then n + 1 else n) = (requests.set k r').countP fun r => r.counted ∧ q r) ∧
    (r.counted = true → r'.counted = false →
      (if q r then n - 1 else n) = (requests.set k r').countP fun r => r.counted ∧ q r) := by
  have hset := ListUpdate.countP_set_add hk r' fun r => r.counted ∧ q r
  simp only [decide_eq_true_eq, hq] at hset
  refine ⟨fun h => ?_, fun h h' => ?_, fun h h' => ?_⟩
  · rw [h] at hset
    omega
  · simp only [h, h', Bool.false_eq_true, false_and, true_and, if_false] at hset
    split_ifs at hset ⊢ <;> omega
  · simp only [h, h', Bool.false_eq_true, false_and, true_and, if_false] at hset
    split_ifs at hset ⊢ <;> omega

/-- The reservation of a request is out of the map once it is released. -/
theorem mem_release {m : Reservations} {reservation : Option ActiveReservation} {id : String}
    (h : id ∈ m.release reservation) : id ∈ m ∧ ∀ x, reservation = some x → x.id ≠ id := by
  cases reservation with
  | none => exact ⟨h, by simp⟩
  | some x =>
    obtain ⟨hne, hmem⟩ := AList.mem_erase.mp h
    refine ⟨hmem, fun y hy => ?_⟩
    cases hy
    exact fun heq => hne heq.symm

theorem apply_requests (s : ProxyState) (r : AdmittedRequest) (effect : Effect) :
    (s.apply r effect).requests = s.requests := by
  cases effect <;> rfl

theorem balanced_request (h : s.Balanced) {k : Nat} {r r' : AdmittedRequest} {effect : Effect}
    (hk : s.requests[k]? = some r)
    (hsame : r'.modelPath = r.modelPath ∧ r'.instanceId = r.instanceId ∧
      r'.reservation = r.reservation)
    (hspec : AdmittedRequest.Effect.Spec r r' effect) :
    Balanced ({ s with requests := s.requests.set k r' }.apply r effect) := by
  obtain ⟨hmodel, hinstance, hreservation⟩ := hsame
  have hinstances := fun i => counter_follows (q := fun r => r.instanceId = i) hk
    (by rw [hinstance]) (h.instances i)
  have hmodels := fun m n hn => counter_follows (q := fun r => r.modelPath = m) hk
    (by rw [hmodel]) (h.models m n hn)
  -- another request that still has to release the reservation, or the request at hand
  have hreserved : ∀ id ∈ s.reservations, r'.releases = r.releases ∨
      (∀ x, r.reservation = some x → x.id ≠ id) → ∃ r₀ ∈ s.requests.set k r',
        (∃ x, r₀.reservation = some x ∧ x.id = id) ∧ r₀.releases = 0 := by
    intro id hid hcase
    obtain ⟨r₀, hmem, ⟨x, hx, hxid⟩, hzero⟩ := h.reserved id hid
    by_cases heq : r₀ = r
    · subst heq
      rcases hcase with hreleases | hother
      · exact ⟨r', ListUpdate.mem_set_self hk r', ⟨x, hreservation.trans hx, hxid⟩, hreleases.trans hzero⟩
      · exact absurd hxid (hother x hx)
    · exact ⟨r₀, ListUpdate.mem_set_of_ne hk hmem heq r', ⟨x, hx, hxid⟩, hzero⟩
  cases effect with
  | keep =>
    exact ⟨fun i => (hinstances i).1 hspec.1, fun m n hn => (hmodels m n hn).1 hspec.1,
      fun id hid => hreserved id hid (.inl hspec.2)⟩
  | count =>
    obtain ⟨hbefore, hafter, hreleases⟩ := hspec
    refine ⟨fun i => ?_, fun m n hn => ?_, fun id hid => hreserved id hid (.inl hreleases)⟩
    · exact (getInstanceConnections_updateConnections _ _ _ _ i).trans
        ((hinstances i).2.1 hbefore hafter)
    · obtain ⟨n₀, hn₀, rfl⟩ := activeConnections_updateConnections r.instanceId hn
      exact (hmodels m n₀ hn₀).2.1 hbefore hafter
  | complete =>
    obtain ⟨hbefore, hafter, hreleases⟩ := hspec
    refine ⟨fun i => ?_, fun m n hn => ?_, fun id hid => ?_⟩
    · exact (getInstanceConnections_updateConnections _ r.modelPath r.instanceId (· - 1) i).trans
        ((hinstances i).2.2 hbefore hafter)
    · obtain ⟨n₀, hn₀, rfl⟩ := activeConnections_updateConnections r.instanceId hn
      exact (hmodels m n₀ hn₀).2.2 hbefore hafter
    · obtain ⟨hmem, hother⟩ := mem_release hid
      exact hreserved id hmem (.inr hother)
  | release =>
    refine ⟨fun i => (hinstances i).1 hspec.1, fun m n hn => (hmodels m n hn).1 hspec.1,
      fun id hid => ?_⟩
    obtain ⟨hmem, hother⟩ := mem_release hid
    exact hreserved id hmem (.inr hother)

theorem counted_of_new {r : AdmittedRequest} (h : r.increments = 0) : r.counted = false := by
  simp [AdmittedRequest.counted, h]

theorem balanced_admit (h : s.Balanced) {r : AdmittedRequest} (hnew : r.increments = 0)
    (hreleases : r.releases = 0) : (s.addRequest r).Balanced := by
  have hcounted := counted_of_new hnew
  refine ⟨fun i => ?_, fun m n hn => ?_, fun id hid => ?_⟩
  · have hcount := h.instances i
    simpa [addRequest, getInstanceConnections, List.countP_append, hcounted] using hcount
  · have hcount := h.models m n hn
    simpa [addRequest, List.countP_append, hcounted] using hcount
  · have hcase : id ∈ s.reservations ∨ ∃ x, r.reservation = some x ∧ x.id = id := by
      cases hx : r.reservation with
      | none =>
        simp only [addRequest, hx] at hid
        exact .inl hid
      | some x =>
        simp only [addRequest, hx] at hid
        obtain ⟨w, hw⟩ := Dict.mem_iff_lookup.mp hid
        rcases Dict.lookup_setItem_some hw with ⟨rfl, -⟩ | hw
        · exact .inr ⟨x, rfl, rfl⟩
        · exact .inl (Dict.mem_iff_lookup.mpr ⟨w, hw⟩)
    rcases hcase with hmem | hx
    · obtain ⟨r₀, hr₀, hrest⟩ := h.reserved id hmem
      exact ⟨r₀, List.mem_append_left _ hr₀, hrest⟩
    · exact ⟨r, by simp [addRequest], hx, hreleases⟩

theorem mem_deleteWhere {p : ActiveReservation → Bool} {rs : List ActiveReservation}
    {m : Reservations} {id : String} (h : id ∈ m.deleteWhere p rs) : id ∈ m := by
  unfold Reservations.deleteWhere at h
  induction rs generalizing m with
  | nil => exact h
  | cons r rs ih =>
    have hmem := ih h
    dsimp only at hmem
    split_ifs at hmem
    · exact (AList.mem_erase.mp hmem).2
    · exact hmem

/-- Fewer reservations owe nothing more. -/
theorem balanced_of_subset (h : s.Balanced) {m : Reservations} (hm : ∀ id ∈ m, id ∈ s.reservations) :
    Balanced { s with reservations := m } :=
  ⟨h.instances, h.models, fun id hid => h.reserved id (hm id hid)⟩

/-- What every run keeps: where each request stands says its counts, and the counters follow the
requests as long as every request that has ended is settled. -/
structure Followed (s : ProxyState) : Prop where
  wellCounted : ∀ r ∈ s.requests, r.WellCounted
  balanced : (∀ r ∈ s.requests, r.pc = .done → r.Settled) → s.Balanced

/-- With no request under way, nothing is counted and nothing is reserved. -/
theorem idle_of_balanced (h : s.Balanced) (hsettled : ∀ r ∈ s.requests, r.pc = .done → r.Settled)
    (hdone : ∀ r ∈ s.requests, r.pc = .done) :
    (∀ i, s.getInstanceConnections i = 0) ∧
      (∀ m n, s.activeConnections.lookup m = some n → n = 0) ∧ s.reservations.keys = [] := by
  have hcounted : ∀ r ∈ s.requests, r.counted = false := by
    intro r hr
    have heq := (hsettled r hr (hdone r hr)).2
    simp [AdmittedRequest.counted, heq]
  have hzero : ∀ q : AdmittedRequest → Prop, ∀ [DecidablePred q],
      s.requests.countP (fun r => r.counted ∧ q r) = 0 := by
    intro q _
    apply List.countP_eq_zero.mpr
    intro r hr
    simp [hcounted r hr]
  refine ⟨fun i => (h.instances i).trans (hzero _), fun m n hn => (h.models m n hn).trans (hzero _),
    List.eq_nil_iff_forall_not_mem.mpr fun id hid => ?_⟩
  obtain ⟨r, hr, ⟨x, hx, -⟩, hreleases⟩ := h.reserved id hid
  have hreleased := (hsettled r hr (hdone r hr)).1 (by rw [hx]; rfl)
  omega

theorem step_request {k : Nat} {e : RequestEvent} (ht : s.step (.request k e) = some t) :
    ∃ r r' effect, s.requests[k]? = some r ∧ r.advance e = some (r', effect) ∧
      { s with requests := s.requests.set k r' }.apply r effect = t := by
  simp only [step, Option.bind_eq_bind, Option.bind_eq_some_iff] at ht
  obtain ⟨r, hk, ⟨r', effect⟩, hadvance, heq⟩ := ht
  exact ⟨r, r', effect, hk, hadvance, Option.some.inj heq⟩

/-- A request that has ended stays as it is. -/
theorem advance_not_done {r r' : AdmittedRequest} {e : RequestEvent} {effect : Effect}
    (h : r.advance e = some (r', effect)) : r.pc ≠ .done := by
  intro hdone
  unfold AdmittedRequest.advance at h
  split at h <;> simp_all

/-- After a request's event, the requests that have ended are settled when those were that had ended
before and the request at hand does not end unsettled. -/
theorem settled_set_iff {requests : List AdmittedRequest} {k : Nat} {r r' : AdmittedRequest}
    (hk : requests[k]? = some r) (hnot : r.pc ≠ .done) :
    (∀ r₀ ∈ requests.set k r', r₀.pc = .done → r₀.Settled) ↔
      (∀ r₀ ∈ requests, r₀.pc = .done → r₀.Settled) ∧ (r'.pc = .done → r'.Settled) := by
  constructor
  · intro h
    refine ⟨fun r₀ hmem hdone => ?_, h r' (ListUpdate.mem_set_self hk r')⟩
    have hne : r₀ ≠ r := by
      rintro rfl
      exact hnot hdone
    exact h r₀ (ListUpdate.mem_set_of_ne hk hmem hne r') hdone
  · rintro ⟨hold, hnew⟩ r₀ hmem hdone
    rcases List.mem_or_eq_of_mem_set hmem with hmem | rfl
    · exact hold r₀ hmem hdone
    · exact hnew hdone

/-- An exception that escapes ends its request. -/
theorem done_of_escapes {r r' : AdmittedRequest} {e : RequestEvent} {effect : Effect}
    (h : r.advance e = some (r', effect)) (hescapes : r.Escapes e) : r'.pc = .done := by
  unfold AdmittedRequest.advance at h
  split at h <;> try split_ifs at h
  all_goals cases h
  all_goals simp_all [AdmittedRequest.Escapes, AdmittedRequest.completed]

theorem followed_step (h : s.Followed) {a : ProxyAct} (ht : s.step a = some t) : t.Followed := by
  have hadmission : ∀ r : AdmittedRequest, r.increments = 0 → r.releases = 0 → r.WellCounted →
      (s.addRequest r).Followed := by
    intro r hnew hreleases hr
    refine ⟨fun r₀ hmem => ?_, fun hsettled => balanced_admit (h.balanced fun r₀ hr₀ =>
      hsettled r₀ (List.mem_append_left _ hr₀)) hnew hreleases⟩
    rcases List.mem_append.mp hmem with hmem | hmem
    · exact h.wellCounted r₀ hmem
    · rw [List.mem_singleton.mp hmem]
      exact hr
  cases a with
  | acquired modelPath instanceId streaming reservation =>
    cases ht
    exact hadmission _ rfl rfl fun c hc => by cases hc; rfl
  | admitDirect instanceId reservation =>
    cases ht
    exact hadmission _ rfl rfl fun c hc => by cases hc; rfl
  | request k e =>
    obtain ⟨r, r', effect, hk, hadvance, rfl⟩ := step_request ht
    have hr := h.wellCounted r (List.mem_of_getElem? hk)
    have hr' := AdmittedRequest.wellCounted_advance hr hadvance
    refine ⟨fun r₀ hmem => ?_, fun hsettled => ?_⟩
    · rw [apply_requests] at hmem
      rcases List.mem_or_eq_of_mem_set hmem with hmem | rfl
      · exact h.wellCounted r₀ hmem
      · exact hr'
    · rw [apply_requests] at hsettled
      obtain ⟨hold, hnew⟩ := (settled_set_iff hk (advance_not_done hadvance)).mp hsettled
      have he : e ≠ .noteActivity true := by
        rintro rfl
        have hdone : r'.pc = .done := done_of_escapes hadvance rfl
        exact (AdmittedRequest.settled_advance_iff hr hadvance hdone).mp (hnew hdone) rfl
      exact balanced_request (h.balanced hold) hk (AdmittedRequest.advance_same hadvance)
        (AdmittedRequest.effect_advance hr hadvance he)
  | releaseForInstance instanceId =>
    cases ht
    exact ⟨h.wellCounted, fun hsettled =>
      balanced_of_subset (h.balanced hsettled) fun id hid => mem_deleteWhere hid⟩
  | cleanupExpired c now =>
    cases ht
    refine ⟨h.wellCounted, fun hsettled =>
      balanced_of_subset (h.balanced hsettled) fun id hid => ?_⟩
    unfold Reservations.cleanupExpired at hid
    split_ifs at hid
    · exact hid
    · exact mem_deleteWhere hid

/-- The step lemma: what each act leaves accounted for. -/
theorem accounted_step_iff (h : s.Followed) (hs : s.Accounted) {a : ProxyAct}
    (ht : s.step a = some t) : t.Accounted ↔ s.Caught a := by
  have hfollowed := followed_step h ht
  have hiff : t.Accounted ↔ ∀ r ∈ t.requests, r.pc = .done → r.Settled :=
    ⟨fun hacc => hacc.settled, fun hsettled =>
      ⟨hsettled, idle_of_balanced (hfollowed.balanced hsettled) hsettled⟩⟩
  have hadmission : ∀ r : AdmittedRequest, r.pc ≠ .done →
      ∀ r₀ ∈ (s.addRequest r).requests, r₀.pc = .done → r₀.Settled := by
    intro r hr r₀ hmem hdone
    rcases List.mem_append.mp hmem with hmem | hmem
    · exact hs.settled r₀ hmem hdone
    · rw [List.mem_singleton.mp hmem] at hdone
      exact absurd hdone hr
  rw [hiff]
  cases a with
  | acquired modelPath instanceId streaming reservation =>
    cases ht
    exact iff_of_true (hadmission _ (by simp)) trivial
  | admitDirect instanceId reservation =>
    cases ht
    exact iff_of_true (hadmission _ (by simp)) trivial
  | request k e =>
    obtain ⟨r, r', effect, hk, hadvance, rfl⟩ := step_request ht
    have hr := h.wellCounted r (List.mem_of_getElem? hk)
    have hcaught : s.Caught (.request k e) ↔ ¬ r.Escapes e := by
      simp [Caught, hk]
    rw [apply_requests, settled_set_iff hk (advance_not_done hadvance), hcaught]
    constructor
    · rintro ⟨-, hnew⟩ hescapes
      have hdone := done_of_escapes hadvance hescapes
      exact (AdmittedRequest.settled_advance_iff hr hadvance hdone).mp (hnew hdone) hescapes
    · intro hcatches
      exact ⟨hs.settled, fun hdone =>
        (AdmittedRequest.settled_advance_iff hr hadvance hdone).mpr hcatches⟩
  | releaseForInstance instanceId =>
    cases ht
    exact iff_of_true hs.settled trivial
  | cleanupExpired c now =>
    cases ht
    exact iff_of_true hs.settled trivial

/-- No request has been admitted yet. -/
structure Fresh (s : ProxyState) : Prop where
  requests : s.requests = []
  instances : ∀ i, s.getInstanceConnections i = 0
  models : ∀ m n, s.activeConnections.lookup m = some n → n = 0
  reservations : s.reservations.keys = []

theorem followed_of_fresh (h : s.Fresh) : s.Followed := by
  refine ⟨by simp [h.requests], fun _ => ⟨fun i => ?_, fun m n hn => ?_, fun id hid => ?_⟩⟩
  · rw [h.instances, h.requests, List.countP_nil]
  · rw [h.models m n hn, h.requests, List.countP_nil]
  · have hkey : id ∈ s.reservations.keys := hid
    rw [h.reservations] at hkey
    cases hkey

/-- Every request that has ended is settled, and nothing is left over once all have ended, after
every act of a run exactly when no exception escapes in it. -/
theorem requests_accounted_iff {u : ProxyState} {acts : List ProxyAct} (hs : s.Fresh)
    (hrun : Transition.run step s acts = some u) :
    Transition.Along step (fun s a => ∀ t, s.step a = some t → t.Accounted) s acts ↔
      Transition.Along step Caught s acts :=
  Transition.along_next_iff (E := fun _ _ => True)
    (fun _ _ _ hfollowed hacc _ ht => accounted_step_iff hfollowed hacc ht)
    (fun _ _ _ hfollowed _ ht => followed_step hfollowed ht) (followed_of_fresh hs)
    ⟨by simp [hs.requests], fun _ => ⟨hs.instances, hs.models, hs.reservations⟩⟩
    (Transition.along_of_mem (fun _ _ _ => trivial) s) hrun

def idle : ProxyState where
  activeConnections := ∅
  instanceConnections := ∅
  reservations := ∅
  requests := []

theorem fresh_idle : idle.Fresh := ⟨rfl, fun _ => rfl, fun _ _ h => (by cases h), rfl⟩

def reservation : ActiveReservation where
  id := "1700000000000-8f3a"
  instanceId := "4f1c"
  modelName := "model"
  gpuGroup := "0"
  estimate := ⟨1, by norm_num⟩
  createdAt := 0

/-- A streaming request whose answer is ok and has no body, such as a 204. -/
def bodyless : List ProxyAct :=
  [.acquired "model" "4f1c" true (some reservation), .request 0 (.prepare false),
    .request 0 (.answer .ok), .request 0 (.openRelay true)]

def afterBodyless : ProxyState := (Transition.run step idle bodyless).get (by decide +kernel)

theorem bodyless_answer_leaks :
    Transition.run step idle bodyless = some afterBodyless ∧ ¬ afterBodyless.Accounted := by
  refine ⟨(Option.some_get _).symm, fun hacc => ?_⟩
  have hdone : ∀ r ∈ afterBodyless.requests, r.pc = .done := by decide +kernel
  exact absurd ((hacc.idle hdone).1 "4f1c") (by decide +kernel)

/-- A streamed request whose client disconnects during the relay. -/
theorem requests_accounted_iff_disconnect :
    Transition.Along step (fun s a => ∀ t, s.step a = some t → t.Accounted) idle
      [.acquired "model" "4f1c" true (some reservation), .request 0 (.prepare false),
        .request 0 (.answer .ok), .request 0 (.openRelay false), .request 0 .relayEnds,
        .request 0 (.closeRelay false)] := by
  have hrun : (Transition.run step idle
      [.acquired "model" "4f1c" true (some reservation), .request 0 (.prepare false),
        .request 0 (.answer .ok), .request 0 (.openRelay false), .request 0 .relayEnds,
        .request 0 (.closeRelay false)]).isSome := by
    decide +kernel
  refine (requests_accounted_iff fresh_idle (Option.some_get hrun).symm).mpr ?_
  apply Transition.along_of_mem
  intro a ha s
  simp only [List.mem_cons, List.not_mem_nil, or_false] at ha
  rcases ha with rfl | rfl | rfl | rfl | rfl | rfl <;> simp [Caught, AdmittedRequest.Escapes]

end ProxyState

end GpuSharing.Sardeenz.RequestRelease
