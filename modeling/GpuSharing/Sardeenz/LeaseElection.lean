import Mathlib.Logic.Function.Basic
import GpuSharing.Lib.Transition
import GpuSharing.Lib.VersionedObject

namespace GpuSharing.Sardeenz

/-- `LEASE_DURATION_SECONDS` -/
def leaseDurationSeconds : Int := 15

/-- The spec of a `V1Lease`; an empty `holderIdentity` is `none`. Times are milliseconds. -/
structure LeaseSpec (Pod : Type) where
  holderIdentity : Option Pod
  leaseDurationSeconds : Option Int
  renewTime : Option Int
  leaseTransitions : Option Nat
  deriving DecidableEq, Repr

/-- The clock of each pod, by the time, and what `new Date(String(renewTime))` makes of a renew
time. -/
structure Clocks (Pod : Type) where
  now : Pod → Int → Int
  parse : Int → Int

/-- A lease as read: its spec and its `resourceVersion`. -/
abbrev Lease (Pod : Type) := LeaseSpec Pod × Nat

namespace LeaseSpec

variable {Pod : Type}

def term (l : LeaseSpec Pod) : Nat := l.leaseTransitions.getD 0 + 1

def isExpired (parse : Int → Int) (now : Int) (l : LeaseSpec Pod) : Prop :=
  match l.renewTime with
  | some t => now - parse t > l.leaseDurationSeconds.getD Sardeenz.leaseDurationSeconds * 1000
  | none => True

instance (parse : Int → Int) (now : Int) (l : LeaseSpec Pod) :
    Decidable (l.isExpired parse now) := by
  unfold isExpired
  split <;> infer_instance

/-- The body of `createLease`. -/
def created (pod : Pod) (now : Int) : LeaseSpec Pod where
  holderIdentity := some pod
  leaseDurationSeconds := some Sardeenz.leaseDurationSeconds
  renewTime := some now
  leaseTransitions := some 0

/-- The body that renews the lease `l`. -/
def renewed (l : LeaseSpec Pod) (now : Int) : LeaseSpec Pod := { l with renewTime := some now }

/-- The body that takes the lease `l` over. -/
def acquired (l : LeaseSpec Pod) (pod : Pod) (now : Int) : LeaseSpec Pod where
  holderIdentity := some pod
  leaseDurationSeconds := some Sardeenz.leaseDurationSeconds
  renewTime := some now
  leaseTransitions := some (l.leaseTransitions.getD 0 + 1)

/-- A lease that has expired stays expired. -/
theorem isExpired_mono {parse : Int → Int} {t t' : Int} {l : LeaseSpec Pod} (ht : t ≤ t')
    (h : l.isExpired parse t) : l.isExpired parse t' := by
  unfold isExpired at h ⊢
  split at h
  · omega
  · trivial

end LeaseSpec

/-- The API call that an attempt of `tryAcquireOrRenew` waits for. The writes carry the lease that was
read and the time put into the body. -/
inductive LeaseCall (Pod : Type)
  | read
  | create (time : Int)
  | renew (lease : Lease Pod) (time : Int)
  | takeOver (lease : Lease Pod) (time : Int)
  | refresh
  deriving DecidableEq, Repr

/-- The call is one of those after which `becomeLeader` runs. -/
def LeaseCall.writes {Pod : Type} : LeaseCall Pod → Bool
  | .create _ | .renew _ _ | .takeOver _ _ => true
  | .read | .refresh => false

inductive LeaseReply (Pod : Type)
  | lease (lease : Lease Pod)
  | notFound
  | conflict
  | failed
  deriving DecidableEq, Repr

/-- One pass of `tryAcquireOrRenew`: the call it waits for and, once the server has answered, the
reply. The process that runs it may be gone. -/
structure LeaseAttempt (Pod : Type) where
  pod : Pod
  call : LeaseCall Pod
  reply : Option (LeaseReply Pod)
  alive : Bool
  deriving DecidableEq, Repr

/-- The fields of one `KubernetesLeaderElection`. -/
structure ElectionState (Pod : Type) where
  isLeader : Bool
  term : Nat
  leaderId : Option Pod
  deriving DecidableEq, Repr

/-- The pods, the lease and the calls under way. `leaders` lists the pods that have had the lease,
each with its term, in the order in which they got it, and `became` the calls of `becomeLeader`. -/
structure LeaseSystem (Pod : Type) where
  lease : VersionedObject (LeaseSpec Pod)
  now : Int
  pods : Pod → ElectionState Pod
  attempts : Nat → Option (LeaseAttempt Pod)
  leaders : List (Pod × Nat)
  became : List (Pod × Nat)

/-- `timer p k` starts the attempt `k` of the pod `p`; the server answers it with `serve k`, or, with
`fail k`, answers with an error a call that it has or has not carried out; `deliver k` goes on with
the attempt. `restart p` is a new process under the name of the old one. -/
inductive LeaseAct (Pod : Type)
  | timer (p : Pod) (k : Nat)
  | serve (k : Nat)
  | fail (k : Nat) (applied : Bool)
  | deliver (k : Nat)
  | stop (p : Pod)
  | restart (p : Pod)
  | tick (now : Int)
  deriving DecidableEq, Repr

namespace LeaseSystem

variable {Pod : Type} [DecidableEq Pod]

def init (lease : VersionedObject (LeaseSpec Pod)) (now : Int) : LeaseSystem Pod where
  lease := lease
  now := now
  pods _ := ⟨false, 0, none⟩
  attempts _ := none
  leaders := (lease.current.bind fun l => l.1.holderIdentity.map (·, l.1.term)).toList
  became := []

def setAttempt (s : LeaseSystem Pod) (k : Nat) (a : Option (LeaseAttempt Pod)) : LeaseSystem Pod :=
  { s with attempts := Function.update s.attempts k a }

def setPod (s : LeaseSystem Pod) (p : Pod) (e : ElectionState Pod) : LeaseSystem Pod :=
  { s with pods := Function.update s.pods p e }

/-- The server carries the call out: the reply, the lease and, when the pod gets the lease by it, the
pod with its term. -/
def perform (lease : VersionedObject (LeaseSpec Pod)) (p : Pod) :
    LeaseCall Pod → LeaseReply Pod × VersionedObject (LeaseSpec Pod) × Option (Pod × Nat)
  | .read | .refresh => match lease.current with
    | some l => (.lease l, lease, none)
    | none => (.notFound, lease, none)
  | .create time => match lease.create (.created p time) with
    | some lease' => (.lease (.created p time, lease.next), lease', some (p, 1))
    | none => (.conflict, lease, none)
  | .renew (l, version) time => match lease.replace version (l.renewed time) with
    | some lease' => (.lease (l.renewed time, lease.next), lease', none)
    | none => (.conflict, lease, none)
  | .takeOver (l, version) time => match lease.replace version (l.acquired p time) with
    | some lease' => (.lease (l.acquired p time, lease.next), lease', some (p, l.term + 1))
    | none => (.conflict, lease, none)

def becomeLeader (s : LeaseSystem Pod) (p : Pod) (l : Lease Pod) : LeaseSystem Pod :=
  { s.setPod p (if !(s.pods p).isLeader ∨ (s.pods p).term ≠ l.1.term then ⟨true, l.1.term, some p⟩
      else s.pods p) with became := s.became ++ [(p, l.1.term)] }

def setFollower (s : LeaseSystem Pod) (p leaderId : Pod) : LeaseSystem Pod :=
  s.setPod p { s.pods p with isLeader := false, leaderId := some leaderId }

/-- The outer `catch` of `tryAcquireOrRenew`: on error, assume we lost leadership. -/
def onError (s : LeaseSystem Pod) (p : Pod) : LeaseSystem Pod :=
  s.setPod p { s.pods p with isLeader := false }

/-- What the pod does with the reply: the next call of the attempt, if there is one. -/
def react (clocks : Clocks Pod) (s : LeaseSystem Pod) (p : Pod) :
    LeaseCall Pod → LeaseReply Pod → LeaseSystem Pod × Option (LeaseCall Pod)
  | .read, .lease l =>
    let now := clocks.now p s.now
    if l.1.holderIdentity = some p then (s, some (.renew l now))
    else if l.1.isExpired clocks.parse now then (s, some (.takeOver l now))
    else match l.1.holderIdentity with
      | some holder => (s.setFollower p holder, none)
      | none => (s, some (.takeOver l now))
  | .read, .notFound => (s, some (.create (clocks.now p s.now)))
  | .create _, .lease l | .renew _ _, .lease l | .takeOver _ _, .lease l =>
    (s.becomeLeader p l, none)
  | .takeOver _ _, .conflict => (s, some .refresh)
  | .refresh, .lease l => match l.1.holderIdentity with
    | some holder => (if holder ≠ p then s.setFollower p holder else s, none)
    | none => (s, none)
  | .refresh, _ => (s, none)
  | _, _ => (s.onError p, none)

def step (clocks : Clocks Pod) (s : LeaseSystem Pod) : LeaseAct Pod → Option (LeaseSystem Pod)
  | .timer p k => match s.attempts k with
    | some _ => none
    | none => some (s.setAttempt k (some ⟨p, .read, none, true⟩))
  | .serve k => match s.attempts k with
    | some ⟨p, call, none, alive⟩ =>
      let (reply, lease, leader) := perform s.lease p call
      some { s.setAttempt k (some ⟨p, call, some reply, alive⟩) with
        lease := lease, leaders := s.leaders ++ leader.toList }
    | _ => none
  | .fail k applied => match s.attempts k with
    | some ⟨p, call, none, alive⟩ =>
      let s' := s.setAttempt k (some ⟨p, call, some .failed, alive⟩)
      if applied then
        let (_, lease, leader) := perform s.lease p call
        some { s' with lease := lease, leaders := s.leaders ++ leader.toList }
      else some s'
    | _ => none
  | .deliver k => match s.attempts k with
    | some ⟨p, call, some reply, true⟩ =>
      let (s', next) := react clocks s p call reply
      some (s'.setAttempt k (next.map fun call => ⟨p, call, none, true⟩))
    | _ => none
  | .stop p => some (s.onError p)
  | .restart p => some { s.setPod p ⟨false, 0, none⟩ with
      attempts := fun k => (s.attempts k).map fun a =>
        if a.pod = p then { a with alive := false } else a }
  | .tick now => if s.now ≤ now then some { s with now := now } else none

end LeaseSystem

end GpuSharing.Sardeenz
