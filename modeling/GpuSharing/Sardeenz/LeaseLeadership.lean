import GpuSharing.Sardeenz.LeaseTerms

namespace GpuSharing.Sardeenz

open Transition VersionedObject

namespace LeaseSystem

variable {Pod : Type} {parse : Int → Int} {s t : LeaseSystem Pod} {act : LeaseAct Pod}

/-- The clocks of all pods show the same time. -/
def synchronised (parse : Int → Int) : Clocks Pod := ⟨fun _ time => time, parse⟩

/-- Whoever says that it is the leader, or is going to, holds the lease. -/
def ReportersHold (s : LeaseSystem Pod) : Prop :=
  ∀ p, Reports s p → ∃ l ∈ s.lease.current, l.1.holderIdentity = some p

/-- The lease of a pod that says that it is the leader, or is going to, has not expired. -/
def Timely (parse : Int → Int) (s : LeaseSystem Pod) : Prop :=
  ∀ p, Reports s p → ∀ l ∈ s.lease.current, l.1.holderIdentity = some p →
    ¬l.1.isExpired parse s.now

theorem reportersHold_effect (hs : ReportersHold s) (htimely : Timely parse s)
    (h : Effect (synchronised parse) s act t) : ReportersHold t := by
  intro q hq
  cases h with
  | quiet hlease hleaders hwon hreports hbecame => exact hlease ▸ hs q (hreports q hq)
  | write p spec leader hwrites hwritten hholder hlease hleaders hwon hisLeader hbecame =>
    rw [hlease]
    by_cases hqp : q = p
    · exact ⟨_, rfl, hqp ▸ hholder⟩
    · have hbefore : Reports s q := by
        rcases hq with hq | ⟨l, hl⟩
        · exact .inl (hisLeader q ▸ hq)
        · exact .inr ⟨l, (hwon q l hl).resolve_right fun h => hqp h.1⟩
      obtain ⟨l, hl, hlq⟩ := hs q hbefore
      -- the lease of `q` can be neither created, nor renewed or taken over by `p`
      cases hwritten with
      | created hnone hterm =>
        rw [hnone] at hl
        cases hl
      | renewed hl' hp hterm =>
        cases Option.mem_unique hl hl'
        cases hlq.symm.trans hp
        exact absurd rfl hqp
      | acquired hl' hfree hterm =>
        cases Option.mem_unique hl hl'
        rcases hfree with hexpired | hnone
        · obtain ⟨time, htime, hexpired⟩ := hexpired
          exact absurd (LeaseSpec.isExpired_mono htime hexpired) (htimely q hbefore l hl hlq)
        · rw [hnone] at hlq
          cases hlq

theorem reportersHold_init (lease : VersionedObject (LeaseSpec Pod)) (now : Int) :
    ReportersHold (init lease now) := by
  rintro p (h | ⟨l, k, call, _, h⟩) <;> cases h

variable [DecidableEq Pod]

/-- As long as no pod that says that it is the leader lets its lease expire, and no pod that is going
to, no two pods say so. -/
theorem one_leader {lease : VersionedObject (LeaseSpec Pod)} {now : Int}
    {ls : List (LeaseAct Pod)}
    (htimely : Along (step (synchronised parse)) (fun s _ => Timely parse s) (init lease now) ls)
    (hrun : run (step (synchronised parse)) (init lease now) ls = some s) (p q : Pod)
    (hp : (s.pods p).isLeader = true) (hq : (s.pods q).isLeader = true) : p = q := by
  obtain ⟨_, hinv⟩ := run_invariant_along
    (I := fun s => AttemptsOk (synchronised parse) s ∧ ReportersHold s)
    (fun _ _ _ hs ht h => ⟨(effect_step hs.1 h).1,
      reportersHold_effect hs.2 ht (effect_step hs.1 h).2⟩)
    ⟨attemptsOk_init (synchronised parse) lease now, reportersHold_init lease now⟩ htimely hrun
  obtain ⟨l, hl, hlp⟩ := hinv p (.inl hp)
  obtain ⟨l', hl', hlq⟩ := hinv q (.inl hq)
  cases Option.mem_unique hl hl'
  exact Option.some.inj (hlp.symm.trans hlq)

omit [DecidableEq Pod] in
theorem timely_of_fresh (h : ∀ l ∈ s.lease.current, ¬l.1.isExpired parse s.now) :
    Timely parse s := fun _ _ l hl _ => h l hl

theorem one_leader_createsLease :
    let s := (run (step (synchronised id)) (init noLease 0) (createsLease ++ [.tick 15000])).get
      (by decide +kernel)
    (s.pods 0).isLeader = true ∧ ∀ p q, (s.pods p).isLeader = true →
      (s.pods q).isLeader = true → p = q := by
  have hrun : run (step (synchronised id)) (init noLease 0) (createsLease ++ [.tick 15000]) =
      some ((run (step (synchronised id)) (init noLease 0) (createsLease ++ [.tick 15000])).get
        (by decide +kernel)) := (Option.some_get _).symm
  have htimely : Along (step (synchronised id)) (fun s _ => Timely id s) (init noLease 0)
      (createsLease ++ [.tick 15000]) :=
    along_mono (fun _ _ => timely_of_fresh)
      (show Along (step (synchronised id))
        (fun s _ => ∀ l ∈ s.lease.current, ¬l.1.isExpired id s.now) _ _ by decide +kernel)
  exact ⟨by decide +kernel, one_leader htimely hrun⟩

/-- The renew timer of the leader stalls until its lease has expired: the pod that takes the lease
over becomes the second leader. -/
theorem stalled_leader_still_reports :
    let s := (run (step (synchronised id)) (init noLease 0) (createsLease ++ takesOver)).get
      (by decide +kernel)
    (s.pods 0).isLeader = true ∧ (s.pods 1).isLeader = true := by
  decide +kernel

end LeaseSystem

end GpuSharing.Sardeenz
