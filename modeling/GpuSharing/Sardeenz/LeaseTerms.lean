import Mathlib.Data.List.Pairwise
import GpuSharing.Sardeenz.LeaseSteps

namespace GpuSharing.Sardeenz

open Transition VersionedObject

namespace LeaseSystem

variable {Pod : Type} {clocks : Clocks Pod} {s t : LeaseSystem Pod} {act : LeaseAct Pod}

/-- The terms of the pods that got the lease grow with every takeover, the last one is that of the
lease, and whoever becomes leader is one of these pods. -/
structure TermsInv (s : LeaseSystem Pod) : Prop where
  sorted : s.leaders.Pairwise (·.2 < ·.2)
  bound : ∀ l ∈ s.lease.current, ∀ x ∈ s.leaders, x.2 ≤ l.1.term
  unborn : s.lease.current = none → s.leaders = []
  holder : ∀ l ∈ s.lease.current, ∀ p, l.1.holderIdentity = some p → (p, l.1.term) ∈ s.leaders
  won : ∀ q l, Won s q l → (q, l.1.term) ∈ s.leaders
  became : ∀ x ∈ s.became, x ∈ s.leaders

theorem leader_unique {leaders : List (Pod × Nat)} (h : leaders.Pairwise (·.2 < ·.2))
    {x y : Pod × Nat} (hx : x ∈ leaders) (hy : y ∈ leaders) (hterm : x.2 = y.2) : x = y := by
  by_contra hne
  have hsym : Std.Symm fun x y : Pod × Nat => x.2 ≠ y.2 := ⟨fun _ _ h => h.symm⟩
  exact (h.imp fun hlt => Nat.ne_of_lt hlt).forall hx hy hne hterm

theorem mem_leaders_init {lease : VersionedObject (LeaseSpec Pod)} {now : Int} {x : Pod × Nat} :
    x ∈ (init lease now).leaders ↔
      ∃ l ∈ lease.current, l.1.holderIdentity = some x.1 ∧ l.1.term = x.2 := by
  obtain ⟨p, n⟩ := x
  simp [init, Option.mem_toList, Option.bind_eq_some_iff]

theorem termsInv_init (lease : VersionedObject (LeaseSpec Pod)) (now : Int) :
    TermsInv (init lease now) where
  sorted := by
    unfold init
    cases lease.current.bind fun l => l.1.holderIdentity.map (·, l.1.term) <;> simp
  bound l hl x hx := by
    obtain ⟨l', hl', _, hterm⟩ := mem_leaders_init.mp hx
    cases Option.mem_unique hl hl'
    exact Nat.le_of_eq hterm.symm
  unborn h := by
    refine List.eq_nil_iff_forall_not_mem.mpr fun x hx => ?_
    obtain ⟨l, hl, _⟩ := mem_leaders_init.mp hx
    rw [show lease.current = none from h] at hl
    cases hl
  holder l hl p hp := mem_leaders_init.mpr ⟨l, hl, hp, rfl⟩
  won q l := by
    rintro ⟨k, call, _, h⟩
    cases h
  became x h := by cases h

/-- A write raises the term by one and adds the pod as the leader of the new term, or keeps both. -/
theorem written_term {p : Pod} {spec : LeaseSpec Pod} {leader : Option (Pod × Nat)}
    (hs : TermsInv s) (h : Written clocks s.now s.lease p spec leader) :
    (∀ x ∈ s.leaders, x.2 ≤ spec.term) ∧
    (leader = none ∧ (p, spec.term) ∈ s.leaders ∨
      leader = some (p, spec.term) ∧ ∀ x ∈ s.leaders, x.2 < spec.term) := by
  cases h with
  | created hnone hterm =>
    rw [hs.unborn hnone, hterm]
    simp
  | renewed hl hp hterm =>
    rw [hterm]
    exact ⟨hs.bound _ hl, .inl ⟨rfl, hs.holder _ hl p hp⟩⟩
  | acquired hl hfree hterm =>
    have hlt : ∀ x ∈ s.leaders, x.2 < spec.term := fun x hx => by
      rw [hterm]
      exact Nat.lt_succ_of_le (hs.bound _ hl x hx)
    exact ⟨fun x hx => Nat.le_of_lt (hlt x hx), .inr ⟨by rw [hterm], hlt⟩⟩

theorem termsInv_effect (hs : TermsInv s) (h : Effect clocks s act t) : TermsInv t := by
  cases h with
  | quiet hlease hleaders hwon hreports hbecame =>
    constructor
    case sorted => exact hleaders ▸ hs.sorted
    case bound => exact hlease ▸ hleaders ▸ hs.bound
    case unborn => exact hlease ▸ hleaders ▸ hs.unborn
    case holder => exact hlease ▸ hleaders ▸ hs.holder
    case won =>
      intro q l h
      rw [hleaders]
      exact hs.won q l (hwon q l h)
    case became =>
      intro x hx
      rw [hleaders]
      rcases hbecame with hsame | ⟨q, l, hq, happend⟩
      · exact hs.became x (hsame ▸ hx)
      · rw [happend, List.mem_append, List.mem_singleton] at hx
        rcases hx with hx | rfl
        · exact hs.became x hx
        · exact hs.won q l hq
  | write p spec leader hwrites hwritten hholder hlease hleaders hwon hisLeader hbecame =>
    obtain ⟨hle, hnew⟩ := written_term hs hwritten
    have hmem : (p, spec.term) ∈ t.leaders := by
      rw [hleaders, List.mem_append]
      rcases hnew with ⟨_, hp⟩ | ⟨hsome, _⟩
      · exact .inl hp
      · rw [hsome]
        exact .inr List.mem_cons_self
    have hcurrent : ∀ l ∈ t.lease.current, l = (spec, s.lease.next) := fun l hl => by
      rw [hlease] at hl
      exact (Option.some.inj hl).symm
    have hleader : ∀ x ∈ leader, x = (p, spec.term) := fun x hx => by
      rcases hnew with ⟨hnone, _⟩ | ⟨hsome, _⟩
      · rw [hnone] at hx
        cases hx
      · rw [hsome] at hx
        exact (Option.some.inj hx).symm
    constructor
    case sorted =>
      rw [hleaders, List.pairwise_append]
      refine ⟨hs.sorted, ?_, fun x hx y hy => ?_⟩
      · cases leader <;> simp
      · rcases hnew with ⟨hnone, _⟩ | ⟨hsome, hlt⟩
        · rw [hnone] at hy
          cases hy
        · rw [hleader y (Option.mem_toList.mp hy)]
          exact hlt x hx
    case bound =>
      intro l hl x hx
      rw [hcurrent l hl]
      rw [hleaders, List.mem_append] at hx
      rcases hx with hx | hx
      · exact hle x hx
      · exact Nat.le_of_eq (by rw [hleader x (Option.mem_toList.mp hx)])
    case unborn =>
      intro hnone
      rw [hlease] at hnone
      cases hnone
    case holder =>
      intro l hl q hq
      rw [hcurrent l hl] at hq ⊢
      cases hholder.symm.trans hq
      exact hmem
    case won =>
      intro q l hq
      rcases hwon q l hq with hq | ⟨rfl, rfl⟩
      · rw [hleaders]
        exact List.mem_append_left _ (hs.won q l hq)
      · exact hmem
    case became =>
      intro x hx
      rw [hleaders]
      exact List.mem_append_left _ (hs.became x (hbecame ▸ hx))

/-- The answer to a write is processed before the server answers the next write. -/
def Prompt (s : LeaseSystem Pod) (act : LeaseAct Pod) : Prop :=
  Writes s act → ∀ q l, ¬Won s q l

/-- With prompt answers the pods become leader in the order in which they get the lease. -/
structure PromptInv (s : LeaseSystem Pod) : Prop where
  current : ∀ q l, Won s q l → s.lease.current = some l
  ordered : s.became.Pairwise fun x y => x = y ∨ x.2 < y.2

theorem promptInv_effect (hs : TermsInv s) (hp : PromptInv s) (hprompt : Prompt s act)
    (h : Effect clocks s act t) : PromptInv t := by
  cases h with
  | quiet hlease hleaders hwon hreports hbecame =>
    refine ⟨fun q l h => hlease ▸ hp.current q l (hwon q l h), ?_⟩
    rcases hbecame with hsame | ⟨q, l, hq, happend⟩
    · exact hsame ▸ hp.ordered
    · rw [happend, List.pairwise_append]
      refine ⟨hp.ordered, List.pairwise_singleton _ _, fun x hx y hy => ?_⟩
      rw [List.mem_singleton] at hy
      subst hy
      have hxl := hs.became x hx
      rcases Nat.eq_or_lt_of_le (hs.bound l (hp.current q l hq) x hxl) with heq | hlt
      · exact .inl (leader_unique hs.sorted hxl (hs.won q l hq) heq)
      · exact .inr hlt
  | write p spec leader hwrites hwritten hholder hlease hleaders hwon hisLeader hbecame =>
    refine ⟨fun q l h => ?_, hbecame ▸ hp.ordered⟩
    rcases hwon q l h with hq | ⟨_, rfl⟩
    · exact absurd hq (hprompt hwrites q l)
    · rw [hlease]
      rfl

theorem attemptsOk_init (clocks : Clocks Pod) (lease : VersionedObject (LeaseSpec Pod)) (now : Int) :
    AttemptsOk clocks (init lease now) := fun k a h => by cases h

variable [DecidableEq Pod]

theorem terms_step (hs : AttemptsOk clocks s ∧ TermsInv s) (h : step clocks s act = some t) :
    AttemptsOk clocks t ∧ TermsInv t :=
  ⟨(effect_step hs.1 h).1, termsInv_effect hs.2 (effect_step hs.1 h).2⟩

theorem prompt_step (hs : (AttemptsOk clocks s ∧ TermsInv s) ∧ PromptInv s)
    (hprompt : Prompt s act) (h : step clocks s act = some t) :
    (AttemptsOk clocks t ∧ TermsInv t) ∧ PromptInv t :=
  ⟨terms_step hs.1 h, promptInv_effect hs.1.2 hs.2 hprompt (effect_step hs.1.1 h).2⟩

/-- There is no lease yet. -/
def noLease : VersionedObject (LeaseSpec Nat) := ⟨none, 0, fun _ h => by cases h⟩

def exactClocks : Clocks Nat := ⟨fun _ time => time, id⟩

/-- The pod 0 creates the lease and becomes leader. -/
def createsLease : List (LeaseAct Nat) := [.timer 0 0, .serve 0, .deliver 0, .serve 0, .deliver 0]

/-- The lease expires, and the pod 1 takes it over. -/
def takesOver : List (LeaseAct Nat) :=
  [.tick 15001, .timer 1 1, .serve 1, .deliver 1, .serve 1, .deliver 1]

end LeaseSystem

end GpuSharing.Sardeenz
