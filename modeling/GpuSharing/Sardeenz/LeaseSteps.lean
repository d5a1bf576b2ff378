import GpuSharing.Sardeenz.LeaseElection

namespace GpuSharing.Sardeenz

open VersionedObject

namespace LeaseSystem

variable {Pod : Type}

/-- By its clock, the pod has found the lease expired. -/
def SeenExpired (clocks : Clocks Pod) (p : Pod) (now : Int) (l : LeaseSpec Pod) : Prop :=
  ∃ time ≤ now, l.isExpired clocks.parse (clocks.now p time)

/-- What the body of a write was made from: a lease that was read, held by the pod when the pod renews
it, and expired or free when the pod takes it over. -/
def CallOk (clocks : Clocks Pod) (now : Int) (lease : VersionedObject (LeaseSpec Pod)) (p : Pod) :
    LeaseCall Pod → Prop
  | .renew l _ => lease.Read l ∧ l.1.holderIdentity = some p
  | .takeOver l _ => lease.Read l ∧
      (SeenExpired clocks p now l.1 ∨ l.1.holderIdentity = none)
  | _ => True

section Perform

variable {clocks : Clocks Pod} {now : Int} {lease : VersionedObject (LeaseSpec Pod)} {p : Pod}
  {call : LeaseCall Pod}

/-- The write `spec` of the pod `p`, and the term that it starts if there is one. -/
inductive Written (clocks : Clocks Pod) (now : Int) (lease : VersionedObject (LeaseSpec Pod))
    (p : Pod) (spec : LeaseSpec Pod) : Option (Pod × Nat) → Prop
  | created (h : lease.current = none) (hterm : spec.term = 1) : Written clocks now lease p spec
      (some (p, 1))
  | renewed {l : Lease Pod} (h : lease.current = some l) (hp : l.1.holderIdentity = some p)
      (hterm : spec.term = l.1.term) : Written clocks now lease p spec none
  | acquired {l : Lease Pod} (h : lease.current = some l)
      (hfree : SeenExpired clocks p now l.1 ∨ l.1.holderIdentity = none)
      (hterm : spec.term = l.1.term + 1) : Written clocks now lease p spec (some (p, l.1.term + 1))

/-- The server leaves the lease alone, or writes a spec held by the pod. -/
theorem perform_cases (hcall : CallOk clocks now lease p call) :
    ((perform lease p call).2 = (lease, none) ∧
      ∀ l, (perform lease p call).1 = .lease l → lease.current = some l ∧ call.writes = false) ∨
    ∃ spec leader, perform lease p call = (.lease (spec, lease.next), lease.write spec, leader) ∧
      call.writes = true ∧ spec.holderIdentity = some p ∧ Written clocks now lease p spec leader := by
  cases call with
  | read | refresh =>
    left
    unfold perform
    cases h : lease.current with
    | none => exact ⟨rfl, fun l hl => by cases hl⟩
    | some l =>
      refine ⟨rfl, fun l' hl => ?_⟩
      cases hl
      exact ⟨rfl, rfl⟩
  | create time =>
    simp only [perform]
    cases h : lease.create (.created p time) with
    | none => exact .inl ⟨rfl, fun l hl => by cases hl⟩
    | some lease' =>
      obtain ⟨hnone, rfl⟩ := VersionedObject.create_eq_some h
      exact .inr ⟨.created p time, _, rfl, rfl, rfl, .created hnone rfl⟩
  | renew l time =>
    obtain ⟨l, version⟩ := l
    simp only [perform]
    cases h : lease.replace version (l.renewed time) with
    | none => exact .inl ⟨rfl, fun l hl => by cases hl⟩
    | some lease' =>
      obtain ⟨hcur, rfl⟩ := VersionedObject.replace_eq_some hcall.1 h
      exact .inr ⟨l.renewed time, _, rfl, rfl, hcall.2, .renewed hcur hcall.2 rfl⟩
  | takeOver l time =>
    obtain ⟨l, version⟩ := l
    simp only [perform]
    cases h : lease.replace version (l.acquired p time) with
    | none => exact .inl ⟨rfl, fun l hl => by cases hl⟩
    | some lease' =>
      obtain ⟨hcur, rfl⟩ := VersionedObject.replace_eq_some hcall.1 h
      exact .inr ⟨l.acquired p time, _, rfl, rfl, rfl, .acquired hcur hcall.2 rfl⟩

end Perform

section React

variable {clocks : Clocks Pod} {s : LeaseSystem Pod} {p : Pod} {call : LeaseCall Pod}
  {reply : LeaseReply Pod}

/-- What a reply changes: the fields of the pod, the record of `becomeLeader`, the next call. -/
structure Reacts (clocks : Clocks Pod) (s : LeaseSystem Pod) (p : Pod) (call : LeaseCall Pod)
    (reply : LeaseReply Pod) (t : LeaseSystem Pod) (next : Option (LeaseCall Pod)) : Prop where
  lease : t.lease = s.lease
  now : t.now = s.now
  attempts : t.attempts = s.attempts
  leaders : t.leaders = s.leaders
  others : ∀ q, q ≠ p → t.pods q = s.pods q
  isLeader : (t.pods p).isLeader = true →
    (s.pods p).isLeader = true ∨ call.writes = true ∧ ∃ l, reply = .lease l
  became : t.became = s.became ∨ ∃ l, call.writes = true ∧ reply = .lease l ∧
    t.became = s.became ++ [(p, l.1.term)]
  next : (∀ l, reply = .lease l → s.lease.Read l) →
    ∀ call' ∈ next, CallOk clocks s.now s.lease p call'

theorem reacts_keep (next : Option (LeaseCall Pod))
    (hnext : (∀ l, reply = .lease l → s.lease.Read l) →
      ∀ call' ∈ next, CallOk clocks s.now s.lease p call') :
    Reacts clocks s p call reply s next :=
  ⟨rfl, rfl, rfl, rfl, fun _ _ => rfl, .inl, .inl rfl, hnext⟩

variable [DecidableEq Pod]

theorem setPod_others (s : LeaseSystem Pod) (e : ElectionState Pod) {q : Pod} (h : q ≠ p) :
    (s.setPod p e).pods q = s.pods q := Function.update_of_ne h _ _

theorem setPod_self (s : LeaseSystem Pod) (p : Pod) (e : ElectionState Pod) :
    (s.setPod p e).pods p = e := Function.update_self _ _ _

/-- `onError` and `setFollower` end the attempt with the pod as no leader. -/
theorem reacts_lower (e : ElectionState Pod) (he : e.isLeader = false) :
    Reacts clocks s p call reply (s.setPod p e) none :=
  ⟨rfl, rfl, rfl, rfl, fun _ h => setPod_others s e h,
    fun h => by simp [setPod_self, he] at h, .inl rfl, fun _ _ h => by cases h⟩

theorem reacts_become {l : Lease Pod} (hw : call.writes = true) :
    Reacts clocks s p call (.lease l) (s.becomeLeader p l) none :=
  ⟨rfl, rfl, rfl, rfl, fun _ h => setPod_others s _ h, fun _ => .inr ⟨hw, l, rfl⟩,
    .inr ⟨l, hw, rfl, rfl⟩, fun _ _ h => by cases h⟩

theorem react_spec : Reacts clocks s p call reply (react clocks s p call reply).1
    (react clocks s p call reply).2 := by
  cases call with
  | read =>
    cases reply with
    | lease l =>
      simp only [react]
      split_ifs with hmine hexpired
      · refine reacts_keep _ fun hread call' hcall => ?_
        cases hcall
        exact ⟨hread l rfl, hmine⟩
      · refine reacts_keep _ fun hread call' hcall => ?_
        cases hcall
        exact ⟨hread l rfl, .inl ⟨s.now, Int.le_refl _, hexpired⟩⟩
      · cases hholder : l.1.holderIdentity with
        | some holder => exact reacts_lower _ rfl
        | none =>
          refine reacts_keep _ fun hread call' hcall => ?_
          cases hcall
          exact ⟨hread l rfl, .inr hholder⟩
    | notFound =>
      refine reacts_keep _ fun _ call' hcall => ?_
      cases hcall
      trivial
    | conflict | failed => exact reacts_lower _ rfl
  | create time | renew l time =>
    cases reply with
    | lease l => exact reacts_become rfl
    | notFound | conflict | failed => exact reacts_lower _ rfl
  | takeOver l time =>
    cases reply with
    | lease l => exact reacts_become rfl
    | conflict =>
      refine reacts_keep _ fun _ call' hcall => ?_
      cases hcall
      trivial
    | notFound | failed => exact reacts_lower _ rfl
  | refresh =>
    cases reply with
    | lease l =>
      simp only [react]
      cases l.1.holderIdentity with
      | some holder =>
        dsimp only
        split_ifs
        · exact reacts_lower _ rfl
        · exact reacts_keep _ fun _ call' hcall => by cases hcall
      | none => exact reacts_keep _ fun _ call' hcall => by cases hcall
    | notFound | conflict | failed => exact reacts_keep _ fun _ call' hcall => by cases hcall

end React

variable {clocks : Clocks Pod} {s t : LeaseSystem Pod} {act : LeaseAct Pod}

/-- Whatever an attempt knows of the lease it has read. -/
structure AttemptOk (clocks : Clocks Pod) (now : Int) (lease : VersionedObject (LeaseSpec Pod))
    (a : LeaseAttempt Pod) : Prop where
  call : CallOk clocks now lease a.pod a.call
  reply : ∀ l, a.reply = some (.lease l) → lease.Read l

def AttemptsOk (clocks : Clocks Pod) (s : LeaseSystem Pod) : Prop :=
  ∀ k a, s.attempts k = some a → AttemptOk clocks s.now s.lease a

/-- The pod `p` has written the lease `l` and has the answer to process still. -/
def Won (s : LeaseSystem Pod) (p : Pod) (l : Lease Pod) : Prop :=
  ∃ k call, call.writes = true ∧ s.attempts k = some ⟨p, call, some (.lease l), true⟩

/-- The pod says that it is the leader, or is going to. -/
def Reports (s : LeaseSystem Pod) (p : Pod) : Prop :=
  (s.pods p).isLeader = true ∨ ∃ l, Won s p l

theorem AttemptOk.tick {now now' : Int} {lease : VersionedObject (LeaseSpec Pod)}
    {a : LeaseAttempt Pod} (hle : now ≤ now') (h : AttemptOk clocks now lease a) :
    AttemptOk clocks now' lease a := by
  obtain ⟨p, call, reply, alive⟩ := a
  refine ⟨?_, h.reply⟩
  have hcall := h.call
  cases call with
  | takeOver l time =>
    exact ⟨hcall.1, hcall.2.imp_left fun ⟨time, htime, h⟩ => ⟨time, Int.le_trans htime hle, h⟩⟩
  | _ => exact hcall

theorem AttemptOk.write {now : Int} {lease : VersionedObject (LeaseSpec Pod)}
    {a : LeaseAttempt Pod} (h : AttemptOk clocks now lease a) (spec : LeaseSpec Pod) :
    AttemptOk clocks now (lease.write spec) a := by
  obtain ⟨p, call, reply, alive⟩ := a
  refine ⟨?_, fun l hl => (h.reply l hl).write spec⟩
  have hcall := h.call
  cases call with
  | renew l time => exact ⟨hcall.1.write spec, hcall.2⟩
  | takeOver l time => exact ⟨hcall.1.write spec, hcall.2⟩
  | _ => exact hcall

theorem attempts_update {P : LeaseAttempt Pod → Prop} {k : Nat} {new : Option (LeaseAttempt Pod)}
    {attempts : Nat → Option (LeaseAttempt Pod)} (h : ∀ j a, attempts j = some a → P a)
    (hnew : ∀ a, new = some a → P a) :
    ∀ j a, Function.update attempts k new j = some a → P a := by
  intro j a ha
  by_cases hj : j = k
  · subst hj
    rw [Function.update_self] at ha
    exact hnew a ha
  · rw [Function.update_of_ne hj] at ha
    exact h j a ha

theorem won_setAttempt {k : Nat} {new : Option (LeaseAttempt Pod)} {p : Pod} {l : Lease Pod}
    (h : Won (s.setAttempt k new) p l) : Won s p l ∨
      ∃ call, call.writes = true ∧ new = some ⟨p, call, some (.lease l), true⟩ := by
  obtain ⟨j, call, hw, hj⟩ := h
  change Function.update s.attempts k new j = _ at hj
  by_cases hjk : j = k
  · subst hjk
    rw [Function.update_self] at hj
    exact .inr ⟨call, hw, hj⟩
  · rw [Function.update_of_ne hjk] at hj
    exact .inl ⟨j, call, hw, hj⟩

/-- The server answers a write. -/
def Writes (s : LeaseSystem Pod) (act : LeaseAct Pod) : Prop :=
  ∃ k a, s.attempts k = some a ∧ a.call.writes = true ∧ (act = .serve k ∨ act = .fail k true)

/-- What a step does to the lease and to those that report leadership: nothing but the processing of
an answer, or one write. -/
inductive Effect (clocks : Clocks Pod) (s : LeaseSystem Pod) (act : LeaseAct Pod)
    (t : LeaseSystem Pod) : Prop
  | quiet (lease : t.lease = s.lease) (leaders : t.leaders = s.leaders)
      (won : ∀ q l, Won t q l → Won s q l) (reports : ∀ q, Reports t q → Reports s q)
      (became : t.became = s.became ∨
        ∃ q l, Won s q l ∧ t.became = s.became ++ [(q, l.1.term)])
  | write (p : Pod) (spec : LeaseSpec Pod) (leader : Option (Pod × Nat)) (writes : Writes s act)
      (written : Written clocks s.now s.lease p spec leader)
      (holder : spec.holderIdentity = some p) (lease : t.lease = s.lease.write spec)
      (leaders : t.leaders = s.leaders ++ leader.toList)
      (won : ∀ q l, Won t q l → Won s q l ∨ q = p ∧ l = (spec, s.lease.next))
      (isLeader : ∀ q, (t.pods q).isLeader = (s.pods q).isLeader)
      (became : t.became = s.became)

/-- An attempt that begins, or that an error ends, changes nothing of the lease. -/
theorem effect_setAttempt {a : LeaseAttempt Pod} (hok : AttemptsOk clocks s) (k : Nat)
    (hcall : CallOk clocks s.now s.lease a.pod a.call)
    (hreply : ∀ l, a.reply ≠ some (.lease l)) :
    AttemptsOk clocks (s.setAttempt k (some a)) ∧
      Effect clocks s act (s.setAttempt k (some a)) := by
  have hwon : ∀ q l, Won (s.setAttempt k (some a)) q l → Won s q l := by
    intro q l hq
    rcases won_setAttempt hq with hq | ⟨call, _, heq⟩
    · exact hq
    · cases heq
      exact absurd rfl (hreply l)
  refine ⟨attempts_update hok ?_, .quiet rfl rfl hwon
    (fun q hq => hq.imp id fun ⟨l, hl⟩ => ⟨l, hwon q l hl⟩) (.inl rfl)⟩
  rintro b ⟨⟩
  exact ⟨hcall, fun l hl => absurd hl (hreply l)⟩

/-- The server answers the attempt `k` with `reply`: an error, or what it has done. -/
theorem effect_perform {k : Nat} {p : Pod} {call : LeaseCall Pod} {alive : Bool}
    {reply : LeaseReply Pod} (hok : AttemptsOk clocks s)
    (ha : s.attempts k = some ⟨p, call, none, alive⟩)
    (hreply : reply = .failed ∨ reply = (perform s.lease p call).1)
    (hact : act = .serve k ∨ act = .fail k true)
    (ht : t = { s.setAttempt k (some ⟨p, call, some reply, alive⟩) with
      lease := (perform s.lease p call).2.1
      leaders := s.leaders ++ (perform s.lease p call).2.2.toList }) :
    AttemptsOk clocks t ∧ Effect clocks s act t := by
  have hcall := (hok k _ ha).call
  have hwon : ∀ q l, Won t q l → Won s q l ∨ q = p ∧ call.writes = true ∧ reply = .lease l := by
    intro q l hq
    have hq' : Won (s.setAttempt k (some ⟨p, call, some reply, alive⟩)) q l := by
      subst ht
      exact hq
    rcases won_setAttempt hq' with hq | ⟨call', hw, heq⟩
    · exact .inl hq
    · cases heq
      exact .inr ⟨rfl, hw, rfl⟩
  rcases perform_cases hcall with ⟨hsame, hread⟩ | ⟨spec, leader, heq, hw, hp, hwritten⟩
  · rw [hsame, Option.toList_none, List.append_nil] at ht
    have hnotWon : ∀ l, call.writes = true → reply ≠ .lease l := by
      rintro l hw rfl
      rcases hreply with hreply | hreply
      · cases hreply
      · simp [(hread l hreply.symm).2] at hw
    have hwon' : ∀ q l, Won t q l → Won s q l := fun q l hq =>
      (hwon q l hq).elim id fun h => absurd h.2.2 (hnotWon l h.2.1)
    subst ht
    refine ⟨attempts_update hok ?_, .quiet rfl rfl hwon' (fun q hq => ?_) (.inl rfl)⟩
    · rintro a ⟨⟩
      refine ⟨hcall, fun l hl => ?_⟩
      cases hl
      rcases hreply with hreply | hreply
      · cases hreply
      · exact read_current (hread l hreply.symm).1
    · exact hq.imp id fun ⟨l, hl⟩ => ⟨l, hwon' q l hl⟩
  · rw [heq] at hreply ht
    have hreply' : ∀ l, reply = .lease l → l = (spec, s.lease.next) := by
      rintro l rfl
      rcases hreply with hreply | hreply
      · cases hreply
      · cases hreply
        rfl
    subst ht
    refine ⟨attempts_update (fun j a hj => (hok j a hj).write spec) ?_,
      .write p spec leader ⟨k, _, ha, hw, hact⟩ hwritten hp rfl rfl (fun q l hq => ?_)
        (fun _ => rfl) rfl⟩
    · rintro a ⟨⟩
      refine ⟨((hok k _ ha).write spec).call, fun l hl => ?_⟩
      cases hl
      rw [hreply' l rfl]
      exact read_current rfl
    · exact (hwon q l hq).imp_right fun h => ⟨h.1, hreply' l h.2.2⟩

variable [DecidableEq Pod]

/-- The pod goes on with the attempt `k`. -/
theorem effect_deliver {k : Nat} {p : Pod} {call : LeaseCall Pod} {reply : LeaseReply Pod}
    {s' : LeaseSystem Pod} {next : Option (LeaseCall Pod)} (hok : AttemptsOk clocks s)
    (ha : s.attempts k = some ⟨p, call, some reply, true⟩)
    (hr : Reacts clocks s p call reply s' next)
    (ht : t = s'.setAttempt k (next.map fun call => ⟨p, call, none, true⟩)) :
    AttemptsOk clocks t ∧ Effect clocks s act t := by
  have hread : ∀ l, reply = .lease l → s.lease.Read l := fun l hl =>
    (hok k _ ha).reply l (congrArg some hl)
  have hattempts : t.attempts
      = Function.update s.attempts k (next.map fun call => ⟨p, call, none, true⟩) := by
    rw [ht, ← hr.attempts]
    rfl
  have hpods : t.pods = s'.pods := by
    rw [ht]
    rfl
  have hwon : ∀ q l, Won t q l → Won s q l := by
    rintro q l ⟨j, call', hw, hj⟩
    rw [hattempts] at hj
    have hq : Won (s.setAttempt k (next.map fun call => ⟨p, call, none, true⟩)) q l :=
      ⟨j, call', hw, hj⟩
    rcases won_setAttempt hq with hq | ⟨call', _, heq⟩
    · exact hq
    · obtain ⟨_, _, heq⟩ := Option.map_eq_some_iff.mp heq
      cases heq
  have hself : call.writes = true → ∀ l, reply = .lease l → Won s p l := by
    rintro hw l rfl
    exact ⟨k, call, hw, ha⟩
  constructor
  · have hlease : t.lease = s.lease := by
      rw [ht, ← hr.lease]
      rfl
    have hnow : t.now = s.now := by
      rw [ht, ← hr.now]
      rfl
    unfold AttemptsOk
    rw [hattempts, hlease, hnow]
    refine attempts_update hok fun a hnext => ?_
    obtain ⟨call', hcall', rfl⟩ := Option.map_eq_some_iff.mp hnext
    exact ⟨hr.next hread call' hcall', fun l hl => by cases hl⟩
  · refine .quiet (by rw [ht, ← hr.lease]; rfl) (by rw [ht, ← hr.leaders]; rfl) hwon ?_ ?_
    · rintro q (hq | ⟨l, hl⟩)
      · rw [hpods] at hq
        by_cases hqp : q = p
        · subst hqp
          exact (hr.isLeader hq).imp id fun ⟨hw, l, hl⟩ => ⟨l, hself hw l hl⟩
        · rw [hr.others q hqp] at hq
          exact .inl hq
      · exact .inr ⟨l, hwon q l hl⟩
    · have hbecame : t.became = s'.became := by
        rw [ht]
        rfl
      rw [hbecame]
      exact hr.became.imp id fun ⟨l, hw, hl, heq⟩ => ⟨p, l, hself hw l hl, heq⟩

theorem isLeader_lower {p q : Pod} {e : ElectionState Pod} (he : e.isLeader = false)
    (h : ((s.setPod p e).pods q).isLeader = true) : (s.pods q).isLeader = true := by
  by_cases hq : q = p
  · subst hq
    rw [setPod_self, he] at h
    cases h
  · rwa [setPod_others s e hq] at h

/-- Every step answers one call, processes one answer, or changes nothing of the lease. -/
theorem effect_step (hok : AttemptsOk clocks s) (h : step clocks s act = some t) :
    AttemptsOk clocks t ∧ Effect clocks s act t := by
  cases act with
  | timer p k =>
    simp only [step] at h
    split at h
    · cases h
    · cases h
      exact effect_setAttempt hok k trivial nofun
  | serve k =>
    simp only [step] at h
    split at h
    · rename_i p call alive ha
      exact effect_perform hok ha (.inr rfl) (.inl rfl) (Option.some.inj h).symm
    · cases h
  | fail k applied =>
    simp only [step] at h
    split at h
    · rename_i p call alive ha
      split_ifs at h with happlied
      · subst happlied
        exact effect_perform hok ha (.inl rfl) (.inr rfl) (Option.some.inj h).symm
      · cases h
        exact effect_setAttempt hok k (hok k _ ha).call nofun
    · cases h
  | deliver k =>
    simp only [step] at h
    split at h
    · rename_i p call reply ha
      exact effect_deliver hok ha react_spec (Option.some.inj h).symm
    · cases h
  | stop p =>
    cases h
    exact ⟨hok, .quiet rfl rfl (fun _ _ h => h)
      (fun q hq => hq.imp (isLeader_lower rfl) id) (.inl rfl)⟩
  | restart p =>
    cases h
    have halive : ∀ k a, (s.attempts k).map (fun a =>
        if a.pod = p then { a with alive := false } else a) = some a →
        ∃ b, s.attempts k = some b ∧ a = { b with alive := a.alive } ∧
          (a.alive = true → a = b) := by
      intro k a ha
      obtain ⟨b, hb, rfl⟩ := Option.map_eq_some_iff.mp ha
      refine ⟨b, hb, ?_⟩
      split_ifs
      · exact ⟨rfl, fun h => by cases h⟩
      · exact ⟨rfl, fun _ => rfl⟩
    refine ⟨fun k a ha => ?_, .quiet rfl rfl ?_ (fun q hq => hq.imp (isLeader_lower rfl) ?_)
      (.inl rfl)⟩
    · obtain ⟨b, hb, heq, _⟩ := halive k a ha
      rw [heq]
      exact ⟨(hok k b hb).call, (hok k b hb).reply⟩
    · rintro q l ⟨k, call, hw, ha⟩
      obtain ⟨b, hb, _, heq⟩ := halive k _ ha
      exact ⟨k, call, hw, heq rfl ▸ hb⟩
    · rintro ⟨l, k, call, hw, ha⟩
      obtain ⟨b, hb, _, heq⟩ := halive k _ ha
      exact ⟨l, k, call, hw, heq rfl ▸ hb⟩
  | tick now =>
    simp only [step] at h
    split_ifs at h with hle
    cases h
    exact ⟨fun k a ha => (hok k a ha).tick hle,
      .quiet rfl rfl (fun _ _ h => h) (fun _ h => h) (.inl rfl)⟩

end LeaseSystem

end GpuSharing.Sardeenz
