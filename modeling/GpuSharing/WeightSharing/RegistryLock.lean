import Mathlib.Data.Fintype.Pi
import GpuSharing.Lib.Numerals
import GpuSharing.WeightSharing.Registry

namespace GpuSharing.WeightSharing

open FileLock Transition

namespace ExporterPc

variable {pc : ExporterPc} {x : Nat}

theorem locked_of_believes (h : pc.believes = true) : ∃ x, pc.locked = some x := by
  cases pc with
  | owner x stage => exact ⟨x, rfl⟩
  | starts | opened _ | refused | removes _ | ended => cases h

theorem lockFd_of_locked (h : pc.locked = some x) : pc.lockFd = some x := by
  cases pc with
  | owner y stage => exact h
  | starts | opened _ | refused | removes _ | ended => cases h

end ExporterPc

namespace RegistrySystem

variable {n m : Nat} {s t : RegistrySystem n m} {i k : Fin n} {j : Fin m} {pc : ExporterPc}
  {act : RegistryAct n m}

/-- `cleanup` unlinks the lock file only when no exporter has it open. -/
def UnlinksUnused (s : RegistrySystem n m) : RegistryAct n m → Prop
  | .exporter i => s.exporters i = .removes .lock → ∀ k, (s.exporters k).lockFd = none
  | _ => True

instance (s : RegistrySystem n m) : ∀ act, Decidable (s.UnlinksUnused act)
  | .exporter _ => inferInstanceAs (Decidable (_ → _))
  | .shutdown _ | .killExporter _ | .waitForPrimary _ | .startWatchdog _ | .secondary _
  | .timeout _ | .exit _ => .isTrue trivial

/-- Every exporter that has a lock file open has the one that the path names. -/
def Current (s : RegistrySystem n m) : Prop :=
  ∀ k x, (s.exporters k).lockFd = some x → s.lock.inode = some x

theorem Current.move (h : s.Current) (hinode : t.lock.inode = s.lock.inode)
    (ht : t.exporters = (s.setExporter i pc).exporters)
    (hpc : pc.lockFd = none ∨ pc.lockFd = (s.exporters i).lockFd) : t.Current := by
  intro k x hk
  rw [ht, setExporter_exporters] at hk
  rw [hinode]
  by_cases hki : k = i
  · rw [if_pos hki] at hk
    cases hpc with
    | inl hnone =>
      rw [hnone] at hk
      cases hk
    | inr hsame => exact h i x (hsame ▸ hk)
  · rw [if_neg hki] at hk
    exact h k x hk

theorem Current.step (h : s.Current) (hC : s.UnlinksUnused act) (ht : s.step act = some t) :
    t.Current := by
  rcases step_cases ht with ⟨i, hstep⟩ | ⟨j, pc, _, hmoved⟩
  · cases hstep with
    | opens he =>
      intro k x hk
      change ((s.setExporter i _).exporters k).lockFd = some x at hk
      rw [setExporter_exporters] at hk
      by_cases hki : k = i
      · rw [if_pos hki] at hk
        exact hk
      · rw [if_neg hki] at hk
        exact congrArg some (LockFile.opened_of_some (h k x hk))
    | acquires he hl => exact h.move (LockFile.tryLock_inode hl) rfl (.inr (by rw [he]; rfl))
    | writesPid he | exports he | renames he | unlinksSignal he | touchesSignal he
      | renameFails he | cleansUp he =>
      exact h.move rfl rfl (.inr (by rw [he]; rfl))
    | refused | releases | cleansUpUnlocked | removesReady | removesRegistry | ownerEnds | ends =>
      exact h.move rfl rfl (.inl rfl)
    | removesLock he =>
      -- nobody has the file open that goes
      have hnone := hC he
      intro k x hk
      change ((s.setExporter i _).exporters k).lockFd = some x at hk
      rw [setExporter_exporters] at hk
      split at hk
      · cases hk
      · rw [hnone k] at hk
        cases hk
  · intro k x hk
    rw [hmoved.inode]
    exact h k x (hmoved.exporters ▸ hk)

/-- Two exporters that have the flock of a current lock file are one. -/
theorem Current.unique (h : s.Current) (hs : s.Consistent) {x y : Nat}
    (hi : (s.exporters i).locked = some x) (hk : (s.exporters k).locked = some y) : i = k := by
  have hx := h i x (ExporterPc.lockFd_of_locked hi)
  have hy := h k y (ExporterPc.lockFd_of_locked hk)
  have hxy : x = y := Option.some.inj (hx.symm.trans hy)
  subst hxy
  have hia : s.lockedBy (.primary i) = some x := hi
  exact LockOwner.primary.inj (hs.unique hia hk)

/-- In every run in which the lock file is only unlinked while no exporter has it open, at most one
exporter believes that it has the primary lock. -/
theorem at_most_one_primary {acts : List (RegistryAct n m)}
    (hC : Along step UnlinksUnused init acts) (hrun : run step init acts = some s)
    (hi : (s.exporters i).believes = true) (hk : (s.exporters k).believes = true) : i = k := by
  have h : s.Consistent ∧ s.Current := by
    refine run_invariant_along (I := fun s => s.Consistent ∧ s.Current) ?_ ?_ hC hrun
    · intro s act t h hC ht
      exact ⟨step_consistent h.1 ht, h.2.step hC ht⟩
    · exact ⟨init_consistent, fun k x hk => nomatch hk⟩
  obtain ⟨x, hx⟩ := ExporterPc.locked_of_believes hi
  obtain ⟨y, hy⟩ := ExporterPc.locked_of_believes hk
  exact h.2.unique h.1 hx hy

attribute [local instance] Numerals.neZero_one Numerals.neZero_two Numerals.neZero_three

/-- The first exporter ends its whole cleanup before the second one starts. -/
def successionRun : List (RegistryAct 2 0) :=
  [.exporter 0, .exporter 0, .exporter 0, .shutdown 0, .exporter 0, .exporter 0, .exporter 0,
    .exporter 0, .exporter 1, .exporter 1, .exporter 1]

/-- The second exporter takes the lock between the first one's release and its unlink, the third
one makes a new lock file. -/
def twoPrimariesRun : List (RegistryAct 3 0) :=
  [.exporter 0, .exporter 0, .exporter 0, .shutdown 0, .exporter 0, .exporter 1, .exporter 1,
    .exporter 1, .exporter 0, .exporter 0, .exporter 0, .exporter 2, .exporter 2, .exporter 2]

theorem at_most_one_primary_succession : ∃ s : RegistrySystem 2 0,
    run step init successionRun = some s ∧ (s.exporters 1).believes = true ∧
      ∀ k, (s.exporters k).believes = true → k = 1 := by
  have hrun : run step (init : RegistrySystem 2 0) successionRun =
      some ((run step init successionRun).get (by decide +kernel)) := (Option.some_get _).symm
  refine ⟨_, hrun, by decide +kernel, fun k hk => ?_⟩
  exact at_most_one_primary (by decide +kernel) hrun hk (by decide +kernel)

theorem two_primaries : ∃ s : RegistrySystem 3 0,
    run step init twoPrimariesRun = some s ∧ (s.exporters 1).believes = true ∧
      (s.exporters 2).believes = true := by
  have hrun : run step (init : RegistrySystem 3 0) twoPrimariesRun =
      some ((run step init twoPrimariesRun).get (by decide +kernel)) := (Option.some_get _).symm
  exact ⟨_, hrun, by decide +kernel, by decide +kernel⟩

/-- The attempt to lock an inode that a step makes. -/
def attempt (s : RegistrySystem n m) : RegistryAct n m → Option (LockOwner n m × Nat)
  | .secondary j => match s.secondaries j with
    | .probes _ (.attempts x) => some (.secondary j, x)
    | _ => none
  | .exporter i => match s.exporters i with
    | .opened x => some (.primary i, x)
    | _ => none
  | _ => none

/-- Some exporter has a flock on an inode of the lock file. -/
def PrimaryLocked (s : RegistrySystem n m) : Prop := ∃ i, (s.exporters i).locked.isSome = true

instance (s : RegistrySystem n m) : Decidable s.PrimaryLocked :=
  inferInstanceAs (Decidable (∃ i, (s.exporters i).locked.isSome = true))

/-- A blocked probe answers that a primary is alive, another one that none is; a blocked exporter
raises that another primary has the lock. -/
def RightAt (s : RegistrySystem n m) (a : LockOwner n m) (x : Nat) : Prop :=
  match a with
  | .secondary _ => (s.lock.tryLock a x).isNone = true ↔ s.PrimaryLocked
  | .primary _ => (s.lock.tryLock a x).isNone = true → s.PrimaryLocked

instance (s : RegistrySystem n m) : ∀ a x, Decidable (s.RightAt a x)
  | .secondary _, _ => inferInstanceAs (Decidable (_ ↔ _))
  | .primary _, _ => inferInstanceAs (Decidable (_ → _))

/-- `is_primary_alive` answers right and no probe makes `acquire_primary_lock` fail. -/
def AnswersRight (s : RegistrySystem n m) (act : RegistryAct n m) : Prop :=
  ∀ p ∈ s.attempt act, s.RightAt p.1 p.2

/-- No probe has the flock of `x`. -/
def NoProbeAt (s : RegistrySystem n m) (x : Nat) : Prop :=
  ∀ k, s.lock.holder x ≠ some (.secondary k)

/-- No other probe has the flock of the file that a probe or an exporter tries to lock. -/
def ProbesApart (s : RegistrySystem n m) (act : RegistryAct n m) : Prop :=
  ∀ p ∈ s.attempt act, s.NoProbeAt p.2

/-- The lock file that is tried is the one that a primary has locked, if one has. -/
def SameLockFile (s : RegistrySystem n m) (act : RegistryAct n m) : Prop :=
  ∀ p ∈ s.attempt act, ∀ i, ∀ y ∈ (s.exporters i).locked, y = p.2

instance (s : RegistrySystem n m) (act : RegistryAct n m) : Decidable (s.AnswersRight act) :=
  inferInstanceAs (Decidable (∀ p ∈ s.attempt act, s.RightAt p.1 p.2))

instance (s : RegistrySystem n m) (x : Nat) : Decidable (s.NoProbeAt x) :=
  inferInstanceAs (Decidable (∀ k, s.lock.holder x ≠ some (.secondary k)))

instance (s : RegistrySystem n m) (act : RegistryAct n m) : Decidable (s.ProbesApart act) :=
  inferInstanceAs (Decidable (∀ p ∈ s.attempt act, s.NoProbeAt p.2))

instance (s : RegistrySystem n m) (act : RegistryAct n m) : Decidable (s.SameLockFile act) :=
  inferInstanceAs (Decidable (∀ p ∈ s.attempt act, ∀ i, ∀ y ∈ (s.exporters i).locked, y = p.2))

/-- What the lock table says of an inode that is the only one a primary may have locked. -/
theorem Consistent.primaryLocked_iff (h : s.Consistent) {x : Nat}
    (hx : ∀ i, ∀ y ∈ (s.exporters i).locked, y = x) :
    s.PrimaryLocked ↔ ∃ i, s.lock.holder x = some (.primary i) := by
  constructor
  · intro ⟨i, hi⟩
    obtain ⟨y, hy⟩ := Option.isSome_iff_exists.mp hi
    exact ⟨i, (h (.primary i) x).mpr (hx i y hy ▸ hy)⟩
  · intro ⟨i, hi⟩
    have hl : (s.exporters i).locked = some x := (h (.primary i) x).mp hi
    exact ⟨i, by rw [hl]; rfl⟩

theorem Consistent.rightAt_iff (h : s.Consistent) {x : Nat} (a : LockOwner n m)
    (hx : ∀ i, ∀ y ∈ (s.exporters i).locked, y = x) : s.RightAt a x ↔ s.NoProbeAt x := by
  have hblocked : ((s.lock.tryLock a x).isNone = true → s.PrimaryLocked) ↔ s.NoProbeAt x := by
    rw [h.primaryLocked_iff hx, Option.isNone_iff_eq_none, LockFile.tryLock_eq_none]
    constructor
    · intro hb k hk
      obtain ⟨i, hi⟩ := hb ⟨_, hk⟩
      rw [hk] at hi
      cases hi
    · intro hno ⟨b, hb⟩
      cases b with
      | primary i => exact ⟨i, hb⟩
      | secondary k => exact absurd hb (hno k)
  have hheld : s.PrimaryLocked → (s.lock.tryLock a x).isNone = true := by
    intro hp
    obtain ⟨i, hi⟩ := (h.primaryLocked_iff hx).mp hp
    exact Option.isNone_iff_eq_none.mpr (LockFile.tryLock_eq_none.mpr ⟨_, hi⟩)
  cases a with
  | primary i => exact hblocked
  | secondary j => exact ⟨fun hr => hblocked.mp hr.mp, fun hno => ⟨hblocked.mpr hno, hheld⟩⟩

theorem answersRight_iff (h : s.Consistent) (hE : s.SameLockFile act) :
    s.AnswersRight act ↔ s.ProbesApart act :=
  forall_congr' fun p => forall_congr' fun hp => h.rightAt_iff p.1 (hE p hp)

theorem along_answersRight_iff {acts : List (RegistryAct n m)}
    (hE : Along step SameLockFile init acts) :
    Along step AnswersRight init acts ↔ Along step ProbesApart init acts := by
  refine along_congr (I := Consistent) ?_ ?_ init_consistent hE
  · intro s act h hE
    exact answersRight_iff h hE
  · intro s act t h _ _ ht
    exact step_consistent h ht

/-- There has been one lock file at most. -/
structure OneFile (s : RegistrySystem n m) : Prop where
  inode : ∀ x, s.lock.inode = some x → x = 0
  lockFd : ∀ k x, (s.exporters k).lockFd = some x → x = 0
  attempts : ∀ j site x, s.secondaries j = .probes site (.attempts x) → x = 0
  starts : ∀ k, s.exporters k = .starts → s.lock.opened = 0

theorem OneFile.attempt (h : s.OneFile) {p : LockOwner n m × Nat} (hp : p ∈ s.attempt act) :
    p.2 = 0 := by
  cases act with
  | secondary j =>
    simp only [RegistrySystem.attempt] at hp
    split at hp
    case h_1 site x hj =>
      cases hp
      exact h.attempts j site x hj
    case h_2 => cases hp
  | exporter k =>
    simp only [RegistrySystem.attempt] at hp
    split at hp
    case h_1 x hk =>
      cases hp
      exact h.lockFd k x (by rw [hk]; rfl)
    case h_2 => cases hp
  | shutdown _ | killExporter _ | waitForPrimary _ | startWatchdog _ | timeout _ | exit _ =>
    cases hp

theorem OneFile.sameLockFile (h : s.OneFile) : s.SameLockFile act := by
  intro p hp i y hy
  rw [h.attempt hp, h.lockFd i y (ExporterPc.lockFd_of_locked hy)]

theorem OneFile.moveExporter {s t : RegistrySystem 1 m} {i : Fin 1} {pc : ExporterPc}
    (h : s.OneFile) (hinode : ∀ x, t.lock.inode = some x → x = 0)
    (ht : t.exporters = (s.setExporter i pc).exporters) (hs : t.secondaries = s.secondaries)
    (hpc : ∀ x, pc.lockFd = some x → x = 0) (hstarts : pc ≠ .starts) : t.OneFile := by
  have hk : ∀ k, t.exporters k = pc := by
    intro k
    rw [ht, setExporter_exporters, if_pos (Subsingleton.elim k i)]
  exact ⟨hinode, fun k x hx => hpc x (hk k ▸ hx), hs ▸ h.attempts,
    fun k he => absurd (hk k ▸ he) hstarts⟩

/-- A single exporter makes a single lock file. -/
theorem OneFile.step {s t : RegistrySystem 1 m} {act : RegistryAct 1 m} (h : s.OneFile)
    (ht : s.step act = some t) : t.OneFile := by
  rcases step_cases ht with ⟨i, hstep⟩ | ⟨j, pc, hstep, hmoved⟩
  · have hfd : ∀ x, (s.exporters i).lockFd = some x → x = 0 := h.lockFd i
    cases hstep with
    | opens he =>
      have h0 := h.starts i he
      refine h.moveExporter ?_ rfl rfl ?_ nofun
      · intro x hx
        exact (Option.some.inj hx).symm.trans h0
      · intro x hx
        exact (Option.some.inj hx).symm.trans h0
    | acquires he hl =>
      rw [he] at hfd
      exact h.moveExporter (fun x hx => h.inode x (LockFile.tryLock_inode hl ▸ hx)) rfl rfl hfd
        nofun
    | writesPid he | exports he | renames he | unlinksSignal he | touchesSignal he
      | renameFails he | cleansUp he =>
      rw [he] at hfd
      exact h.moveExporter h.inode rfl rfl hfd nofun
    | refused | releases | cleansUpUnlocked | removesReady | removesRegistry | ownerEnds | ends =>
      exact h.moveExporter h.inode rfl rfl nofun nofun
    | removesLock => exact h.moveExporter nofun rfl rfl nofun nofun
  · refine ⟨hmoved.inode ▸ h.inode, hmoved.exporters ▸ h.lockFd, fun k site x hk => ?_, ?_⟩
    · rw [hmoved.secondaries, Function.update_apply] at hk
      split at hk
      · cases hstep with
        | opens he hx =>
          cases hk
          exact h.inode x hx
        | @blocked caller y he hl => cases caller <;> cases hk
        | _ => cases hk
      · exact h.attempts k site x hk
    · intro k hk
      have ho : t.lock.opened = s.lock.opened := by
        simp only [LockFile.opened, hmoved.inode, hmoved.next]
      rw [ho]
      exact h.starts k (hmoved.exporters ▸ hk)

theorem init_oneFile : (init : RegistrySystem n m).OneFile :=
  ⟨nofun, nofun, nofun, fun _ _ => rfl⟩

/-- Every answer is right exactly in the runs in which no probe has the lock file locked when
another probe or a starting primary tries to; with several exporters, in the runs in which they try
the file that the primary has locked. -/
theorem answers_right_iff :
    (∀ acts : List (RegistryAct 1 m),
      Along step AnswersRight init acts ↔ Along step ProbesApart init acts) ∧
    ∀ acts : List (RegistryAct n m), Along step SameLockFile init acts →
      (Along step AnswersRight init acts ↔ Along step ProbesApart init acts) := by
  refine ⟨fun acts => along_answersRight_iff ?_, fun acts hE => along_answersRight_iff hE⟩
  refine along_of_invariant (I := OneFile) ?_ ?_ init_oneFile
  · intro s act h
    exact h.sameLockFile
  · intro s act t h ht
    exact h.step ht

/-- A primary starts, one of two waiters finds its lock file before it is locked. -/
def contendingRun : List (RegistryAct 1 2) :=
  [.exporter 0, .waitForPrimary 0, .waitForPrimary 1, .secondary 0, .secondary 1, .secondary 0,
    .secondary 1, .secondary 0, .secondary 1, .secondary 0, .secondary 1, .secondary 0]

/-- The primary has the lock before the waiters find its file. -/
def lockedFirstRun : List (RegistryAct 1 2) :=
  [.exporter 0, .exporter 0, .waitForPrimary 0, .secondary 0, .secondary 0, .secondary 0,
    .secondary 0, .secondary 0]

theorem answers_right_iff_lockedFirst :
    Along step AnswersRight (init : RegistrySystem 1 2) lockedFirstRun ∧
      ¬Along step AnswersRight (init : RegistrySystem 1 2) (contendingRun ++ [.secondary 1]) := by
  have hright := (answers_right_iff (n := 1) (m := 2)).1
  have hgeneral := (answers_right_iff (n := 1) (m := 2)).2
  exact ⟨(hgeneral _ (by decide +kernel)).mpr (by decide +kernel),
    fun h => absurd ((hright _).mp h) (by decide +kernel)⟩

/-- A probe makes another probe answer that a primary is alive, and the primary's start fail. -/
theorem probe_taken_for_primary : ∃ s t u : RegistrySystem 1 2,
    run step init contendingRun = some s ∧ ¬s.PrimaryLocked ∧
      step s (.secondary 1) = some t ∧ t.secondaries 1 = .polls ∧ ¬s.AnswersRight (.secondary 1) ∧
      step s (.exporter 0) = some u ∧ u.exporters 0 = .refused ∧ ¬s.AnswersRight (.exporter 0) := by
  let s := (run step (init : RegistrySystem 1 2) contendingRun).get (by decide +kernel)
  have hrun : run step (init : RegistrySystem 1 2) contendingRun = some s :=
    (Option.some_get _).symm
  have ht : step s (.secondary 1) = some ((step s (.secondary 1)).get (by decide +kernel)) :=
    (Option.some_get _).symm
  have hu : step s (.exporter 0) = some ((step s (.exporter 0)).get (by decide +kernel)) :=
    (Option.some_get _).symm
  exact ⟨s, _, _, hrun, by decide +kernel, ht, by decide +kernel, by decide +kernel, hu,
    by decide +kernel, by decide +kernel⟩

end RegistrySystem

end GpuSharing.WeightSharing
