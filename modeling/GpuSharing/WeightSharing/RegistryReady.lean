import GpuSharing.Lib.Numerals
import GpuSharing.WeightSharing.RegistryLock

namespace GpuSharing.WeightSharing

open FileLock Transition

/-- `write_registry` has returned and `cleanup` has not begun. -/
def ExportStage.written : ExportStage → Bool
  | .unlinksSignal | .touchesSignal | .serving => true
  | _ => false

/-- The waiter has seen the ready file and checks whether the primary is alive. -/
def SecondaryPc.confirms {n : Nat} : SecondaryPc n → Bool
  | .probes .confirming _ => true
  | _ => false

/-- If the waiter is about to read the registry, `i` alone had the lock when it got `True`. -/
def SecondaryPc.expects {n : Nat} (i : Fin n) : SecondaryPc n → Bool
  | .trusts owners => owners = [i]
  | _ => true

namespace RegistrySystem

variable {n m : Nat} {s t : RegistrySystem n m} {i k w : Fin n} {j : Fin m} {pc : ExporterPc}
  {act : RegistryAct n m}

/-- There is no ready file and no waiter that has seen one and not yet checked the lock. -/
def Unannounced (s : RegistrySystem n m) : Prop :=
  s.ready = false ∧ ∀ j, (s.secondaries j).confirms = false

/-- A primary locks the file only where no other has it locked and no registry of a predecessor is
left that a waiter could take for its own; it replaces the registry only while no waiter that got
`True` from a predecessor is about to read it. -/
def LeavesNoStale (s : RegistrySystem n m) (i : Fin n) : ExporterPc → Prop
  | .opened x => s.lock.holder x = none →
    (∀ k, (s.exporters k).locked = none) ∧ (s.registry = none ∨ s.Unannounced)
  | .owner _ .renames => ∀ j, (s.secondaries j).expects i = true
  | _ => True

/-- The last check of a waiter is not blocked by another probe. -/
def ConfirmsPrimary (s : RegistrySystem n m) : SecondaryPc n → Prop
  | .probes .confirming (.attempts x) => s.NoProbeAt x
  | _ => True

def NoStaleStep (s : RegistrySystem n m) : RegistryAct n m → Prop
  | .exporter i => s.LeavesNoStale i (s.exporters i)
  | .secondary j => s.ConfirmsPrimary (s.secondaries j)
  | _ => True

instance (s : RegistrySystem n m) : Decidable s.Unannounced :=
  inferInstanceAs (Decidable (_ ∧ ∀ j, (s.secondaries j).confirms = false))

instance (s : RegistrySystem n m) (i : Fin n) : ∀ pc, Decidable (s.LeavesNoStale i pc)
  | .opened x => inferInstanceAs (Decidable (s.lock.holder x = none → _))
  | .owner _ .renames => inferInstanceAs (Decidable (∀ j, (s.secondaries j).expects i = true))
  | .owner _ .writesPid | .owner _ .exports | .owner _ .unlinksSignal | .owner _ .touchesSignal
  | .owner _ .serving | .owner _ .releases | .starts | .refused | .removes _ | .ended =>
    .isTrue trivial

instance (s : RegistrySystem n m) (pc : SecondaryPc n) : Decidable (s.ConfirmsPrimary pc) := by
  unfold ConfirmsPrimary
  split <;> infer_instance

instance (s : RegistrySystem n m) : ∀ act, Decidable (s.NoStaleStep act)
  | .exporter i => inferInstanceAs (Decidable (s.LeavesNoStale i (s.exporters i)))
  | .secondary j => inferInstanceAs (Decidable (s.ConfirmsPrimary (s.secondaries j)))
  | .shutdown _ | .killExporter _ | .waitForPrimary _ | .startWatchdog _ | .timeout _
  | .exit _ => .isTrue trivial

/-- The registry is the owner's, or there is no owner, or nobody has been told of it. -/
def Attributed (s : RegistrySystem n m) : Prop :=
  ∀ w, s.registry = some w → (s.exporters w).locked.isSome = true ∨ ¬s.PrimaryLocked ∨
    s.Unannounced

/-- The temporary file is the one owner's, and so is the registry from its rename on; who is going
to read it trusts the writer. -/
structure Fresh (s : RegistrySystem n m) : Prop where
  unique : ∀ i k, (s.exporters i).locked.isSome = true → (s.exporters k).locked.isSome = true →
    i = k
  tmp : ∀ i x, s.exporters i = .owner x .renames → s.tmp = some i
  written : ∀ i x stage, s.exporters i = .owner x stage → stage.written = true →
    ∀ w, s.registry = some w → w = i
  attributed : s.Attributed
  trusts : ∀ j owners, s.secondaries j = .trusts owners →
    ∃ p, owners = [p] ∧ ∀ w, s.registry = some w → w = p
  read : ∀ j owners w, s.secondaries j = .hasRead owners (some w) → owners = [w]

theorem init_fresh : (init : RegistrySystem n m).Fresh :=
  ⟨nofun, nofun, nofun, nofun, nofun, nofun⟩

theorem lockOwners_eq (hi : (s.exporters i).locked.isSome = true)
    (hunique : ∀ k, (s.exporters k).locked.isSome = true → k = i) : s.lockOwners = [i] := by
  have hp : ∀ k ∈ List.finRange n, (s.exporters k).locked.isSome = (k == i) := by
    intro k _
    by_cases hk : k = i
    · subst hk
      simpa using hi
    · have hno : (s.exporters k).locked.isSome = false := by
        by_contra hno
        exact hk (hunique k (Bool.not_eq_false _ ▸ hno))
      simp [hno, hk]
  unfold lockOwners
  rw [List.filter_congr hp, List.filter_beq,
    List.count_eq_one_of_mem (List.nodup_finRange n) (List.mem_finRange i), List.replicate_one]

/-- An exporter's step that takes no lock leaves at most the locks there were. -/
theorem locked_of_move (pc : ExporterPc) (ht : t.exporters = (s.setExporter i pc).exporters)
    (hpc : pc.locked = none ∨ pc.locked = (s.exporters i).locked)
    (hk : (t.exporters k).locked.isSome = true) : (s.exporters k).locked.isSome = true := by
  rw [ht, setExporter_exporters] at hk
  split at hk
  case isTrue hki =>
    rcases hpc with hnone | hsame
    · rw [hnone] at hk
      cases hk
    · rwa [hsame, ← hki] at hk
  case isFalse => exact hk

theorem Unannounced.congr (h : s.Unannounced) (hs : t.secondaries = s.secondaries)
    (hready : t.ready = s.ready ∨ t.ready = false) : t.Unannounced := by
  refine ⟨?_, hs ▸ h.2⟩
  rcases hready with hready | hready
  · exact hready.trans h.1
  · exact hready

theorem Fresh.attributedMove (h : s.Fresh) (pc : ExporterPc)
    (ht : t.exporters = (s.setExporter i pc).exporters) (hs : t.secondaries = s.secondaries)
    (hpc : pc.locked = none ∨ pc.locked = (s.exporters i).locked)
    (hready : t.ready = s.ready ∨ t.ready = false)
    (hregistry : ∀ w, t.registry = some w → s.registry = some w) : t.Attributed := by
  intro w hw
  rcases h.attributed w (hregistry w hw) with hlocked | hfree | hquiet
  · by_cases hlost : (t.exporters w).locked.isSome = true
    · exact .inl hlost
    · -- the writer is the exporter that has given up the only lock
      refine .inr (.inl ?_)
      intro ⟨k, hk⟩
      have hkw := h.unique k w (locked_of_move pc ht hpc hk) hlocked
      exact hlost (hkw ▸ hk)
  · exact .inr (.inl fun ⟨k, hk⟩ => hfree ⟨k, locked_of_move pc ht hpc hk⟩)
  · exact .inr (.inr (hquiet.congr hs hready))

/-- An exporter's step that leaves the registry, or removes it, and takes no lock. -/
theorem Fresh.moveExporter (h : s.Fresh) (pc : ExporterPc)
    (ht : t.exporters = (s.setExporter i pc).exporters) (hs : t.secondaries = s.secondaries)
    (hpc : pc.locked = none ∨ pc.locked = (s.exporters i).locked)
    (htmp : t.tmp = s.tmp ∨ (s.exporters i).locked.isSome = true)
    (hrenames : ∀ x, pc = .owner x .renames → t.tmp = some i)
    (hwritten : ∀ x stage, pc = .owner x stage → stage.written = true →
      ∃ stage', s.exporters i = .owner x stage' ∧ stage'.written = true)
    (hregistry : ∀ w, t.registry = some w → s.registry = some w) (hattr : t.Attributed) :
    t.Fresh := by
  refine ⟨fun i k hi hk => h.unique i k (locked_of_move pc ht hpc hi)
    (locked_of_move pc ht hpc hk), ?_, ?_, hattr, ?_, ?_⟩
  · intro k x hk
    rw [ht, setExporter_exporters] at hk
    split at hk
    case isTrue hki => exact hki ▸ hrenames x hk
    case isFalse hki =>
      rcases htmp with htmp | hi
      · exact htmp.trans (h.tmp k x hk)
      · exact absurd (h.unique k i (by rw [hk]; rfl) hi) hki
  · intro k x stage hk hst w hw
    rw [ht, setExporter_exporters] at hk
    split at hk
    case isTrue hki =>
      obtain ⟨stage', hi, hst'⟩ := hwritten x stage hk hst
      exact hki ▸ h.written i x stage' hi hst' w (hregistry w hw)
    case isFalse => exact h.written k x stage hk hst w (hregistry w hw)
  · intro j owners hj
    obtain ⟨p, hp, hw⟩ := h.trusts j owners (hs ▸ hj)
    exact ⟨p, hp, fun w hw' => hw w (hregistry w hw')⟩
  · intro j owners w hj
    exact h.read j owners w (hs ▸ hj)

/-- A step that changes no file but the lock file, and takes no lock. -/
theorem Fresh.leaves (h : s.Fresh) (pc : ExporterPc)
    (ht : t.exporters = (s.setExporter i pc).exporters) (hs : t.secondaries = s.secondaries)
    (hpc : pc.locked = none ∨ pc.locked = (s.exporters i).locked)
    (hrenames : ∀ x, pc ≠ .owner x .renames)
    (hwritten : ∀ x stage, pc = .owner x stage → stage.written = false) (htmp : t.tmp = s.tmp)
    (hready : t.ready = s.ready ∨ t.ready = false)
    (hregistry : ∀ w, t.registry = some w → s.registry = some w) : t.Fresh := by
  refine h.moveExporter pc ht hs hpc (.inl htmp) (fun x hx => absurd hx (hrenames x)) ?_ hregistry
    (h.attributedMove pc ht hs hpc hready hregistry)
  intro x stage hx hst
  rw [hwritten x stage hx] at hst
  cases hst

theorem Fresh.acquires (h : s.Fresh) {x : Nat} {lock : LockFile (LockOwner n m)}
    (hfree : ∀ k, (s.exporters k).locked = none) (hstale : s.registry = none ∨ s.Unannounced) :
    Fresh { s.setExporter i (.owner x .writesPid) with lock := lock } := by
  have hnew : ∀ k pc, (s.setExporter i (.owner x .writesPid)).exporters k = pc →
      pc.locked.isSome = true → k = i ∧ pc = .owner x .writesPid := by
    intro k pc hk hpc
    rw [setExporter_exporters] at hk
    split at hk
    case isTrue hki => exact ⟨hki, hk.symm⟩
    case isFalse =>
      rw [← hk, hfree k] at hpc
      cases hpc
  refine ⟨fun k l hk hl => ?_, fun k y hk => ?_, fun k y stage hk hst => ?_, fun w hw => ?_,
    h.trusts, h.read⟩
  · exact (hnew k _ rfl hk).1.trans (hnew l _ rfl hl).1.symm
  · cases (hnew k _ hk rfl).2
  · cases (hnew k _ hk rfl).2
    cases hst
  · rcases hstale with hnone | hquiet
    · cases hnone.symm.trans hw
    · exact .inr (.inr hquiet)

theorem Fresh.renames (h : s.Fresh) {x : Nat} (he : s.exporters i = .owner x .renames)
    (hexpects : ∀ j, (s.secondaries j).expects i = true) :
    Fresh { s.setExporter i (.owner x .unlinksSignal) with
      registry := some i
      tmp := none } := by
  have hi : (s.exporters i).locked.isSome = true := by
    rw [he]
    rfl
  have hlocked : ∀ k, ((s.setExporter i (.owner x .unlinksSignal)).exporters k).locked.isSome =
      true → k = i := by
    intro k hk
    have hpc : (ExporterPc.owner x .unlinksSignal).locked = (s.exporters i).locked := by
      rw [he]
      rfl
    exact h.unique k i (locked_of_move _ rfl (.inr hpc) hk) hi
  refine ⟨fun k l hk hl => ?_, fun k y hk => ?_, fun k y stage hk _ w hw => ?_, fun w hw => ?_,
    fun j owners hj => ?_, h.read⟩
  · exact (hlocked k hk).trans (hlocked l hl).symm
  · change (s.setExporter i _).exporters k = _ at hk
    have hki := hlocked k (by rw [hk]; rfl)
    rw [setExporter_exporters, if_pos hki] at hk
    cases hk
  · change (s.setExporter i _).exporters k = _ at hk
    exact (Option.some.inj hw).symm.trans (hlocked k (by rw [hk]; rfl)).symm
  · refine .inl ?_
    cases hw
    change ((s.setExporter i _).exporters i).locked.isSome = true
    rw [setExporter_exporters, if_pos rfl]
    rfl
  · have hexpects := hexpects j
    change s.secondaries j = _ at hj
    rw [hj] at hexpects
    exact ⟨i, of_decide_eq_true hexpects, fun w hw => (Option.some.inj hw).symm⟩

theorem Fresh.exporterStep (h : s.Fresh) (hC : s.NoStaleStep act) (ht : ExporterStep s i act t) :
    t.Fresh := by
  cases ht with
  | opens he =>
    exact h.leaves (.opened s.lock.opened) rfl rfl (.inl rfl) nofun nofun rfl (.inl rfl)
      fun _ hw => hw
  | @acquires x lock he hl =>
    have hstale : s.LeavesNoStale i (s.exporters i) := hC
    rw [he] at hstale
    obtain ⟨hfree, hstale⟩ := hstale (LockFile.tryLock_some hl).1
    exact h.acquires hfree hstale
  | refused he => exact h.leaves .refused rfl rfl (.inl rfl) nofun nofun rfl (.inl rfl) fun _ hw => hw
  | @writesPid x he =>
    exact h.leaves (.owner x .exports) rfl rfl (.inr (by rw [he]; rfl)) nofun
      (fun _ _ hx => by cases hx; rfl) rfl (.inl rfl) fun _ hw => hw
  | @exports x he =>
    have hpc : (ExporterPc.owner x .renames).locked = (s.exporters i).locked := by rw [he]; rfl
    exact h.moveExporter (.owner x .renames) rfl rfl (.inr hpc) (.inr (by rw [he]; rfl))
      (fun _ _ => rfl) (fun _ _ hx hst => by cases hx; cases hst) (fun _ hw => hw)
      (h.attributedMove (.owner x .renames) rfl rfl (.inr hpc) (.inl rfl) fun _ hw => hw)
  | @renames x w he hw =>
    have hwi : w = i := Option.some.inj (hw.symm.trans (h.tmp i x he))
    have hexpects : s.LeavesNoStale i (s.exporters i) := hC
    rw [he] at hexpects
    subst hwi
    exact h.renames he hexpects
  | @unlinksSignal x he =>
    have hpc : (ExporterPc.owner x .touchesSignal).locked = (s.exporters i).locked := by
      rw [he]; rfl
    exact h.moveExporter (.owner x .touchesSignal) rfl rfl (.inr hpc) (.inl rfl) nofun
      (fun _ _ hx _ => by cases hx; exact ⟨_, he, rfl⟩) (fun _ hw => hw)
      (h.attributedMove (.owner x .touchesSignal) rfl rfl (.inr hpc) (.inr rfl) fun _ hw => hw)
  | @touchesSignal x he =>
    refine h.moveExporter (.owner x .serving) rfl rfl (.inr (by rw [he]; rfl)) (.inl rfl) nofun
      (fun _ _ hx _ => by cases hx; exact ⟨_, he, rfl⟩) (fun _ hw => hw) ?_
    intro w hw
    have hwi := h.written i x _ he rfl w hw
    subst hwi
    refine .inl ?_
    change ((s.setExporter w _).exporters w).locked.isSome = true
    rw [setExporter_exporters, if_pos rfl]
    rfl
  | @renameFails x he hw =>
    rw [h.tmp i x he] at hw
    cases hw
  | @cleansUp x stage he =>
    exact h.leaves (.owner x .releases) rfl rfl (.inr (by rw [he]; rfl)) nofun
      (fun _ _ hx => by cases hx; rfl) rfl (.inl rfl) fun _ hw => hw
  | releases he =>
    exact h.leaves (.removes .ready) rfl rfl (.inl rfl) nofun nofun rfl (.inl rfl) fun _ hw => hw
  | cleansUpUnlocked he =>
    exact h.leaves (.removes .ready) rfl rfl (.inl rfl) nofun nofun rfl (.inl rfl) fun _ hw => hw
  | removesReady he =>
    exact h.leaves (.removes .registry) rfl rfl (.inl rfl) nofun nofun rfl (.inr rfl)
      fun _ hw => hw
  | removesRegistry he =>
    exact h.leaves (.removes .lock) rfl rfl (.inl rfl) nofun nofun rfl (.inl rfl) nofun
  | removesLock | ownerEnds | ends =>
    exact h.leaves .ended rfl rfl (.inl rfl) nofun nofun rfl (.inl rfl) fun _ hw => hw

/-- The last check of a waiter that a primary blocks. -/
theorem Fresh.confirmed (h : s.Fresh) (hs : s.Consistent) {x : Nat} {a : LockOwner n m}
    (hj : s.secondaries j = .probes .confirming (.attempts x)) (hno : s.NoProbeAt x)
    (ha : s.lock.holder x = some a) :
    ∃ p, s.lockOwners = [p] ∧ ∀ w, s.registry = some w → w = p := by
  cases a with
  | secondary k => exact absurd ha (hno k)
  | primary p =>
    have hp : s.lockedBy (.primary p) = some x := (hs _ _).mp ha
    have hlocked : (s.exporters p).locked.isSome = true := by
      change (s.exporters p).locked = some x at hp
      rw [hp]
      rfl
    refine ⟨p, lockOwners_eq hlocked fun k hk => h.unique k p hk hlocked, fun w hw => ?_⟩
    rcases h.attributed w hw with hw | hfree | hquiet
    · exact h.unique w p hw hlocked
    · exact absurd ⟨p, hlocked⟩ hfree
    · have hseen := hquiet.2 j
      rw [hj] at hseen
      cases hseen

theorem confirms_of_step {pc : SecondaryPc n} (ht : SecondaryStep s j act pc)
    (hready : s.ready = false) (hpc : pc.confirms = true) :
    (s.secondaries j).confirms = true := by
  cases ht with
  | seesSignal _ hsignal =>
    rw [hready] at hsignal
    cases hsignal
  | @finds site he | @opens site x he | @locks site x lock he =>
    rw [he]
    cases site <;> first | rfl | cases hpc
  | @blocked site => cases site <;> cases hpc
  | _ => cases hpc

theorem Fresh.secondaryStep (h : s.Fresh) (hs : s.Consistent) (hC : s.NoStaleStep act)
    {pc : SecondaryPc n} (ht : SecondaryStep s j act pc) (hmoved : s.SecondaryMoved t j pc) :
    t.Fresh := by
  have hset : ∀ k, t.secondaries k = if k = j then pc else s.secondaries k := by
    intro k
    rw [hmoved.secondaries, Function.update_apply]
  refine ⟨hmoved.exporters ▸ h.unique, fun i x hi => ?_, fun i x stage hi hst w hw => ?_,
    fun w hw => ?_, fun k owners hk => ?_, fun k owners w hk => ?_⟩
  · rw [hmoved.tmp]
    exact h.tmp i x (hmoved.exporters ▸ hi)
  · exact h.written i x stage (hmoved.exporters ▸ hi) hst w (hmoved.registry ▸ hw)
  · rcases h.attributed w (hmoved.registry ▸ hw) with hw | hfree | hquiet
    · exact .inl (hmoved.exporters ▸ hw)
    · refine .inr (.inl ?_)
      unfold PrimaryLocked at hfree ⊢
      rwa [hmoved.exporters]
    · refine .inr (.inr ⟨hmoved.ready.trans hquiet.1, fun k => ?_⟩)
      rw [hset k]
      split
      · by_contra hpc
        have hseen := confirms_of_step ht hquiet.1 (Bool.not_eq_false _ ▸ hpc)
        rw [hquiet.2 j] at hseen
        cases hseen
      · exact hquiet.2 k
  · rw [hset k] at hk
    rw [hmoved.registry]
    split at hk
    · cases ht with
      | @blocked site x he hl =>
        cases site with
        | confirming =>
          have hno : s.ConfirmsPrimary (s.secondaries j) := hC
          rw [he] at hno
          obtain ⟨a, ha⟩ := LockFile.tryLock_eq_none.mp hl
          cases hk
          exact h.confirmed hs he hno ha
        | waiting | watching => cases hk
      | _ => cases hk
    · exact h.trusts k owners hk
  · rw [hset k] at hk
    split at hk
    · cases ht with
      | @reads o he =>
        obtain ⟨p, hp, hw⟩ := h.trusts j o he
        obtain ⟨ho, hwo⟩ := SecondaryPc.hasRead.inj hk
        rw [← ho, hp, hw w hwo]
      | @blocked site => cases site <;> cases hk
      | _ => cases hk
    · exact h.read k owners w hk

theorem Fresh.step (h : s.Fresh) (hs : s.Consistent) (hC : s.NoStaleStep act)
    (ht : s.step act = some t) : t.Fresh := by
  rcases step_cases ht with ⟨i, hstep⟩ | ⟨j, pc, hstep, hmoved⟩
  · exact h.exporterStep hC hstep
  · exact h.secondaryStep hs hC hstep hmoved

/-- In every run in which no primary starts over a registry that a waiter could take for its own,
and no probe or new registry comes between a waiter and its primary, a registry read after `True`
from `wait_for_primary` is that of the exporter which had the lock at that moment. -/
theorem reads_own_registry {acts : List (RegistryAct n m)}
    (hC : Along step NoStaleStep init acts) (hrun : run step init acts = some s)
    {owners : List (Fin n)} (hread : s.secondaries j = .hasRead owners (some w)) :
    owners = [w] := by
  have h : s.Consistent ∧ s.Fresh := by
    refine run_invariant_along (I := fun s => s.Consistent ∧ s.Fresh) ?_ ?_ hC hrun
    · intro s act t ⟨hs, h⟩ hC ht
      exact ⟨step_consistent hs ht, h.step hs hC ht⟩
    · exact ⟨init_consistent, init_fresh⟩
  exact h.2.read j owners w hread

attribute [local instance] Numerals.neZero_one Numerals.neZero_two

/-- The first primary shuts down and removes its files, and the second one exports before a waiter
starts. -/
def cleanRestartRun : List (RegistryAct 2 1) :=
  [.exporter 0, .exporter 0, .exporter 0, .exporter 0, .exporter 0, .exporter 0, .exporter 0,
    .shutdown 0, .exporter 0, .exporter 0, .exporter 0, .exporter 0, .exporter 1, .exporter 1,
    .exporter 1, .exporter 1, .exporter 1, .exporter 1, .exporter 1, .waitForPrimary 0,
    .secondary 0, .secondary 0, .secondary 0, .secondary 0, .secondary 0]

/-- The first primary is killed after its export, the second one has only locked the file when the
waiter looks. -/
def staleSignalRun : List (RegistryAct 2 1) :=
  [.exporter 0, .exporter 0, .exporter 0, .exporter 0, .exporter 0, .exporter 0, .exporter 0,
    .killExporter 0, .exporter 1, .exporter 1, .exporter 1, .waitForPrimary 0, .secondary 0,
    .secondary 0, .secondary 0, .secondary 0, .secondary 0]

theorem reads_own_registry_cleanRestart : ∃ s : RegistrySystem 2 1,
    run step init cleanRestartRun = some s ∧
      ∃ owners, s.secondaries 0 = .hasRead owners (some 1) ∧ owners = [1] := by
  have hrun : run step (init : RegistrySystem 2 1) cleanRestartRun =
      some ((run step init cleanRestartRun).get (by decide +kernel)) := (Option.some_get _).symm
  have hread : ((run step (init : RegistrySystem 2 1) cleanRestartRun).get
      (by decide +kernel)).secondaries 0 = .hasRead [1] (some 1) := by decide +kernel
  exact ⟨_, hrun, [1], hread, reads_own_registry (by decide +kernel) hrun hread⟩

/-- The waiter gets `True` while the second exporter has the lock and reads the registry of the
first, which is dead. -/
theorem stale_registry_read : ∃ s : RegistrySystem 2 1,
    run step init staleSignalRun = some s ∧ s.exporters 0 = .ended ∧
      (s.exporters 1).believes = true ∧ s.secondaries 0 = .hasRead [1] (some 0) := by
  have hrun : run step (init : RegistrySystem 2 1) staleSignalRun =
      some ((run step init staleSignalRun).get (by decide +kernel)) := (Option.some_get _).symm
  exact ⟨_, hrun, by decide +kernel, by decide +kernel, by decide +kernel⟩

end RegistrySystem

end GpuSharing.WeightSharing
