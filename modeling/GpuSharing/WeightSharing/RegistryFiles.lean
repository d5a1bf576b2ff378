import GpuSharing.Lib.Numerals
import GpuSharing.WeightSharing.RegistryLock

namespace GpuSharing.WeightSharing

open FileLock Transition

namespace RegistrySystem

variable {n m : Nat} {s t : RegistrySystem n m} {i k : Fin n} {j : Fin m} {pc : ExporterPc}
  {act : RegistryAct n m}

/-- Some exporter is removing the files in its `cleanup`. -/
def Removing (s : RegistrySystem n m) : Prop :=
  ∃ i, s.exporters i = .removes .ready ∨ s.exporters i = .removes .registry ∨
    s.exporters i = .removes .lock

/-- The lock file is opened only while no exporter has it locked, and locked only where the path
still names it and no `cleanup` is under way. -/
def MayLock (s : RegistrySystem n m) : ExporterPc → Prop
  | .starts => ¬s.PrimaryLocked
  | .opened x => s.lock.holder x = none → s.lock.inode = some x ∧ ¬s.Removing
  | _ => True

/-- Exporters lock as `MayLock` says and clean up only what they have locked. -/
def RespectsOwner (s : RegistrySystem n m) : RegistryAct n m → Prop
  | .exporter i => s.MayLock (s.exporters i)
  | .shutdown i => (s.exporters i).locked.isSome = true
  | _ => True

/-- The files of the exporter that has locked inode `x` are the same. -/
structure KeepsFiles (s t : RegistrySystem n m) (x : Nat) : Prop where
  inode : t.lock.inode = s.lock.inode
  pid : t.pid x = s.pid x
  registry : t.registry = s.registry
  ready : t.ready = s.ready

/-- The path names the lock file of an exporter that has it locked, the step of another process
keeps its files, and a secondary that finds no primary has tried another lock file. -/
def LeavesOwner (s : RegistrySystem n m) (act : RegistryAct n m) : Prop :=
  ∀ k x, (s.exporters k).locked = some x → s.lock.inode = some x ∧
    ∀ t, s.step act = some t → (act.exporterOf ≠ some k → s.KeepsFiles t x) ∧
      ∀ j, act = .secondary j → t.secondaries j = .gone →
        ∃ site y, s.secondaries j = .probes site (.unlocks y) ∧ y ≠ x

instance (s : RegistrySystem n m) : Decidable s.Removing :=
  inferInstanceAs (Decidable (∃ i, s.exporters i = .removes .ready ∨
    s.exporters i = .removes .registry ∨ s.exporters i = .removes .lock))

instance (s : RegistrySystem n m) : ∀ pc, Decidable (s.MayLock pc)
  | .starts => inferInstanceAs (Decidable (¬_))
  | .opened x => inferInstanceAs (Decidable (s.lock.holder x = none → _))
  | .owner _ _ | .refused | .removes _ | .ended => .isTrue trivial

instance (s : RegistrySystem n m) : ∀ act, Decidable (s.RespectsOwner act)
  | .exporter i => inferInstanceAs (Decidable (s.MayLock (s.exporters i)))
  | .shutdown _ => inferInstanceAs (Decidable (_ = _))
  | .killExporter _ | .waitForPrimary _ | .startWatchdog _ | .secondary _ | .timeout _
  | .exit _ => .isTrue trivial

/-- While an exporter has the lock file locked, the path names it and no `cleanup` removes files. -/
def Owned (s : RegistrySystem n m) : Prop :=
  ∀ k x, (s.exporters k).locked = some x → s.lock.inode = some x ∧ ¬s.Removing

theorem Owned.unique (h : s.Owned) (hs : s.Consistent) {x y : Nat}
    (hi : (s.exporters i).locked = some x) (hk : (s.exporters k).locked = some y) : i = k := by
  have hxy : x = y := Option.some.inj ((h i x hi).1.symm.trans (h k y hk).1)
  subst hxy
  have hix : s.lockedBy (.primary i) = some x := hi
  exact LockOwner.primary.inj (hs.unique hix hk)

theorem removing_of_removes {file : RegistryFile} (he : s.exporters i = .removes file) :
    s.Removing := by
  cases file with
  | ready => exact ⟨i, .inl he⟩
  | registry => exact ⟨i, .inr (.inl he)⟩
  | lock => exact ⟨i, .inr (.inr he)⟩

theorem removing_of_move (pc : ExporterPc) (ht : t.exporters = (s.setExporter i pc).exporters)
    (hpc : ∀ file, pc ≠ .removes file) (hr : t.Removing) : s.Removing := by
  obtain ⟨k, hk⟩ := hr
  simp only [ht, setExporter_exporters] at hk
  split at hk
  · rcases hk with hk | hk | hk <;> exact absurd hk (hpc _)
  · exact ⟨k, hk⟩

/-- A step of an exporter that owns after it what it owned before, or nothing. -/
theorem Owned.moveExporter (h : s.Owned) (hinode : t.lock.inode = s.lock.inode)
    (ht : t.exporters = (s.setExporter i pc).exporters)
    (hpc : pc.locked = none ∨ pc.locked = (s.exporters i).locked)
    (hremoves : ∀ file, pc ≠ .removes file) : t.Owned := by
  have hnot := removing_of_move pc ht hremoves
  intro k x hk
  simp only [ht, setExporter_exporters] at hk
  rw [hinode]
  split at hk
  · rcases hpc with hnone | hsame
    · rw [hnone] at hk
      cases hk
    · exact ⟨(h i x (hsame ▸ hk)).1, fun hr => (h i x (hsame ▸ hk)).2 (hnot hr)⟩
  · exact ⟨(h k x hk).1, fun hr => (h k x hk).2 (hnot hr)⟩

/-- Where no other exporter has the lock file locked nothing is owned after the step. -/
theorem owned_of_none (hnone : ∀ k, k ≠ i → (s.exporters k).locked = none)
    (ht : t.exporters = (s.setExporter i pc).exporters) (hpc : pc.locked = none) : t.Owned := by
  intro k x hk
  simp only [ht, setExporter_exporters] at hk
  split at hk
  case isTrue =>
    rw [hpc] at hk
    cases hk
  case isFalse hki =>
    rw [hnone k hki] at hk
    cases hk

theorem Owned.none_of_removing (h : s.Owned) (hr : s.Removing) (k : Fin n) :
    (s.exporters k).locked = none := by
  cases hk : (s.exporters k).locked with
  | none => rfl
  | some x => exact absurd hr (h k x hk).2

theorem Owned.none_of_locked (h : s.Owned) (hs : s.Consistent) {x : Nat}
    (hi : (s.exporters i).locked = some x) (k : Fin n) (hk : k ≠ i) :
    (s.exporters k).locked = none := by
  cases hl : (s.exporters k).locked with
  | none => rfl
  | some y => exact absurd (h.unique hs hl hi) hk

theorem Owned.exporterStep (h : s.Owned) (hs : s.Consistent) (hC : s.RespectsOwner act)
    (ht : ExporterStep s i act t) : t.Owned := by
  cases ht with
  | opens he =>
    have hnone : ∀ k, k ≠ i → (s.exporters k).locked = none := by
      intro k _
      have hfree : ¬s.PrimaryLocked := by simpa [RespectsOwner, MayLock, he] using hC
      exact Option.not_isSome_iff_eq_none.mp fun hk => hfree ⟨k, hk⟩
    exact owned_of_none hnone rfl rfl
  | @acquires x lock he hl =>
    have hmay : s.MayLock (s.exporters i) := hC
    rw [he] at hmay
    obtain ⟨hx, hr⟩ := hmay (LockFile.tryLock_some hl).1
    intro k y hk
    refine ⟨?_, fun ht => hr (removing_of_move (.owner x .writesPid) rfl nofun ht)⟩
    change lock.inode = some y
    rw [LockFile.tryLock_inode hl, hx]
    change ((s.setExporter i _).exporters k).locked = some y at hk
    rw [setExporter_exporters] at hk
    split at hk
    · exact hk
    · rw [← hx]
      exact (h k y hk).1
  | refused he => exact h.moveExporter rfl rfl (.inl rfl) nofun
  | writesPid he | exports he | renames he | unlinksSignal he | touchesSignal he
    | renameFails he | cleansUp he =>
    exact h.moveExporter rfl rfl (.inr (by rw [he]; rfl)) nofun
  | releases he => exact owned_of_none (h.none_of_locked hs (by rw [he]; rfl)) rfl rfl
  | cleansUpUnlocked he =>
    have hlocked : (s.exporters i).locked.isSome = true := hC
    rcases he with he | he <;> simp [he, ExporterPc.locked] at hlocked
  | removesReady he | removesRegistry he | removesLock he =>
    exact owned_of_none (fun k _ => h.none_of_removing (removing_of_removes he) k) rfl rfl
  | ownerEnds | ends => exact h.moveExporter rfl rfl (.inl rfl) nofun

theorem Owned.step (h : s.Owned) (hs : s.Consistent) (hC : s.RespectsOwner act)
    (ht : s.step act = some t) : t.Owned := by
  rcases step_cases ht with ⟨i, hstep⟩ | ⟨j, pc, _, hmoved⟩
  · exact h.exporterStep hs hC hstep
  · intro k x hk
    have hrem : t.Removing → s.Removing := by
      intro hr
      unfold Removing at hr ⊢
      rwa [hmoved.exporters] at hr
    rw [hmoved.exporters] at hk
    exact ⟨hmoved.inode.trans (h k x hk).1, fun hr => (h k x hk).2 (hrem hr)⟩

/-- What another exporter does to the files of the owner. -/
theorem Owned.keepsFiles (h : s.Owned) (hs : s.Consistent) (hC : s.RespectsOwner act)
    (ht : ExporterStep s i act t) {x : Nat} (hk : (s.exporters k).locked = some x)
    (hik : i ≠ k) : s.KeepsFiles t x := by
  have howner : ∀ y stage, s.exporters i ≠ .owner y stage := by
    intro y stage he
    exact hik (h.unique hs (x := y) (by rw [he]; rfl) hk)
  cases ht with
  | opens he =>
    have hfree : ¬s.PrimaryLocked := by simpa [RespectsOwner, MayLock, he] using hC
    exact absurd ⟨k, by rw [hk]; rfl⟩ hfree
  | acquires he hl => exact ⟨LockFile.tryLock_inode hl, rfl, rfl, rfl⟩
  | refused | cleansUp | cleansUpUnlocked | ownerEnds | ends | renameFails | exports | releases =>
    exact ⟨rfl, rfl, rfl, rfl⟩
  | writesPid he | renames he | unlinksSignal he | touchesSignal he =>
    exact absurd he (howner _ _)
  | removesReady he | removesRegistry he | removesLock he =>
    exact absurd (removing_of_removes he) (h k x hk).2

/-- A secondary that gives up while the lock file is locked has locked another one itself. -/
theorem Owned.gone_cases (h : s.Owned) (hs : s.Consistent) {pc : SecondaryPc n}
    (ht : SecondaryStep s j (.secondary j) pc) (hpc : pc = .gone) {x : Nat}
    (hk : (s.exporters k).locked = some x) :
    ∃ site y, s.secondaries j = .probes site (.unlocks y) ∧ y ≠ x := by
  cases ht with
  | @blocked site _ _ _ => cases site <;> cases hpc
  | missing _ _ hx =>
    rw [(h k x hk).1] at hx
    cases hx
  | @unlocks site y he =>
    refine ⟨site, y, he, ?_⟩
    intro hyx
    subst hyx
    have hj : s.lockedBy (.secondary j) = some y := by simp [lockedBy, he, SecondaryPc.locked]
    have hp : s.lockedBy (.primary k) = some y := hk
    cases hs.unique hj hp
  | _ => cases hpc

/-- In every run whose steps respect the owner the files of an exporter that has the lock file
locked stay as it made them, and no secondary that tries its lock file takes it for gone. -/
theorem leaves_owner {acts : List (RegistryAct n m)}
    (hC : Along step RespectsOwner init acts) : Along step LeavesOwner init acts := by
  refine along_imp (I := fun s => s.Consistent ∧ s.Owned) ?_ ?_ ?_ hC
  · intro s act ⟨hs, h⟩ hC k x hk
    refine ⟨(h k x hk).1, fun t ht => ?_⟩
    rcases step_cases ht with ⟨i, hstep⟩ | ⟨j, pc, hstep, hmoved⟩
    · refine ⟨fun hact => h.keepsFiles hs hC hstep hk fun hik => ?_, ?_⟩
      · rw [hstep.exporterOf, hik] at hact
        exact hact rfl
      · intro j hact
        subst hact
        cases hstep
    · refine ⟨fun _ => ⟨hmoved.inode, by rw [hmoved.pid], hmoved.registry, hmoved.ready⟩, ?_⟩
      intro j' hact hgone
      subst hact
      have hj : j = j' := by cases hstep <;> rfl
      subst hj
      rw [hmoved.secondaries, Function.update_self] at hgone
      exact h.gone_cases hs hstep hgone hk
  · intro s act t ⟨hs, h⟩ hC ht
    exact ⟨step_consistent hs ht, h.step hs hC ht⟩
  · exact ⟨init_consistent, nofun⟩

attribute [local instance] Numerals.neZero_one Numerals.neZero_two

/-- A primary exports and a secondary reads its registry and starts the watchdog. -/
def servingRun : List (RegistryAct 2 1) :=
  [.exporter 0, .exporter 0, .exporter 0, .exporter 0, .exporter 0, .exporter 0, .exporter 0,
    .waitForPrimary 0, .secondary 0, .secondary 0, .secondary 0, .secondary 0, .secondary 0,
    .startWatchdog 0]

/-- A second exporter is refused and shuts down; the watchdog looks for the lock file. -/
def refusedExporterRun : List (RegistryAct 2 1) :=
  [.exporter 1, .exporter 1, .shutdown 1, .exporter 1, .exporter 1, .exporter 1, .secondary 0,
    .secondary 0]

theorem leaves_owner_serving :
    Along step LeavesOwner (init : RegistrySystem 2 1) (servingRun ++ [.secondary 0, .secondary 0,
      .secondary 0, .secondary 0]) :=
  leaves_owner (by decide +kernel)

/-- The refused exporter removes the files of the primary, and the watchdog ends its process. -/
theorem refused_exporter_removes_files : ∃ s t : RegistrySystem 2 1,
    run step init servingRun = some s ∧ s.exporters 0 = .owner 0 .serving ∧
      s.lock.inode = some 0 ∧ s.pid 0 = some 0 ∧ s.registry = some 0 ∧ s.ready = true ∧
      run step s refusedExporterRun = some t ∧ t.exporters 0 = .owner 0 .serving ∧
      t.lock.inode = none ∧ t.pid 0 = none ∧ t.registry = none ∧ t.ready = false ∧
      t.secondaries 0 = .gone := by
  let s := (run step (init : RegistrySystem 2 1) servingRun).get (by decide +kernel)
  have hs : run step (init : RegistrySystem 2 1) servingRun = some s := (Option.some_get _).symm
  have ht : run step s refusedExporterRun =
      some ((run step s refusedExporterRun).get (by decide +kernel)) := (Option.some_get _).symm
  refine ⟨s, _, hs, ?_, ?_, ?_, ?_, ?_, ht, ?_⟩ <;> decide +kernel

end RegistrySystem

end GpuSharing.WeightSharing
