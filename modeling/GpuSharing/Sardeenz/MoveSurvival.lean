import GpuSharing.Sardeenz.ModelMover

namespace GpuSharing.Sardeenz.Mover

/-- While the move goes on the source or the target is live, and a move that has ended as failed has
left the source loaded and routable. -/
def Survives (s : Mover) : Prop :=
  (¬s.op.quiet → ¬s.source.stopping ∨ s.target.live) ∧
    (s.op.quiet → s.failedRecorded → ¬s.source.stopping ∧ s.source.routable)

/-- The executor fails only while the source is loaded, switches only if no cancel call has gone on
to a revert, and unloads the source only if the target is live; a forced cancel call comes only
while the target is live and another one only while the source is loaded; and the target dies by
itself only while the source is loaded or after the move. -/
def OneStays (s : Mover) : MoverEvent → Prop
  | .move .launchRejects _ => ¬s.source.stopping
  | .move .waitRejects _ => ¬s.source.stopping
  | .move .unloadRejects _ => ¬s.source.stopping
  | .move .waitReturns _ => ¬s.cancelled
  | .move .drainEnds _ => s.target.live
  | .move (.cancel true) _ => s.op.phase.cancellable → s.target.live
  | .move (.cancel false) _ => s.op.phase.cancellable → ¬s.source.stopping
  | .targetFails => ¬s.source.stopping ∨ s.op.quiet
  | _ => True

instance (s : Mover) : Decidable (Survives s) := by
  unfold Survives
  infer_instance

instance (s : Mover) : ∀ ev, Decidable (OneStays s ev)
  | .move .launchRejects _ | .move .waitRejects _ | .move .unloadRejects _ =>
    inferInstanceAs (Decidable ¬s.source.stopping)
  | .move .waitReturns _ => inferInstanceAs (Decidable ¬s.cancelled)
  | .move .drainEnds _ => inferInstanceAs (Decidable s.target.live)
  | .move (.cancel true) _ => inferInstanceAs (Decidable (s.op.phase.cancellable → s.target.live))
  | .move (.cancel false) _ =>
    inferInstanceAs (Decidable (s.op.phase.cancellable → ¬s.source.stopping))
  | .targetFails => inferInstanceAs (Decidable (¬s.source.stopping ∨ s.op.quiet))
  | .move .launchReturns _ | .move .unloadReturns _ | .move .rollbackEnds _ | .move .forceEnds _
  | .move .revertEnds _ | .targetLaunched | .targetReady | .loadEnds | .parkSource
  | .restoreSource => .isTrue trivial

/-- The target has died or an unload of it has begun: it is never live again. -/
def gone (t : MoveTarget) : Bool := t.launched ∧ (t.stopping ∨ !t.alive)

theorem gone_beginUnload {t : MoveTarget} (h : t.Known) (hl : t.launched) : gone t.beginUnload := by
  simp only [gone, MoveTarget.launched_beginUnload, decide_eq_true_eq, Bool.not_eq_true']
  exact ⟨hl, h.down_beginUnload.symm.imp_right eq_false_of_ne_true⟩

theorem gone_unload {t : MoveTarget} (h : gone t) : gone t.unload := by
  simp only [gone, decide_eq_true_eq] at h ⊢
  exact ⟨h.1, .inr rfl⟩

theorem not_live_of_gone {t : MoveTarget} (h : gone t) : ¬t.live := by
  simp only [gone, MoveTarget.live, decide_eq_true_eq] at h ⊢
  grind

/-- The source is loaded and routable, or nothing has ended the move as failed. -/
structure SourceKept (s : Mover) : Prop where
  kind : s.kind = .samePod
  linked : Linked s
  survives : ¬s.op.quiet → ¬s.source.stopping ∨ s.target.live
  stored : s.source.stored ∨ s.source.stopping
  unloading : 0 < s.op.forces ∨ s.op.pc = .unloading → s.source.stopping
  cancelled : s.cancelled → ¬s.source.stopping ∧
    (gone s.target ∨ s.op.phase.terminal ∧ s.op.pc ≠ .draining)
  rollingBack : s.op.pc = .rollingBack → ¬s.source.stopping ∧ s.source.routable ∧ gone s.target
  finished : s.op.pc = .finished →
    ¬s.source.stopping ∧ s.source.routable ∨ ¬s.failedRecorded ∧ ¬s.cancelled

variable {s t : Mover} {ev : MoveEvent} {unloaded : Bool}

theorem sourceKept_start (routable : Bool) : SourceKept (start .samePod routable) := by
  refine ⟨rfl, linked_start _ _, ?_, ?_, ?_, ?_, ?_, ?_⟩ <;>
    simp [start, Move.start, MoveTarget.unlaunched]

theorem SourceKept.isStored (h : SourceKept s) (hloaded : ¬s.source.stopping) : s.source.stored :=
  h.stored.resolve_right hloaded

theorem SourceKept.not_cancelled (h : SourceKept s) (hstopping : s.source.stopping) : ¬s.cancelled :=
  fun hc => (h.cancelled hc).1 hstopping

/-- A live target and a cancellable move leave nothing to the cancel calls. -/
theorem SourceKept.not_cancelled_of_live (h : SourceKept s) (hlive : s.target.live)
    (hphase : ¬s.op.phase.terminal ∨ s.op.pc = .draining) : ¬s.cancelled := by
  intro hc
  rcases (h.cancelled hc).2 with hgone | ⟨hterminal, hpc⟩
  · exact not_live_of_gone hgone hlive
  · exact hphase.elim (fun hnot => hnot hterminal) hpc

theorem SourceKept.launchReturns (h : SourceKept s)
    (hstep : step s (.move .launchReturns unloaded) = some t) : SourceKept t := by
  have hlinked := h.linked.move hstep
  obtain ⟨-, op, completes, hnext, rfl⟩ := step_move_some.mp hstep
  simp only [Move.next] at hnext
  split_ifs at hnext with hpc
  cases hnext
  refine ⟨h.kind, hlinked, fun _ => h.survives (by simp [Move.quiet, hpc]), h.stored, ?_, ?_, by simp,
    by simp⟩
  · rintro (hforces | hunload)
    · exact h.unloading (.inl hforces)
    · cases hunload
  · intro hc
    obtain ⟨hsource, htarget⟩ := h.cancelled hc
    exact ⟨hsource, htarget.imp_right fun hphase => ⟨hphase.1, by simp⟩⟩

/-- The executor's catch block, while the source is loaded. -/
theorem SourceKept.rollback (h : SourceKept s) (hloaded : ¬s.source.stopping) {loading failed : Bool}
    (hlinked : Linked { (s.setRoutable true).unloadTarget with
      loading := loading, op := (s.op.rollback true).1, failedRecorded := failed }) :
    SourceKept { (s.setRoutable true).unloadTarget with
      loading := loading, op := (s.op.rollback true).1, failedRecorded := failed } := by
  have hstored := h.isStored hloaded
  by_cases hknown : s.op.targetKnown
  · have hgone := gone_beginUnload h.linked.target (h.linked.known hknown)
    simp only [Move.rollback, unloadTarget, setRoutable, h.kind, hknown, hstored, if_true, and_self]
      at hlinked ⊢
    refine ⟨rfl, hlinked, fun _ => .inl hloaded, .inl rfl, ?_, fun _ => ⟨hloaded, .inl hgone⟩,
      fun _ => ⟨hloaded, rfl, hgone⟩, by simp⟩
    rintro (hforces | hunload)
    · exact h.unloading (.inl hforces)
    · cases hunload
  · simp only [Move.rollback, unloadTarget, setRoutable, hknown, hstored, if_true, and_false,
      Bool.false_eq_true, if_false] at hlinked ⊢
    refine ⟨h.kind, hlinked, fun _ => .inl hloaded, .inl rfl, ?_,
      fun _ => ⟨hloaded, .inr ⟨rfl, by simp⟩⟩, by simp, fun _ => .inl ⟨hloaded, rfl⟩⟩
    rintro (hforces | hunload)
    · exact h.unloading (.inl hforces)
    · cases hunload

theorem SourceKept.launchRejects (h : SourceKept s) (hloaded : ¬s.source.stopping)
    (hstep : step s (.move .launchRejects unloaded) = some t) : SourceKept t := by
  have hlinked := h.linked.move hstep
  obtain ⟨-, op, completes, hnext, rfl⟩ := step_move_some.mp hstep
  simp only [Move.next] at hnext
  split_ifs at hnext
  obtain rfl : (s.op.rollback true).1 = op := congrArg Prod.fst (Option.some.inj hnext)
  exact h.rollback hloaded hlinked

theorem SourceKept.waitReturns (h : SourceKept s) (hc : ¬s.cancelled)
    (hstep : step s (.move .waitReturns unloaded) = some t) : SourceKept t := by
  have hlinked := h.linked.move hstep
  obtain ⟨-, op, completes, hnext, rfl⟩ := step_move_some.mp hstep
  simp only [Move.next] at hnext
  split_ifs at hnext with hpc
  cases hnext
  refine ⟨h.kind, hlinked, fun _ => h.survives (by simp [Move.quiet, hpc]), h.stored, ?_,
    fun hcancelled => absurd hcancelled hc, by simp, by simp⟩
  rintro (hforces | hunload)
  · exact h.unloading (.inl hforces)
  · cases hunload

theorem SourceKept.waitRejects (h : SourceKept s) (hloaded : ¬s.source.stopping)
    (hstep : step s (.move .waitRejects unloaded) = some t) : SourceKept t := by
  have hlinked := h.linked.move hstep
  obtain ⟨-, op, completes, hnext, rfl⟩ := step_move_some.mp hstep
  simp only [Move.next] at hnext
  split_ifs at hnext
  obtain rfl : (s.op.rollback true).1 = op := congrArg Prod.fst (Option.some.inj hnext)
  exact h.rollback hloaded hlinked

theorem SourceKept.unloadSource_stopping (h : SourceKept s) : s.unloadSource.source.stopping := by
  rcases h.stored with hstored | hstopping
  · simp [unloadSource, hstored]
  · simp [unloadSource, hstopping]

theorem SourceKept.drainEnds (h : SourceKept s) (hlive : s.target.live)
    (hstep : step s (.move .drainEnds unloaded) = some t) : SourceKept t := by
  have hlinked := h.linked.move hstep
  obtain ⟨-, op, completes, hnext, rfl⟩ := step_move_some.mp hstep
  simp only [Move.next] at hnext
  split_ifs at hnext with hpc
  cases hnext
  have hstopping := h.unloadSource_stopping
  exact ⟨h.kind, hlinked, fun _ => .inr hlive, .inr hstopping, fun _ => hstopping,
    fun hc => absurd hc (h.not_cancelled_of_live hlive (.inr hpc)), by simp, by simp⟩

theorem SourceKept.unloadReturns (h : SourceKept s)
    (hstep : step s (.move .unloadReturns unloaded) = some t) : SourceKept t := by
  have hlinked := h.linked.move hstep
  obtain ⟨-, op, completes, hnext, rfl⟩ := step_move_some.mp hstep
  simp only [Move.next] at hnext
  split_ifs at hnext with hpc
  cases hnext
  have hstopping := h.unloading (.inr hpc)
  have hnot := h.not_cancelled hstopping
  have hfailed : ¬s.failedRecorded := by
    intro hfailed
    rcases h.linked.failed hfailed with hc | hfinished
    · exact hnot hc
    · rw [hpc] at hfinished
      cases hfinished
  refine ⟨h.kind, hlinked, fun _ => h.survives (by simp [Move.quiet, hpc]), .inr hstopping,
    fun _ => hstopping, fun hc => absurd hc hnot, by simp, fun _ => .inr ⟨?_, hnot⟩⟩
  simp [hfailed, Move.write]

theorem SourceKept.rollbackEnds (h : SourceKept s)
    (hstep : step s (.move .rollbackEnds unloaded) = some t) : SourceKept t := by
  have hlinked := h.linked.move hstep
  obtain ⟨-, op, completes, hnext, rfl⟩ := step_move_some.mp hstep
  simp only [Move.next] at hnext
  split_ifs at hnext with hpc
  cases hnext
  obtain ⟨hloaded, hroutable, -⟩ := h.rollingBack hpc
  refine ⟨h.kind, hlinked, fun _ => .inl hloaded, h.stored, ?_,
    fun _ => ⟨hloaded, .inr ⟨rfl, by simp⟩⟩, by simp, fun _ => .inl ⟨hloaded, hroutable⟩⟩
  rintro (hforces | hunload)
  · exact h.unloading (.inl hforces)
  · cases hunload

/-- `cancelMove` without force, of a move that can be cancelled. -/
theorem SourceKept.revert (h : SourceKept s) (hphase : s.op.phase.cancellable)
    (hloaded : ¬s.source.stopping) {failed : Bool}
    (hlinked : Linked { (s.setRoutable true).unloadTarget with
      cancelled := true, op := (s.op.cancelMove true false).1, failedRecorded := failed }) :
    SourceKept { (s.setRoutable true).unloadTarget with
      cancelled := true, op := (s.op.cancelMove true false).1, failedRecorded := failed } := by
  have hstored := h.isStored hloaded
  have hunfinished : s.op.pc ≠ .finished := fun hpc =>
    MoveOperationPhase.not_cancellable (h.linked.op.finished hpc) hphase
  by_cases hknown : s.op.targetKnown
  · have hgone := gone_beginUnload h.linked.target (h.linked.known hknown)
    simp only [Move.cancelMove, unloadTarget, setRoutable, h.kind, hphase, hknown, hstored, if_true,
      and_self, Bool.false_eq_true, if_false] at hlinked ⊢
    exact ⟨rfl, hlinked, fun _ => .inl hloaded, .inl rfl, h.unloading,
      fun _ => ⟨hloaded, .inl hgone⟩, fun _ => ⟨hloaded, rfl, hgone⟩,
      fun hpc => absurd hpc hunfinished⟩
  · have hlaunching : s.op.pc = .launching := by
      by_contra hpc
      exact hknown (h.linked.op.known hpc hunfinished)
    simp only [Move.cancelMove, Move.write, unloadTarget, setRoutable, hphase, hknown, hstored,
      if_true, and_self, and_false, Bool.false_eq_true, if_false] at hlinked ⊢
    exact ⟨h.kind, hlinked, fun _ => .inl hloaded, .inl rfl, h.unloading,
      fun _ => ⟨hloaded, .inr ⟨rfl, by simp [hlaunching]⟩⟩, by simp [hlaunching],
      by simp [hlaunching]⟩

theorem SourceKept.cancel (h : SourceKept s)
    (hc : s.op.phase.cancellable → ¬s.source.stopping)
    (hstep : step s (.move (.cancel false) unloaded) = some t) : SourceKept t := by
  have hlinked := h.linked.move hstep
  obtain ⟨-, op, completes, hnext, rfl⟩ := step_move_some.mp hstep
  obtain rfl : (s.op.cancelMove true false).1 = op := congrArg Prod.fst (Option.some.inj hnext)
  obtain rfl : (s.op.cancelMove true false).2 = completes := congrArg Prod.snd (Option.some.inj hnext)
  by_cases hphase : s.op.phase.cancellable
  · simp only [effect, hphase, if_true, Bool.false_eq_true, if_false] at hlinked ⊢
    exact h.revert hphase (hc hphase) hlinked
  · simpa [effect, Move.cancelMove, hphase] using h

theorem SourceKept.forceComplete (h : SourceKept s) (hc : s.op.phase.cancellable → s.target.live)
    (hstep : step s (.move (.cancel true) unloaded) = some t) : SourceKept t := by
  have hlinked := h.linked.move hstep
  obtain ⟨-, op, completes, hnext, rfl⟩ := step_move_some.mp hstep
  obtain rfl : (s.op.cancelMove true true).1 = op := congrArg Prod.fst (Option.some.inj hnext)
  obtain rfl : (s.op.cancelMove true true).2 = completes := congrArg Prod.snd (Option.some.inj hnext)
  by_cases hphase : s.op.phase.cancellable
  · have hlive := hc hphase
    have hopen : ¬s.op.phase.terminal := fun hterminal =>
      MoveOperationPhase.not_cancellable hterminal hphase
    have hstopping := h.unloadSource_stopping
    simp only [effect, Move.cancelMove, hphase, if_true, and_self] at hlinked ⊢
    refine ⟨h.kind, hlinked, fun _ => .inr hlive, .inr hstopping, fun _ => hstopping,
      fun hcancelled => absurd hcancelled (h.not_cancelled_of_live hlive (.inl hopen)), ?_,
      fun hpc => absurd (h.linked.op.finished hpc) hopen⟩
    intro hpc
    exact absurd hlive (not_live_of_gone (h.rollingBack hpc).2.2)
  · simpa [effect, Move.cancelMove, hphase] using h

theorem SourceKept.forceEnds (h : SourceKept s)
    (hstep : step s (.move .forceEnds unloaded) = some t) : SourceKept t := by
  have hlinked := h.linked.move hstep
  obtain ⟨-, op, completes, hnext, rfl⟩ := step_move_some.mp hstep
  simp only [Move.next] at hnext
  split_ifs at hnext with hforces
  cases hnext
  have hstopping := h.unloading (.inl hforces)
  refine ⟨h.kind, hlinked, fun _ => h.survives (by simp [Move.quiet, hforces.ne']), .inr hstopping,
    fun _ => hstopping, fun hc => absurd hc (h.not_cancelled hstopping),
    fun hpc => absurd hstopping (h.rollingBack hpc).1, fun hpc => ?_⟩
  rcases h.finished hpc with ⟨hloaded, -⟩ | hnot
  · exact absurd hstopping hloaded
  · exact .inr (by simpa [effect, removeSource, Move.write] using hnot)

theorem SourceKept.revertEnds (h : SourceKept s)
    (hstep : step s (.move .revertEnds unloaded) = some t) : SourceKept t := by
  have hlinked := h.linked.move hstep
  obtain ⟨-, op, completes, hnext, rfl⟩ := step_move_some.mp hstep
  simp only [Move.next] at hnext
  split_ifs at hnext with hreverts
  cases hnext
  have hc := h.linked.reverting hreverts
  obtain ⟨hloaded, htarget⟩ := h.cancelled hc
  have hgone : gone s.target →
      gone (if s.kind = .samePod ∧ unloaded then s.target.unload else s.target) := by
    intro hgone
    split_ifs
    · exact gone_unload hgone
    · exact hgone
  refine ⟨h.kind, hlinked, fun _ => .inl hloaded, h.stored, h.unloading,
    fun _ => ⟨hloaded, htarget.imp hgone fun hphase => ⟨rfl, hphase.2⟩⟩, fun hpc => ?_, fun hpc => ?_⟩
  · obtain ⟨-, hroutable, htarget⟩ := h.rollingBack hpc
    exact ⟨hloaded, hroutable, hgone htarget⟩
  · rcases h.finished hpc with hkept | ⟨-, hnot⟩
    · exact .inl hkept
    · exact absurd hc hnot

theorem SourceKept.targetLaunched (h : SourceKept s) (hstep : step s .targetLaunched = some t) :
    SourceKept t := by
  have hlinked := h.linked.step hstep
  simp only [Mover.step] at hstep
  split_ifs at hstep with hlaunch
  cases hstep
  have hgone : ¬gone s.target := by
    intro hgone
    simp only [gone, decide_eq_true_eq] at hgone
    simp [hgone.1] at hlaunch
  refine ⟨h.kind, hlinked, fun hq => .inl ?_, h.stored, h.unloading, fun hc => ?_, fun hpc => ?_,
    h.finished⟩
  · rcases h.survives hq with hloaded | hlive
    · exact hloaded
    · simp only [MoveTarget.live, decide_eq_true_eq] at hlive
      have hlaunched := h.linked.target.launched hlive.1
      simp [hlaunched] at hlaunch
  · obtain ⟨hloaded, htarget⟩ := h.cancelled hc
    exact ⟨hloaded, .inr (htarget.resolve_left hgone)⟩
  · exact absurd (h.rollingBack hpc).2.2 hgone

theorem SourceKept.targetReady (h : SourceKept s) (hstep : step s .targetReady = some t) :
    SourceKept t := by
  have hlinked := h.linked.step hstep
  simp only [Mover.step] at hstep
  split_ifs at hstep
  cases hstep
  refine ⟨h.kind, hlinked, fun hq => (h.survives hq).imp_right fun hlive => ?_, h.stored, h.unloading,
    h.cancelled, h.rollingBack, h.finished⟩
  simp only [MoveTarget.live, decide_eq_true_eq] at hlive ⊢
  exact ⟨hlive.1, trivial, hlive.2.2⟩

theorem SourceKept.targetFails (h : SourceKept s) (hc : ¬s.source.stopping ∨ s.op.quiet)
    (hstep : step s .targetFails = some t) : SourceKept t := by
  have hlinked := h.linked.step hstep
  simp only [Mover.step] at hstep
  split_ifs at hstep
  cases hstep
  have hgone : gone s.target → gone { s.target with alive := false, status := .failed } := by
    intro hgone
    simp only [gone, decide_eq_true_eq] at hgone ⊢
    exact ⟨hgone.1, .inr rfl⟩
  exact ⟨h.kind, hlinked, fun hq => .inl (hc.resolve_right hq), h.stored, h.unloading,
    fun hc => (h.cancelled hc).imp_right (·.imp_left hgone),
    fun hpc => (h.rollingBack hpc).imp_right (·.imp_right hgone), h.finished⟩

theorem SourceKept.parkSource (h : SourceKept s) (hstep : step s .parkSource = some t) :
    SourceKept t := by
  have hlinked := h.linked.step hstep
  simp only [Mover.step] at hstep
  split_ifs at hstep with hpark
  cases hstep
  obtain ⟨-, hpc, -⟩ := hpark
  exact ⟨h.kind, hlinked, h.survives, h.stored, h.unloading, h.cancelled, by simp [setRoutable, hpc],
    by simp [setRoutable, hpc]⟩

theorem SourceKept.restoreSource (h : SourceKept s) (hstep : step s .restoreSource = some t) :
    SourceKept t := by
  have hlinked := h.linked.step hstep
  simp only [Mover.step, h.kind, if_true] at hstep
  cases hstep
  have hroutable : s.source.routable → (s.setRoutable true).source.routable := by
    simp only [setRoutable]
    split_ifs <;> simp
  exact ⟨h.kind, hlinked, h.survives, h.stored, h.unloading, h.cancelled,
    fun hpc => (h.rollingBack hpc).imp_right (·.imp_left hroutable),
    fun hpc => (h.finished hpc).imp_left (·.imp_right hroutable)⟩

theorem SourceKept.move (h : SourceKept s) (hc : OneStays s (.move ev unloaded))
    (hstep : step s (.move ev unloaded) = some t) : SourceKept t := by
  cases ev with
  | launchReturns => exact h.launchReturns hstep
  | launchRejects => exact h.launchRejects hc hstep
  | waitReturns => exact h.waitReturns hc hstep
  | waitRejects => exact h.waitRejects hc hstep
  | drainEnds => exact h.drainEnds hc hstep
  | unloadReturns => exact h.unloadReturns hstep
  | unloadRejects =>
    -- the executor unloads a source that is already stopping
    obtain ⟨-, op, completes, hnext, -⟩ := step_move_some.mp hstep
    simp only [Move.next] at hnext
    split_ifs at hnext with hpc
    exact absurd (h.unloading (.inr hpc)) hc
  | rollbackEnds => exact h.rollbackEnds hstep
  | cancel force =>
    cases force with
    | false => exact h.cancel hc hstep
    | true => exact h.forceComplete hc hstep
  | forceEnds => exact h.forceEnds hstep
  | revertEnds => exact h.revertEnds hstep

theorem SourceKept.step {ev : MoverEvent} (h : SourceKept s) (hc : OneStays s ev)
    (hstep : step s ev = some t) : SourceKept t := by
  cases ev with
  | move ev unloaded => exact h.move hc hstep
  | targetLaunched => exact h.targetLaunched hstep
  | targetReady => exact h.targetReady hstep
  | targetFails => exact h.targetFails hc hstep
  | loadEnds =>
    simp only [Mover.step, h.kind] at hstep
    simp at hstep
  | parkSource => exact h.parkSource hstep
  | restoreSource => exact h.restoreSource hstep

theorem SourceKept.survives_state (h : SourceKept s) : Survives s := by
  refine ⟨h.survives, fun hquiet hfailed => ?_⟩
  have hpc : s.op.pc = .finished := by
    simp only [Move.quiet, decide_eq_true_eq] at hquiet
    exact hquiet.1
  rcases h.finished hpc with hkept | ⟨hnot, -⟩
  · exact hkept
  · exact absurd hfailed hnot

/-- In every run of a move on its pod whose steps meet the condition, an instance of the model is
live in every state until the move has ended, and a failed move has kept its source. -/
theorem one_survives (routable : Bool) (evs : List MoverEvent) (s : Mover)
    (hrun : run (start .samePod routable) evs = some s)
    (hc : Transition.Along step OneStays (start .samePod routable) evs) : Survives s := by
  have hkept : SourceKept s :=
    Transition.run_invariant_along (fun _ _ _ h hc hstep => h.step hc hstep)
      (sourceKept_start routable) hc hrun
  exact hkept.survives_state

section Examples

/-- A forced cancel call comes while the target is starting. -/
def forcedDuringStart : List MoverEvent :=
  [.targetLaunched, .move .launchReturns true, .move (.cancel true) true]

theorem no_instance_live : ∃ s, run (start .samePod true) forcedDuringStart = some s ∧
    ¬Survives s :=
  ⟨(run (start .samePod true) forcedDuringStart).get (by decide +kernel),
    (Option.some_get _).symm, by decide +kernel⟩

/-- A cancel call reverts the move while the target is starting, and the executor finds it gone. -/
def revertedDuringStart : List MoverEvent :=
  [.targetLaunched, .move .launchReturns true, .move (.cancel false) true, .move .revertEnds true,
    .move .waitRejects true, .move .rollbackEnds true]

theorem one_survives_reverted :
    Survives ((run (start .samePod true) revertedDuringStart).get (by decide +kernel)) :=
  one_survives true revertedDuringStart _ (Option.some_get _).symm (by decide +kernel)

end Examples

end GpuSharing.Sardeenz.Mover
