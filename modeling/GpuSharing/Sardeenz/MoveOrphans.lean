import GpuSharing.Sardeenz.ModelMover

namespace GpuSharing.Sardeenz.Mover

/-- When nothing is under way any more, a move that has been completed as failed has no target that
is alive. -/
def NoOrphan (s : Mover) : Prop :=
  s.op.quiet → ¬s.loading → s.failedRecorded → ¬s.target.alive

/-- The executor does not complete a move that was cancelled while its target is up, the load of
another pod is not given up while the target may come up or is up, and an unload of the target is
carried out unless the target has died. -/
def TargetsFollowed (s : Mover) : MoverEvent → Prop
  | .move .unloadReturns _ => s.cancelled → ¬s.target.alive ∨ s.target.stopping
  | .move .launchRejects _ => s.kind = .crossPod → ¬s.loading ∧ ¬s.target.alive
  | .move .rollbackEnds unloaded => unloaded ∨ ¬s.target.alive
  | .move .revertEnds unloaded => s.kind = .samePod → unloaded ∨ ¬s.target.alive
  | _ => True

instance (s : Mover) : Decidable (NoOrphan s) := by
  unfold NoOrphan
  infer_instance

instance (s : Mover) (ev : MoverEvent) : Decidable (TargetsFollowed s ev) := by
  unfold TargetsFollowed
  split <;> infer_instance

/-- Whoever has ended the move as failed has unloaded the target or is about to. -/
structure TargetKept (s : Mover) : Prop where
  linked : Linked s
  localLoading : s.kind = .samePod → s.op.pc ≠ .launching → ¬s.loading
  localUnload : s.target.stopping → s.kind = .samePod ∧ s.target.launched
  stopping : s.target.stopping → s.target.alive → 0 < s.op.reverts ∨ s.op.pc = .rollingBack
  rollingBack : s.kind = .samePod → s.op.pc = .rollingBack → ¬s.target.alive ∨ s.target.stopping
  finished : s.op.pc = .finished → s.cancelled ∨ s.failedRecorded →
    (¬s.target.alive ∨ s.target.stopping) ∧ (s.target.launched ∨ ¬s.loading)

variable {s t : Mover} {ev : MoveEvent} {unloaded : Bool}

theorem targetKept_start (kind : MoveKind) (routable : Bool) : TargetKept (start kind routable) := by
  refine ⟨linked_start _ _, ?_, ?_, ?_, ?_, ?_⟩ <;> simp [start, Move.start, MoveTarget.unlaunched]

theorem TargetKept.reverting (h : TargetKept s) (hpc : s.op.pc ≠ .rollingBack)
    (hstopping : s.target.stopping) (halive : s.target.alive) : 0 < s.op.reverts :=
  (h.stopping hstopping halive).resolve_right hpc

theorem TargetKept.unloadTarget_stopping (h : TargetKept s) (hknown : s.op.targetKnown)
    (hstopping : s.unloadTarget.target.stopping) :
    s.kind = .samePod ∧ s.unloadTarget.target.launched := by
  simp only [unloadTarget] at hstopping ⊢
  split_ifs at hstopping ⊢ with hlocal
  · exact ⟨hlocal.1, by simpa using h.linked.known hknown⟩
  · exact h.localUnload hstopping

theorem TargetKept.unloadTarget_down (h : TargetKept s) (hknown : s.op.targetKnown)
    (hkind : s.kind = .samePod) :
    ¬s.unloadTarget.target.alive ∨ s.unloadTarget.target.stopping := by
  simp only [unloadTarget, hkind, hknown, and_self, if_true]
  exact h.linked.target.down_beginUnload

theorem TargetKept.launchReturns (h : TargetKept s)
    (hstep : step s (.move .launchReturns unloaded) = some t) : TargetKept t := by
  have hlinked := h.linked.move hstep
  obtain ⟨hlaunched, op, completes, hnext, rfl⟩ := step_move_some.mp hstep
  simp only [Move.next] at hnext
  split_ifs at hnext with hpc
  cases hnext
  exact ⟨hlinked, fun _ _ => h.linked.loaded hlaunched, h.localUnload,
    fun hstopping halive => .inl (h.reverting (by simp [hpc]) hstopping halive), by simp, by simp⟩

theorem TargetKept.launchRejects (h : TargetKept s)
    (hc : s.kind = .crossPod → ¬s.loading ∧ ¬s.target.alive)
    (hstep : step s (.move .launchRejects unloaded) = some t) : TargetKept t := by
  have hlinked := h.linked.move hstep
  obtain ⟨hen, op, completes, hnext, rfl⟩ := step_move_some.mp hstep
  simp only [Move.next] at hnext
  split_ifs at hnext with hpc
  have hknown := h.linked.op.unknown hpc
  simp only [Move.rollback, hknown] at hnext
  cases hnext
  have hdead : ¬s.target.alive := by
    intro halive
    simp only [enabled, decide_eq_true_eq] at hen
    rcases hen with hkind | hunlaunched
    · exact (hc hkind).2 halive
    · have hlaunched := h.linked.target.launched (h.linked.target.stored halive)
      simp [hlaunched] at hunlaunched
  have hloading : ¬(s.loading && s.kind = .crossPod) := by
    simp only [Bool.and_eq_true, decide_eq_true_eq]
    exact fun hboth => (hc hboth.2).1 hboth.1
  have heffect : (s.setRoutable true).unloadTarget = s.setRoutable true :=
    unloadTarget_of_unknown hknown
  simp only [effect, heffect] at hlinked ⊢
  exact ⟨hlinked, fun _ _ => hloading, h.localUnload,
    fun _ halive => absurd halive hdead, by simp, fun _ _ => ⟨.inl hdead, .inr hloading⟩⟩

theorem TargetKept.waitReturns (h : TargetKept s)
    (hstep : step s (.move .waitReturns unloaded) = some t) : TargetKept t := by
  have hlinked := h.linked.move hstep
  obtain ⟨-, op, completes, hnext, rfl⟩ := step_move_some.mp hstep
  simp only [Move.next] at hnext
  split_ifs at hnext with hpc
  cases hnext
  exact ⟨hlinked, fun hkind _ => h.localLoading hkind (by simp [hpc]), h.localUnload,
    fun hstopping halive => .inl (h.reverting (by simp [hpc]) hstopping halive), by simp, by simp⟩

/-- The executor's catch block, once the target's id has been recorded. -/
theorem TargetKept.rollback {u : Mover} (h : TargetKept s) (hknown : s.op.targetKnown)
    (hlinked : Linked u) (hkind : u.kind = s.kind) (hpc : u.op.pc = .rollingBack)
    (htarget : u.target = s.unloadTarget.target) (hloading : u.loading = s.loading) :
    TargetKept u := by
  refine ⟨hlinked, fun _ _ => ?_, fun hstopping => ?_, fun _ _ => .inr hpc, fun hlocal _ => ?_,
    by simp [hpc]⟩
  · rw [hloading]
    exact h.linked.loaded (h.linked.known hknown)
  · rw [hkind, htarget]
    rw [htarget] at hstopping
    exact h.unloadTarget_stopping hknown hstopping
  · rw [htarget]
    exact h.unloadTarget_down hknown (hkind ▸ hlocal)

theorem TargetKept.waitRejects (h : TargetKept s)
    (hstep : step s (.move .waitRejects unloaded) = some t) : TargetKept t := by
  have hlinked := h.linked.move hstep
  obtain ⟨-, op, completes, hnext, rfl⟩ := step_move_some.mp hstep
  simp only [Move.next] at hnext
  split_ifs at hnext with hpc
  have hknown := h.linked.op.known (by simp [hpc]) (by simp [hpc])
  simp only [Move.rollback, hknown, if_true] at hnext
  cases hnext
  apply h.rollback hknown hlinked <;> grind [effect, setRoutable, unloadTarget]

theorem TargetKept.drainEnds (h : TargetKept s)
    (hstep : step s (.move .drainEnds unloaded) = some t) : TargetKept t := by
  have hlinked := h.linked.move hstep
  obtain ⟨-, op, completes, hnext, rfl⟩ := step_move_some.mp hstep
  simp only [Move.next] at hnext
  split_ifs at hnext with hpc
  cases hnext
  exact ⟨hlinked, fun hkind _ => h.localLoading hkind (by simp [hpc]), h.localUnload,
    fun hstopping halive => .inl (h.reverting (by simp [hpc]) hstopping halive), by simp, by simp⟩

theorem TargetKept.unloadReturns (h : TargetKept s)
    (hc : s.cancelled → ¬s.target.alive ∨ s.target.stopping)
    (hstep : step s (.move .unloadReturns unloaded) = some t) : TargetKept t := by
  have hlinked := h.linked.move hstep
  obtain ⟨-, op, completes, hnext, rfl⟩ := step_move_some.mp hstep
  simp only [Move.next] at hnext
  split_ifs at hnext with hpc
  cases hnext
  have hlaunched := h.linked.known (h.linked.op.known (by simp [hpc]) (by simp [hpc]))
  refine ⟨hlinked, fun hkind _ => h.localLoading hkind (by simp [hpc]), h.localUnload,
    fun hstopping halive => .inl (h.reverting (by simp [hpc]) hstopping halive), by simp,
    fun _ hfailed => ⟨?_, .inl hlaunched⟩⟩
  rcases hfailed with hcancelled | hfailed
  · exact hc hcancelled
  · -- the move has not been completed as failed by its executor
    have hfailed : s.failedRecorded := by simpa [Move.write] using hfailed
    exact hc ((h.linked.failed hfailed).resolve_right (by simp [hpc]))

theorem TargetKept.unloadRejects (h : TargetKept s)
    (hstep : step s (.move .unloadRejects unloaded) = some t) : TargetKept t := by
  have hlinked := h.linked.move hstep
  obtain ⟨-, op, completes, hnext, rfl⟩ := step_move_some.mp hstep
  simp only [Move.next] at hnext
  split_ifs at hnext with hpc
  have hknown := h.linked.op.known (by simp [hpc]) (by simp [hpc])
  simp only [Move.rollback, hknown, if_true] at hnext
  cases hnext
  apply h.rollback hknown hlinked <;> grind [effect, removeSource, setRoutable, unloadTarget]

theorem TargetKept.rollbackEnds (h : TargetKept s) (hc : unloaded ∨ ¬s.target.alive)
    (hstep : step s (.move .rollbackEnds unloaded) = some t) : TargetKept t := by
  have hlinked := h.linked.move hstep
  obtain ⟨-, op, completes, hnext, rfl⟩ := step_move_some.mp hstep
  simp only [Move.next] at hnext
  split_ifs at hnext with hpc
  cases hnext
  have hlaunched := h.linked.known (h.linked.op.known (by simp [hpc]) (by simp [hpc]))
  have hloading := h.linked.loaded hlaunched
  by_cases hunloaded : unloaded
  · simp only [effect, hunloaded, if_true] at hlinked ⊢
    have hdead : ¬s.target.unload.alive := by simp [MoveTarget.unload]
    exact ⟨hlinked, fun _ _ => hloading, h.localUnload, fun _ halive => absurd halive hdead,
      by simp, fun _ _ => ⟨.inl hdead, .inr hloading⟩⟩
  · have hdead := hc.resolve_left hunloaded
    simp only [effect, hunloaded] at hlinked ⊢
    exact ⟨hlinked, fun _ _ => hloading, h.localUnload, fun _ halive => absurd halive hdead, by simp,
      fun _ _ => ⟨.inl hdead, .inr hloading⟩⟩

/-- `cancelMove` without force, of a move that can be cancelled. -/
theorem TargetKept.revert {u : Mover} (h : TargetKept s) (hphase : s.op.phase.cancellable)
    (hlinked : Linked u) (hkind : u.kind = s.kind) (hop : u.op = (s.op.cancelMove true false).1)
    (htarget : u.target = s.unloadTarget.target) (hloading : u.loading = s.loading) :
    TargetKept u := by
  have hpc : u.op.pc = s.op.pc := by
    rw [hop]
    grind [Move.cancelMove, Move.write]
  have hunfinished : s.op.pc ≠ .finished := fun hpc =>
    MoveOperationPhase.not_cancellable (h.linked.op.finished hpc) hphase
  have hlocal : u.kind = .samePod → u.op.pc ≠ .launching → ¬u.loading := by
    rw [hkind, hpc, hloading]
    exact h.localLoading
  by_cases hknown : s.op.targetKnown
  · have hreverts : u.op.reverts = s.op.reverts + 1 := by
      rw [hop]
      simp [Move.cancelMove, hphase, hknown]
    refine ⟨hlinked, hlocal, fun hstopping => ?_, fun _ _ => .inl (by omega), fun hsame _ => ?_,
      fun hfin => absurd (hpc ▸ hfin) hunfinished⟩
    · rw [hkind, htarget]
      rw [htarget] at hstopping
      exact h.unloadTarget_stopping hknown hstopping
    · rw [htarget]
      exact h.unloadTarget_down hknown (hkind ▸ hsame)
  · -- the executor is still launching the target
    have hlaunching : s.op.pc = .launching := by
      by_contra hpc
      exact hknown (h.linked.op.known hpc hunfinished)
    have htarget : u.target = s.target := by
      simp [htarget, unloadTarget, hknown]
    have hreverts : u.op.reverts = s.op.reverts := by
      rw [hop]
      simp [Move.cancelMove, Move.write, hphase, hknown]
    refine ⟨hlinked, hlocal, ?_, ?_, by simp [hpc, hlaunching], by simp [hpc, hlaunching]⟩
    · rw [hkind, htarget]
      exact h.localUnload
    · rw [htarget, hreverts, hpc]
      exact h.stopping

theorem TargetKept.cancel {force : Bool} (h : TargetKept s)
    (hstep : step s (.move (.cancel force) unloaded) = some t) : TargetKept t := by
  have hlinked := h.linked.move hstep
  obtain ⟨-, op, completes, hnext, rfl⟩ := step_move_some.mp hstep
  obtain rfl : (s.op.cancelMove true force).1 = op := congrArg Prod.fst (Option.some.inj hnext)
  obtain rfl : (s.op.cancelMove true force).2 = completes :=
    congrArg Prod.snd (Option.some.inj hnext)
  by_cases hphase : s.op.phase.cancellable
  · cases force with
    | false =>
      simp only [effect, hphase, if_true, Bool.false_eq_true, if_false] at hlinked ⊢
      apply h.revert hphase hlinked <;> grind [setRoutable, unloadTarget]
    | true =>
      simp only [effect, Move.cancelMove, hphase, if_true, and_self, Bool.false_and, Bool.or_false]
        at hlinked ⊢
      exact ⟨hlinked, h.localLoading, h.localUnload, h.stopping, h.rollingBack, h.finished⟩
  · simpa [effect, Move.cancelMove, hphase] using h

theorem TargetKept.forceEnds (h : TargetKept s)
    (hstep : step s (.move .forceEnds unloaded) = some t) : TargetKept t := by
  have hlinked := h.linked.move hstep
  obtain ⟨-, op, completes, hnext, rfl⟩ := step_move_some.mp hstep
  simp only [Move.next] at hnext
  split_ifs at hnext
  cases hnext
  refine ⟨hlinked, h.localLoading, h.localUnload, h.stopping, h.rollingBack, fun hpc hfailed => ?_⟩
  exact h.finished hpc (by simpa [effect, removeSource, Move.write] using hfailed)

theorem TargetKept.revertEnds (h : TargetKept s)
    (hc : s.kind = .samePod → unloaded ∨ ¬s.target.alive)
    (hstep : step s (.move .revertEnds unloaded) = some t) : TargetKept t := by
  have hlinked := h.linked.move hstep
  obtain ⟨-, op, completes, hnext, rfl⟩ := step_move_some.mp hstep
  simp only [Move.next] at hnext
  split_ifs at hnext with hreverts
  cases hnext
  have hcancelled := h.linked.reverting hreverts
  by_cases hlocal : s.kind = .samePod ∧ unloaded
  · simp only [effect, hlocal, and_self, if_true] at hlinked ⊢
    have hdead : ¬s.target.unload.alive := by simp [MoveTarget.unload]
    exact ⟨hlinked, fun _ => h.localLoading hlocal.1,
      fun hstopping => ⟨rfl, (h.localUnload hstopping).2⟩, fun _ halive => absurd halive hdead,
      fun _ _ => .inl hdead, fun hpc _ => ⟨.inl hdead, (h.finished hpc (.inl hcancelled)).2⟩⟩
  · have hdead : s.kind = .samePod → ¬s.target.alive := fun hkind =>
      (hc hkind).resolve_left fun hunloaded => hlocal ⟨hkind, hunloaded⟩
    simp only [effect, hlocal, if_false] at hlinked ⊢
    exact ⟨hlinked, h.localLoading, h.localUnload,
      fun hstopping halive => absurd halive (hdead (h.localUnload hstopping).1),
      fun hkind _ => .inl (hdead hkind), fun hpc _ => h.finished hpc (.inl hcancelled)⟩

theorem TargetKept.targetLaunched (h : TargetKept s) (hstep : step s .targetLaunched = some t) :
    TargetKept t := by
  have hlinked := h.linked.step hstep
  simp only [Mover.step] at hstep
  split_ifs at hstep with hlaunch
  cases hstep
  obtain ⟨hloading, hunlaunched⟩ := hlaunch
  have hnot : ¬s.target.launched := by simpa using hunlaunched
  refine ⟨hlinked, fun _ _ => by simp, fun hstopping => absurd (h.localUnload hstopping).2 hnot,
    fun hstopping => absurd (h.localUnload hstopping).2 hnot, fun hkind hpc => ?_,
    fun hpc hfailed => ?_⟩
  · exact absurd hloading (h.localLoading hkind (by simp [show s.op.pc = .rollingBack from hpc]))
  · exact absurd hloading ((h.finished hpc hfailed).2.resolve_left hnot)

theorem TargetKept.targetFails (h : TargetKept s) (hstep : step s .targetFails = some t) :
    TargetKept t := by
  have hlinked := h.linked.step hstep
  simp only [Mover.step] at hstep
  split_ifs at hstep
  cases hstep
  exact ⟨hlinked, h.localLoading, h.localUnload, by simp, fun _ _ => .inl (by simp),
    fun hpc hfailed => ⟨.inl (by simp), (h.finished hpc hfailed).2⟩⟩

theorem TargetKept.loadEnds (h : TargetKept s) (hstep : step s .loadEnds = some t) :
    TargetKept t := by
  have hlinked := h.linked.step hstep
  simp only [Mover.step] at hstep
  split_ifs at hstep
  cases hstep
  exact ⟨hlinked, fun _ _ => by simp, h.localUnload, h.stopping, h.rollingBack,
    fun hpc hfailed => ⟨(h.finished hpc hfailed).1, .inr (by simp)⟩⟩

theorem TargetKept.move (h : TargetKept s) (hc : TargetsFollowed s (.move ev unloaded))
    (hstep : step s (.move ev unloaded) = some t) : TargetKept t := by
  cases ev with
  | launchReturns => exact h.launchReturns hstep
  | launchRejects => exact h.launchRejects hc hstep
  | waitReturns => exact h.waitReturns hstep
  | waitRejects => exact h.waitRejects hstep
  | drainEnds => exact h.drainEnds hstep
  | unloadReturns => exact h.unloadReturns hc hstep
  | unloadRejects => exact h.unloadRejects hstep
  | rollbackEnds => exact h.rollbackEnds hc hstep
  | cancel force => exact h.cancel hstep
  | forceEnds => exact h.forceEnds hstep
  | revertEnds => exact h.revertEnds hc hstep

theorem TargetKept.step {ev : MoverEvent} (h : TargetKept s) (hc : TargetsFollowed s ev)
    (hstep : step s ev = some t) : TargetKept t := by
  cases ev with
  | move ev unloaded => exact h.move hc hstep
  | targetLaunched => exact h.targetLaunched hstep
  | targetFails => exact h.targetFails hstep
  | loadEnds => exact h.loadEnds hstep
  | targetReady | parkSource | restoreSource =>
    have hlinked := h.linked.step hstep
    simp only [Mover.step] at hstep
    split_ifs at hstep
    cases hstep
    exact ⟨hlinked, h.localLoading, h.localUnload, h.stopping, h.rollingBack, h.finished⟩

theorem TargetKept.noOrphan (h : TargetKept s) : NoOrphan s := by
  intro hquiet _ hfailed halive
  simp only [Move.quiet, decide_eq_true_eq] at hquiet
  obtain ⟨hpc, -, hreverts⟩ := hquiet
  rcases (h.finished hpc (.inr hfailed)).1 with hdead | hstopping
  · exact hdead halive
  · -- an unload of the target is under way
    rcases h.stopping hstopping halive with hreverting | hrolling
    · omega
    · rw [hpc] at hrolling
      cases hrolling

/-- In every run whose steps meet the condition, of a move on its pod or to another one, the targets
of failed moves do not outlive them. -/
theorem no_orphan (kind : MoveKind) (routable : Bool) (evs : List MoverEvent) (s : Mover)
    (hrun : run (start kind routable) evs = some s)
    (hc : Transition.Along step TargetsFollowed (start kind routable) evs) : NoOrphan s := by
  have hkept : TargetKept s :=
    Transition.run_invariant_along (fun _ _ _ h hc hstep => h.step hc hstep)
      (targetKept_start kind routable) hc hrun
  exact hkept.noOrphan

section Examples

/-- The move to another pod is cancelled after the target has been launched there. -/
def crossPodCancelled : List MoverEvent :=
  [.targetLaunched, .move .launchReturns true, .targetReady, .move (.cancel false) true,
    .move .revertEnds true, .move .waitReturns true, .move .drainEnds true,
    .move .unloadReturns true]

theorem target_orphaned : ∃ s, run (start .crossPod true) crossPodCancelled = some s ∧
    ¬NoOrphan s :=
  ⟨(run (start .crossPod true) crossPodCancelled).get (by decide +kernel),
    (Option.some_get _).symm, by decide +kernel⟩

/-- The target does not become ready on the other pod, and is unloaded there. -/
def crossPodRolledBack : List MoverEvent :=
  [.targetLaunched, .move .launchReturns true, .move .waitRejects true, .move .rollbackEnds true]

theorem no_orphan_rolledBack :
    NoOrphan ((run (start .crossPod true) crossPodRolledBack).get (by decide +kernel)) :=
  no_orphan .crossPod true crossPodRolledBack _ (Option.some_get _).symm (by decide +kernel)

end Examples

end GpuSharing.Sardeenz.Mover
