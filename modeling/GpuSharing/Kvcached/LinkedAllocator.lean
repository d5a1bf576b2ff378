import GpuSharing.Kvcached.AllocatorResize
import GpuSharing.Kvcached.ManagerSound

namespace GpuSharing.Kvcached

open Transition

/-- The pages held are those the allocator has handed out, and it is between two calls. -/
def Linked (c : PageAllocatorConfig) (resizes : Bool) (x : AllocatorProcess × List PageId) : Prop :=
  x.1.Idle c resizes ∧ x.2 = x.1.system.handedOut

namespace Linked

variable {c : PageAllocatorConfig} {resizes : Bool} {memGetInfo : System → Nat × Nat}
  {x : AllocatorProcess × List PageId}

theorem init (c : PageAllocatorConfig) (resizes : Bool) (schedule : List (List WorkerMove)) :
    Linked c resizes (.init c schedule, []) := ⟨AllocatorProcess.init_idle c resizes schedule, rfl⟩

theorem allocPage (h : Linked c resizes x) :
    Linked c resizes ((c.api memGetInfo).logged.allocPage x).2 := by
  obtain ⟨hidle, hlog⟩ := h
  obtain ⟨hidle', hout⟩ := AllocatorProcess.allocPage_idle hidle
  simp only [PageAllocatorApi.logged, PageAllocatorConfig.api]
  cases hr : AllocatorProcess.allocPage c x.1 with
  | mk r t =>
    rw [hr] at hidle' hout
    cases r with
    | ok p => exact ⟨hidle', by rw [hlog]; exact hout.symm⟩
    | error msg => exact ⟨hidle', by rw [hlog]; exact hout.symm⟩

theorem freePages {ps : List PageId} (h : Linked c resizes x) (hps : ps.Subperm x.2) :
    Linked c resizes ((c.api memGetInfo).logged.freePages ps x) := by
  obtain ⟨hidle, hlog⟩ := h
  rw [hlog] at hps
  obtain ⟨hidle', hout⟩ := AllocatorProcess.freePages_idle hidle hps
  refine ⟨hidle', ?_⟩
  change x.2.diff ps = _
  rw [hlog]
  exact hout.symm

theorem resize (h : Linked c true x) (n : Int) :
    Linked c true ((c.api memGetInfo).logged.resize n x).2 := by
  obtain ⟨hidle, hout⟩ := AllocatorProcess.resize_idle (m := n) h.1
  exact ⟨hidle, h.2.trans hout.symm⟩

theorem trim (h : Linked c resizes x) : Linked c resizes ((c.api memGetInfo).logged.trim x) := by
  obtain ⟨hidle, hout⟩ := AllocatorProcess.trim_idle h.1
  exact ⟨hidle, h.2.trans hout.symm⟩

theorem startPreallocThread (h : Linked c resizes x) :
    Linked c resizes ((c.api memGetInfo).logged.startPreallocThread x) := by
  obtain ⟨hidle, hout⟩ := AllocatorProcess.startPreallocThread_idle h.1
  exact ⟨hidle, h.2.trans hout.symm⟩

theorem background (h : Linked c resizes x) :
    Linked c resizes ((c.api memGetInfo).logged.background x) := by
  obtain ⟨hidle, hout⟩ := AllocatorProcess.background_idle h.1
  exact ⟨hidle, h.2.trans hout.symm⟩

theorem keeps (c : PageAllocatorConfig) (resizes : Bool) (memGetInfo : System → Nat × Nat) :
    (c.api memGetInfo).Keeps resizes (Linked c resizes) where
  allocPage _ := allocPage
  freePages _ _ hps h := freePages h hps
  resize := by
    rintro rfl n _ h
    exact resize h n
  trim _ := trim
  startPreallocThread _ := startPreallocThread
  background _ := background
  target hr x h := by
    change x.1.resizeTarget ≤ 0
    rw [h.1.target hr]
    decide

theorem counts (c : PageAllocatorConfig) (resizes : Bool) (memGetInfo : System → Nat × Nat) :
    KvCacheManager.Counts (c.api memGetInfo) (Linked c resizes) := by
  intro s p t h hp
  have hcounts := AllocatorProcess.allocPage_counts h.1 (p := p)
  simp only [PageAllocatorApi.logged, PageAllocatorConfig.api] at hp ⊢
  split at hp
  case h_1 q u halloc =>
    cases hp
    rw [halloc] at hcounts
    exact hcounts rfl
  case h_2 => cases hp

end Linked

namespace AllocatorProcess

variable {c : PageAllocatorConfig} {a : AllocatorProcess}

theorem finish_target : (finish c a).resizeTarget = a.resizeTarget := by
  unfold finish
  split <;> rfl

theorem allocPage_target : (allocPage c a).2.resizeTarget = a.resizeTarget := by
  unfold allocPage
  dsimp only
  split
  case h_1 => rfl
  case h_2 => rfl
  case h_3 => exact finish_target
  case h_4 => split <;> rfl

theorem resize_target (m : Int) : (resize c m a).2.resizeTarget = a.resizeTarget := by
  unfold resize
  dsimp only
  split <;> rfl

theorem startPreallocThread_target : (startPreallocThread c a).resizeTarget = a.resizeTarget := by
  unfold startPreallocThread
  split_ifs <;> rfl

end AllocatorProcess

/-- `target` is what the watcher has stored last. -/
def Targeted (c : PageAllocatorConfig) (target : Int) (x : AllocatorProcess × List PageId) : Prop :=
  Linked c true x ∧ x.1.resizeTarget = target

/-- Only the watcher stores a target. -/
theorem Targeted.keeps (c : PageAllocatorConfig) (target : Int) (memGetInfo : System → Nat × Nat) :
    (c.api memGetInfo).Keeps true (Targeted c target) where
  allocPage x h := by
    refine ⟨h.1.allocPage, Eq.trans ?_ h.2⟩
    have htarget := AllocatorProcess.allocPage_target (c := c) (a := x.1)
    simp only [PageAllocatorApi.logged, PageAllocatorConfig.api]
    split
    case h_1 p t halloc =>
      rw [halloc] at htarget
      exact htarget
    case h_2 msg t halloc =>
      rw [halloc] at htarget
      exact htarget
  freePages _ _ hps h := ⟨h.1.freePages hps, AllocatorProcess.finish_target.trans h.2⟩
  resize _ n _ h := ⟨h.1.resize n, (AllocatorProcess.resize_target n).trans h.2⟩
  trim _ h := ⟨h.1.trim, AllocatorProcess.finish_target.trans h.2⟩
  startPreallocThread _ h :=
    ⟨h.1.startPreallocThread, AllocatorProcess.startPreallocThread_target.trans h.2⟩
  background _ h := ⟨h.1.background, h.2⟩
  target hr := by cases hr

theorem Targeted.counts (c : PageAllocatorConfig) (target : Int) (memGetInfo : System → Nat × Nat) :
    KvCacheManager.Counts (c.api memGetInfo) (Targeted c target) :=
  fun s p t h => Linked.counts c true memGetInfo s p t h.1

namespace Session

open KvCacheManager

variable {c : PageAllocatorConfig} {C : KvCacheManagerConfig} {memGetInfo : System → Nat × Nat}

/-- In every history the manager holds pages the allocator has handed out, which is between two
calls. -/
theorem run_linked {resizes : Bool} {schedule : List (List WorkerMove)} {acts : List ManagerAct}
    {s : Session AllocatorProcess} (hacts : ∀ act ∈ acts, act.Plain resizes)
    (hrun : run (step C (c.api memGetInfo)) (start (.init c schedule)) acts = some s) :
    Sound resizes (Linked c resizes) [] s.manager := by
  have hplain : Along (step C (c.api memGetInfo)) (fun _ act => act.Plain resizes)
      (start (.init c schedule)) acts := along_of_mem (fun act hact _ => hacts act hact) _
  refine run_invariant_along (I := fun s => Sound resizes (Linked c resizes) [] s.manager)
    ?_ (Sound.init (Linked.init c resizes schedule)) hplain hrun
  intro s act t hs hact h
  exact step_sound (Linked.keeps c resizes memGetInfo) hs hact h

/-- In every history, resizes included, `alloc` returns or raises once `_post_init` is done. -/
theorem run_alloc_returns {schedule : List (List WorkerMove)} {acts : List ManagerAct}
    {s : Session AllocatorProcess}
    (hrun : run (step C (c.api memGetInfo)) (start (.init c schedule)) acts = some s)
    (hdone : s.manager.postInitDone = true) (n : Int) :
    (alloc C (c.api memGetInfo).logged n s.manager).isSome := by
  have hplain : ∀ act ∈ acts, act.Plain true := by
    intro act _
    cases act <;> trivial
  exact alloc_returns (Linked.keeps c true memGetInfo) (Linked.counts c true memGetInfo)
    (run_linked hplain hrun) hdone n

end Session

end GpuSharing.Kvcached
