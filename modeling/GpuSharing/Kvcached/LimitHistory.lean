import GpuSharing.Kvcached.Group

namespace GpuSharing.Kvcached

open Transition

namespace KvCacheManager

variable {c : PageAllocatorConfig} {C : KvCacheManagerConfig} {memGetInfo : System → Nat × Nat}
  {m m' : KvCacheManager (AllocatorProcess × List PageId)} {n target : Int}

def numTotalPages (m : KvCacheManager (AllocatorProcess × List PageId)) : Int :=
  m.pageAllocator.1.system.pa.numTotalPages

/-- From its check of `available_size` on `_alloc` leaves the page count alone. -/
theorem allocBlocks_total {resizes : Bool} {r : Except PyError (Option (List BlockId))}
    (hm : Linked c resizes m.pageAllocator)
    (h : allocBlocks C (c.api memGetInfo).logged n m = some (r, m')) :
    m'.numTotalPages = m.numTotalPages := by
  have hkeeps := AllocatorProcess.step_keeps_total (c := c) (n := m.numTotalPages)
  let I (x : AllocatorProcess × List PageId) : Prop :=
    AllocatorProcess.Total m.numTotalPages x.1.system
  have hI : I m.pageAllocator := hm.1.total
  refine (allocBlocks_source (I := I) ?_ ?_ hI h).1
  · intro x hx
    have htotal := AllocatorProcess.allocPage_keeps hkeeps hx
    simp only [PageAllocatorApi.logged, PageAllocatorConfig.api]
    split
    case h_1 p t halloc =>
      rw [halloc] at htotal
      exact htotal
    case h_2 msg t halloc =>
      rw [halloc] at htotal
      exact htotal
  · intro x hx
    exact AllocatorProcess.startPreallocThread_keeps hkeeps hx

/-- With enough pages free a resize of the manager reaches its target. -/
theorem resize_total (memGetInfo : System → Nat × Nat) (hm : Linked c true m.pageAllocator)
    (htarget : 0 < target)
    (hroom : m.pageAllocator.1.system.Room c (target.tdiv c.pageSize)) :
    ∃ m', resize C (c.api memGetInfo).logged target m = (.ok true, m') ∧
      Linked c true m'.pageAllocator ∧ m'.numTotalPages = target.tdiv c.pageSize := by
  obtain ⟨hok, htotal⟩ := AllocatorProcess.resize_reaches (m := target) hm.1 hroom
  have hlinked : Linked c true ((c.api memGetInfo).logged.resize target m.pageAllocator).2 :=
    hm.resize target
  have hcall : (c.api memGetInfo).logged.resize target m.pageAllocator =
      (true, ((c.api memGetInfo).logged.resize target m.pageAllocator).2) :=
    Prod.ext hok rfl
  unfold resize
  rw [if_neg (by omega), hcall]
  dsimp only
  refine ⟨_, rfl, ?_, ?_⟩
  · split_ifs <;> exact hlinked
  · split_ifs <;> exact htotal

/-- The page count after an `alloc` that found `target` stored. -/
theorem alloc_total {r : Except PyError (Option (List BlockId))}
    (hm : Targeted c target m.pageAllocator)
    (hroom : 0 < target → m.pageAllocator.1.system.Room c (target.tdiv c.pageSize))
    (h : alloc C (c.api memGetInfo).logged n m = some (r, m')) :
    m'.numTotalPages = if 0 < target then target.tdiv c.pageSize else m.numTotalPages := by
  have htarget : (c.api memGetInfo).logged.getResizeTarget m.pageAllocator = target := hm.2
  unfold alloc at h
  rw [htarget] at h
  dsimp only at h
  split_ifs at h ⊢ with hpos hdone
  · obtain ⟨m₁, hresize, hlinked, htotal⟩ :=
      resize_total (C := C) memGetInfo hm.1 hpos (hroom hpos)
    rw [hresize] at h
    exact (allocBlocks_total hlinked h).trans htotal
  · exact allocBlocks_total hm.1 h

end KvCacheManager

/-- A manager alone with its segment, which other processes write limits to. -/
structure LimitedGroup where
  group : Group
  shm : Shm

inductive LimitAct
  | group (act : GroupAct)
  | writeLimit (kvCacheLimit : Int)

def LimitAct.Writes : LimitAct → Prop
  | .writeLimit _ => True
  | .group _ => False

namespace LimitedGroup

def start (names : IpcNames) (C : KvCacheManagerConfig) (c : PageAllocatorConfig)
    (schedule : List (List WorkerMove)) (shm : Shm) : LimitedGroup :=
  ⟨(Group.create names C c schedule shm).1, (Group.create names C c schedule shm).2⟩

def step (s : LimitedGroup) : LimitAct → Option LimitedGroup
  | .group act => match s.group.step s.shm act with
    | some (g, shm) => some ⟨g, shm⟩
    | none => none
  | .writeLimit l => some { s with shm := s.shm.updateKvCacheLimit s.group.tracker.ipcName l }

/-- The limit after the acts, when it was `l` before. -/
def lastLimit : Int → List LimitAct → Int
  | l, [] => l
  | _, .writeLimit l :: acts => lastLimit l acts
  | l, .group _ :: acts => lastLimit l acts

/-- The segment holds the limit `l`. -/
structure Kept (c : PageAllocatorConfig) (l : Int) (s : LimitedGroup) : Prop where
  config : s.group.allocatorConfig = c
  limit : s.group.tracker.limit s.shm = some l
  served : ∃ target, s.group.Served target

variable {c : PageAllocatorConfig} {l : Int} {s t : LimitedGroup}

theorem start_kept (names : IpcNames) (C : KvCacheManagerConfig) (c : PageAllocatorConfig)
    (schedule : List (List WorkerMove)) (shm : Shm) :
    (start names C c schedule shm).Kept c c.totalMemorySize :=
  ⟨rfl, Group.create_limit names C c schedule shm, -1, Group.create_served names C c schedule shm⟩

theorem step_group {act : GroupAct} (h : step s (.group act) = some t) :
    s.group.step s.shm act = some (t.group, t.shm) := by
  simp only [step] at h
  split at h <;> cases h
  assumption

theorem step_kept {act : LimitAct} (hs : s.Kept c l) (h : step s act = some t) :
    t.Kept c (lastLimit l [act]) := by
  cases act with
  | group act =>
    have hstep := step_group h
    obtain ⟨target, hserved⟩ := hs.served
    refine ⟨(Group.step_frame hstep).2.1.trans hs.config, Group.step_limit hs.limit hstep, ?_⟩
    cases act with
    | call memGetInfo act => exact ⟨target, Group.call_served hserved hstep⟩
    | publish =>
      cases h
      exact ⟨target, hserved⟩
    | poll => exact ⟨_, Group.poll_served hserved hs.limit hstep⟩
  | writeLimit l' =>
    cases h
    exact ⟨hs.config, MemInfoTracker.limit_updateKvCacheLimit .., hs.served⟩

theorem run_kept {acts : List LimitAct} (hs : s.Kept c l) (h : run step s acts = some t) :
    t.Kept c (lastLimit l acts) := by
  induction acts generalizing s l with
  | nil =>
    cases h
    exact hs
  | cons act acts ih =>
    obtain ⟨u, hu, h⟩ := run_cons.mp h
    have hlast := ih (step_kept hs hu) h
    cases act <;> exact hlast

/-- The watcher has stored what the limit in the segment says. -/
structure Polled (c : PageAllocatorConfig) (l : Int) (s : LimitedGroup) : Prop where
  kept : s.Kept c l
  served : s.group.Served (s.group.targetOf l)

theorem poll_polled (hs : s.Kept c l) (h : step s (.group .poll) = some t) : t.Polled c l := by
  have hstep := step_group h
  obtain ⟨target, hserved⟩ := hs.served
  refine ⟨step_kept hs h, ?_⟩
  have hpolled := Group.poll_served hserved hs.limit hstep
  unfold Group.targetOf at hpolled ⊢
  rwa [(Group.step_frame hstep).2.1]

theorem step_polled {act : LimitAct} (hs : s.Polled c l) (hact : ¬act.Writes)
    (h : step s act = some t) : t.Polled c l := by
  cases act with
  | writeLimit => exact absurd trivial hact
  | group act =>
    have hstep := step_group h
    refine ⟨step_kept hs.kept h, ?_⟩
    unfold Group.targetOf
    rw [(Group.step_frame hstep).2.1]
    cases act with
    | call memGetInfo act => exact Group.call_served hs.served hstep
    | publish =>
      cases h
      exact hs.served
    | poll => exact Group.poll_served hs.served hs.kept.limit hstep

theorem run_polled {acts : List LimitAct} (hs : s.Polled c l) (hacts : ∀ act ∈ acts, ¬act.Writes)
    (h : run step s acts = some t) : t.Polled c l :=
  run_invariant_along (C := fun _ act => ¬act.Writes) (fun _ _ _ => step_polled) hs
    (along_of_mem (fun act hact _ => hacts act hact) _) h

/-- What the limit `l` leaves a layer's buffer. -/
def perLayer (c : PageAllocatorConfig) (l : Int) : Int := l / (c.numLayers * c.numKvBuffers)

theorem tdiv_eq_perLayer (hl : 0 ≤ l) :
    (l.tdiv c.numLayers).tdiv c.numKvBuffers = perLayer c l := by
  have hlayers : 0 ≤ l / c.numLayers := Int.ediv_nonneg hl c.numLayers_pos.le
  unfold perLayer
  rw [Int.tdiv_eq_ediv_of_nonneg hl, Int.tdiv_eq_ediv_of_nonneg hlayers,
    Int.ediv_ediv_of_nonneg c.numLayers_pos.le]

theorem tdiv_nonpos (hl : l < 0) : (l.tdiv c.numLayers).tdiv c.numKvBuffers ≤ 0 := by
  have hneg : (-l).tdiv c.numLayers = -(l.tdiv c.numLayers) := Int.neg_tdiv ..
  have hnonneg : 0 ≤ ((-l).tdiv c.numLayers).tdiv c.numKvBuffers :=
    Int.tdiv_nonneg (Int.tdiv_nonneg (by omega) c.numLayers_pos.le) c.numKvBuffers_pos.le
  rw [hneg, Int.neg_tdiv] at hnonneg
  omega

theorem perLayer_neg (hl : l < 0) : perLayer c l < 0 :=
  Int.ediv_neg_of_neg_of_pos hl (Int.mul_pos c.numLayers_pos c.numKvBuffers_pos)

/-- The watcher asks for a resize, to the new size of a layer's buffer, unless that is not positive
or is the size at the start. -/
theorem targetOf_cases (g : Group) (l : Int) :
    0 < g.targetOf l ∧ g.targetOf l = perLayer g.allocatorConfig l ∧
        perLayer g.allocatorConfig l ≠ g.allocatorConfig.memSizePerLayer ∨
      ¬0 < g.targetOf l ∧ ¬(0 < perLayer g.allocatorConfig l ∧
        perLayer g.allocatorConfig l ≠ g.allocatorConfig.memSizePerLayer) := by
  unfold Group.targetOf
  dsimp only
  by_cases hl : 0 ≤ l
  · rw [tdiv_eq_perLayer hl]
    split_ifs <;> omega
  · have hnonpos := tdiv_nonpos (c := g.allocatorConfig) (not_le.mp hl)
    have hneg := perLayer_neg (c := g.allocatorConfig) (not_le.mp hl)
    split_ifs <;> omega

/-- In every history the watcher's last poll stored what the limit of that time asks for, while no
limit is written after it. -/
theorem run_poll {names : IpcNames} {C : KvCacheManagerConfig} {schedule : List (List WorkerMove)}
    {shm : Shm} {before after : List LimitAct} (hafter : ∀ act ∈ after, ¬act.Writes)
    (hrun : run step (start names C c schedule shm) (before ++ .group .poll :: after) = some s) :
    s.Polled c (lastLimit c.totalMemorySize before) := by
  obtain ⟨u, hbefore, hrun⟩ := run_append.mp hrun
  obtain ⟨v, hpoll, hrun⟩ := run_cons.mp hrun
  have hkept := run_kept (start_kept names C c schedule shm) hbefore
  exact run_polled (poll_polled hkept hpoll) hafter hrun

/-- After a poll and an `alloc` the pages are as many as the last limit allows exactly when that
leaves a layer's buffer a positive size other than the one at the start, or they were as many
before the `alloc`. -/
theorem follows_limit_iff (names : IpcNames) (C : KvCacheManagerConfig) (c : PageAllocatorConfig)
    (schedule : List (List WorkerMove)) (shm : Shm) (before after : List LimitAct)
    {s : LimitedGroup} (hafter : ∀ act ∈ after, ¬act.Writes)
    (hrun : run step (start names C c schedule shm) (before ++ .group .poll :: after) = some s)
    (hroom : s.group.process.system.Room c
      (perLayer c (lastLimit c.totalMemorySize before) / c.pageSize))
    (hdone : s.group.session.manager.postInitDone = true) (memGetInfo : System → Nat × Nat)
    (n : Int) :
    ∃ t, step s (.group (.call memGetInfo (.alloc n))) = some t ∧
      (t.group.numTotalPages = perLayer c (lastLimit c.totalMemorySize before) / c.pageSize ↔
        0 < perLayer c (lastLimit c.totalMemorySize before) ∧
            perLayer c (lastLimit c.totalMemorySize before) ≠ c.memSizePerLayer ∨
          s.group.numTotalPages =
            perLayer c (lastLimit c.totalMemorySize before) / c.pageSize) := by
  have hpolled := run_poll hafter hrun
  generalize lastLimit c.totalMemorySize before = l at *
  obtain ⟨hkept, hserved⟩ := hpolled
  obtain rfl := hkept.config
  have hreturns := KvCacheManager.alloc_returns (C := s.group.managerConfig)
    (Targeted.keeps _ _ memGetInfo) (Targeted.counts _ _ memGetInfo) hserved hdone n
  obtain ⟨⟨r, m⟩, halloc⟩ := Option.isSome_iff_exists.mp hreturns
  have htarget := targetOf_cases s.group l
  have htotal := KvCacheManager.alloc_total hserved.source ?_ halloc
  · have hstep : ∃ t, step s (.group (.call memGetInfo (.alloc n))) = some t ∧
        t.group.numTotalPages = m.numTotalPages := by
      cases r <;> simp [step, Group.step, Session.step, hdone, halloc, Group.numTotalPages,
        Group.process, KvCacheManager.numTotalPages]
    obtain ⟨t, hstep, ht⟩ := hstep
    refine ⟨t, hstep, ?_⟩
    rw [ht, htotal]
    rcases htarget with ⟨hpos, heq, hne⟩ | ⟨hpos, hnot⟩
    · rw [if_pos hpos, Int.tdiv_eq_ediv_of_nonneg hpos.le, heq]
      rw [heq] at hpos
      exact iff_of_true rfl (.inl ⟨hpos, hne⟩)
    · rw [if_neg hpos]
      exact ⟨.inr, fun h => h.resolve_left hnot⟩
  · intro hpos
    rcases htarget with ⟨-, heq, -⟩ | ⟨hneg, -⟩
    · rw [Int.tdiv_eq_ediv_of_nonneg hpos.le, heq]
      exact hroom
    · exact absurd hpos hneg

/-- Eight pages a layer. -/
def eightPages : PageAllocatorConfig where
  numLayers := 1
  memSizePerLayer := 8 * 2^21
  pageSize := 2^21
  minReservedPagesEnv := 1
  memSizePerLayer_nonneg := Numerals.nonneg_eightPages
  pageSize_pos := Numerals.pos_page

def eightPagesManager : KvCacheManagerConfig where
  blockMemSize := 2^20
  pageSize := 2^21
  blockMemSize_pos := Numerals.pos_mib
  pageSize_pos := Numerals.pos_page
  pageSize_lt := Numerals.page_lt

theorem eightPagesName_nonempty : "kvcached_vLLM_7" ≠ "" := by decide

def eightPagesNames : IpcNames :=
  ⟨"kvcached_vLLM_7", "kvcached_vLLM_7_1", eightPagesName_nonempty⟩

/-- Sixty-four pages are free on the device. -/
def eightPagesDevice : System → Nat × Nat := fun _ => (64 * 2^21, 0)

def eightPagesStart : LimitedGroup :=
  start eightPagesNames eightPagesManager eightPages [] fun _ => none

/-- The limit is halved, and the watcher polls. -/
def halved : List LimitAct :=
  [.group (.call eightPagesDevice (.postInit true)), .writeLimit (8 * 2^21), .group .poll]

/-- After an `alloc` the original limit is written back, and the watcher polls. -/
def writtenBack : List LimitAct :=
  halved ++ [.group (.call eightPagesDevice (.alloc 3)), .writeLimit (16 * 2^21), .group .poll]

/-- The `alloc` after the limit is halved leaves four of the eight pages. -/
theorem follows_limit_iff_halved :
    ∃ s t, run step eightPagesStart halved = some s ∧
      step s (.group (.call eightPagesDevice (.alloc 3))) = some t ∧
      s.group.numTotalPages = 8 ∧ t.group.numTotalPages = 4 := by
  have hrun : run step eightPagesStart halved = some _ := (Option.some_get (by decide +kernel)).symm
  obtain ⟨t, hstep, hiff⟩ := follows_limit_iff eightPagesNames eightPagesManager eightPages []
    (fun _ => none) [.group (.call eightPagesDevice (.postInit true)), .writeLimit (8 * 2^21)] []
    (by simp) hrun (by decide +kernel) (by decide +kernel) eightPagesDevice 3
  exact ⟨_, t, hrun, hstep, by decide +kernel, hiff.mpr (.inl (by decide +kernel))⟩

/-- With the original limit back and three pages free the `alloc` leaves the four pages. -/
theorem original_limit_ignored :
    lastLimit eightPages.totalMemorySize writtenBack = eightPages.totalMemorySize ∧
    ∃ s t, run step eightPagesStart writtenBack = some s ∧
      step s (.group (.call eightPagesDevice (.alloc 3))) = some t ∧
      s.group.process.system.Room eightPages 8 ∧
      perLayer eightPages eightPages.totalMemorySize / eightPages.pageSize = 8 ∧
      s.group.numTotalPages = 4 ∧ t.group.numTotalPages = 4 := by
  have hrun : run step eightPagesStart writtenBack = some _ :=
    (Option.some_get (by decide +kernel)).symm
  refine ⟨rfl, _, _, hrun, (Option.some_get (by decide +kernel)).symm, ?_⟩
  decide +kernel

end LimitedGroup

end GpuSharing.Kvcached
