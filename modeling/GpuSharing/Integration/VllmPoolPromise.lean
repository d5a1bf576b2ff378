import GpuSharing.Integration.VllmPoolLimits
import GpuSharing.Kvcached.QuietFree

namespace GpuSharing.Integration

open Kvcached Transition

namespace ElasticBlockPool

variable {μ : Type} (c : ElasticBlockPoolConfig) (M : BlockManagerApi μ)

/-- The evictable blocks that a `get_new_blocks` of `n` blocks gives back first. -/
def roomBlocks (n : Int) (p : ElasticBlockPool μ) : List BlockId :=
  if c.enablePrefixCache then
    p.evictableBlocks.take (n - M.availableSize p.kvCacheManager).toNat
  else []

/-- The manager with these blocks back. -/
def roomMade (n : Int) (p : ElasticBlockPool μ) : μ :=
  if (roomBlocks c M n p).isEmpty then p.kvCacheManager
  else (M.free (roomBlocks c M n p) p.kvCacheManager).2

variable {c M} {Inv : μ → List BlockId → Prop} {Fine : μ → Prop} {p q : ElasticBlockPool μ}
  {refs : List BlockId} {n : Int}

theorem evictLoop_takes (k : Nat) (ids : List BlockId) (p : ElasticBlockPool μ) :
    (evictLoop k ids p).1 = ids ++ p.evictableBlocks.take k ∧
      (evictLoop k ids p).2.kvCacheManager = p.kvCacheManager := by
  induction k generalizing ids p with
  | zero => simp [evictLoop]
  | succ k ih =>
    unfold evictLoop
    split
    case h_1 hnil => simp [hnil]
    case h_2 b rest hcons =>
      obtain ⟨hids, hmanager⟩ := ih (ids ++ [b]) (dropKey b { p with evictableBlocks := rest })
      rw [hids, hmanager, dropKey_evictable, dropKey_kvCacheManager, hcons]
      simp

theorem giveBackAny_manager (ids : List BlockId) (p : ElasticBlockPool μ) :
    (giveBackAny M ids p).2.kvCacheManager =
      if ids.isEmpty then p.kvCacheManager else (M.free ids p.kvCacheManager).2 := by
  unfold giveBackAny
  split_ifs <;> rfl

theorem makeRoom_manager (n : Int) (p : ElasticBlockPool μ) :
    (makeRoom c M n p).2.kvCacheManager = roomMade c M n p := by
  unfold makeRoom roomMade roomBlocks
  by_cases henable : c.enablePrefixCache = true
  · rw [if_pos henable, if_pos henable]
    generalize hk : n - M.availableSize p.kvCacheManager = k
    by_cases hroom : M.availableSize p.kvCacheManager < n ∧ p.evictableBlocks ≠ []
    · have htake : p.evictableBlocks.take (min k p.evictableBlocks.length).toNat =
          p.evictableBlocks.take k.toNat := by
        rw [List.take_eq_take_iff]
        omega
      obtain ⟨hids, hmanager⟩ :=
        evictLoop_takes (min k p.evictableBlocks.length).toNat [] p
      rw [List.nil_append, htake] at hids
      rw [if_pos hroom, evictBlocksFromPool, hk, giveBackAny_manager, hmanager, hids]
    · have hnil : p.evictableBlocks.take k.toNat = [] := by
        rw [List.take_eq_nil_iff]
        by_cases hempty : p.evictableBlocks = []
        · exact .inr hempty
        · have hle : ¬M.availableSize p.kvCacheManager < n := fun hlt => hroom ⟨hlt, hempty⟩
          exact .inl (by omega)
      rw [if_neg hroom, hnil]
      rfl
  · rw [if_neg henable, if_neg henable]
    rfl

theorem InOrder.makeRoom (hM : M.Lends c.numGpuBlocks Inv Fine) (h : InOrder c Inv refs p)
    (n : Int) : ∃ q, makeRoom c M n p = (.ok (), q) ∧ InOrder c Inv refs q := by
  unfold InOrder at h ⊢
  split_ifs at h ⊢ with henable
  · exact Balanced.makeRoom hM h n
  · refine ⟨p, ?_, h⟩
    rw [ElasticBlockPool.makeRoom, if_neg henable]

theorem InOrder.roomBlocks_subperm (h : InOrder c Inv refs p) (n : Int) :
    (roomBlocks c M n p).Subperm (allocated p.history) := by
  unfold InOrder at h
  unfold roomBlocks
  split_ifs at h ⊢ with henable
  · have hsub := List.take_sublist (n - M.availableSize p.kvCacheManager).toNat p.evictableBlocks
    refine List.subperm_of_subset (h.kept.nodup.sublist hsub) ?_
    intro b hb
    exact (h.mem b).mpr (.inr (.inr (.inl (hsub.subset hb))))
  · exact List.nil_subperm

/-- A call within `get_num_free_blocks` makes all the room it lacks. -/
theorem le_roomBlocks (hn : n ≤ getNumFreeBlocks c M p) :
    n ≤ M.availableSize p.kvCacheManager + (roomBlocks c M n p).length := by
  unfold getNumFreeBlocks at hn
  unfold roomBlocks
  split_ifs at hn ⊢ with henable
  · rw [List.length_take]
    omega
  · omega

/-- With enough blocks free a `get_new_blocks` returns as many distinct blocks exactly when the manager
hands them out once room is made. -/
theorem getNewBlocks_returns_iff (hM : M.Lends c.numGpuBlocks Inv Fine)
    (h : InOrder c Inv refs p) (hn : n ≤ getNumFreeBlocks c M p)
    (hfine : ∀ r p', getNewBlocks c M n p = some (r, p') → Fine p'.kvCacheManager) :
    (∃ ids p', getNewBlocks c M n p = some (.ok ids, p') ∧ (ids.length : Int) = n ∧ ids.Nodup) ↔
      ∃ ids m, M.alloc n (roomMade c M n p) = some (.ok (some ids), m) ∧
        (ids.length : Int) = n := by
  obtain ⟨q, hroom, hq⟩ := h.makeRoom hM n
  have hmanager : roomMade c M n p = q.kvCacheManager := by
    rw [← makeRoom_manager, hroom]
  have hget : getNewBlocks c M n p = allocBlocks c M n q := by
    rw [getNewBlocks, if_neg (not_lt.mpr hn), hroom]
  rw [hget] at hfine ⊢
  rw [hmanager]
  constructor
  · rintro ⟨ids, p', halloc, hlen, -⟩
    unfold allocBlocks at halloc
    split at halloc
    case h_1 => cases halloc
    case h_2 => cases halloc
    case h_3 => cases halloc
    case h_4 got m hgot =>
      dsimp only at halloc
      split_ifs at halloc with hcount
      · exact ⟨got, m, hgot, hcount⟩
      · cases halloc
  · rintro ⟨ids, m, halloc, hlen⟩
    have hcall : allocBlocks c M n q = some (refLoop c ids [] { q with
        kvCacheManager := m
        history := (ids.map .issued).reverse ++ q.history }) := by
      unfold allocBlocks
      rw [halloc]
      exact if_pos hlen
    have hframe := refLoop_frame (c := c) ids [] { q with
      kvCacheManager := m
      history := (ids.map .issued).reverse ++ q.history }
    have hm := hfine _ _ hcall
    rw [(Prod.mk.inj hframe).1] at hm
    obtain ⟨hinv, -⟩ := hM.alloc hq.lends halloc hm
    rw [refLoop_ok ids [] _ fun b hb => hM.range hinv b (List.mem_append_left _ hb)] at hcall
    exact ⟨ids, _, hcall, hlen, (List.nodup_append.mp (hM.nodup hinv)).1⟩

end ElasticBlockPool

namespace LimitedPool

open ElasticBlockPool KvCacheManager

/-- The manager once a `get_new_blocks` of `n` blocks has made room and the limit pending is served. -/
def servedRoom (c : ElasticBlockPoolConfig) (memGetInfo : System → Nat × Nat) (n : Int)
    (s : PoolSession LimitedGroup) : KvCacheManager (AllocatorProcess × List PageId) :=
  let g := roomMade c (limitedManagerApi memGetInfo) n s.pool
  serveLimit (g.allocatorApi memGetInfo) g.manager

variable {c : ElasticBlockPoolConfig} {C : KvCacheManagerConfig} {a : PageAllocatorConfig}
  {memGetInfo : System → Nat × Nat} {n : Int} {s : PoolSession LimitedGroup}

/-- In a group an `alloc` hands out what its manager does. -/
theorem limitedManagerApi_grants_iff {g : LimitedGroup} {held : List BlockId} {numBlocks : Int}
    (hg : LentOut C a numBlocks g held) (n : Int) :
    (∃ ids g', (limitedManagerApi memGetInfo).alloc n g = some (.ok (some ids), g') ∧
      (ids.length : Int) = n) ↔
      0 ≤ n ∧
      n ≤ availableSize C (a.api memGetInfo).logged
        (serveLimit (g.allocatorApi memGetInfo) g.manager) ∧
      n ≤ usable C AllocatorProcess.stock
        (serveLimit (g.allocatorApi memGetInfo) g.manager) := by
  obtain ⟨target, hsound⟩ := hg.sound
  rw [hg.allocatorApi, ← alloc_grants_iff C memGetInfo hsound hg.done hg.lending.reserved n]
  simp only [limitedManagerApi]
  rw [hg.managerConfig, hg.allocatorApi]
  constructor
  · rintro ⟨ids, g', halloc, hlen⟩
    obtain ⟨⟨r, m⟩, hcall, hr⟩ := Option.map_eq_some_iff.mp halloc
    obtain ⟨rfl, -⟩ := Prod.mk.inj hr
    exact ⟨ids, m, hcall, hlen⟩
  · rintro ⟨ids, m, hcall, hlen⟩
    refine ⟨ids, g.withManager m, ?_, hlen⟩
    rw [hcall]
    rfl

/-- Where no limit is pending and no shrink deferred, room-making adds what it gives back. -/
theorem servedRoom_quiet {refs : List BlockId}
    (h : InOrder c (LentOut C a c.numGpuBlocks) refs s.pool)
    (htarget : s.pool.kvCacheManager.manager.pageAllocator.1.resizeTarget ≤ 0)
    (hq : s.pool.kvCacheManager.manager.inShrink = false)
    (hroom : DeviceRoom C a memGetInfo
      s.pool.kvCacheManager.manager.pageAllocator.1.system.pa.numTotalPages) :
    (limitedManagerApi memGetInfo).availableSize s.pool.kvCacheManager +
        (roomBlocks c (limitedManagerApi memGetInfo) n s.pool).length ≤
      availableSize C (a.api memGetInfo).logged (servedRoom c memGetInfo n s) ∧
    usable C AllocatorProcess.stock (servedRoom c memGetInfo n s) =
      usable C AllocatorProcess.stock s.pool.kvCacheManager.manager +
        (roomBlocks c (limitedManagerApi memGetInfo) n s.pool).length := by
  have hlent := h.lends
  obtain ⟨target, hsound⟩ := hlent.sound
  obtain ⟨lost, hset⟩ := hlent.lending.settled
  generalize hids : roomBlocks c (limitedManagerApi memGetInfo) n s.pool = ids
  have hsub : ids.Subperm (allocated s.pool.history) := hids ▸ h.roomBlocks_subperm n
  have hout : Consistent C s.pool.kvCacheManager.manager
      (ids ++ ((allocated s.pool.history).diff ids ++ lost)) := by
    have hm := hset.consistent
    rw [hlent.lending.reserved, List.nil_append] at hm
    rw [← List.append_assoc]
    exact hm.perm ((append_diff_perm hsub).symm.append_right lost)
  obtain ⟨m, hfree, htarget', hsize, husable⟩ := free_promises memGetInfo hout hset.known
    hlent.lending.reserved hq hsound.source hroom
  have hmade : (roomMade c (limitedManagerApi memGetInfo) n s.pool).manager = m := by
    unfold roomMade
    rw [hids]
    by_cases hnil : ids = []
    · subst hnil
      exact congrArg Prod.snd hfree
    · rw [if_neg (by simpa using hnil)]
      simp only [limitedManagerApi, hlent.managerConfig, hlent.allocatorApi, hfree,
        LimitedGroup.withManager_manager]
  have hserved : servedRoom c memGetInfo n s = m := by
    refine (serveLimit_none ?_).trans hmade
    rw [hmade]
    change m.pageAllocator.1.resizeTarget ≤ 0
    rwa [htarget', ← hsound.source.2]
  rw [hserved]
  refine ⟨?_, husable⟩
  simp only [limitedManagerApi, hlent.managerConfig, hlent.allocatorApi]
  exact hsize

/-- Once room is made and the limit pending is served, `available_size` still promises `n` blocks and
the pages have them. -/
def Grantable (c : ElasticBlockPoolConfig) (C : KvCacheManagerConfig) (a : PageAllocatorConfig)
    (memGetInfo : System → Nat × Nat) (n : Int) (s : PoolSession LimitedGroup) : Prop :=
  0 ≤ n ∧ n ≤ availableSize C (a.api memGetInfo).logged (servedRoom c memGetInfo n s) ∧
    n ≤ usable C AllocatorProcess.stock (servedRoom c memGetInfo n s)

instance : Decidable (Grantable c C a memGetInfo n s) := inferInstanceAs (Decidable (_ ∧ _ ∧ _))

/-- With nothing pending the promise of `available_size` outlives the eviction. -/
theorem grantable_quiet {refs : List BlockId}
    (h : InOrder c (LentOut C a c.numGpuBlocks) refs s.pool)
    (htarget : s.pool.kvCacheManager.manager.pageAllocator.1.resizeTarget ≤ 0)
    (hq : s.pool.kvCacheManager.manager.inShrink = false)
    (hroom : DeviceRoom C a memGetInfo
      s.pool.kvCacheManager.manager.pageAllocator.1.system.pa.numTotalPages)
    (hn : n ≤ getNumFreeBlocks c (limitedManagerApi memGetInfo) s.pool) :
    Grantable c C a memGetInfo n s ↔ 0 ≤ n ∧
      n ≤ usable C AllocatorProcess.stock s.pool.kvCacheManager.manager +
        (roomBlocks c (limitedManagerApi memGetInfo) n s.pool).length := by
  obtain ⟨hsize, husable⟩ := servedRoom_quiet (n := n) h htarget hq hroom
  have hle := (le_roomBlocks hn).trans hsize
  rw [Grantable, husable]
  constructor
  · rintro ⟨h0, -, hthere⟩
    exact ⟨h0, hthere⟩
  · rintro ⟨h0, hthere⟩
    exact ⟨h0, hle, hthere⟩

/-- In every state a pool can reach while limits are written and polled, `get_new_blocks` of what
`get_num_free_blocks` promises returns as many distinct blocks exactly when they can be granted: with
no limit pending, no shrink deferred and room on the device, when the pages had them before. -/
theorem new_blocks_iff (names : IpcNames) (c : ElasticBlockPoolConfig) (C : KvCacheManagerConfig)
    (a : PageAllocatorConfig) (schedule : List (List WorkerMove)) (shm : Shm)
    (boot : List LimitAct) (g : LimitedGroup) (memGetInfo₀ : System → Nat × Nat)
    (s₀ : PoolSession LimitedGroup) (acts : List LimitedPoolAct) (s : PoolSession LimitedGroup)
    (hreserve : C.reserveNullBlock = false) (hboot : ∀ act ∈ boot, act.Boots)
    (hready : run LimitedGroup.step (LimitedGroup.start names C a schedule shm) boot = some g)
    (hstart : start c memGetInfo₀ g = some s₀)
    (hissued₀ : KvCacheManagerApi.IssuedInside C c.numGpuBlocks s₀.pool.kvCacheManager.manager)
    (hrun : run (step c) s₀ acts = some s) (hissued : Along (step c) (IssuesInside c C) s₀ acts)
    (honce : CachedOnce s.pool.history) (memGetInfo : System → Nat × Nat) (n : Int)
    (hissue : IssuesInside c C s (.pool memGetInfo (.getNewBlocks n)))
    (hn : n ≤ getNumFreeBlocks c (limitedManagerApi memGetInfo) s.pool) :
    ((∃ ids p, getNewBlocks c (limitedManagerApi memGetInfo) n s.pool = some (.ok ids, p) ∧
      (ids.length : Int) = n ∧ ids.Nodup) ↔ Grantable c C a memGetInfo n s) ∧
    (s.pool.kvCacheManager.manager.pageAllocator.1.resizeTarget ≤ 0 →
      s.pool.kvCacheManager.manager.inShrink = false →
      DeviceRoom C a memGetInfo
        s.pool.kvCacheManager.manager.pageAllocator.1.system.pa.numTotalPages →
      (Grantable c C a memGetInfo n s ↔ 0 ≤ n ∧
        n ≤ usable C AllocatorProcess.stock s.pool.kvCacheManager.manager +
          (roomBlocks c (limitedManagerApi memGetInfo) n s.pool).length)) := by
  have hs := run_inOrder
    (start_inOrder (run_booting c.numGpuBlocks hreserve hboot hready) hstart hissued₀)
    hrun hissued honce
  have hlends := limitedManagerApi_lends C a memGetInfo c.numGpuBlocks
  obtain ⟨q, hroom, hq⟩ := hs.makeRoom hlends n
  have hmade : LentOut C a c.numGpuBlocks (roomMade c (limitedManagerApi memGetInfo) n s.pool)
      (allocated q.history) := by
    rw [← makeRoom_manager, hroom]
    exact hq.lends
  refine ⟨?_, fun htarget hq hroom => grantable_quiet hs htarget hq hroom hn⟩
  rw [getNewBlocks_returns_iff hlends hs hn, limitedManagerApi_grants_iff hmade n]
  · rfl
  · intro r p hget
    rw [IssuesInside] at hissue
    simpa only [step, PoolSession.step, hget] using hissue

open LimitedGroup

/-- Eight pages of two blocks. -/
def eightPagesPool : ElasticBlockPoolConfig where
  numGpuBlocks := 16
  enablePrefixCache := true

def eightPagesBoot : List LimitAct := [.group (.call eightPagesDevice (.postInit true))]

def eightPagesReady : LimitedGroup :=
  (run LimitedGroup.step eightPagesStart eightPagesBoot).get (by decide +kernel)

def eightPagesPoolStart : PoolSession LimitedGroup :=
  (start eightPagesPool eightPagesDevice eightPagesReady).get (by decide +kernel)

theorem start_eightPages :
    start eightPagesPool eightPagesDevice eightPagesReady = some eightPagesPoolStart :=
  (Option.some_get _).symm

/-- Three blocks are taken, and the limit is halved. -/
def takeAndHalve : List LimitedPoolAct :=
  [.pool eightPagesDevice (.getNewBlocks 3), .outside (.writeLimit (8 * 2^21)),
    .outside (.group .poll)]

theorem deviceRoom_eightPages {total : Int} (h : total = 8) :
    DeviceRoom eightPagesManager eightPages eightPagesDevice total := by
  refine .inr fun t ht => ?_
  have havail : PageAllocator.getAvailPhysicalPages eightPages (64 * 2^21) 0 = 32 := by decide
  change t.pa.numFreePages ≤ PageAllocator.getAvailPhysicalPages eightPages (64 * 2^21) 0 + _
  rw [havail]
  omega

/-- With the limit halved four blocks are there; before that, all twelve that are not out. -/
theorem new_blocks_iff_halved :
    (∃ s ids p, run (step eightPagesPool) eightPagesPoolStart takeAndHalve = some s ∧
      getNewBlocks eightPagesPool (limitedManagerApi eightPagesDevice) 4 s.pool =
        some (.ok ids, p) ∧ (ids.length : Int) = 4 ∧ ids.Nodup) ∧
    ∃ s ids p, run (step eightPagesPool) eightPagesPoolStart (takeAndHalve.take 1) = some s ∧
      getNewBlocks eightPagesPool (limitedManagerApi eightPagesDevice) 12 s.pool =
        some (.ok ids, p) ∧ (ids.length : Int) = 12 ∧ ids.Nodup := by
  have hready : run LimitedGroup.step (LimitedGroup.start eightPagesNames eightPagesManager
      eightPages [] fun _ => none) eightPagesBoot = some eightPagesReady :=
    (Option.some_get _).symm
  refine ⟨?_, ?_⟩
  · have hrun : run (step eightPagesPool) eightPagesPoolStart takeAndHalve = some _ :=
      (Option.some_get (by decide +kernel)).symm
    obtain ⟨ids, p, hget⟩ := (new_blocks_iff eightPagesNames eightPagesPool eightPagesManager
      eightPages [] (fun _ => none) eightPagesBoot _ eightPagesDevice _ takeAndHalve _ rfl
      (by decide) hready start_eightPages (by decide +kernel) hrun (by decide +kernel)
      (by decide +kernel) eightPagesDevice 4 (by decide +kernel) (by decide +kernel)).1.mpr
      (by decide +kernel)
    exact ⟨_, ids, p, hrun, hget⟩
  · have hrun : run (step eightPagesPool) eightPagesPoolStart (takeAndHalve.take 1) = some _ :=
      (Option.some_get (by decide +kernel)).symm
    obtain ⟨hiff, hquiet⟩ := new_blocks_iff eightPagesNames eightPagesPool eightPagesManager
      eightPages [] (fun _ => none) eightPagesBoot _ eightPagesDevice _ (takeAndHalve.take 1) _ rfl
      (by decide) hready start_eightPages (by decide +kernel) hrun (by decide +kernel)
      (by decide +kernel) eightPagesDevice 12 (by decide +kernel) (by decide +kernel)
    obtain ⟨ids, p, hget⟩ := hiff.mpr ((hquiet (by decide +kernel) (by decide +kernel)
      (deviceRoom_eightPages (by decide +kernel))).mpr (by decide +kernel))
    exact ⟨_, ids, p, hrun, hget⟩

/-- Blocks 2 and 3, the blocks of page 1, are evictable when the limit is cut to one page. -/
def cacheAndCut : List LimitedPoolAct :=
  [.pool eightPagesDevice (.getNewBlocks 3),
    .pool eightPagesDevice (.cacheFullBlocks ⟨some [[1], [2], [3]], [1, 2, 3], [], none,
      some (.int 1), some (.int 3), none, .int 0⟩),
    .pool eightPagesDevice (.freeBlocks [some 3, some 2]), .outside (.writeLimit (2 * 2^21)),
    .outside (.group .poll)]

def eightPagesCut : PoolSession LimitedGroup :=
  (run (step eightPagesPool) eightPagesPoolStart cacheAndCut).get (by decide +kernel)

/-- One block of fourteen is refused, as `alloc` defers the shrink and counts no free page any more.
Then two of two are: their eviction gives page 1 back, and the shrink takes it. -/
theorem deferred_shrink_fails_assertion : ∃ s t,
    start eightPagesPool eightPagesDevice eightPagesReady = some eightPagesPoolStart ∧
    run (step eightPagesPool) eightPagesPoolStart cacheAndCut = some s ∧
    getNumFreeBlocks eightPagesPool (limitedManagerApi eightPagesDevice) s.pool = 14 ∧
    (getNewBlocks eightPagesPool (limitedManagerApi eightPagesDevice) 1 s.pool).map Prod.fst =
      some (.error (.assertionError "")) ∧
    step eightPagesPool s (.pool eightPagesDevice (.getNewBlocks 1)) = some t ∧
    t.pool.kvCacheManager.manager.inShrink = true ∧
    getNumFreeBlocks eightPagesPool (limitedManagerApi eightPagesDevice) t.pool = 2 ∧
    (getNewBlocks eightPagesPool (limitedManagerApi eightPagesDevice) 2 t.pool).map Prod.fst =
      some (.error (.assertionError "")) := by
  have hrun : run (step eightPagesPool) eightPagesPoolStart cacheAndCut = some eightPagesCut :=
    (Option.some_get _).symm
  have hstep : step eightPagesPool eightPagesCut (.pool eightPagesDevice (.getNewBlocks 1)) =
      some _ := (Option.some_get (by decide +kernel)).symm
  exact ⟨_, _, start_eightPages, hrun, by decide +kernel, by decide +kernel, hstep,
    by decide +kernel, by decide +kernel, by decide +kernel⟩

end LimitedPool

end GpuSharing.Integration
