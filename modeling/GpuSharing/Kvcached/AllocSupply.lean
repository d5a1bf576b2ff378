import Mathlib.Algebra.Order.BigOperators.Group.List
import GpuSharing.Kvcached.ManagerRestore
import GpuSharing.Kvcached.PageStock

namespace GpuSharing.Kvcached

open Transition

variable {σ : Type}

/-- While `I` holds, `alloc_page` issues the pages of `stock` and raises once none is left. -/
structure PageAllocatorApi.Draws (S : PageAllocatorApi σ) (I : σ × List PageId → Prop)
    (stock : σ → List PageId) : Prop where
  issues : ∀ s p t, I s → S.logged.allocPage s = (.ok p, t) → (stock s.1).Perm (p :: stock t.1)
  raises : ∀ s msg t, I s → S.logged.allocPage s = (.error msg, t) → stock s.1 = []

/-- How many whole blocks the pages `ps` have. -/
def blockCount (C : KvCacheManagerConfig) (ps : List PageId) : Int :=
  ((ps.map fun p => (blockRange C p).length).sum : Nat)

theorem blockCount_cons (C : KvCacheManagerConfig) (p : PageId) (ps : List PageId) :
    blockCount C (p :: ps) = (blockRange C p).length + blockCount C ps := by
  simp [blockCount]

theorem blockCount_perm {C : KvCacheManagerConfig} {ps qs : List PageId} (h : ps.Perm qs) :
    blockCount C ps = blockCount C qs := by
  rw [blockCount, blockCount, (h.map _).sum_eq]

theorem blockCount_nonneg (C : KvCacheManagerConfig) (ps : List PageId) : 0 ≤ blockCount C ps :=
  Int.natCast_nonneg _

theorem freeIn_nonneg (avail : Dict PageId InternalPage) : 0 ≤ freeIn avail := by
  apply List.sum_nonneg
  intro n hn
  obtain ⟨e, -, rfl⟩ := List.mem_map.mp hn
  exact Int.natCast_nonneg _

/-- A page has the blocks it is asked for when that are not more than it has free. -/
theorem InternalPage.alloc_of_le (pg : InternalPage) {n : Int} (h0 : 0 < n)
    (hn : n ≤ pg.freeList.length) :
    pg.alloc n = .ok (pg.freeList.take n.toNat,
      { pg with freeList := pg.freeList.drop n.toNat }) := by
  unfold InternalPage.alloc
  rw [if_neg]
  unfold sizeT
  omega

namespace KvCacheManager

variable {C : KvCacheManagerConfig} {S : PageAllocatorApi σ} {resizes : Bool}
  {I : σ × List PageId → Prop} {stock : σ → List PageId}
  {m m' : KvCacheManager (σ × List PageId)} {pg : InternalPage}

/-- The blocks `_alloc` can take from pages. -/
def supply (C : KvCacheManagerConfig) (stock : σ → List PageId)
    (m : KvCacheManager (σ × List PageId)) : Int :=
  freeIn m.availPages + blockCount C (stock m.pageAllocator.1)

/-- The blocks `_alloc` can return. -/
def usable (C : KvCacheManagerConfig) (stock : σ → List PageId)
    (m : KvCacheManager (σ × List PageId)) : Int :=
  m.reservedBlocks.length + supply C stock m

theorem supply_nonneg (C : KvCacheManagerConfig) (stock : σ → List PageId)
    (m : KvCacheManager (σ × List PageId)) : 0 ≤ supply C stock m :=
  Int.add_nonneg (freeIn_nonneg _) (blockCount_nonneg C _)

/-- The page that goes into `avail_pages` after a pass was not there, and brings the blocks that the
rest lacks. -/
theorem nextPage_takes (hS : S.Draws I stock) (hm : Sound resizes I [] m)
    (h : nextPage C S.logged m = (.ok (some pg), m')) :
    pg.pageId ∉ m'.availPages ∧ supply C stock m = pg.numFreeBlocks + supply C stock m' := by
  cases hpop : m.availPages.popitem with
  | some found =>
    obtain ⟨k, page, rest⟩ := found
    rw [nextPage, hpop] at h
    cases h
    have hentries := Dict.popitem_some hpop
    obtain ⟨hkey, -, -⟩ := hm.takeAvail (.of_eq hentries)
    have hn : ((⟨k, pg⟩ :: rest.entries : List (Sigma fun _ : PageId => InternalPage))).NodupKeys := by
      rw [← hentries]
      exact m.availPages.nodupKeys
    refine ⟨?_, ?_⟩
    · rw [hkey]
      exact (List.nodupKeys_cons.mp hn).1
    · simp only [supply, freeIn, hentries, List.map_cons, List.sum_cons]
      ring
  | none =>
    cases nextPage_step h with
    | pops k page rest hpop' =>
      rw [hpop] at hpop'
      cases hpop'
    | opens p s halloc hzero =>
      have hempty := Dict.popitem_none hpop
      have hperm := hS.issues _ _ _ hm.source halloc
      refine ⟨by rw [hempty]; exact AList.notMem_empty _, ?_⟩
      simp only [supply, blockCount_perm hperm, blockCount_cons]
      change _ = (((blockRange C p).length : Nat) : Int) + _
      ring

theorem nextPage_parks (hS : S.Draws I stock) (hm : Sound resizes I [] m)
    (h : nextPage C S.logged m = (.ok none, m')) : supply C stock m' = supply C stock m := by
  cases nextPage_step h with
  | parks p s halloc hzero =>
    have hperm := hS.issues _ _ _ hm.source halloc
    have hzero : (((blockRange C p).length : Nat) : Int) = 0 := hzero
    simp only [supply, blockCount_perm hperm, blockCount_cons, hzero, zero_add]

theorem nextPage_raises {e : PyError} (hS : S.Draws I stock) (hm : Sound resizes I [] m)
    (h : nextPage C S.logged m = (.error e, m')) : supply C stock m = 0 := by
  cases hpop : m.availPages.popitem with
  | some found =>
    obtain ⟨k, page, rest⟩ := found
    rw [nextPage, hpop] at h
    cases h
  | none =>
    cases nextPage_step h with
    | raises msg s halloc =>
      rw [supply, Dict.popitem_none hpop, hS.raises _ _ _ hm.source halloc]
      rfl

/-- Taking no more blocks than a page has free does not raise. -/
theorem takeBlocks_takes {m : KvCacheManager σ} {n : Int} (h0 : 0 < n)
    (hn : n ≤ pg.freeList.length) (hpg : pg.pageId ∉ m.availPages) :
    ∃ m', takeBlocks n pg m = (.ok (pg.freeList.take n.toNat), m') ∧
      m'.pageAllocator = m.pageAllocator ∧
      freeIn m'.availPages = freeIn m.availPages + pg.numFreeBlocks - n := by
  unfold takeBlocks
  rw [pg.alloc_of_le h0 hn]
  dsimp only
  by_cases hfull : pg.freeList.drop n.toNat = []
  · have hlen : pg.freeList.length ≤ n.toNat := List.drop_eq_nil_iff.mp hfull
    rw [if_pos (by simp [InternalPage.full, hfull])]
    refine ⟨_, rfl, rfl, ?_⟩
    simp only [InternalPage.numFreeBlocks]
    omega
  · rw [if_neg (by simpa [InternalPage.full] using hfull)]
    refine ⟨_, rfl, rfl, ?_⟩
    have hentries := Dict.entries_setItem hpg { pg with freeList := pg.freeList.drop n.toNat }
    simp only [freeIn, hentries, List.map_cons, List.sum_cons, InternalPage.numFreeBlocks,
      List.length_drop]
    omega

/-- The loop of `_alloc` gathers the blocks still needed if there are as many, and raises if not. -/
theorem allocLoop_supply {fuel : Nat} {need : Int} {ret : List BlockId}
    {r : Except PyError (List BlockId)} (hK : S.Keeps resizes I) (hS : S.Draws I stock)
    (hm : Sound resizes I [] m) (h : allocLoop C S.logged fuel need ret m = some (r, m')) :
    (∃ ids, r = .ok ids ∧ ids.length = ret.length + need.toNat ∧ need ≤ supply C stock m) ∨
      ∃ e, r = .error e ∧ supply C stock m < need := by
  have hnonneg := supply_nonneg C stock m
  induction fuel generalizing need ret m with
  | zero =>
    unfold allocLoop at h
    split_ifs at h
    cases h
    exact .inl ⟨ret, rfl, by omega, by omega⟩
  | succ fuel ih =>
    unfold allocLoop at h
    split_ifs at h
    · cases h
      exact .inl ⟨ret, rfl, by omega, by omega⟩
    · dsimp only at h
      split at h
      case h_1 e m₁ hnext =>
        cases h
        rw [nextPage_raises hS hm hnext]
        exact .inr ⟨e, rfl, by omega⟩
      case h_2 m₁ hnext =>
        rw [← nextPage_parks hS hm hnext] at hnonneg ⊢
        exact ih (nextPage_sound hK hm hnext).1 h hnonneg
      case h_3 page m₁ hnext =>
        obtain ⟨hm₁, hne⟩ := nextPage_sound hK hm hnext
        obtain ⟨hapart, hsupply⟩ := nextPage_takes hS hm hnext
        have hpos := List.length_pos_iff.mpr (hne page rfl)
        have hsome : 0 < min page.numFreeBlocks need := by
          simp only [InternalPage.numFreeBlocks]
          omega
        have hless : min page.numFreeBlocks need ≤ page.freeList.length := by
          simp only [InternalPage.numFreeBlocks]
          omega
        obtain ⟨m₂, htake, hsource, hfree⟩ := takeBlocks_takes hsome hless hapart
        rw [htake] at h
        have hm₂ := takeBlocks_sound hm₁ htake
        have hless : supply C stock m₂ =
            supply C stock m - min page.numFreeBlocks need := by
          rw [hsupply]
          simp only [supply, hfree, hsource]
          omega
        have hrest := ih hm₂ h (supply_nonneg C stock m₂)
        rw [hless] at hrest
        rcases hrest with ⟨ids, rfl, hlen, hle⟩ | ⟨e, rfl, hlt⟩
        · refine .inl ⟨ids, rfl, ?_, by omega⟩
          rw [hlen, List.length_append, List.length_take]
          simp only [InternalPage.numFreeBlocks]
          omega
        · exact .inr ⟨e, rfl, by omega⟩

/-- Past its check of `available_size`, `_alloc` returns the blocks if there are as many, and raises
if not. -/
theorem allocBlocks_supply {n : Int} {r : Except PyError (Option (List BlockId))}
    (hK : S.Keeps resizes I) (hS : S.Draws I stock) (hm : Sound resizes I [] m)
    (hsize : ¬availableSize C S.logged m < n)
    (h : allocBlocks C S.logged n m = some (r, m')) :
    (∃ ids, r = .ok (some ids) ∧ (0 ≤ n → (ids.length : Int) = n) ∧ n ≤ usable C stock m) ∨
      ∃ e, r = .error e ∧ usable C stock m < n := by
  unfold allocBlocks at h
  rw [if_neg hsize] at h
  dsimp only at h
  generalize hk : (if m.reservedBlocks.isEmpty then (0 : Int)
    else min (m.reservedBlocks.length : Int) n) = k at h
  have hk : k = if m.reservedBlocks = [] then 0 else min (m.reservedBlocks.length : Int) n := by
    rw [← hk]
    simp
  have hcut : Sound resizes I []
      { m with reservedBlocks := m.reservedBlocks.drop (sliceIndex m.reservedBlocks k) } :=
    hm.relabel hm.source rfl
  have hloop : ∀ {fuel r m₁}, allocLoop C S.logged fuel (n - k)
      (m.reservedBlocks.take (sliceIndex m.reservedBlocks k))
      { m with reservedBlocks := m.reservedBlocks.drop (sliceIndex m.reservedBlocks k) } =
        some (r, m₁) →
      (∃ ids, r = .ok ids ∧ ids.length =
        (m.reservedBlocks.take (sliceIndex m.reservedBlocks k)).length + (n - k).toNat ∧
          n - k ≤ supply C stock m) ∨ ∃ e, r = .error e ∧ supply C stock m < n - k := by
    intro fuel r m₁ hrun
    have hrest := allocLoop_supply hK hS hcut hrun
    exact hrest
  have hnonneg := supply_nonneg C stock m
  -- The reserved blocks come first, and the pages are asked for the rest only.
  have hneed : n - k ≤ supply C stock m ↔ n ≤ usable C stock m := by
    rw [hk, usable]
    split_ifs with hnil
    · rw [hnil, List.length_nil]
      omega
    · omega
  have hlen : 0 ≤ n → ((m.reservedBlocks.take (sliceIndex m.reservedBlocks k)).length : Int) +
      (n - k).toNat = n := by
    intro h0
    rw [List.length_take, sliceIndex, hk]
    split_ifs with hnil
    · rw [hnil, List.length_nil]
      omega
    · omega
    · omega
    · omega
  split at h
  case h_1 => cases h
  case h_2 e m₁ hrun =>
    cases h
    rcases hloop hrun with ⟨ids, hids, -⟩ | ⟨e', -, hlt⟩
    · cases hids
    · exact .inr ⟨e, rfl, by omega⟩
  case h_3 ret m₁ hrun =>
    cases h
    rcases hloop hrun with ⟨ids, hids, hcount, hle⟩ | ⟨e', he, -⟩
    · cases hids
      refine .inl ⟨ret, rfl, ?_, hneed.mp hle⟩
      intro h0
      have := hlen h0
      omega
    · cases he

end KvCacheManager

variable {c : PageAllocatorConfig} {resizes : Bool} {memGetInfo : System → Nat × Nat}

/-- The pages that the allocator of a process has still to issue. -/
def AllocatorProcess.stock (a : AllocatorProcess) : List PageId := a.system.stock

theorem Linked.draws (c : PageAllocatorConfig) (resizes : Bool) (memGetInfo : System → Nat × Nat) :
    (c.api memGetInfo).Draws (Linked c resizes) AllocatorProcess.stock where
  issues s p t h halloc := by
    obtain ⟨u, hu, rfl⟩ := PageAllocatorApi.logged_ok halloc
    have hcall : AllocatorProcess.allocPage c s.1 = (.ok p, u) := hu
    have hissue := AllocatorProcess.allocPage_issues h.1 (p := p) (by rw [hcall])
    rwa [hcall] at hissue
  raises s msg t h halloc := by
    obtain ⟨u, hu, rfl⟩ := PageAllocatorApi.logged_error halloc
    have hcall : AllocatorProcess.allocPage c s.1 = (.error msg, u) := hu
    exact AllocatorProcess.allocPage_raises h.1 (by rw [hcall])

theorem Targeted.draws (c : PageAllocatorConfig) (target : Int) (memGetInfo : System → Nat × Nat) :
    (c.api memGetInfo).Draws (Targeted c target) AllocatorProcess.stock :=
  ⟨fun s p t h => (Linked.draws c true memGetInfo).issues s p t h.1,
    fun s msg t h => (Linked.draws c true memGetInfo).raises s msg t h.1⟩

namespace KvCacheManager

variable {C : KvCacheManagerConfig} {m : KvCacheManager (AllocatorProcess × List PageId)}

/-- What `available_size` promises is there when no page of the stock is short of a block. -/
theorem availableSize_le_usable (hm : Linked c resizes m.pageAllocator)
    (hcounter : m.numAvailBlocks = freeIn m.availPages)
    (hpages : ∀ p ∈ m.pageAllocator.1.stock,
      ((blockRange C p).length : Int) = InternalPage.getNumBlocks C.pageSize C.blockMemSize) :
    availableSize C (c.api memGetInfo).logged m ≤ usable C AllocatorProcess.stock m := by
  have hper : 0 ≤ InternalPage.getNumBlocks C.pageSize C.blockMemSize :=
    Int.tdiv_nonneg C.pageSize_pos.le C.blockMemSize_pos.le
  have hfree : (c.api memGetInfo).logged.getNumFreePages m.pageAllocator =
      m.pageAllocator.1.stock.length := hm.1.ran.length_stock hm.1.engine
  have hcount : ∀ ps : List PageId, (∀ p ∈ ps, ((blockRange C p).length : Int) =
      InternalPage.getNumBlocks C.pageSize C.blockMemSize) →
      blockCount C ps = ps.length * InternalPage.getNumBlocks C.pageSize C.blockMemSize := by
    intro ps hps
    induction ps with
    | nil => simp [blockCount]
    | cons p ps ih =>
      rw [blockCount_cons, hps p List.mem_cons_self,
        ih fun q hq => hps q (List.mem_cons_of_mem _ hq), List.length_cons]
      push_cast
      ring
  have hstock := hcount _ hpages
  have hnonneg := blockCount_nonneg C m.pageAllocator.1.stock
  have hpredicted : ∀ k : Int, k ≤ m.pageAllocator.1.stock.length →
      k * InternalPage.getNumBlocks C.pageSize C.blockMemSize ≤
        blockCount C m.pageAllocator.1.stock := by
    intro k hk
    rw [hstock]
    exact mul_le_mul_of_nonneg_right hk hper
  unfold availableSize usable supply
  rw [hcounter, hfree]
  dsimp only
  split_ifs
  · omega
  · have := hpredicted _ le_rfl
    omega
  · have := hpredicted _ (min_le_left (m.pageAllocator.1.stock.length : Int)
      ((c.api memGetInfo).logged.getAvailPhysicalPages m.pageAllocator +
        (c.api memGetInfo).logged.getNumReservedPages m.pageAllocator))
    omega

end KvCacheManager

namespace Session

open KvCacheManager

variable {C : KvCacheManagerConfig}

/-- No limit is set in a process that no other writes limits for. -/
theorem run_targeted {schedule : List (List WorkerMove)} {acts : List ManagerAct}
    {s : Session AllocatorProcess}
    (hrun : run (step C (c.api memGetInfo)) (start (.init c schedule)) acts = some s) :
    Sound true (Targeted c (-1)) [] s.manager := by
  refine run_invariant (I := fun s => Sound true (Targeted c (-1)) [] s.manager) ?_
    (Sound.init ⟨Linked.init c true schedule, rfl⟩) hrun
  intro s act t hs h
  exact step_sound (Targeted.keeps c (-1) memGetInfo) hs (by cases act <;> trivial) h

/-- While no resize is pending, `alloc` of what `available_size` promises returns as many distinct
blocks exactly when the pages free and reserved in the allocator have them. -/
theorem alloc_exactly_iff (c : PageAllocatorConfig) (C : KvCacheManagerConfig)
    (memGetInfo : System → Nat × Nat) (schedule : List (List WorkerMove)) (acts : List ManagerAct)
    (s : Session AllocatorProcess) (n : Int)
    (hrun : run (step C (c.api memGetInfo)) (start (.init c schedule)) acts = some s)
    (hu : Along (step C (c.api memGetInfo)) (IssuesOnce C (c.api memGetInfo))
      (start (.init c schedule)) acts)
    (hissue : IssuesOnce C (c.api memGetInfo) s (.alloc n))
    (hdone : s.manager.postInitDone = true)
    (hsize : n ≤ availableSize C (c.api memGetInfo).logged s.manager) :
    (∃ ids m, alloc C (c.api memGetInfo).logged n s.manager = some (.ok (some ids), m) ∧
      (ids.length : Int) = n ∧ ids.Nodup) ↔
      0 ≤ n ∧ n ≤ usable C AllocatorProcess.stock s.manager := by
  have hsound := run_targeted hrun
  have hreturns := alloc_returns (C := C) (Targeted.keeps c (-1) memGetInfo)
    (Targeted.counts c (-1) memGetInfo) hsound hdone n
  obtain ⟨⟨r, m⟩, halloc⟩ := Option.isSome_iff_exists.mp hreturns
  have hblocks : allocBlocks C (c.api memGetInfo).logged n s.manager = some (r, m) := by
    have htarget : (c.api memGetInfo).logged.getResizeTarget s.manager.pageAllocator = -1 :=
      hsound.source.2
    unfold alloc at halloc
    rw [htarget] at halloc
    exact halloc
  have hsupply := allocBlocks_supply (Targeted.keeps c (-1) memGetInfo)
    (Targeted.draws c (-1) memGetInfo) hsound (not_lt.mpr hsize) hblocks
  constructor
  · rintro ⟨ids, m', hm', hlen, -⟩
    rw [halloc] at hm'
    cases hm'
    rcases hsupply with ⟨ids', hids, -, hle⟩ | ⟨e, he, -⟩
    · exact ⟨by omega, hle⟩
    · cases he
  · rintro ⟨h0, hle⟩
    rcases hsupply with ⟨ids, rfl, hlen, -⟩ | ⟨e, -, hlt⟩
    · refine ⟨ids, m, halloc, hlen h0, ?_⟩
      have hissued : m.IssuedOnce := by
        simpa [IssuesOnce, step, hdone, halloc] using hissue
      obtain ⟨lost, hsettled⟩ := (run_accounted hrun hu).settled
      obtain ⟨-, got, hgot, hids⟩ := alloc_settled hsettled halloc hissued
      obtain rfl : got = ids := hids _ rfl
      have hnodup := (List.nodup_append.mp hgot.consistent.nodup).2.1
      exact (List.nodup_append.mp hnodup).1
    · omega

def parkingSession : Session AllocatorProcess := start (.init parkingAllocator [])

theorem alloc_exactly_iff_parking : ∃ s ids m,
    run (step (parkingManager false) (parkingAllocator.api parkingDevice)) parkingSession
      [.postInit true] = some s ∧
      alloc (parkingManager false) (parkingAllocator.api parkingDevice).logged 3 s.manager =
        some (.ok (some ids), m) ∧ (ids.length : Int) = 3 ∧ ids.Nodup := by
  have hrun : run (step (parkingManager false) (parkingAllocator.api parkingDevice)) parkingSession
      [.postInit true] = some _ := (Option.some_get (by decide +kernel)).symm
  obtain ⟨ids, m, halloc⟩ := (alloc_exactly_iff parkingAllocator (parkingManager false)
    parkingDevice [] _ _ 3 hrun (by decide +kernel) (by decide +kernel) (by decide +kernel)
    (by decide +kernel)).mpr (by decide +kernel)
  exact ⟨_, ids, m, hrun, halloc⟩

/-- Of the four pages one has no whole block: four blocks are promised, and the allocation of four
raises after it has taken three. -/
theorem promised_blocks_missing : ∃ s,
    run (step (parkingManager false) (parkingAllocator.api parkingDevice)) parkingSession
      [.postInit true] = some s ∧
      availableSize (parkingManager false) (parkingAllocator.api parkingDevice).logged
        s.manager = 4 ∧
      (alloc (parkingManager false) (parkingAllocator.api parkingDevice).logged 4 s.manager).map
        Prod.fst = some (.error (.runtimeError "No free pages left")) := by
  have hrun : run (step (parkingManager false) (parkingAllocator.api parkingDevice)) parkingSession
      [.postInit true] = some _ := (Option.some_get (by decide +kernel)).symm
  exact ⟨_, hrun, by decide +kernel, by decide +kernel⟩

end Session

end GpuSharing.Kvcached
