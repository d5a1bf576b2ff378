import GpuSharing.Kvcached.AllocSupply
import GpuSharing.Kvcached.LimitHistory

namespace GpuSharing.Kvcached

open Transition

namespace KvCacheManager

section

variable {σ : Type} (C : KvCacheManagerConfig) (S : PageAllocatorApi σ)

/-- The limit pending cannot be met at once, and blocks are reserved. -/
def LimitRefused (m : KvCacheManager σ) : Prop :=
  0 < S.getResizeTarget m.pageAllocator ∧
    (S.resize (S.getResizeTarget m.pageAllocator) m.pageAllocator).1 = false ∧
    m.reservedBlocks ≠ []

instance (m : KvCacheManager σ) : Decidable (LimitRefused S m) := inferInstanceAs (Decidable (_ ∧ _))

/-- The manager when its allocator has answered the limit pending. -/
def serveLimit (m : KvCacheManager σ) : KvCacheManager σ :=
  let target := S.getResizeTarget m.pageAllocator
  if 0 < target then
    { m with
      pageAllocator := (S.resize target m.pageAllocator).2
      inShrink := !(S.resize target m.pageAllocator).1 }
  else m

variable {C S} {m : KvCacheManager σ}

theorem serveLimit_none (h : S.getResizeTarget m.pageAllocator ≤ 0) : serveLimit S m = m :=
  if_neg (not_lt.mpr h)

/-- Everything `_alloc` does before its check of `available_size`. -/
theorem alloc_limit (hdone : 0 < S.getResizeTarget m.pageAllocator → m.postInitDone = true)
    (n : Int) :
    (LimitRefused S m ∧ alloc C S n m =
      some (.error (.assertionError "Reserved blocks must be freed before resizing."),
        { m with pageAllocator :=
          (S.resize (S.getResizeTarget m.pageAllocator) m.pageAllocator).2 })) ∨
    (¬LimitRefused S m ∧ ∃ target, alloc C S n m =
      allocBlocks C S n { serveLimit S m with targetNumBlocks := target }) := by
  unfold alloc LimitRefused serveLimit
  generalize S.getResizeTarget m.pageAllocator = target at *
  dsimp only
  by_cases hpos : 0 < target
  · rw [if_pos hpos, if_pos hpos, if_pos (hdone hpos)]
    unfold resize
    rw [if_neg (not_le.mpr hpos)]
    cases S.resize target m.pageAllocator with
    | mk ok s =>
      cases ok with
      | true =>
        refine .inr ⟨by simp, if m.inShrink then none else m.targetNumBlocks, ?_⟩
        by_cases hshrink : m.inShrink = true
        · simp [hshrink]
        · simp [hshrink]
      | false =>
        by_cases hnil : m.reservedBlocks = []
        · refine .inr ⟨by simp [hnil], some (target / C.blockMemSize), ?_⟩
          dsimp only
          rw [if_neg (not_not.mpr hnil), freeReserved_nil]
          · rfl
          · exact hnil
        · refine .inl ⟨⟨hpos, rfl, hnil⟩, ?_⟩
          dsimp only
          rw [if_pos hnil]
  · rw [if_neg hpos, if_neg hpos]
    exact .inr ⟨fun h => hpos h.1, m.targetNumBlocks, rfl⟩

end

variable {c : PageAllocatorConfig} {C : KvCacheManagerConfig} {memGetInfo : System → Nat × Nat}
  {m : KvCacheManager (AllocatorProcess × List PageId)}

theorem serveLimit_sound {S : PageAllocatorApi AllocatorProcess}
    {I : AllocatorProcess × List PageId → Prop} (hS : S.Keeps true I) (hm : Sound true I [] m)
    (target : Option Int) :
    Sound true I [] { serveLimit S.logged m with targetNumBlocks := target } := by
  have hI := hS.resize rfl (S.logged.getResizeTarget m.pageAllocator) _ hm.source
  unfold serveLimit
  dsimp only
  split_ifs
  · exact hm.reshrink hI (by simp) rfl
  · exact hm.relabel hm.source rfl

/-- How an `alloc` ends: the limit pending is refused over reserved blocks, or it is served and then
`available_size` is too small, the blocks are there, or they are not. -/
inductive LimitedAlloc (C : KvCacheManagerConfig)
    (S : PageAllocatorApi (AllocatorProcess × List PageId)) (n : Int)
    (m : KvCacheManager (AllocatorProcess × List PageId)) : Prop
  | refused (e : PyError) (m' : KvCacheManager (AllocatorProcess × List PageId))
      (hrefused : LimitRefused S m) (halloc : alloc C S n m = some (.error e, m'))
  | short (m' : KvCacheManager (AllocatorProcess × List PageId)) (hserved : ¬LimitRefused S m)
      (hsize : availableSize C S (serveLimit S m) < n) (halloc : alloc C S n m = some (.ok none, m'))
  | grants (ids : List BlockId) (m' : KvCacheManager (AllocatorProcess × List PageId))
      (hserved : ¬LimitRefused S m) (hsize : n ≤ availableSize C S (serveLimit S m))
      (hle : n ≤ usable C AllocatorProcess.stock (serveLimit S m))
      (halloc : alloc C S n m = some (.ok (some ids), m'))
      (hlen : 0 ≤ n → (ids.length : Int) = n)
  | lacks (e : PyError) (m' : KvCacheManager (AllocatorProcess × List PageId))
      (hserved : ¬LimitRefused S m) (hsize : n ≤ availableSize C S (serveLimit S m))
      (hlt : usable C AllocatorProcess.stock (serveLimit S m) < n)
      (halloc : alloc C S n m = some (.error e, m'))

theorem alloc_limited (C : KvCacheManagerConfig) (memGetInfo : System → Nat × Nat) {target : Int}
    (hm : Sound true (Targeted c target) [] m) (hdone : m.postInitDone = true) (n : Int) :
    LimitedAlloc C (c.api memGetInfo).logged n m := by
  have hK := Targeted.keeps c target memGetInfo
  rcases alloc_limit (C := C) (S := (c.api memGetInfo).logged) (fun _ => hdone) n with
    ⟨hrefused, halloc⟩ | ⟨hserved, limit, halloc⟩
  · exact .refused _ _ hrefused halloc
  · have hsound := serveLimit_sound hK hm limit
    have hsize : availableSize C (c.api memGetInfo).logged
        { serveLimit (c.api memGetInfo).logged m with targetNumBlocks := limit } =
          availableSize C (c.api memGetInfo).logged (serveLimit (c.api memGetInfo).logged m) := rfl
    have husable : usable C AllocatorProcess.stock
        { serveLimit (c.api memGetInfo).logged m with targetNumBlocks := limit } =
          usable C AllocatorProcess.stock (serveLimit (c.api memGetInfo).logged m) := rfl
    by_cases hshort : availableSize C (c.api memGetInfo).logged
        (serveLimit (c.api memGetInfo).logged m) < n
    · exact .short _ hserved hshort (halloc.trans (if_pos hshort))
    · obtain ⟨⟨r, m'⟩, hblocks⟩ := Option.isSome_iff_exists.mp
        (allocBlocks_returns (C := C) hK (Targeted.counts c target memGetInfo) hsound n)
      rw [hblocks] at halloc
      rw [← hsize] at hshort
      rcases allocBlocks_supply hK (Targeted.draws c target memGetInfo) hsound hshort hblocks with
        ⟨ids, rfl, hlen, hle⟩ | ⟨e, rfl, hlt⟩
      · exact .grants ids m' hserved (not_lt.mp hshort) (husable ▸ hle) halloc hlen
      · exact .lacks e m' hserved (not_lt.mp hshort) (husable ▸ hlt) halloc

/-- Without reserved blocks no limit is refused: `alloc` hands out `n` blocks exactly when, with the
limit pending served, it has promised them and they are there. -/
theorem alloc_grants_iff (C : KvCacheManagerConfig) (memGetInfo : System → Nat × Nat)
    {target : Int} (hm : Sound true (Targeted c target) [] m) (hdone : m.postInitDone = true)
    (hnil : m.reservedBlocks = []) (n : Int) :
    (∃ ids m', alloc C (c.api memGetInfo).logged n m = some (.ok (some ids), m') ∧
      (ids.length : Int) = n) ↔
      0 ≤ n ∧
      n ≤ availableSize C (c.api memGetInfo).logged (serveLimit (c.api memGetInfo).logged m) ∧
      n ≤ usable C AllocatorProcess.stock (serveLimit (c.api memGetInfo).logged m) := by
  cases alloc_limited C memGetInfo hm hdone n with
  | refused e m' hrefused halloc => exact absurd hnil hrefused.2.2
  | short m' hserved hsize halloc =>
    refine iff_of_false ?_ fun h => not_lt.mpr h.2.1 hsize
    rw [halloc]
    simp
  | lacks e m' hserved hsize hlt halloc =>
    refine iff_of_false ?_ fun h => not_lt.mpr h.2.2 hlt
    rw [halloc]
    simp
  | grants ids m' hserved hsize hle halloc hlen =>
    constructor
    · rintro ⟨ids', m₁, halloc', hlen'⟩
      exact ⟨hlen' ▸ Int.natCast_nonneg _, hsize, hle⟩
    · rintro ⟨h0, -, -⟩
      exact ⟨ids, m', halloc, hlen h0⟩

end KvCacheManager

namespace LimitedGroup

open KvCacheManager

/-- `alloc` returns the blocks or `None`, whatever limits were written, exactly when the limit pending
is not refused over reserved blocks, and what `available_size` then promises is there. -/
theorem alloc_never_raises_iff (names : IpcNames) (C : KvCacheManagerConfig)
    (c : PageAllocatorConfig) (schedule : List (List WorkerMove)) (shm : Shm)
    (acts : List LimitAct) (s : LimitedGroup)
    (hrun : run step (start names C c schedule shm) acts = some s)
    (hdone : s.group.session.manager.postInitDone = true) (memGetInfo : System → Nat × Nat)
    (n : Int) :
    (∃ r m, alloc C (c.api memGetInfo).logged n s.group.session.manager = some (.ok r, m) ∧
      ∀ ids, r = some ids → 0 ≤ n → (ids.length : Int) = n) ↔
      ¬LimitRefused (c.api memGetInfo).logged s.group.session.manager ∧
      (availableSize C (c.api memGetInfo).logged
          (serveLimit (c.api memGetInfo).logged s.group.session.manager) < n ∨
        n ≤ usable C AllocatorProcess.stock
          (serveLimit (c.api memGetInfo).logged s.group.session.manager)) := by
  obtain ⟨target, hserved⟩ : ∃ target, Sound true (Targeted c target) [] s.group.session.manager := by
    have hkept := run_kept (start_kept names C c schedule shm) hrun
    obtain ⟨target, hserved⟩ := hkept.served
    exact ⟨target, hkept.config ▸ hserved⟩
  cases alloc_limited C memGetInfo hserved hdone n with
  | refused e m' hrefused halloc =>
    refine iff_of_false ?_ fun h => h.1 hrefused
    rw [halloc]
    simp
  | short m' hserve hsize halloc =>
    exact iff_of_true ⟨none, m', halloc, by simp⟩ ⟨hserve, .inl hsize⟩
  | grants ids m' hserve hsize hle halloc hlen =>
    refine iff_of_true ⟨some ids, m', halloc, ?_⟩ ⟨hserve, .inr hle⟩
    rintro ids' ⟨⟩
    exact hlen
  | lacks e m' hserve hsize hlt halloc =>
    refine iff_of_false ?_ fun h => h.2.elim (not_lt.mpr hsize) (not_le.mpr hlt)
    rw [halloc]
    simp

/-- The limit halved is met, and three blocks are there. -/
theorem alloc_never_raises_iff_halved : ∃ s r m,
    run step eightPagesStart halved = some s ∧
      alloc eightPagesManager (eightPages.api eightPagesDevice).logged 3
        s.group.session.manager = some (.ok r, m) ∧
      ∀ ids, r = some ids → (0 : Int) ≤ 3 → (ids.length : Int) = 3 := by
  have hrun : run step eightPagesStart halved = some _ := (Option.some_get (by decide +kernel)).symm
  obtain ⟨r, m, halloc⟩ := (alloc_never_raises_iff eightPagesNames eightPagesManager eightPages []
    (fun _ => none) halved _ hrun (by decide +kernel) eightPagesDevice 3).mpr (by decide +kernel)
  exact ⟨_, r, m, hrun, halloc⟩

/-- Four blocks are reserved when the limit drops to one page. -/
def cutBelowReserved : List LimitAct :=
  [.group (.call eightPagesDevice (.postInit true)),
    .group (.call eightPagesDevice (.tryToReserve 4)), .writeLimit (2 * 2^21), .group .poll]

/-- The resize that `alloc` runs then stops at its assertion. -/
theorem reserved_blocks_stop_alloc : ∃ s,
    run step eightPagesStart cutBelowReserved = some s ∧
      s.group.session.manager.postInitDone = true ∧
      (alloc eightPagesManager (eightPages.api eightPagesDevice).logged 1
        s.group.session.manager).map Prod.fst =
        some (.error (.assertionError "Reserved blocks must be freed before resizing.")) := by
  have hrun : run step eightPagesStart cutBelowReserved = some _ :=
    (Option.some_get (by decide +kernel)).symm
  exact ⟨_, hrun, by decide +kernel, by decide +kernel⟩

end LimitedGroup

end GpuSharing.Kvcached
