import GpuSharing.Integration.VllmPrefixCache
import GpuSharing.Lib.LastUse

namespace GpuSharing.Integration.ElasticBlockPool

open Kvcached Transition LastUse

variable {μ : Type}

/-- The blocks whose `ref_cnt` reaches 0 in the loop of `free_blocks`, in turn. -/
def released : List (Option BlockId) → ElasticBlockPool μ → List BlockId
  | [], _ => []
  | none :: blocks, p => released blocks p
  | some b :: blocks, p =>
    if b = p.nullBlock then released blocks p
    else if p.refCnt b - 1 = 0 then b :: released blocks (setRefCnt b (p.refCnt b - 1) p)
    else released blocks (setRefCnt b (p.refCnt b - 1) p)

def releases (c : ElasticBlockPoolConfig) (p : ElasticBlockPool μ) : BlockPoolAct → List BlockId
  | .freeBlocks blocks => if c.enablePrefixCache then released blocks p else []
  | _ => []

/-- A pool with the log of its releases, the oldest first. -/
structure LoggedPool (μ : Type) where
  pool : ElasticBlockPool μ
  log : List BlockId

def LoggedPool.step (c : ElasticBlockPoolConfig) (M : BlockManagerApi μ) (s : LoggedPool μ)
    (act : BlockPoolAct) : Option (LoggedPool μ) :=
  (ElasticBlockPool.step c M s.pool act).map fun p => ⟨p, s.log ++ releases c s.pool act⟩

/-- The evictable blocks before the call evicts any: those at its start, and for `free_blocks` those
that it has retained. -/
def beforeEviction (c : ElasticBlockPoolConfig) (p : ElasticBlockPool μ) :
    BlockPoolAct → List BlockId
  | .freeBlocks blocks =>
    if c.enablePrefixCache then (releaseLoop blocks [] p).2.evictableBlocks else p.evictableBlocks
  | _ => p.evictableBlocks

/-- What `get_new_blocks` and `free_blocks` evict was last released before what they leave. -/
def EvictsOldest (c : ElasticBlockPoolConfig) (M : BlockManagerApi μ) (s : LoggedPool μ)
    (act : BlockPoolAct) : Prop :=
  (∃ n, act = .getNewBlocks n) ∨ (∃ blocks, act = .freeBlocks blocks) →
    ∀ t, s.step c M act = some t → ∀ a ∈ beforeEviction c s.pool act,
      a ∉ t.pool.evictableBlocks → ∀ b ∈ t.pool.evictableBlocks, Before t.log a b

/-- No more blocks are evictable after the call than the cap allows. -/
def KeepsCap (c : ElasticBlockPoolConfig) (M : BlockManagerApi μ) (s : LoggedPool μ)
    (act : BlockPoolAct) : Prop :=
  ∀ t, s.step c M act = some t → t.pool.evictableBlocks.length ≤ c.maxCachedBlocks

/-- When `free_blocks` has more blocks evictable than the cap allows, the manager takes the uncached
ones back without raising. -/
def FreesUncached (c : ElasticBlockPoolConfig) (M : BlockManagerApi μ) (s : LoggedPool μ) :
    BlockPoolAct → Prop
  | .freeBlocks blocks => c.enablePrefixCache = true →
      let r := releaseLoop blocks [] s.pool
      r.2.evictableBlocks.length ≤ c.maxCachedBlocks ∨ (giveBackAny M r.1 r.2).1.isOk = true
  | _ => True

/-- Only blocks that are allocated are touched. -/
def TouchesAllocated (s : LoggedPool μ) : BlockPoolAct → Prop
  | .touch (.inl blocks) => ∀ b ∈ blocks, b ∈ allocated s.pool.history
  | .touch (.inr blocks) => ∀ bs ∈ blocks, ∀ b ∈ bs, b ∈ allocated s.pool.history
  | _ => True

instance (s : LoggedPool μ) (act : BlockPoolAct) : Decidable (TouchesAllocated s act) := by
  unfold TouchesAllocated
  split <;> infer_instance

instance (c : ElasticBlockPoolConfig) (M : BlockManagerApi μ) (s : LoggedPool μ)
    (act : BlockPoolAct) : Decidable (FreesUncached c M s act) := by
  unfold FreesUncached
  split <;> infer_instance

/-- The evictable blocks are in the order of their last releases, and neither they nor the blocks that
a call is to give back are in use. -/
structure Ordered (log pending : List BlockId) (p : ElasticBlockPool μ) : Prop where
  order : InOrder log p.evictableBlocks
  idle : ∀ b ∈ p.evictableBlocks, p.refCnt b ≤ 0
  lent : ∀ b ∈ p.evictableBlocks, b ∈ allocated p.history
  held : ∀ b, 1 ≤ p.refCnt b → b ∈ allocated p.history
  pending_idle : ∀ b ∈ pending, p.refCnt b ≤ 0
  pending_out : ∀ b ∈ pending, b ∉ p.evictableBlocks

variable {c : ElasticBlockPoolConfig} {M : BlockManagerApi μ} {p p' : ElasticBlockPool μ}
  {log pending : List BlockId} {b : BlockId}

section Evictable

theorem evictLoop_evictable (n : Nat) (ids : List BlockId) (p : ElasticBlockPool μ) :
    (evictLoop n ids p).2.evictableBlocks = p.evictableBlocks.drop n := by
  induction n generalizing ids p with
  | zero => rfl
  | succ n ih =>
    unfold evictLoop
    split
    case h_1 hnil => simp [hnil]
    case h_2 b rest hcons => rw [ih, dropKey_evictable, hcons, List.drop_succ_cons]

theorem giveBackAny_evictable (ids : List BlockId) (p : ElasticBlockPool μ) :
    (giveBackAny M ids p).2.evictableBlocks = p.evictableBlocks := (giveBackAny_frame ids p).2

theorem evictBlocksFromPool_evictable (n : Int) (p : ElasticBlockPool μ) :
    (evictBlocksFromPool M n p).2.evictableBlocks =
      p.evictableBlocks.drop (min n p.evictableBlocks.length).toNat := by
  rw [evictBlocksFromPool, giveBackAny_evictable, evictLoop_evictable]

theorem makeRoom_evictable (n : Int) (p : ElasticBlockPool μ) :
    ∃ k, (makeRoom c M n p).2.evictableBlocks = p.evictableBlocks.drop k := by
  rcases makeRoom_cases (c := c) (M := M) n p with h | ⟨k, h⟩
  · exact ⟨0, by rw [h, List.drop_zero]⟩
  · exact ⟨_, by rw [h, evictBlocksFromPool_evictable]⟩

theorem trimCache_evictable (p : ElasticBlockPool μ) :
    ∃ k, (trimCache c M p).2.evictableBlocks = p.evictableBlocks.drop k := by
  rcases trimCache_cases (c := c) (M := M) p with h | ⟨k, h⟩
  · exact ⟨0, by rw [h, List.drop_zero]⟩
  · exact ⟨_, by rw [h, evictBlocksFromPool_evictable]⟩

/-- The oldest blocks go, until as many are left as the cap says. -/
theorem trimCache_cap (hcap : 0 ≤ c.maxCachedBlocks) (p : ElasticBlockPool μ) :
    ((trimCache c M p).2.evictableBlocks.length : Int) ≤ c.maxCachedBlocks := by
  unfold trimCache
  split_ifs with hover
  · rw [evictBlocksFromPool_evictable, List.length_drop]
    omega
  · exact Int.not_lt.mp fun hlt => hover ⟨hcap, hlt⟩

theorem getNewBlocks_evictable {n : Int} {r : Except BlockPoolError (List BlockId)}
    (h : getNewBlocks c M n p = some (r, p')) :
    ∃ k, p'.evictableBlocks = p.evictableBlocks.drop k := by
  rcases getNewBlocks_cases h with rfl | rfl | h
  · exact ⟨0, List.drop_zero.symm⟩
  · exact makeRoom_evictable n p
  · obtain ⟨hframe, -⟩ := allocBlocks_frame h
    simp only [Prod.mk.injEq] at hframe
    rw [hframe.2.2.2]
    exact makeRoom_evictable n p

theorem dropLoop_evictable (bids ids : List BlockId) (p : ElasticBlockPool μ) :
    (dropLoop bids ids p).2.evictableBlocks.Sublist p.evictableBlocks := by
  refine dropLoop_rule (Q := fun _ q => q.evictableBlocks.Sublist p.evictableBlocks) ?_ ?_ bids ids
    (List.Sublist.refl _)
  · exact fun _ _ _ _ hq => List.erase_sublist.trans hq
  · intro _ q b _ hq
    rwa [dropKey_evictable]

/-- Only `free_blocks` makes blocks evictable. -/
theorem step_evictable {act : BlockPoolAct} (h : step c M p act = some p')
    (hact : ∀ blocks, act ≠ .freeBlocks blocks) :
    p'.evictableBlocks.Sublist p.evictableBlocks := by
  cases act with
  | getNewBlocks n =>
    obtain ⟨⟨r, q⟩, hget, rfl⟩ := Option.map_eq_some_iff.mp h
    obtain ⟨k, hk⟩ := getNewBlocks_evictable hget
    exact hk ▸ List.drop_sublist _ _
  | cacheFullBlocks call =>
    cases h
    refine cacheFullBlocks_rule
      (Q := fun q => q.evictableBlocks.Sublist p.evictableBlocks) ?_ call (List.Sublist.refl _)
    rintro q q' hq ⟨⟩
    exact hq
  | touch blocks =>
    cases h
    exact touch_rule (Q := fun q => q.evictableBlocks.Sublist p.evictableBlocks)
      (fun q b hq => List.erase_sublist.trans hq) blocks (List.Sublist.refl _)
  | freeBlocks blocks => exact absurd rfl (hact blocks)
  | evictBlocks ids =>
    cases h
    unfold evictBlocks
    split_ifs
    · dsimp only
      rw [giveBackAny_evictable]
      exact dropLoop_evictable _ _ _
    · exact List.Sublist.refl _
  | resetPrefixCache =>
    cases h
    unfold resetPrefixCache
    split_ifs
    · have hgive := giveBackAny_evictable (M := M) p.evictableBlocks { p with evictableBlocks := [] }
      split
      case h_1 e q hq =>
        rw [hq] at hgive
        have hnil : q.evictableBlocks = [] := hgive
        simp [hnil]
      case h_2 q hq =>
        rw [hq] at hgive
        have hnil : q.evictableBlocks = [] := hgive
        simp [hnil]
    · exact List.Sublist.refl _
  | background =>
    cases h
    exact List.Sublist.refl _

theorem freeBlocks_evictable (blocks : List (Option BlockId)) (p : ElasticBlockPool μ) :
    ∃ k, (freeBlocks c M blocks p).2.evictableBlocks =
      (beforeEviction c p (.freeBlocks blocks)).drop k := by
  unfold freeBlocks beforeEviction
  split_ifs
  · dsimp only
    have hgive := giveBackAny_evictable (M := M) (releaseLoop blocks [] p).1 (releaseLoop blocks [] p).2
    split
    case h_1 e q hq =>
      rw [hq] at hgive
      exact ⟨0, hgive.trans List.drop_zero.symm⟩
    case h_2 q hq =>
      rw [hq] at hgive
      obtain ⟨k, hk⟩ := trimCache_evictable (c := c) (M := M) q
      exact ⟨k, by rw [hk, hgive]⟩
  · exact ⟨0, by rw [giveBackAny_evictable, List.drop_zero]⟩

end Evictable

theorem released_congr (blocks : List (Option BlockId))
    (hsame : (p'.refCnt, p'.nullBlock) = (p.refCnt, p.nullBlock)) :
    released blocks p' = released blocks p := by
  simp only [Prod.mk.injEq] at hsame
  obtain ⟨hrefs, hnull⟩ := hsame
  induction blocks generalizing p p' with
  | nil => rfl
  | cons block blocks ih =>
    cases block with
    | none => exact ih hrefs hnull
    | some b =>
      have hrest : released blocks (setRefCnt b (p.refCnt b - 1) p') =
          released blocks (setRefCnt b (p.refCnt b - 1) p) :=
        ih (by rw [setRefCnt, setRefCnt, hrefs]) hnull
      rw [released, released, hrefs, hnull, hrest, ih hrefs hnull]

namespace Ordered

theorem congr (h : Ordered log pending p)
    (hsame : (p'.refCnt, p'.evictableBlocks) = (p.refCnt, p.evictableBlocks))
    (hallocated : ∀ b, b ∈ allocated p.history → b ∈ allocated p'.history) :
    Ordered log pending p' := by
  simp only [Prod.mk.injEq] at hsame
  obtain ⟨hrefs, hevictable⟩ := hsame
  constructor
  · exact hevictable ▸ h.order
  · exact hrefs ▸ hevictable ▸ h.idle
  · exact fun b hb => hallocated b (h.lent b (hevictable ▸ hb))
  · exact fun b hb => hallocated b (h.held b (hrefs ▸ hb))
  · exact hrefs ▸ h.pending_idle
  · exact hevictable ▸ h.pending_out

theorem giveBackAny (h : Ordered log pending p) :
    Ordered log [] (giveBackAny M pending p).2 := by
  have hnone : Ordered log [] p := ⟨h.order, h.idle, h.lent, h.held, by simp, by simp⟩
  unfold ElasticBlockPool.giveBackAny
  split_ifs
  · exact hnone
  · have hkept : ∀ b, b ∉ pending → b ∈ allocated p.history →
        b ∈ allocated (giveBack M pending p).2.history := by
      intro b hb hin
      rw [giveBack, allocated_returned]
      exact List.mem_diff_of_mem hin hb
    refine ⟨h.order, h.idle, fun b hb => ?_, fun b hb => ?_, by simp, by simp⟩
    · exact hkept b (fun hp => h.pending_out b hp hb) (h.lent b hb)
    · have hrefs : 1 ≤ p.refCnt b := hb
      refine hkept b (fun hp => ?_) (h.held b hb)
      have := h.pending_idle b hp
      omega

/-- An evictable block loses its key and is to be given back. -/
theorem evict (h : Ordered log pending p) (hb : b ∈ p.evictableBlocks) :
    Ordered log (pending ++ [b])
      { dropKey b p with evictableBlocks := p.evictableBlocks.erase b } where
  order := h.order.sublist List.erase_sublist
  idle b' hb' := by simpa using h.idle b' (List.mem_of_mem_erase hb')
  lent b' hb' := by simpa using h.lent b' (List.mem_of_mem_erase hb')
  held := by simpa using h.held
  pending_idle b' hb' := by
    rw [dropKey_refCnt]
    rcases List.mem_append.mp hb' with hb' | hb'
    · exact h.pending_idle b' hb'
    · rw [List.mem_singleton.mp hb']
      exact h.idle b hb
  pending_out b' hb' hin := by
    rcases List.mem_append.mp hb' with hb' | hb'
    · exact h.pending_out b' hb' (List.mem_of_mem_erase hin)
    · rw [List.mem_singleton.mp hb'] at hin
      exact h.order.nodup.not_mem_erase hin

theorem dropKey (h : Ordered log pending p) (b : BlockId) : Ordered log pending (dropKey b p) :=
  h.congr (by simp) (by simp)

theorem evictLoop (n : Nat) (h : Ordered log pending p) :
    Ordered log (evictLoop n pending p).1 (evictLoop n pending p).2 :=
  evictLoop_rule (fun _ _ _ hb hq => hq.evict hb) n pending h

theorem evictBlocksFromPool (h : Ordered log [] p) (n : Int) :
    Ordered log [] (evictBlocksFromPool M n p).2 := (h.evictLoop _).giveBackAny

theorem dropLoop (bids : List BlockId) (h : Ordered log pending p) :
    Ordered log (dropLoop bids pending p).1 (dropLoop bids pending p).2 :=
  dropLoop_rule (fun _ _ _ hb hq => hq.evict hb) (fun _ _ b _ hq => hq.dropKey b) bids pending h

theorem makeRoom (h : Ordered log [] p) (n : Int) : Ordered log [] (makeRoom c M n p).2 := by
  rcases makeRoom_cases (c := c) (M := M) n p with heq | ⟨k, heq⟩
  · rw [heq]
    exact h
  · rw [heq]
    exact h.evictBlocksFromPool k

theorem trimCache (h : Ordered log [] p) : Ordered log [] (trimCache c M p).2 := by
  rcases trimCache_cases (c := c) (M := M) p with heq | ⟨k, heq⟩
  · rw [heq]
    exact h
  · rw [heq]
    exact h.evictBlocksFromPool k

/-- A `ref_cnt` goes down. -/
theorem release (h : Ordered log pending p) (b : BlockId) :
    Ordered log pending (setRefCnt b (p.refCnt b - 1) p) := by
  have hle : ∀ b', (setRefCnt b (p.refCnt b - 1) p).refCnt b' ≤ p.refCnt b' := by
    intro b'
    change Function.update p.refCnt b (p.refCnt b - 1) b' ≤ _
    by_cases heq : b' = b
    · subst heq
      rw [Function.update_self]
      omega
    · rw [Function.update_of_ne heq]
  exact ⟨h.order, fun b' hb' => (hle b').trans (h.idle b' hb'), h.lent,
    fun b' hb' => h.held b' (hb'.trans (hle b')),
    fun b' hb' => (hle b').trans (h.pending_idle b' hb'), h.pending_out⟩

theorem release_self (hone : p.refCnt b = 1) :
    (setRefCnt b (p.refCnt b - 1) p).refCnt b ≤ 0 := by
  change Function.update p.refCnt b (p.refCnt b - 1) b ≤ 0
  rw [Function.update_self]
  omega

/-- A block in use is neither evictable nor among those to give back. -/
theorem notMem (h : Ordered log pending p) (hone : p.refCnt b = 1) :
    b ∉ p.evictableBlocks ∧ b ∉ pending := by
  constructor
  · intro hin
    have := h.idle b hin
    omega
  · intro hin
    have := h.pending_idle b hin
    omega

/-- The last reference to a cached block goes. -/
theorem retain (h : Ordered log pending p) (hone : p.refCnt b = 1) :
    Ordered (log ++ [b]) pending { setRefCnt b (p.refCnt b - 1) p with
      evictableBlocks := p.evictableBlocks ++ [b] } := by
  obtain ⟨hout, hpending⟩ := h.notMem hone
  have hrel := h.release b
  refine ⟨h.order.push hout, fun b' hb' => ?_, fun b' hb' => ?_, hrel.held, hrel.pending_idle,
    fun b' hb' hin => ?_⟩
  · rcases List.mem_append.mp hb' with hb' | hb'
    · exact hrel.idle b' hb'
    · rw [List.mem_singleton.mp hb']
      exact release_self hone
  · rcases List.mem_append.mp hb' with hb' | hb'
    · exact h.lent b' hb'
    · rw [List.mem_singleton.mp hb']
      exact h.held b hone.ge
  · rcases List.mem_append.mp hin with hin | hin
    · exact h.pending_out b' hb' hin
    · exact hpending (List.mem_singleton.mp hin ▸ hb')

/-- The last reference to a block without a key goes. -/
theorem discard (h : Ordered log pending p) (hone : p.refCnt b = 1) :
    Ordered (log ++ [b]) (pending ++ [b]) (setRefCnt b (p.refCnt b - 1) p) := by
  obtain ⟨hout, -⟩ := h.notMem hone
  have hrel := h.release b
  refine ⟨h.order.use hout, hrel.idle, h.lent, hrel.held, fun b' hb' => ?_, fun b' hb' hin => ?_⟩
  · rcases List.mem_append.mp hb' with hb' | hb'
    · exact hrel.pending_idle b' hb'
    · rw [List.mem_singleton.mp hb']
      exact release_self hone
  · rcases List.mem_append.mp hb' with hb' | hb'
    · exact h.pending_out b' hb' hin
    · exact hout (List.mem_singleton.mp hb' ▸ hin)

theorem releaseLoop (blocks : List (Option BlockId)) (h : Ordered log pending p) :
    Ordered (log ++ released blocks p) (releaseLoop blocks pending p).1
      (releaseLoop blocks pending p).2 := by
  induction blocks generalizing log pending p with
  | nil => simpa [released, ElasticBlockPool.releaseLoop] using h
  | cons block blocks ih =>
    cases block with
    | none => exact ih h
    | some b =>
      rw [ElasticBlockPool.releaseLoop, released]
      by_cases hnull : b = p.nullBlock
      · rw [if_pos hnull, if_pos hnull]
        exact ih h
      rw [if_neg hnull, if_neg hnull]
      by_cases hlast : p.refCnt b - 1 = 0
      case neg =>
        rw [if_neg hlast, if_neg hlast]
        exact ih (h.release b)
      have hone : p.refCnt b = 1 := by omega
      rw [if_pos hlast, if_pos hlast, List.append_cons]
      split
      case isTrue hkey =>
        rw [if_neg (h.notMem hone).1]
        have hloop := ih (h.retain hone)
        have hsame : released blocks { setRefCnt b (p.refCnt b - 1) p with
            evictableBlocks := p.evictableBlocks ++ [b] } =
            released blocks (setRefCnt b (p.refCnt b - 1) p) := released_congr blocks rfl
        rwa [hsame] at hloop
      case isFalse => exact ih (h.discard hone)

theorem touchBlock (h : Ordered log [] p) (hb : b ∈ allocated p.history) :
    Ordered log [] (touchBlock p b) := by
  have hrefs : ∀ b', b' ≠ b → (ElasticBlockPool.touchBlock p b).refCnt b' = p.refCnt b' :=
    fun b' hne => Function.update_of_ne hne ..
  refine ⟨h.order.sublist List.erase_sublist, fun b' hb' => ?_, fun b' hb' => ?_, fun b' hb' => ?_,
    by simp, by simp⟩
  · obtain ⟨hne, hin⟩ := h.order.nodup.mem_erase_iff.mp hb'
    rw [hrefs b' hne]
    exact h.idle b' hin
  · exact h.lent b' (List.mem_of_mem_erase hb')
  · by_cases heq : b' = b
    · exact heq ▸ hb
    · rw [hrefs b' heq] at hb'
      exact h.held b' hb'

theorem touchList (bs : List BlockId) (h : Ordered log [] p)
    (hbs : ∀ b ∈ bs, b ∈ allocated p.history) :
    Ordered log [] (bs.foldl ElasticBlockPool.touchBlock p) := by
  induction bs generalizing p with
  | nil => exact h
  | cons b bs ih =>
    exact ih (h.touchBlock (hbs b List.mem_cons_self)) fun b' hb' =>
      hbs b' (List.mem_cons_of_mem _ hb')

theorem touch {blocks : List BlockId ⊕ List (List BlockId)} (h : Ordered log [] p)
    (htouch : TouchesAllocated ⟨p, log⟩ (.touch blocks)) : Ordered log [] (touch c blocks p) := by
  unfold ElasticBlockPool.touch
  split_ifs
  · cases blocks with
    | inl bs => exact h.touchList bs htouch
    | inr bss =>
      have hhistory : ∀ (bs : List BlockId) (q : ElasticBlockPool μ),
          (bs.foldl ElasticBlockPool.touchBlock q).history = q.history := by
        intro bs
        induction bs with
        | nil => exact fun _ => rfl
        | cons b bs ih => exact fun q => ih (ElasticBlockPool.touchBlock q b)
      dsimp only
      induction bss generalizing p with
      | nil => exact h
      | cons bs bss ih =>
        refine ih (h.touchList bs (htouch bs List.mem_cons_self)) fun bs' hbs' b hb => ?_
        dsimp only
        rw [hhistory]
        exact htouch bs' (List.mem_cons_of_mem _ hbs') b hb
  · exact h

theorem freeBlocks (henable : c.enablePrefixCache = true) (blocks : List (Option BlockId))
    (h : Ordered log [] p) : Ordered (log ++ releases c p (.freeBlocks blocks)) [] (freeBlocks c M blocks p).2 := by
  have hgive := (h.releaseLoop blocks).giveBackAny (M := M)
  have hreleases : releases c p (.freeBlocks blocks) = released blocks p := if_pos henable
  unfold ElasticBlockPool.freeBlocks
  rw [if_pos henable, hreleases]
  dsimp only
  split
  case h_1 e q hq =>
    rw [hq] at hgive
    exact hgive
  case h_2 q hq =>
    rw [hq] at hgive
    exact hgive.trimCache

theorem evictBlocks (h : Ordered log [] p) (ids : List BlockId) :
    Ordered log [] (evictBlocks c M ids p).2 := by
  unfold ElasticBlockPool.evictBlocks
  split_ifs
  · exact (h.dropLoop ids).giveBackAny
  · exact h

theorem resetPrefixCache (h : Ordered log [] p) : Ordered log [] (resetPrefixCache c M p).2 := by
  have hempty : Ordered log p.evictableBlocks { p with evictableBlocks := [] } :=
    ⟨.nil log, by simp, by simp, h.held, h.idle, by simp⟩
  have hgive := hempty.giveBackAny (M := M)
  unfold ElasticBlockPool.resetPrefixCache
  split_ifs
  · split
    case h_1 e q hq =>
      rw [hq] at hgive
      exact hgive
    case h_2 q hq =>
      rw [hq] at hgive
      exact hgive.congr rfl fun _ hb => hb
  · exact h

theorem cacheFullBlocks (h : Ordered log [] p) (call : CacheCall) :
    Ordered log [] (cacheFullBlocks c call p).2 := by
  refine cacheFullBlocks_rule (fun q q' hq hs => ?_) call h
  cases hs
  exact hq.congr rfl fun _ hb => hb

/-- The blocks that `alloc` hands out were not allocated, so none is evictable. -/
theorem issue (h : Ordered log [] p) {ids : List BlockId}
    (hhistory : p'.history = (ids.map .issued).reverse ++ p.history)
    (hevictable : p'.evictableBlocks = p.evictableBlocks) (hfresh : IssuedFresh p'.history)
    (hrefs : ∀ b, p'.refCnt b = p.refCnt b ∨ b ∈ ids) : Ordered log [] p' := by
  have hallocated : ∀ b, b ∈ allocated p'.history ↔ b ∈ ids ∨ b ∈ allocated p.history := by
    intro b
    rw [hhistory, allocated_issued, List.mem_append, List.mem_reverse]
  refine ⟨hevictable ▸ h.order, fun b hb => ?_, fun b hb => ?_, fun b hb => ?_, by simp, by simp⟩
  · rw [hevictable] at hb
    have hnew : b ∉ ids := fun hin => (hhistory ▸ hfresh).notMem hin (h.lent b hb)
    rw [(hrefs b).resolve_right hnew]
    exact h.idle b hb
  · exact (hallocated b).mpr (.inr (h.lent b (hevictable ▸ hb)))
  · rcases hrefs b with heq | hin
    · exact (hallocated b).mpr (.inr (h.held b (heq ▸ hb)))
    · exact (hallocated b).mpr (.inl hin)

end Ordered

theorem refLoop_refCnt (ids blocks : List BlockId) (p : ElasticBlockPool μ)
    (hids : ∀ b ∈ ids, 0 ≤ b) (b : BlockId) :
    (refLoop c ids blocks p).2.refCnt b = p.refCnt b ∨ b ∈ ids := by
  induction ids generalizing blocks p with
  | nil => exact .inl rfl
  | cons bid ids ih =>
    rw [refLoop]
    split
    case h_1 => exact .inl rfl
    case h_2 block hblock =>
      have heq : block = bid := by
        rw [kvBlockPool, if_pos (hids bid List.mem_cons_self)] at hblock
        split_ifs at hblock
        exact (Option.some.inj hblock).symm
      subst heq
      rcases ih (blocks ++ [block]) (setRefCnt block 1 p)
        (fun b' hb' => hids b' (List.mem_cons_of_mem _ hb')) with hloop | hin
      · by_cases hb : b = block
        · exact .inr (hb ▸ List.mem_cons_self)
        · exact .inl (hloop.trans (Function.update_of_ne hb ..))
      · exact .inr (List.mem_cons_of_mem _ hin)

/-- Every block that the manager has handed out has an id that is not negative. -/
def IssuedInRange (es : List BlockEvent) : Prop :=
  ∀ e ∈ es, match e with
    | .issued b => 0 ≤ b
    | _ => True

instance (es : List BlockEvent) : Decidable (IssuedInRange es) := by
  have (e : BlockEvent) : Decidable (match e with
      | .issued b => 0 ≤ b
      | _ => True) := by split <;> infer_instance
  unfold IssuedInRange
  infer_instance

theorem Ordered.allocBlocks (h : Ordered log [] p) {n : Int}
    {r : Except BlockPoolError (List BlockId)} (halloc : allocBlocks c M n p = some (r, p'))
    (hfresh : IssuedFresh p'.history) (hids : IssuedInRange p'.history) : Ordered log [] p' := by
  unfold ElasticBlockPool.allocBlocks at halloc
  split at halloc
  case h_1 => cases halloc
  case h_2 =>
    cases halloc
    exact h.congr rfl fun _ hb => hb
  case h_3 =>
    cases halloc
    exact h.congr rfl fun _ hb => hb
  case h_4 ids m _ =>
    dsimp only at halloc
    split_ifs at halloc
    · have hframe := refLoop_frame (c := c) ids [] { p with
        kvCacheManager := m
        history := (ids.map .issued).reverse ++ p.history }
      have hrefs := refLoop_refCnt (c := c) ids [] { p with
        kvCacheManager := m
        history := (ids.map .issued).reverse ++ p.history }
      rw [Option.some.inj halloc] at hframe hrefs
      simp only [Prod.mk.injEq] at hframe
      have hrange : ∀ b ∈ ids, 0 ≤ b := by
        intro b hb
        refine hids (.issued b) ?_
        rw [hframe.2.2.2.2.2]
        exact List.mem_append_left _ (List.mem_reverse.mpr (List.mem_map_of_mem hb))
      exact h.issue hframe.2.2.2.2.2 hframe.2.2.2.2.1 hfresh (hrefs hrange)
    · cases halloc
      exact h.issue rfl rfl hfresh fun _ => .inl rfl

theorem Ordered.getNewBlocks (h : Ordered log [] p) {n : Int}
    {r : Except BlockPoolError (List BlockId)} (hget : getNewBlocks c M n p = some (r, p'))
    (hfresh : IssuedFresh p'.history) (hids : IssuedInRange p'.history) : Ordered log [] p' := by
  rcases getNewBlocks_cases hget with rfl | rfl | halloc
  · exact h
  · exact h.makeRoom n
  · exact (h.makeRoom n).allocBlocks halloc hfresh hids

/-- The invariant of a logged run. Without prefix caching nothing is evictable. -/
def LoggedPool.Sound (c : ElasticBlockPoolConfig) (s : LoggedPool μ) : Prop :=
  if c.enablePrefixCache then Ordered s.log [] s.pool else s.pool.evictableBlocks = []

/-- A new pool has no references and nothing evictable. -/
theorem init_idle {m : μ} (h : init c M m = some (.ok p)) :
    (∀ b, p.refCnt b = 0) ∧ p.evictableBlocks = [] := by
  unfold init at h
  split at h
  case h_1 => cases h
  case h_2 => cases h
  case h_4 => cases h
  case h_3 =>
    split at h
    case h_2 => cases h
    case h_1 =>
      cases h
      exact ⟨fun _ => rfl, rfl⟩

namespace LoggedPool

variable {s t : LoggedPool μ} {act : BlockPoolAct}

theorem step_some : s.step c M act = some t ↔ ElasticBlockPool.step c M s.pool act = some t.pool ∧
    t.log = s.log ++ releases c s.pool act := by
  unfold LoggedPool.step
  rw [Option.map_eq_some_iff]
  constructor
  · rintro ⟨p, hp, rfl⟩
    exact ⟨hp, rfl⟩
  · rintro ⟨hp, hlog⟩
    exact ⟨t.pool, hp, by rw [← hlog]⟩

theorem Sound.step (h : s.Sound c) (htouch : TouchesAllocated s act)
    (hstep : s.step c M act = some t) (hfresh : IssuedFresh t.pool.history)
    (hids : IssuedInRange t.pool.history) : t.Sound c := by
  obtain ⟨hpool, hlog⟩ := step_some.mp hstep
  unfold Sound at h ⊢
  split_ifs at h ⊢ with henable
  case neg =>
    rw [(step_off (by simpa using henable) hpool).2]
    exact h
  case pos =>
    cases act with
    | freeBlocks blocks =>
      have heq : t.pool = (ElasticBlockPool.freeBlocks c M blocks s.pool).2 :=
        (Option.some.inj hpool).symm
      rw [hlog, heq]
      exact h.freeBlocks henable blocks
    | getNewBlocks n =>
      have hsame : t.log = s.log := hlog.trans (List.append_nil _)
      obtain ⟨⟨r, q⟩, hget, heq⟩ := Option.map_eq_some_iff.mp hpool
      subst heq
      exact hsame ▸ h.getNewBlocks hget hfresh hids
    | cacheFullBlocks call =>
      have hsame : t.log = s.log := hlog.trans (List.append_nil _)
      rw [hsame, ← Option.some.inj hpool]
      exact h.cacheFullBlocks call
    | touch blocks =>
      have hsame : t.log = s.log := hlog.trans (List.append_nil _)
      rw [hsame, ← Option.some.inj hpool]
      exact h.touch htouch
    | evictBlocks ids =>
      have hsame : t.log = s.log := hlog.trans (List.append_nil _)
      rw [hsame, ← Option.some.inj hpool]
      exact h.evictBlocks ids
    | resetPrefixCache =>
      have hsame : t.log = s.log := hlog.trans (List.append_nil _)
      rw [hsame, ← Option.some.inj hpool]
      exact h.resetPrefixCache
    | background =>
      have hsame : t.log = s.log := hlog.trans (List.append_nil _)
      rw [hsame, ← Option.some.inj hpool]
      exact h.congr rfl fun _ hb => hb

/-- What is dropped from the front was last released before what stays. -/
theorem before_of_drop {before after : List BlockId} {n : Nat} (horder : InOrder log before)
    (hdrop : after = before.drop n) :
    ∀ a ∈ before, a ∉ after → ∀ b ∈ after, Before log a b := by
  intro a ha hnot b hb
  subst hdrop
  rw [← List.take_append_drop n before] at horder ha
  rcases List.mem_append.mp ha with ha | ha
  · exact horder.before_of_append ha hb
  · exact absurd ha hnot

theorem Sound.evictsOldest (h : s.Sound c) : EvictsOldest c M s act := by
  intro hact t hstep
  obtain ⟨hpool, hlog⟩ := step_some.mp hstep
  by_cases henable : c.enablePrefixCache = true
  · have horder : Ordered s.log [] s.pool := by
      unfold Sound at h
      rwa [if_pos henable] at h
    rcases hact with ⟨n, rfl⟩ | ⟨blocks, rfl⟩
    · have hsame : t.log = s.log := hlog.trans (List.append_nil _)
      obtain ⟨⟨r, q⟩, hget, heq⟩ := Option.map_eq_some_iff.mp hpool
      subst heq
      obtain ⟨k, hk⟩ := getNewBlocks_evictable hget
      exact hsame ▸ before_of_drop horder.order hk
    · have heq : t.pool = (freeBlocks c M blocks s.pool).2 := (Option.some.inj hpool).symm
      obtain ⟨k, hk⟩ := freeBlocks_evictable (c := c) (M := M) blocks s.pool
      have hlast : InOrder t.log (beforeEviction c s.pool (.freeBlocks blocks)) := by
        have hreleases : releases c s.pool (.freeBlocks blocks) = released blocks s.pool :=
          if_pos henable
        have hbefore : beforeEviction c s.pool (.freeBlocks blocks) =
            (releaseLoop blocks [] s.pool).2.evictableBlocks := if_pos henable
        rw [hlog, hreleases, hbefore]
        exact (horder.releaseLoop blocks).order
      exact before_of_drop hlast (heq ▸ hk)
  · -- nothing is evictable
    have hnil : s.pool.evictableBlocks = [] := by
      unfold Sound at h
      rwa [if_neg henable] at h
    have hbefore : beforeEviction c s.pool act = [] := by
      unfold beforeEviction
      split
      · rw [if_neg henable, hnil]
      · exact hnil
    intro a ha
    rw [hbefore] at ha
    cases ha

theorem init_sound {m : μ} (h : init c M m = some (.ok p)) : Sound c ⟨p, []⟩ := by
  obtain ⟨hrefs, hnil⟩ := init_idle h
  unfold Sound
  split_ifs
  · have hnone : ∀ b, ¬1 ≤ p.refCnt b := by simp [hrefs]
    constructor <;> simp [hnil, InOrder.nil, hnone]
  · exact hnil

/-- One call keeps to the cap exactly when it is not a `free_blocks` that fails before it evicts. -/
theorem keepsCap_iff (hcap : 0 ≤ c.maxCachedBlocks)
    (hs : (s.pool.evictableBlocks.length : Int) ≤ c.maxCachedBlocks)
    (hstep : s.step c M act = some t) :
    (t.pool.evictableBlocks.length : Int) ≤ c.maxCachedBlocks ↔ FreesUncached c M s act := by
  obtain ⟨hpool, -⟩ := step_some.mp hstep
  cases act with
  | freeBlocks blocks =>
    rw [← Option.some.inj hpool]
    unfold freeBlocks FreesUncached
    by_cases henable : c.enablePrefixCache = true
    · rw [if_pos henable]
      simp only [henable, true_implies]
      have hgive := giveBackAny_evictable (M := M) (releaseLoop blocks [] s.pool).1
        (releaseLoop blocks [] s.pool).2
      split
      case h_1 e q hq =>
        rw [hq] at hgive ⊢
        dsimp only at hgive ⊢
        simp [hgive, Except.isOk, Except.toBool]
      case h_2 q hq =>
        rw [hq]
        exact iff_of_true (trimCache_cap hcap q) (.inr rfl)
    · rw [if_neg henable, giveBackAny_evictable]
      exact iff_of_true hs fun h => absurd h henable
  | _ =>
    have hsub := step_evictable hpool (by simp)
    have hlen := hsub.length_le
    exact iff_of_true (by omega) trivial

end LoggedPool

/-- In every run in which the manager hands out no block twice at a time and only allocated blocks are
touched, the cap holds all along exactly if no `free_blocks` fails with too many blocks evictable, and
what is evicted for the cap or for `get_new_blocks` is always what was last released before the
rest. -/
theorem cap_and_order (c : ElasticBlockPoolConfig) (M : BlockManagerApi μ) {m : μ}
    {acts : List BlockPoolAct} {t : LoggedPool μ} (hcap : 0 ≤ c.maxCachedBlocks)
    (hinit : init c M m = some (.ok p)) (hrun : run (LoggedPool.step c M) ⟨p, []⟩ acts = some t)
    (hfresh : IssuedFresh t.pool.history) (hids : IssuedInRange t.pool.history)
    (htouch : Along (LoggedPool.step c M) TouchesAllocated ⟨p, []⟩ acts) :
    (p.evictableBlocks.length : Int) ≤ c.maxCachedBlocks ∧
    (Along (LoggedPool.step c M) (KeepsCap c M) ⟨p, []⟩ acts ↔
      Along (LoggedPool.step c M) (FreesUncached c M) ⟨p, []⟩ acts) ∧
    Along (LoggedPool.step c M) (EvictsOldest c M) ⟨p, []⟩ acts := by
  have hnil : p.evictableBlocks = [] := (init_idle hinit).2
  have hstart : (p.evictableBlocks.length : Int) ≤ c.maxCachedBlocks := by simpa [hnil] using hcap
  have hissued := (along_of_last
    (Q := fun s : LoggedPool μ => IssuedFresh s.pool.history ∧ IssuedInRange s.pool.history)
    (fun s act u hu hq => by
      obtain ⟨new, hnew⟩ := (step_extends (LoggedPool.step_some.mp hu).1).history
      rw [← hnew] at hq
      exact ⟨hq.1.tail, fun e he => hq.2 e (List.mem_append_right _ he)⟩)
    hrun ⟨hfresh, hids⟩).2
  refine ⟨hstart, ?_, ?_⟩
  · exact along_next_iff (I := fun _ => True) (E := fun _ _ => True)
      (Q := fun s : LoggedPool μ => (s.pool.evictableBlocks.length : Int) ≤ c.maxCachedBlocks)
      (fun _ _ _ _ hs _ hstep => LoggedPool.keepsCap_iff hcap hs hstep)
      (fun _ _ _ _ _ _ => trivial) trivial hstart (along_of_mem (fun _ _ _ => trivial) _) hrun
  · refine along_imp (I := LoggedPool.Sound c) (fun _ _ hs _ => hs.evictsOldest) ?_
      (LoggedPool.init_sound hinit) (along_and.mpr ⟨hissued, htouch⟩)
    intro s act u hs hE hstep
    obtain ⟨hu, hids⟩ := hE.1 u hstep
    exact hs.step hE.2 hstep hu hids

def cappedPool (maxCachedBlocks : Int) : ElasticBlockPoolConfig :=
  { pairPool with maxCachedBlocks := maxCachedBlocks }

def cappedStart (maxCachedBlocks : Int) (M : BlockManagerApi (KvCacheManager AllocatorProcess)) :
    Option (ElasticBlockPool (KvCacheManager AllocatorProcess)) :=
  startPool (cappedPool maxCachedBlocks) pairManager (pairAllocator.api fun _ => (1000, 0)) M true
    (.init pairAllocator [])

/-- Of the cached blocks 1 and 2 the first one is released, taken up again and released last. -/
def releaseTwice : List BlockPoolAct :=
  [.getNewBlocks 3,
    .cacheFullBlocks ⟨some [[1], [2]], [1, 2], [], none, some (.int 0), some (.int 2), none, .int 0⟩,
    .freeBlocks [some 3, some 1], .touch (.inl [1]), .freeBlocks [some 2, some 1]]

theorem cap_and_order_twice : ∃ p t, cappedStart 1 pairApi = some p ∧
    run (LoggedPool.step (cappedPool 1) pairApi) ⟨p, []⟩ releaseTwice = some t ∧
    Along (LoggedPool.step (cappedPool 1) pairApi) (KeepsCap (cappedPool 1) pairApi) ⟨p, []⟩
      releaseTwice := by
  have hstart : cappedStart 1 pairApi = some ((cappedStart 1 pairApi).get (by decide +kernel)) :=
    (Option.some_get _).symm
  have hrun : run (LoggedPool.step (cappedPool 1) pairApi)
      ⟨(cappedStart 1 pairApi).get (by decide +kernel), []⟩ releaseTwice = some _ :=
    (Option.some_get (by decide +kernel)).symm
  refine ⟨_, _, hstart, hrun, ?_⟩
  obtain ⟨m, r, -, hinit⟩ := startPool_init hstart
  have hcap := cap_and_order (cappedPool 1) pairApi (by decide) hinit hrun (by decide +kernel)
    (by decide +kernel) (by decide +kernel)
  exact hcap.2.1.mpr (by decide +kernel)

/-- Block 1 is cached, blocks 2 and 3 are not. -/
def releaseAll : List BlockPoolAct :=
  [.getNewBlocks 3,
    .cacheFullBlocks ⟨some [[1]], [1], [], none, some (.int 0), some (.int 1), none, .int 0⟩,
    .freeBlocks [some 1, some 2, some 3]]

/-- With a cap of zero, an unmap call that fails for the uncached blocks leaves the cached one
evictable. -/
theorem failed_free_exceeds_cap :
    ∃ p t, cappedStart 0 brokenPairApi = some p ∧
      run (LoggedPool.step (cappedPool 0) brokenPairApi) ⟨p, []⟩ releaseAll = some t ∧
      IssuedFresh t.pool.history ∧ t.pool.evictableBlocks = [1] ∧ t.pool.refCnt 1 = 0 ∧
      ¬(t.pool.evictableBlocks.length : Int) ≤ (cappedPool 0).maxCachedBlocks := by
  have hstart : cappedStart 0 brokenPairApi =
      some ((cappedStart 0 brokenPairApi).get (by decide +kernel)) := (Option.some_get _).symm
  have hrun : run (LoggedPool.step (cappedPool 0) brokenPairApi)
      ⟨(cappedStart 0 brokenPairApi).get (by decide +kernel), []⟩ releaseAll = some _ :=
    (Option.some_get (by decide +kernel)).symm
  exact ⟨_, _, hstart, hrun, by decide +kernel, by decide +kernel, by decide +kernel,
    by decide +kernel⟩

end GpuSharing.Integration.ElasticBlockPool
