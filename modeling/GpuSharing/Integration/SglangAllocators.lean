import Mathlib.Data.List.Sort
import GpuSharing.Kvcached.ManagerRestore

namespace GpuSharing.Integration

open Kvcached Transition

/-- `ElasticTokenToKVPoolAllocator` with the size of its pool, or `ElasticPagedTokenToKVPoolAllocator`
with its tokens per page. -/
inductive SglangAllocator
  | token (size : Int)
  | paged (pageSize : Nat) (pageSize_pos : 0 < pageSize)

/-- What escapes from `alloc`: an exception of the manager, or that of `torch.tensor(None)`. -/
inductive AllocatorError
  | manager (e : PyError)
  | tensorOfNone
  deriving DecidableEq, Repr

/-- An allocator's manager, and the fields that its base class sets around a group of frees. -/
structure ElasticAllocator (σ : Type) where
  manager : KvCacheManager σ
  isNotInFreeGroup : Bool
  freeGroup : List (List Int)

/-- `background` is what other threads and processes do, such as setting a limit. -/
inductive AllocatorAct
  | postInit (created : Bool)
  | alloc (needSize : Int)
  | free (freeIndex : List Int)
  | setFreeGroup (isNotInFreeGroup : Bool) (freeGroup : List (List Int))
  | background
  deriving DecidableEq, Repr

namespace SglangAllocator

variable {σ : Type} (A : SglangAllocator) (C : KvCacheManagerConfig) (S : PageAllocatorApi σ)

def availableSize (m : KvCacheManager σ) : Int :=
  match A with
  | .token size => min (m.availableSize C S) size
  | .paged pageSize _ => m.availableSize C S * pageSize

/-- The indices of the tokens of a page. -/
def pageIndices (pageSize : Nat) (page : Int) : List Int :=
  (List.range pageSize).map fun i => page * pageSize + i

/-- What `alloc` asks the manager for. -/
def numBlocks (needSize : Int) : Int :=
  match A with
  | .token _ => needSize
  | .paged pageSize _ => needSize / pageSize

def alloc (needSize : Int) (m : KvCacheManager σ) :
    Option (Except AllocatorError (Option (List Int)) × KvCacheManager σ) :=
  match A with
  | .token _ => match m.alloc C S needSize with
    | some (.ok (some indices), m) => some (.ok (some indices), m)
    | some (.ok none, m) => some (.error .tensorOfNone, m)
    | some (.error e, m) => some (.error (.manager e), m)
    | none => none
  | .paged pageSize _ => match m.alloc C S (needSize / pageSize) with
    | some (.ok (some blockIds), m) =>
      some (.ok (some (blockIds.flatMap (pageIndices pageSize))), m)
    | some (.ok none, m) => some (.ok none, m)
    | some (.error e, m) => some (.error (.manager e), m)
    | none => none

/-- `torch.unique` sorts. -/
def free (freeIndex : List Int) (s : ElasticAllocator σ) : ElasticAllocator σ :=
  match A with
  | .token _ =>
    if s.isNotInFreeGroup then { s with manager := (s.manager.free C S freeIndex).2 }
    else { s with freeGroup := s.freeGroup ++ [freeIndex] }
  | .paged pageSize _ =>
    if freeIndex.isEmpty then s
    else if s.isNotInFreeGroup then
      let pageIds := ((freeIndex.map (· / (pageSize : Int))).dedup).insertionSort (· ≤ ·)
      { s with manager := (s.manager.free C S pageIds).2 }
    else { s with freeGroup := s.freeGroup ++ [freeIndex] }

def start (s : σ) : ElasticAllocator σ := ⟨.init s, true, []⟩

/-- The calls wait for `_post_init`, which runs once. -/
def step (s : ElasticAllocator σ) : AllocatorAct → Option (ElasticAllocator σ)
  | .postInit created =>
    if s.manager.postInitDone then none
    else (s.manager.postInit C S created).map fun r => { s with manager := r.2 }
  | .alloc needSize =>
    if s.manager.postInitDone then
      (A.alloc C S needSize s.manager).map fun r => { s with manager := r.2 }
    else none
  | .free freeIndex => if s.manager.postInitDone then some (A.free C S freeIndex s) else none
  | .setFreeGroup isNotInFreeGroup freeGroup => some { s with isNotInFreeGroup, freeGroup }
  | .background =>
    some { s with manager := { s.manager with
      pageAllocator := S.background s.manager.pageAllocator } }

/-- The blocks that hold the tokens of a request. -/
def blocksNeeded (needSize : Int) : Int :=
  match A with
  | .token _ => needSize
  | .paged pageSize _ => -(-needSize / pageSize)

/-- The manager has blocks for all tokens of the request. -/
def Delivers (needSize : Int) (m : KvCacheManager σ) : Prop :=
  ∃ ids m', m.alloc C S (A.blocksNeeded needSize) = some (.ok (some ids), m')

/-- `alloc` returns `None`, and the manager and the reported size are as before. -/
def GivesNone (needSize : Int) (m : KvCacheManager σ) : Prop :=
  ∃ m', A.alloc C S needSize m = some (.ok none, m') ∧ m' = m ∧
    A.availableSize C S m' = A.availableSize C S m

/-- A request that the manager cannot deliver is answered as it should be. -/
def Exhausts (s : ElasticAllocator σ) : AllocatorAct → Prop
  | .alloc needSize => ¬A.Delivers C S needSize s.manager → A.GivesNone C S needSize s.manager
  | _ => True

/-- The limit pending has been served before, or there is none. -/
def LimitServed (m : KvCacheManager σ) : Prop :=
  0 < S.getResizeTarget m.pageAllocator →
    ∃ ok, m.resize C S (S.getResizeTarget m.pageAllocator) = (.ok ok, m)

/-- The allocator is the paged one, and the manager sees before its loop that it has too few blocks. -/
def RefusedUpFront (needSize : Int) (m : KvCacheManager σ) : Prop :=
  (∃ pageSize pos, A = .paged pageSize pos) ∧ LimitServed C S m ∧
    m.availableSize C S < A.numBlocks needSize

def Refuses (s : ElasticAllocator σ) : AllocatorAct → Prop
  | .alloc needSize =>
    ¬A.Delivers C S needSize s.manager → A.RefusedUpFront C S needSize s.manager
  | _ => True

variable {A C S} {m m' : KvCacheManager σ} {needSize n : Int}

/-- `_alloc` answers `None` without having touched anything but the limit. -/
theorem allocBlocks_none_iff :
    m.allocBlocks C S n = some (.ok none, m') ↔ m' = m ∧ m.availableSize C S < n := by
  unfold KvCacheManager.allocBlocks
  by_cases hsize : m.availableSize C S < n
  · rw [if_pos hsize]
    simp [hsize, eq_comm]
  · rw [if_neg hsize]
    simp only [hsize, and_false, iff_false]
    intro h
    split at h
    case h_1 => cases h
    case h_2 => cases h
    case h_3 => cases h

theorem alloc_none_iff (hdone : m.postInitDone = true) :
    m.alloc C S n = some (.ok none, m) ↔ LimitServed C S m ∧ m.availableSize C S < n := by
  constructor
  · intro h
    rcases KvCacheManager.alloc_cases h with ⟨htarget, h⟩ | ⟨-, -, ⟨e, -, he⟩ | ⟨ok, m₁, hresize, h⟩⟩
    · exact ⟨fun hpos => absurd hpos htarget, (allocBlocks_none_iff.mp h).2⟩
    · cases he
    · obtain ⟨rfl, hsize⟩ := allocBlocks_none_iff.mp h
      exact ⟨fun _ => ⟨ok, hresize⟩, hsize⟩
  · intro h
    obtain ⟨hserved, hsize⟩ := h
    have hnone := allocBlocks_none_iff.mpr ⟨rfl, hsize⟩
    unfold KvCacheManager.alloc
    by_cases hpos : 0 < S.getResizeTarget m.pageAllocator
    · obtain ⟨ok, hresize⟩ := hserved hpos
      simp only [if_pos hpos, if_pos hdone, hresize]
      exact hnone
    · simp only [if_neg hpos]
      exact hnone

/-- `torch.tensor` does not take the manager's `None`. -/
theorem alloc_token_ne_none {size : Int} :
    ¬(SglangAllocator.token size).alloc C S needSize m = some (.ok none, m') := by
  intro h
  simp only [alloc] at h
  split at h
  case h_1 => cases h
  case h_2 => cases h
  case h_3 => cases h
  case h_4 => cases h

/-- The paged allocator hands it on. -/
theorem alloc_paged_none_iff {pageSize : Nat} {pos : 0 < pageSize} :
    (SglangAllocator.paged pageSize pos).alloc C S needSize m = some (.ok none, m') ↔
      m.alloc C S (needSize / pageSize) = some (.ok none, m') := by
  constructor
  · intro h
    simp only [alloc] at h
    split at h
    case h_1 => cases h
    case h_2 m₁ hcall =>
      cases h
      exact hcall
    case h_3 => cases h
    case h_4 => cases h
  · intro h
    simp only [alloc, h]

theorem givesNone_iff (hdone : m.postInitDone = true) :
    A.GivesNone C S needSize m ↔ A.RefusedUpFront C S needSize m := by
  have hsame : A.GivesNone C S needSize m ↔ A.alloc C S needSize m = some (.ok none, m) := by
    constructor
    · intro h
      obtain ⟨m', halloc, rfl, -⟩ := h
      exact halloc
    · intro h
      exact ⟨m, h, rfl, rfl⟩
  rw [hsame, RefusedUpFront]
  cases A with
  | token size =>
    have hnot : ¬∃ pageSize pos, SglangAllocator.token size = .paged pageSize pos := by
      intro h
      obtain ⟨pageSize, pos, heq⟩ := h
      cases heq
    simp only [hnot, false_and, iff_false]
    exact alloc_token_ne_none
  | paged pageSize pos =>
    have hpaged : ∃ size pos', SglangAllocator.paged pageSize pos = .paged size pos' :=
      ⟨pageSize, pos, rfl⟩
    rw [and_iff_right hpaged, numBlocks, ← alloc_none_iff hdone]
    exact alloc_paged_none_iff

/-- Along every run of requests, frees, limits and threads, the requests that the manager cannot
deliver are answered by `None`, with nothing changed, exactly when they are refused up front by the
paged allocator. -/
theorem exhaustion_iff (A : SglangAllocator) (C : KvCacheManagerConfig) (S : PageAllocatorApi σ)
    (s₀ : σ) (acts : List AllocatorAct) (s : ElasticAllocator σ)
    (hrun : run (A.step C S) (start s₀) acts = some s) :
    Along (A.step C S) (A.Exhausts C S) (start s₀) acts ↔
      Along (A.step C S) (A.Refuses C S) (start s₀) acts := by
  have henabled := along_enabled hrun
  apply along_congr (I := fun _ => True) _ (fun _ _ _ _ _ _ _ => trivial) trivial henabled
  intro s act _ henabled
  cases act with
  | alloc needSize =>
    obtain ⟨t, ht⟩ := henabled
    have hdone : s.manager.postInitDone = true := by
      by_contra hnot
      simp [step, hnot] at ht
    exact imp_congr_right fun _ => givesNone_iff hdone
  | _ => exact Iff.rfl

section Example

open Session (parkingAllocator parkingManager parkingDevice)

/-- An allocator over the four pages of `parkingAllocator`, each with one block. -/
def parkingStep (A : SglangAllocator) :
    ElasticAllocator AllocatorProcess → AllocatorAct → Option (ElasticAllocator AllocatorProcess) :=
  A.step (parkingManager false) (parkingAllocator.api parkingDevice)

def parkingReady (A : SglangAllocator) : Option (ElasticAllocator AllocatorProcess) :=
  parkingStep A (start (.init parkingAllocator [])) (.postInit true)

/-- Ten tokens of five pages are refused up front. -/
theorem exhaustion_paged : ∃ s,
    run (parkingStep (paged 2 two_pos)) (start (.init parkingAllocator []))
      [.postInit true, .alloc 10] = some s ∧
    Along (parkingStep (paged 2 two_pos))
      ((paged 2 two_pos).Exhausts (parkingManager false) (parkingAllocator.api parkingDevice))
      (start (.init parkingAllocator [])) [.postInit true, .alloc 10] := by
  have hready : parkingReady (paged 2 two_pos) = some _ :=
    (Option.some_get (by decide +kernel)).symm
  have hrun : run (parkingStep (paged 2 two_pos)) (start (.init parkingAllocator []))
      [.postInit true, .alloc 10] = some _ := (Option.some_get (by decide +kernel)).symm
  refine ⟨_, hrun, (exhaustion_iff _ _ _ _ _ _ hrun).mpr ((along_cons hready).mpr ⟨trivial, ?_⟩)⟩
  refine along_singleton.mpr fun _ => ⟨⟨2, two_pos, rfl⟩, fun hlimit => ?_, by decide +kernel⟩
  exact absurd hlimit (by decide +kernel)

/-- The token allocator over the same pages reports four tokens, and the fifth makes it raise. -/
theorem token_alloc_raises : ∃ s, parkingReady (token 4) = some s ∧
    (token 4).availableSize (parkingManager false) (parkingAllocator.api parkingDevice)
      s.manager = 4 ∧
    ((token 4).alloc (parkingManager false) (parkingAllocator.api parkingDevice) 5
      s.manager).map Prod.fst = some (.error .tensorOfNone) ∧
    ¬Along (parkingStep (token 4))
      ((token 4).Exhausts (parkingManager false) (parkingAllocator.api parkingDevice))
      (start (.init parkingAllocator [])) [.postInit true, .alloc 5] := by
  have hready : parkingReady (token 4) = some _ := (Option.some_get (by decide +kernel)).symm
  refine ⟨_, hready, by decide +kernel, by decide +kernel, fun hall => ?_⟩
  have hnone : (((parkingReady (token 4)).get (by decide +kernel)).manager.alloc
      (parkingManager false) (parkingAllocator.api parkingDevice) 5).map Prod.fst =
      some (.ok none) := by decide +kernel
  have hexhausts := along_singleton.mp ((along_cons hready).mp hall).2
  have hundelivered : ¬(token 4).Delivers (parkingManager false)
      (parkingAllocator.api parkingDevice) 5
      ((parkingReady (token 4)).get (by decide +kernel)).manager := by
    intro h
    obtain ⟨ids, m', halloc⟩ := h
    change KvCacheManager.alloc _ _ 5 _ = _ at halloc
    rw [halloc] at hnone
    cases hnone
  obtain ⟨m', halloc, -⟩ := hexhausts hundelivered
  exact alloc_token_ne_none halloc

end Example

end SglangAllocator

end GpuSharing.Integration
