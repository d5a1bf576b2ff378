import GpuSharing.Kvcached.AllocatorThreads

namespace GpuSharing.Kvcached.System

open PageAllocator

/-- Everything a step can do, path by path, with the guards of each path. -/
inductive Outcome (c : PageAllocatorConfig) (s : System) : Act → System → Prop
  | allocFast (act : Act) (p : PageId) (rest : List PageId) (flag : Bool)
      (hi : s.engine = .idle ∨ s.engine = .waiting) (hr : s.pa.reservedPageList = p :: rest) :
      Outcome c s act { s with
        pa := { s.pa with
          reservedPageList := rest
          numFreePages := s.pa.numFreePages - 1
          preallocNeeded := flag }
        engine := .idle
        handedOut := p :: s.handedOut }
  | allocSlow (act : Act) (p : PageId) (rest : List PageId)
      (hi : s.engine = .idle ∨ s.engine = .waiting) (hf : s.pa.freePageList = p :: rest) :
      Outcome c s act { s with
        pa := { s.pa with freePageList := rest, numFreePages := s.pa.numFreePages - 1 }
        engine := .mapping p }
  | allocNone (act : Act) (pc : EnginePc) (hi : s.engine = .idle ∨ s.engine = .waiting)
      (hpc : pc = .idle ∨ pc = .waiting) : Outcome c s act { s with engine := pc }
  | frees (act : Act) (ps : List PageId) (k : Nat) (pc : EnginePc) (hi : s.engine = .idle)
      (hp : ps.Subperm s.handedOut)
      (hpc : pc = .idle ∧ ps.drop k = [] ∨ pc = .unmapping .free (ps.drop k)) :
      Outcome c s act { s with
        pa := { s.pa with
          reservedPageList := s.pa.reservedPageList ++ ps.take k
          numFreePages := s.pa.numFreePages + ps.length }
        engine := pc
        handedOut := s.handedOut.diff ps }
  | keeps (act : Act) : Outcome c s act s
  | grows (m : Int) (hi : s.engine = .idle)
      (hu : ¬m.tdiv c.pageSize < s.pa.getNumInusePages)
      (hg : s.pa.numTotalPages < m.tdiv c.pageSize) :
      Outcome c s (.resize m) { s with pa := s.pa.grow (m.tdiv c.pageSize) }
  | reclaims (m : Int) (hi : s.engine = .idle)
      (hu : ¬m.tdiv c.pageSize < s.pa.getNumInusePages)
      (hg : m.tdiv c.pageSize < s.pa.numTotalPages)
      (hf : ¬s.pa.freePageList.length < s.pa.numTotalPages - m.tdiv c.pageSize) :
      Outcome c s (.resize m) { s with pa := s.pa.reclaim (m.tdiv c.pageSize) }
  | unmapsReserved (act : Act) (k : AfterUnmap) (hi : s.engine = .idle)
      (hk : k = .trim ∨ ∃ m, act = .resize m ∧ k = .resize (m.tdiv c.pageSize) ∧
        ¬m.tdiv c.pageSize < s.pa.getNumInusePages ∧ m.tdiv c.pageSize < s.pa.numTotalPages) :
      Outcome c s act { s with
        pa := { s.pa with reservedPageList := [] }
        engine := .unmapping k s.pa.reservedPageList }
  | sorts (act : Act) (ps : List PageId) (hps : ps.Perm s.pa.freePageList) :
      Outcome c s act { s with pa := { s.pa with freePageList := ps } }
  | flags (act : Act) (flag : Bool) :
      Outcome c s act { s with pa := { s.pa with preallocNeeded := flag } }
  | mapOk (p : PageId) (hi : s.engine = .mapping p) :
      Outcome c s (.mapReturns true)
        { s with engine := .mapped p, physical := insert p s.physical }
  | mapFails (p : PageId) (hi : s.engine = .mapping p) :
      Outcome c s (.mapReturns false) { s with engine := .idle, pa := s.pa.allocPageFailed p }
  | unmapOk (k : AfterUnmap) (ps : List PageId) (hi : s.engine = .unmapping k ps) :
      Outcome c s (.unmapReturns true)
        { s with engine := .unmapped k ps, physical := s.physical \ ps.toFinset }
  | unmapFails (k : AfterUnmap) (ps : List PageId) (hi : s.engine = .unmapping k ps) :
      Outcome c s (.unmapReturns false) { s with engine := .idle }
  | handsOut (p : PageId) (flag : Bool) (hi : s.engine = .mapped p) :
      Outcome c s .relock { s with
        pa := { s.pa with preallocNeeded := flag }
        engine := .idle
        handedOut := p :: s.handedOut }
  | pushes (k : AfterUnmap) (ps : List PageId) (hi : s.engine = .unmapped k ps) :
      Outcome c s .relock { s with pa := s.pa.pushFree ps, engine := .idle }
  | relockReclaims (n : Int) (ps : List PageId) (hi : s.engine = .unmapped (.resize n) ps)
      (hf : ¬(s.pa.pushFree ps).freePageList.length < s.pa.numTotalPages - n) :
      Outcome c s .relock { s with pa := (s.pa.pushFree ps).reclaim n, engine := .idle }
  | grabs (act : Act) (k : Nat) (flag : Bool) (hi : s.worker = .idle)
      (hk : k ≤ (c.minReservedPages - s.pa.reservedPageList.length).toNat) :
      Outcome c s act { s with
        pa := { s.pa with
          freePageList := s.pa.freePageList.drop k
          preallocNeeded := flag }
        worker := .mapping (s.pa.freePageList.take k) }
  | workerMapOk (ps : List PageId) (hi : s.worker = .mapping ps) :
      Outcome c s (.workerMapReturns true)
        { s with worker := .mapped ps, physical := s.physical ∪ ps.toFinset }
  | workerMapFails (ps : List PageId) (hi : s.worker = .mapping ps) :
      Outcome c s (.workerMapReturns false)
        { s with worker := .idle, pa := s.pa.preallocFailed ps }
  | reserves (ps : List PageId) (hi : s.worker = .mapped ps) :
      Outcome c s .workerRelock { s with worker := .idle, pa := s.pa.preallocReserve ps }

variable {c : PageAllocatorConfig} {s t : System}

theorem allocStep_outcome (act : Act) (hi : s.engine = .idle ∨ s.engine = .waiting) :
    Outcome c s act (s.allocStep c) := by
  unfold allocStep allocPageLoop
  cases hr : s.pa.reservedPageList with
  | cons p rest => exact .allocFast act p rest _ hi hr
  | nil =>
    cases hf : s.pa.freePageList with
    | cons p rest =>
      have h := Outcome.allocSlow (c := c) act p rest hi hf
      simpa only [hr] using h
    | nil =>
      dsimp only
      split_ifs
      · exact .allocNone act .idle hi (.inl rfl)
      · exact .allocNone act .idle hi (.inl rfl)
      · exact .allocNone act .waiting hi (.inr rfl)

theorem freePageStep_outcome (act : Act) {p : PageId} (hi : s.engine = .idle)
    (hp : p ∈ s.handedOut) : Outcome c s act (s.freePageStep c p) := by
  have hsub : [p].Subperm s.handedOut := List.singleton_subperm_iff.mpr hp
  have he : s.handedOut.diff [p] = s.handedOut.erase p := by simp
  unfold freePageStep freePageLocked
  split_ifs
  · have h := Outcome.frees (c := c) act [p] 1 .idle hi hsub (.inl ⟨rfl, rfl⟩)
    rw [← hi, he] at h
    exact h
  · have h := Outcome.frees (c := c) act [p] 0 _ hi hsub (.inr rfl)
    rw [he, List.take_zero, List.append_nil] at h
    exact h

theorem freePagesStep_outcome (act : Act) {ps : List PageId} (hi : s.engine = .idle)
    (hp : ps.Subperm s.handedOut) : Outcome c s act (s.freePagesStep c ps) := by
  unfold freePagesStep freePagesLocked
  generalize (if c.deferFreeUnmap = true then (ps.length : Int)
    else c.maxReservedPages - s.pa.reservedPageList.length) = numToReserve
  dsimp only
  split_ifs with hr hd
  · have h := Outcome.frees (c := c) act ps _ .idle hi hp (.inl ⟨rfl, List.isEmpty_iff.mp hd⟩)
    rw [← hi] at h
    exact h
  · exact .frees act ps _ _ hi hp (.inr rfl)
  · have h := Outcome.frees (c := c) act ps 0 _ hi hp (.inr rfl)
    rw [List.take_zero, List.append_nil] at h
    exact h

theorem resizeStep_outcome (m : Int) (hi : s.engine = .idle) :
    Outcome c s (.resize m) (s.resizeStep c m) := by
  unfold resizeStep resizeLocked
  dsimp only
  split_ifs with hu he hg hf hr
  · exact .keeps _
  · exact .keeps _
  · exact .grows m hi hu hg
  · exact .keeps _
  · exact .unmapsReserved _ _ hi (.inr ⟨m, rfl, rfl, hu, by omega⟩)
  · exact .reclaims m hi hu (by omega) hf

theorem trimStep_outcome (act : Act) (hi : s.engine = .idle) : Outcome c s act s.trimStep := by
  unfold trimStep trimLocked
  cases hr : s.pa.reservedPageList with
  | nil =>
    have h : { s with pa := { s.pa with reservedPageList := [] } } = s := by rw [← hr]
    simpa only [h] using Outcome.keeps act
  | cons p ps =>
    have h := Outcome.unmapsReserved (c := c) act .trim hi (.inl rfl)
    rw [hr] at h
    exact h

theorem relockStep_outcome (h : s.relockStep c = some t) : Outcome c s .relock t := by
  unfold relockStep at h
  split at h
  case h_1 p hp =>
    cases h
    have h := Outcome.handsOut (c := c) p
      (if c.enablePagePrealloc then true else s.pa.preallocNeeded) hp
    split_ifs at h ⊢ <;> exact h
  case h_2 n ps hp =>
    cases h
    unfold resizeRelocked
    dsimp only
    split_ifs with hf
    · exact .pushes _ ps hp
    · exact .relockReclaims n ps hp hf
  case h_3 ps hp =>
    cases h
    exact .pushes _ ps hp
  case h_4 ps hp =>
    cases h
    exact .pushes _ ps hp
  case h_5 => cases h

private theorem drop_eq_self_of_take_eq_nil {k : Nat} {ps : List PageId} (h : ps.take k = []) :
    ps.drop k = ps := by
  simpa [h] using List.take_append_drop k ps

/-- The inversion of `step` that every invariant below is proved from. -/
theorem step_outcome {act : Act} (h : step c s act = some t) : Outcome c s act t := by
  cases act <;> simp only [step] at h
  case allocPage =>
    split_ifs at h with hi
    cases h
    exact allocStep_outcome _ (.inl hi)
  case wake =>
    split_ifs at h with hi
    cases h
    exact allocStep_outcome _ (.inr hi)
  case freePage p =>
    split_ifs at h with hi
    cases h
    exact freePageStep_outcome _ hi.1 hi.2
  case freePages ps =>
    split_ifs at h with hi
    cases h
    exact freePagesStep_outcome _ hi.1 hi.2
  case resize m =>
    split_ifs at h with hi
    cases h
    exact resizeStep_outcome m hi
  case trim =>
    split_ifs at h with hi
    cases h
    exact trimStep_outcome _ hi
  case resetFreePageOrder =>
    split_ifs at h
    cases h
    exact .sorts _ _ (List.perm_insertionSort _ _)
  case startPrealloc =>
    split_ifs at h
    cases h
    exact .flags _ true
  case mapReturns ok =>
    split at h
    case h_1 p hp =>
      cases h
      exact .mapOk p hp
    case h_2 p hp =>
      cases h
      exact .mapFails p hp
    case h_3 => cases h
  case unmapReturns ok =>
    split at h
    case h_1 k ps hp =>
      cases h
      exact .unmapOk k ps hp
    case h_2 k ps hp =>
      cases h
      exact .unmapFails k ps hp
    case h_3 => cases h
  case relock => exact relockStep_outcome h
  case workerGrab n =>
    split_ifs at h with hi
    unfold preallocGrab at h
    dsimp only at h
    split at h
    case h_1 a hg =>
      cases h
      obtain ⟨hk, rfl⟩ := Prod.mk.inj hg
      rw [drop_eq_self_of_take_eq_nil hk]
      exact .flags _ false
    case h_2 p ps a hg =>
      cases h
      obtain ⟨hk, rfl⟩ := Prod.mk.inj hg
      rw [← hk]
      exact .grabs _ _ _ hi.1 (by omega)
  case workerMapReturns ok =>
    split at h
    case h_1 ps hp =>
      cases h
      exact .workerMapOk ps hp
    case h_2 ps hp =>
      cases h
      exact .workerMapFails ps hp
    case h_3 => cases h
  case workerRelock =>
    split at h
    case h_1 ps hp =>
      cases h
      exact .reserves ps hp
    case h_2 => cases h

end GpuSharing.Kvcached.System
