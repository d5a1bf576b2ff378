import GpuSharing.Integration.SglangMamba
import GpuSharing.Kvcached.FreshManager

namespace GpuSharing.Integration

open Kvcached Transition Session

/-- The constants of a process, and what `init_kvcached` was told. -/
structure ManagerEnv where
  pageSize : Nat
  contiguousLayout : Bool
  worldSize : Int := 1
  ppRank : Int := 0
  useWorkerIpc : Bool := false
  enablePagePrealloc : Bool := true
  deferFreeUnmap : Bool := false
  minReservedPages : Int := 5
  maxReservedPages : Int := 10
  skipPhysicalFreeCheck : Bool := false
  sanityCheck : Bool := false
  groupOrder : IterationOrder := ⟨List.dedup, List.nodup_dedup, fun _ _ => List.mem_dedup⟩
  pageSize_pos : 0 < pageSize := by decide
  pageSize_lt : pageSize < 2^63 := by decide

/-- The arguments of `get_kv_cache_manager`. -/
structure ManagerArgs where
  numBlocks : Nat
  blockSize : Nat
  cellSize : Nat
  numLayers : Nat
  reserveNullBlock : Bool := true
  numKvBuffers : Nat := 2
  groupId : Int := 0
  blockSize_pos : 0 < blockSize := by decide
  cellSize_pos : 0 < cellSize := by decide
  numLayers_pos : 0 < numLayers := by decide
  numKvBuffers_pos : 0 < numKvBuffers := by decide

namespace ManagerArgs

def blockMemSize (a : ManagerArgs) : Nat := a.blockSize * a.cellSize

def memSize (a : ManagerArgs) : Nat := a.numBlocks * a.blockMemSize

/-- What the methods of the new `KVCacheManager` read. -/
def manager (a : ManagerArgs) (E : ManagerEnv) : KvCacheManagerConfig where
  blockMemSize := a.blockMemSize
  pageSize := E.pageSize
  reserveNullBlock := a.reserveNullBlock
  skipPhysicalFreeCheck := E.skipPhysicalFreeCheck
  sanityCheck := E.sanityCheck
  multiProcess := decide (1 < E.worldSize) || E.useWorkerIpc
  groupOrder := E.groupOrder
  blockMemSize_pos := Int.natCast_pos.mpr (Nat.mul_pos a.blockSize_pos a.cellSize_pos)
  pageSize_pos := Int.natCast_pos.mpr E.pageSize_pos
  pageSize_lt := by exact_mod_cast E.pageSize_lt

/-- The `PageAllocator` that it builds. -/
def allocator (a : ManagerArgs) (E : ManagerEnv) : PageAllocatorConfig where
  numLayers := a.numLayers
  memSizePerLayer := a.memSize
  pageSize := E.pageSize
  worldSize := E.worldSize
  ppRank := E.ppRank
  contiguousLayout := E.contiguousLayout
  enablePagePrealloc := E.enablePagePrealloc
  numKvBuffers := a.numKvBuffers
  groupId := a.groupId
  deferFreeUnmap := E.deferFreeUnmap
  minReservedPagesEnv := E.minReservedPages
  maxReservedPagesEnv := E.maxReservedPages
  numLayers_pos := Int.natCast_pos.mpr a.numLayers_pos
  memSizePerLayer_nonneg := Int.natCast_nonneg _
  pageSize_pos := Int.natCast_pos.mpr E.pageSize_pos
  numKvBuffers_pos := Int.natCast_pos.mpr a.numKvBuffers_pos

variable {a : ManagerArgs} {E : ManagerEnv}

/-- The page count is rounded down twice, and only the second time it may lose something. -/
theorem numPages_eq {perPage : Nat} (hpage : E.pageSize = perPage * a.blockMemSize) :
    (a.allocator E).numPages = ((a.numBlocks / perPage : Nat) : Int) := by
  have hblock : 0 < a.blockMemSize := Nat.mul_pos a.blockSize_pos a.cellSize_pos
  change ((a.memSize : Nat) : Int).tdiv ((E.pageSize : Nat) : Int) = _
  rw [Int.tdiv_eq_ediv_of_nonneg (Int.natCast_nonneg _), ← Int.natCast_ediv, hpage, memSize,
    Nat.mul_div_mul_right _ _ hblock]

end ManagerArgs

/-- From `s` on, some calls end with `n` distinct blocks handed out, with ids below `n`. -/
def HandsOut (a : ManagerArgs) (E : ManagerEnv) (memGetInfo : System → Nat × Nat) (n : Nat)
    (s : Session AllocatorProcess) : Prop :=
  ∃ acts t, (∀ act ∈ acts, act.Plain false) ∧
    run (step (a.manager E) ((a.allocator E).api memGetInfo)) s acts = some t ∧
    t.held.Nodup ∧ t.held.length = n ∧ ∀ b ∈ t.held, 0 ≤ b ∧ b < n

namespace MambaRequest

variable {r : MambaRequest} {out : MambaCache}

theorem cellSize_pos (h : r.allocMambaStates = .ok out) : 0 < out.layout.cellSize := by
  obtain ⟨hfit, hlayout, -⟩ := allocMambaStates_ok h
  rw [hlayout]
  exact Nat.pos_of_dvd_of_pos (cellSize_spec hfit).1 r.pageSize_pos

/-- A manager for the slots of an accepted request. -/
def managerArgs (h : r.allocMambaStates = .ok out) (hlayers : 0 < r.numMambaLayers) :
    ManagerArgs where
  numBlocks := r.numSlots
  blockSize := 1
  cellSize := out.layout.cellSize
  numLayers := r.numMambaLayers
  reserveNullBlock := false
  numKvBuffers := 1
  blockSize_pos := Nat.one_pos
  cellSize_pos := cellSize_pos h
  numLayers_pos := hlayers
  numKvBuffers_pos := Nat.one_pos

/-- Cells fill a page. -/
theorem pageSize_eq (h : r.allocMambaStates = .ok out) (hlayers : 0 < r.numMambaLayers) :
    r.pageSize = r.pageSize / out.layout.cellSize * (managerArgs h hlayers).blockMemSize := by
  obtain ⟨hfit, hlayout, -⟩ := allocMambaStates_ok h
  have hdvd : out.layout.cellSize ∣ r.pageSize := by
    rw [hlayout]
    exact (cellSize_spec hfit).1
  rw [ManagerArgs.blockMemSize, managerArgs, one_mul, Nat.div_mul_cancel hdvd]

section Slots

variable {E : ManagerEnv} {memGetInfo : System → Nat × Nat} {schedule : List (List WorkerMove)}
  {s₀ : Session AllocatorProcess} {h : r.allocMambaStates = .ok out}
  {hlayers : 0 < r.numMambaLayers}

theorem manager_fill (hpage : E.pageSize = r.pageSize) :
    ((managerArgs h hlayers).manager E).pageSize =
      ((r.pageSize / out.layout.cellSize : Nat) : Int) *
        ((managerArgs h hlayers).manager E).blockMemSize := by
  change ((E.pageSize : Nat) : Int) = _ * ((managerArgs h hlayers).blockMemSize : Nat)
  rw [← Nat.cast_mul, ← pageSize_eq h hlayers, hpage]

theorem numPages_eq (hpage : E.pageSize = r.pageSize) :
    ((managerArgs h hlayers).allocator E).numPages =
      ((r.numSlots / (r.pageSize / out.layout.cellSize) : Nat) : Int) :=
  ManagerArgs.numPages_eq (hpage.trans (pageSize_eq h hlayers))

/-- Slots past the last whole page have no block. -/
theorem dvd_of_handsOut (hpage : E.pageSize = r.pageSize)
    (hinit : step ((managerArgs h hlayers).manager E)
      (((managerArgs h hlayers).allocator E).api memGetInfo)
      (start (.init ((managerArgs h hlayers).allocator E) schedule)) (.postInit true) = some s₀)
    (hout : HandsOut (managerArgs h hlayers) E memGetInfo r.numSlots s₀) :
    r.pageSize / out.layout.cellSize ∣ r.numSlots := by
  obtain ⟨acts, t, hplain, hrun, hnodup, hlen, -⟩ := hout
  have hbounds := (run_bounds (manager_fill hpage) hinit hplain hrun).2
  rw [numPages_eq hpage] at hbounds
  have hcount := length_le_of_bounds (by positivity) hnodup hbounds
  rw [hlen] at hcount
  have hmost : r.numSlots ≤ r.numSlots / (r.pageSize / out.layout.cellSize) *
      (r.pageSize / out.layout.cellSize) := by exact_mod_cast hcount
  exact Dvd.intro_left _ (le_antisymm (Nat.div_mul_le_self _ _) hmost)

/-- With memory for all pages one `alloc` returns the blocks of all of them. -/
theorem handsOut_of_dvd (hpage : E.pageSize = r.pageSize)
    (hinit : step ((managerArgs h hlayers).manager E)
      (((managerArgs h hlayers).allocator E).api memGetInfo)
      (start (.init ((managerArgs h hlayers).allocator E) schedule)) (.postInit true) = some s₀)
    (hphys : E.skipPhysicalFreeCheck = true ∨ ((managerArgs h hlayers).allocator E).numPages ≤
      physicalFreePages (((managerArgs h hlayers).allocator E).api memGetInfo) s₀.manager)
    (hdvd : r.pageSize / out.layout.cellSize ∣ r.numSlots) :
    HandsOut (managerArgs h hlayers) E memGetInfo r.numSlots s₀ := by
  have hall : ((managerArgs h hlayers).allocator E).numPages *
      ((r.pageSize / out.layout.cellSize : Nat) : Int) = r.numSlots := by
    rw [numPages_eq hpage]
    exact_mod_cast Nat.div_mul_cancel hdvd
  obtain ⟨t, ht, hlen⟩ := fresh_alloc (manager_fill hpage) rfl hinit hphys
    (Int.natCast_nonneg _) hall.ge
  have hrun : run (step ((managerArgs h hlayers).manager E)
      (((managerArgs h hlayers).allocator E).api memGetInfo)) s₀ [.alloc r.numSlots] = some t :=
    run_cons.mpr ⟨t, ht, rfl⟩
  have hplain : ∀ act ∈ [ManagerAct.alloc r.numSlots], act.Plain false := by
    simp [ManagerAct.Plain]
  obtain ⟨hnodup, hbounds⟩ := run_bounds (manager_fill hpage) hinit hplain hrun
  rw [hall] at hbounds
  exact ⟨_, t, hplain, hrun, hnodup, by exact_mod_cast hlen, hbounds⟩

end Slots

/-- With memory for all its pages a manager hands out all slots exactly when they fill its pages. -/
theorem slots_delivered_iff (r : MambaRequest) (out : MambaCache) (E : ManagerEnv)
    (memGetInfo : System → Nat × Nat) (schedule : List (List WorkerMove))
    (s₀ : Session AllocatorProcess) (h : r.allocMambaStates = .ok out)
    (hlayers : 0 < r.numMambaLayers) (hpage : E.pageSize = r.pageSize)
    (hinit : step ((managerArgs h hlayers).manager E)
      (((managerArgs h hlayers).allocator E).api memGetInfo)
      (start (.init ((managerArgs h hlayers).allocator E) schedule)) (.postInit true) = some s₀)
    (hphys : E.skipPhysicalFreeCheck = true ∨ ((managerArgs h hlayers).allocator E).numPages ≤
      physicalFreePages (((managerArgs h hlayers).allocator E).api memGetInfo) s₀.manager) :
    HandsOut (managerArgs h hlayers) E memGetInfo r.numSlots s₀ ↔
      r.pageSize / out.layout.cellSize ∣ r.numSlots := by
  constructor
  · intro hout
    exact dvd_of_handsOut hpage hinit hout
  · intro hdvd
    exact handsOut_of_dvd hpage hinit hphys hdvd

section Example

def largeDevice : System → Nat × Nat := fun _ => (2^35, 2^30)

def largeEnv : ManagerEnv :=
  { pageSize := 2097152, contiguousLayout := true, pageSize_pos := Numerals.natPos_pageBytes }

/-- Two pages of 128 cells. -/
def fullMamba : MambaRequest := { hybridMamba with numSlots := 256 }

def fullCache : MambaCache where
  states := .contiguous
    [⟨0, 2, ⟨[2, 256, 96, 3], [8192, 16384, 3, 1], 0⟩⟩,
      ⟨0, 2, ⟨[2, 256, 17, 3], [8192, 16384, 3, 1], 288⟩⟩]
    ⟨0, 4, ⟨[2, 256, 8, 16, 16], [4096, 8192, 256, 16, 1], 170⟩⟩
  layout := ⟨16384, 256, 2, [0, 576], 680, true⟩

theorem fullMamba_ok : fullMamba.allocMambaStates = .ok fullCache := by decide +kernel

def fullArgs : ManagerArgs := managerArgs fullMamba_ok (by decide)

theorem slots_delivered_full : ∃ s₀,
    step (fullArgs.manager largeEnv) ((fullArgs.allocator largeEnv).api largeDevice)
      (start (.init (fullArgs.allocator largeEnv) [])) (.postInit true) = some s₀ ∧
    HandsOut fullArgs largeEnv largeDevice 256 s₀ := by
  have hinit : step (fullArgs.manager largeEnv) ((fullArgs.allocator largeEnv).api largeDevice)
      (start (.init (fullArgs.allocator largeEnv) [])) (.postInit true) = some _ :=
    (Option.some_get (by decide +kernel)).symm
  exact ⟨_, hinit, (slots_delivered_iff fullMamba fullCache largeEnv largeDevice [] _ fullMamba_ok
    (by decide) rfl hinit (.inr (by decide +kernel))).mpr (by decide +kernel)⟩

def hybridArgs : ManagerArgs := managerArgs hybridMamba_ok (by decide)

/-- Of 200 slots the last 72 do not fill a page, and the memory for it does not help. -/
theorem last_page_missing : ∃ s₀,
    step (hybridArgs.manager largeEnv) ((hybridArgs.allocator largeEnv).api largeDevice)
      (start (.init (hybridArgs.allocator largeEnv) [])) (.postInit true) = some s₀ ∧
    2 ≤ physicalFreePages ((hybridArgs.allocator largeEnv).api largeDevice) s₀.manager ∧
    ¬HandsOut hybridArgs largeEnv largeDevice 200 s₀ := by
  have hinit : step (hybridArgs.manager largeEnv) ((hybridArgs.allocator largeEnv).api largeDevice)
      (start (.init (hybridArgs.allocator largeEnv) [])) (.postInit true) = some _ :=
    (Option.some_get (by decide +kernel)).symm
  refine ⟨_, hinit, by decide +kernel, fun hout => ?_⟩
  have hdvd : hybridMamba.pageSize / hybridCache.layout.cellSize ∣ hybridMamba.numSlots :=
    dvd_of_handsOut rfl hinit hout
  exact absurd hdvd (by decide +kernel)

end Example

end MambaRequest

end GpuSharing.Integration
