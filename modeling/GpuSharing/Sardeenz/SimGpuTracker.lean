import Mathlib.Algebra.Order.Floor.Ring
import Mathlib.Data.Rat.Floor
import Mathlib.Order.Monotone.Defs
import Mathlib.Tactic.Positivity
import GpuSharing.Lib.Ledger
import GpuSharing.Sardeenz.ProcessLog

namespace GpuSharing.Sardeenz

open Ledger

/-- How JavaScript rounds the exact result of an operation. -/
structure Rounding where
  round : ℚ → ℚ
  mono : Monotone round
  zero : round 0 = 0

theorem Rounding.nonneg (D : Rounding) {x : ℚ} (h : 0 ≤ x) : 0 ≤ D.round x := by
  rw [← D.zero]
  exact D.mono h

namespace ModelMemory

def isWordChar (c : Char) : Bool := c.isAlphanum || c = '_'

def decimal (digits : List Char) : Nat := Nat.ofDigitChars 10 digits 0

/-- The number that `(\d+(?:\.\d+)?)` matches at the beginning of a text, and the rest. Giving digits
back would not help the match, as no digit can follow the number. -/
def matchNumber (text : List Char) : Option (ℚ × List Char) :=
  let whole := text.takeWhile Char.isDigit
  let rest := text.dropWhile Char.isDigit
  if whole.isEmpty then none
  else match rest with
    | '.' :: more =>
      let places := more.takeWhile Char.isDigit
      if places.isEmpty then some (decimal whole, rest)
      else some (decimal whole + decimal places / 10 ^ places.length, more.dropWhile Char.isDigit)
    | _ => some (decimal whole, rest)

/-- `SIZE_REGEX` at the beginning of a text. -/
def matchSize (text : List Char) : Option ℚ :=
  (matchNumber text).bind fun m => match m.2.dropWhile ProcessLog.isSpace with
    | c :: after =>
      if (c = 'b' ∨ c = 'B') ∧ (after.head?.map isWordChar).getD false = false then some m.1
      else none
    | [] => none

structure ModelMemoryEstimate where
  detectedSizeB : Option ℚ
  estimatedMemoryGB : ℚ
  deriving DecidableEq, Repr

/-- The leftmost match counts. -/
def estimateModelMemory (D : Rounding) (modelPath : List Char) (defaultMemoryGB : Nat) :
    ModelMemoryEstimate :=
  match modelPath.tails.findSome? matchSize with
  | none => ⟨none, defaultMemoryGB⟩
  | some matched =>
    let params := D.round matched
    ⟨params, if params ≤ 30 then D.round (params * 2) else D.round (D.round (params / 2) + 2)⟩

theorem matchNumber_nonneg {text rest : List Char} {x : ℚ} (h : matchNumber text = some (x, rest)) :
    0 ≤ x := by
  unfold matchNumber at h
  dsimp only at h
  split_ifs at h
  split at h
  · split_ifs at h
    · cases h
      positivity
    · cases h
      positivity
  · cases h
    positivity

theorem estimatedMemoryGB_nonneg (D : Rounding) (modelPath : List Char) (defaultMemoryGB : Nat) :
    0 ≤ (estimateModelMemory D modelPath defaultMemoryGB).estimatedMemoryGB := by
  unfold estimateModelMemory
  split
  case h_1 => positivity
  case h_2 matched hmatched =>
    obtain ⟨text, -, hsize⟩ := List.exists_of_findSome?_eq_some hmatched
    obtain ⟨⟨x, rest⟩, hnumber, hsize⟩ := Option.bind_eq_some_iff.mp hsize
    have hx : matched = x := by
      dsimp only at hsize
      split at hsize
      · split_ifs at hsize
        exact (Option.some.inj hsize).symm
      · cases hsize
    have hparams : 0 ≤ D.round matched := D.nonneg (hx ▸ matchNumber_nonneg hnumber)
    dsimp only
    split_ifs
    · exact D.nonneg (by positivity)
    · have hhalf : 0 ≤ D.round (D.round matched / 2) := D.nonneg (by positivity)
      exact D.nonneg (by positivity)

/-- What the startup monitor asks for on each of `n` GPUs. -/
def perGpuMemoryMB (D : Rounding) (estimatedMemoryGB : ℚ) (n : Nat) : ℚ :=
  let estimatedMemoryMB := D.round (estimatedMemoryGB * 1024)
  if 1 < n then ⌈D.round (estimatedMemoryMB / n)⌉ else estimatedMemoryMB

theorem perGpuMemoryMB_nonneg (D : Rounding) {estimatedMemoryGB : ℚ} (h : 0 ≤ estimatedMemoryGB)
    (n : Nat) : 0 ≤ perGpuMemoryMB D estimatedMemoryGB n := by
  have hall : 0 ≤ D.round (estimatedMemoryGB * 1024) := D.nonneg (by positivity)
  unfold perGpuMemoryMB
  dsimp only
  split_ifs
  · have hpart : 0 ≤ D.round (D.round (estimatedMemoryGB * 1024) / n) := D.nonneg (by positivity)
    exact_mod_cast Int.ceil_nonneg hpart
  · exact hall

end ModelMemory

/-- The Map `models` has the memory of each instance. -/
structure SimulatedGpu (Id : Type) where
  totalMemoryMB : ℚ
  usedMemoryMB : ℚ
  models : Dict Id ℚ

inductive SimGpuError
  | notFound (gpuIndex : Nat)
  | insufficient (gpuIndex : Nat) (memoryMB availableMB totalMemoryMB usedMemoryMB : ℚ)
  deriving DecidableEq, Repr

/-- The Map `gpus`, which has the keys from 0 on. -/
abbrev SimGpuTracker (Id : Type) := List (SimulatedGpu Id)

namespace SimGpuTracker

variable {Id : Type} [DecidableEq Id] (D : Rounding)

/-- `initialize`. -/
def initGpus (gpuCount memoryPerGpuGB : Nat) : SimGpuTracker Id :=
  List.replicate gpuCount ⟨memoryPerGpuGB * 1024, 0, ∅⟩

/-- What `usedMemoryMB` would be with `memoryMB` more. -/
def usedWith (gpu : SimulatedGpu Id) (memoryMB : ℚ) : ℚ := D.round (gpu.usedMemoryMB + memoryMB)

def allocate (gpuIndex : Nat) (instanceId : Id) (memoryMB : ℚ) (gpus : SimGpuTracker Id) :
    Except SimGpuError Unit × SimGpuTracker Id :=
  match gpus[gpuIndex]? with
  | none => (.error (.notFound gpuIndex), gpus)
  | some gpu =>
    if gpu.totalMemoryMB < usedWith D gpu memoryMB then
      (.error (.insufficient gpuIndex memoryMB (D.round (gpu.totalMemoryMB - gpu.usedMemoryMB))
        gpu.totalMemoryMB gpu.usedMemoryMB), gpus)
    else
      (.ok (), gpus.set gpuIndex { gpu with
        models := gpu.models.setItem instanceId memoryMB
        usedMemoryMB := usedWith D gpu memoryMB })

/-- What `deallocate` does to one GPU. -/
def release (instanceId : Id) (gpu : SimulatedGpu Id) : SimulatedGpu Id :=
  match gpu.models.lookup instanceId with
  | some memoryMB => { gpu with
      usedMemoryMB := D.round (gpu.usedMemoryMB - memoryMB)
      models := AList.erase instanceId gpu.models }
  | none => gpu

def deallocate (instanceId : Id) (gpus : SimGpuTracker Id) : SimGpuTracker Id :=
  gpus.map (release D instanceId)

/-- The loop of the startup monitor over `gpuIds`. -/
def allocateAll (instanceId : Id) (memoryMB : ℚ) :
    List Nat → SimGpuTracker Id → Except SimGpuError Unit × SimGpuTracker Id
  | [], gpus => (.ok (), gpus)
  | gpuIndex :: gpuIds, gpus => match allocate D gpuIndex instanceId memoryMB gpus with
    | (.ok (), gpus) => allocateAll instanceId memoryMB gpuIds gpus
    | (.error e, gpus) => (.error e, gpus)

/-- The used memory is that of the instances recorded, and within the total. -/
structure Balanced (gpu : SimulatedGpu Id) : Prop where
  used : gpu.usedMemoryMB = held gpu.models
  le_total : gpu.usedMemoryMB ≤ gpu.totalMemoryMB

/-- No instance is recorded with less than nothing. -/
def Nonneg (gpu : SimulatedGpu Id) : Prop := ∀ i memoryMB, gpu.models.lookup i = some memoryMB →
  0 ≤ memoryMB

/-- Memory is recorded for the instance on some GPU. -/
def Recorded (gpus : SimGpuTracker Id) (i : Id) : Prop := ∃ gpu ∈ gpus, i ∈ gpu.models

/-- The sums that the loop of the monitor computes where there is room are exact. -/
def SumsExact (memoryMB : ℚ) (gpus : SimGpuTracker Id) : List Nat → Prop
  | [] => True
  | gpuIndex :: gpuIds => ∀ gpu ∈ gpus[gpuIndex]?, usedWith D gpu memoryMB ≤ gpu.totalMemoryMB →
      usedWith D gpu memoryMB = gpu.usedMemoryMB + memoryMB ∧ SumsExact memoryMB gpus gpuIds

/-- So are the differences that `deallocate` computes. -/
def DifferencesExact (gpus : SimGpuTracker Id) (i : Id) : Prop :=
  ∀ gpu ∈ gpus, ∀ memoryMB ∈ gpu.models.lookup i,
    D.round (gpu.usedMemoryMB - memoryMB) = gpu.usedMemoryMB - memoryMB

instance decidableRecorded (gpus : SimGpuTracker Id) (i : Id) : Decidable (Recorded gpus i) :=
  inferInstanceAs (Decidable (∃ gpu ∈ gpus, i ∈ gpu.models))

instance decidableSumsExact (memoryMB : ℚ) (gpus : SimGpuTracker Id) :
    ∀ gpuIds, Decidable (SumsExact D memoryMB gpus gpuIds)
  | [] => .isTrue trivial
  | _ :: gpuIds =>
    have := decidableSumsExact memoryMB gpus gpuIds
    inferInstanceAs (Decidable (∀ gpu ∈ _, _ → _ ∧ SumsExact D memoryMB gpus gpuIds))

instance decidableDifferencesExact (gpus : SimGpuTracker Id) (i : Id) : Decidable (DifferencesExact D gpus i) :=
  inferInstanceAs (Decidable (∀ gpu ∈ gpus, ∀ memoryMB ∈ gpu.models.lookup i, _ = _))

variable {D} {i j : Id} {memoryMB : ℚ} {gpuIndex : Nat} {gpuIds : List Nat}
  {gpu : SimulatedGpu Id} {gpus gpus' : SimGpuTracker Id} {r : Except SimGpuError Unit}

theorem allocate_cases (h : allocate D gpuIndex i memoryMB gpus = (r, gpus')) :
    (∃ e, r = .error e ∧ gpus' = gpus ∧
      ∀ gpu, gpus[gpuIndex]? = some gpu → gpu.totalMemoryMB < usedWith D gpu memoryMB) ∨
    ∃ gpu, gpus[gpuIndex]? = some gpu ∧ usedWith D gpu memoryMB ≤ gpu.totalMemoryMB ∧ r = .ok () ∧
      gpus' = gpus.set gpuIndex { gpu with
        models := gpu.models.setItem i memoryMB
        usedMemoryMB := usedWith D gpu memoryMB } := by
  unfold allocate at h
  cases hgpu : gpus[gpuIndex]? with
  | none =>
    rw [hgpu] at h
    cases h
    exact .inl ⟨_, rfl, rfl, nofun⟩
  | some gpu =>
    rw [hgpu] at h
    dsimp only at h
    split_ifs at h with hroom
    · cases h
      refine .inl ⟨_, rfl, rfl, ?_⟩
      intro gpu' hgpu'
      cases hgpu'
      exact hroom
    · cases h
      exact .inr ⟨gpu, rfl, not_lt.mp hroom, rfl, rfl⟩

/-- What the tracker keeps of each GPU. -/
def Kept (gpus : SimGpuTracker Id) : Prop := ∀ gpu ∈ gpus, Balanced gpu ∧ Nonneg gpu

theorem kept_initGpus (gpuCount memoryPerGpuGB : Nat) :
    Kept (initGpus gpuCount memoryPerGpuGB : SimGpuTracker Id) := by
  intro gpu hgpu
  rw [List.eq_of_mem_replicate hgpu]
  have htotal : (0 : ℚ) ≤ memoryPerGpuGB * 1024 := by positivity
  exact ⟨⟨rfl, htotal⟩, nofun⟩

omit [DecidableEq Id] in
theorem not_recorded_initGpus (gpuCount memoryPerGpuGB : Nat) :
    ¬Recorded (initGpus gpuCount memoryPerGpuGB) i := by
  intro h
  obtain ⟨gpu, hgpu, hi⟩ := h
  rw [List.eq_of_mem_replicate hgpu] at hi
  exact AList.notMem_empty _ hi

omit [DecidableEq Id] in
theorem sumsExact_congr (h : ∀ gpuIndex ∈ gpuIds, gpus'[gpuIndex]? = gpus[gpuIndex]?) :
    SumsExact D memoryMB gpus' gpuIds ↔ SumsExact D memoryMB gpus gpuIds := by
  induction gpuIds with
  | nil => exact Iff.rfl
  | cons gpuIndex gpuIds ih =>
    obtain ⟨hhead, hrest⟩ := List.forall_mem_cons.mp h
    simp only [SumsExact, hhead, ih hrest]

/-- Memory for an instance that has none on the GPU. -/
theorem Kept.allocate (hkept : Kept gpus) (hmem : 0 ≤ memoryMB)
    (hgpu : gpus[gpuIndex]? = some gpu) (hnew : i ∉ gpu.models)
    (hroom : usedWith D gpu memoryMB ≤ gpu.totalMemoryMB)
    (hexact : usedWith D gpu memoryMB = gpu.usedMemoryMB + memoryMB) :
    Kept (gpus.set gpuIndex { gpu with
      models := gpu.models.setItem i memoryMB
      usedMemoryMB := usedWith D gpu memoryMB }) := by
  obtain ⟨hbalanced, hnonneg⟩ := hkept gpu (List.mem_of_getElem? hgpu)
  intro gpu' hgpu'
  rcases List.mem_or_eq_of_mem_set hgpu' with hold | rfl
  · exact hkept gpu' hold
  · refine ⟨⟨?_, hroom⟩, ?_⟩
    · change usedWith D gpu memoryMB = held (gpu.models.setItem i memoryMB)
      rw [held_setItem hnew, hexact, hbalanced.used, add_comm]
    · intro j amount hj
      rcases Dict.lookup_setItem_some hj with ⟨-, rfl⟩ | hj
      · exact hmem
      · exact hnonneg j amount hj

/-- The loop visits each GPU once, so it finds each as it was. -/
theorem Kept.allocateAll (hkept : Kept gpus) (hmem : 0 ≤ memoryMB) (hnodup : gpuIds.Nodup)
    (hnew : ∀ gpuIndex ∈ gpuIds, ∀ gpu, gpus[gpuIndex]? = some gpu → i ∉ gpu.models)
    (hexact : SumsExact D memoryMB gpus gpuIds) :
    Kept (allocateAll D i memoryMB gpuIds gpus).2 := by
  induction gpuIds generalizing gpus with
  | nil => exact hkept
  | cons gpuIndex gpuIds ih =>
    obtain ⟨hapart, hnodup⟩ := List.nodup_cons.mp hnodup
    obtain ⟨hhead, hnew⟩ := List.forall_mem_cons.mp hnew
    unfold SimGpuTracker.allocateAll
    generalize hcall : SimGpuTracker.allocate D gpuIndex i memoryMB gpus = result
    obtain ⟨r, gpus'⟩ := result
    rcases allocate_cases hcall with ⟨e, rfl, rfl, -⟩ | ⟨gpu, hgpu, hroom, rfl, rfl⟩
    · exact hkept
    · obtain ⟨hsum, hrest⟩ := hexact gpu hgpu hroom
      have hothers : ∀ other ∈ gpuIds, (gpus.set gpuIndex { gpu with
          models := gpu.models.setItem i memoryMB
          usedMemoryMB := usedWith D gpu memoryMB })[other]? = gpus[other]? := by
        intro other hother
        apply List.getElem?_set_ne
        exact fun heq => hapart (heq ▸ hother)
      apply ih (hkept.allocate hmem hgpu (hhead gpu hgpu) hroom hsum) hnodup
      · intro other hother gpu' hgpu'
        rw [hothers other hother] at hgpu'
        exact hnew other hother gpu' hgpu'
      · exact (sumsExact_congr hothers).mpr hrest

/-- The loop stops at a first GPU without room. -/
theorem allocateAll_noRoom (h : ∀ gpuIndex ∈ gpuIds.head?, ∀ gpu, gpus[gpuIndex]? = some gpu →
    gpu.totalMemoryMB < usedWith D gpu memoryMB) :
    (allocateAll D i memoryMB gpuIds gpus).2 = gpus := by
  cases gpuIds with
  | nil => rfl
  | cons gpuIndex gpuIds =>
    unfold allocateAll
    generalize hcall : allocate D gpuIndex i memoryMB gpus = result
    obtain ⟨r, gpus'⟩ := result
    rcases allocate_cases hcall with ⟨e, rfl, rfl, -⟩ | ⟨gpu, hgpu, hroom, -, -⟩
    · rfl
    · exact absurd (h gpuIndex rfl gpu hgpu) (not_lt.mpr hroom)

/-- The loop records memory for its instance only. -/
theorem recorded_allocateAll (h : Recorded (allocateAll D i memoryMB gpuIds gpus).2 j) :
    j = i ∨ Recorded gpus j := by
  induction gpuIds generalizing gpus with
  | nil => exact .inr h
  | cons gpuIndex gpuIds ih =>
    unfold allocateAll at h
    generalize hcall : allocate D gpuIndex i memoryMB gpus = result at h
    obtain ⟨r, gpus'⟩ := result
    rcases allocate_cases hcall with ⟨e, rfl, rfl, -⟩ | ⟨gpu, hgpu, -, rfl, rfl⟩
    · exact .inr h
    · rcases ih h with heq | ⟨gpu', hgpu', hj⟩
      · exact .inl heq
      · rcases List.mem_or_eq_of_mem_set hgpu' with hold | rfl
        · exact .inr ⟨gpu', hold, hj⟩
        · rw [Dict.mem_iff_lookup] at hj
          obtain ⟨amount, hj⟩ := hj
          rcases Dict.lookup_setItem_some hj with ⟨heq, -⟩ | hj
          · exact .inl heq
          · exact .inr ⟨gpu, List.mem_of_getElem? hgpu, Dict.mem_iff_lookup.mpr ⟨amount, hj⟩⟩

theorem Kept.deallocate (hkept : Kept gpus) (hexact : DifferencesExact D gpus i) :
    Kept (deallocate D i gpus) := by
  intro gpu' hgpu'
  obtain ⟨gpu, hgpu, rfl⟩ := List.mem_map.mp hgpu'
  obtain ⟨hbalanced, hnonneg⟩ := hkept gpu hgpu
  unfold release
  split
  case h_1 memoryMB hfound =>
    have hdifference := hexact gpu hgpu memoryMB hfound
    have hsum := held_erase hfound
    have hused := hbalanced.used
    have hpos := hnonneg i memoryMB hfound
    refine ⟨⟨?_, ?_⟩, ?_⟩
    · change D.round (gpu.usedMemoryMB - memoryMB) = held (AList.erase i gpu.models)
      rw [hdifference]
      linarith
    · change D.round (gpu.usedMemoryMB - memoryMB) ≤ gpu.totalMemoryMB
      have hle := hbalanced.le_total
      rw [hdifference]
      linarith
    · intro j amount hj
      exact hnonneg j amount (Dict.lookup_erase_some hj).2
  case h_2 => exact ⟨hbalanced, hnonneg⟩

theorem mem_release {gpu : SimulatedGpu Id} (h : j ∈ (release D i gpu).models) :
    j ≠ i ∧ j ∈ gpu.models := by
  unfold release at h
  split at h
  case h_1 memoryMB hfound =>
    obtain ⟨hne, hj⟩ := AList.mem_erase.mp h
    exact ⟨hne, hj⟩
  case h_2 hnone =>
    refine ⟨?_, h⟩
    rintro rfl
    exact AList.lookup_eq_none.mp hnone h

/-- `deallocate` takes the instance off all GPUs. -/
theorem recorded_deallocate (h : Recorded (deallocate D i gpus) j) : j ≠ i ∧ Recorded gpus j := by
  obtain ⟨gpu', hgpu', hj⟩ := h
  obtain ⟨gpu, hgpu, rfl⟩ := List.mem_map.mp hgpu'
  obtain ⟨hne, hj⟩ := mem_release hj
  exact ⟨hne, gpu, hgpu, hj⟩

end SimGpuTracker

end GpuSharing.Sardeenz
