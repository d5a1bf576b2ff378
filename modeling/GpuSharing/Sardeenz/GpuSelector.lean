import Mathlib.Algebra.BigOperators.Group.List.Basic
import Mathlib.Algebra.Order.BigOperators.Group.List
import Mathlib.Algebra.Order.Floor.Ring
import Mathlib.Data.List.Perm.Basic
import Mathlib.Data.Rat.Floor
import GpuSharing.Lib.Windows
import GpuSharing.Sardeenz.LaunchOptions

namespace GpuSharing.Sardeenz.GpuSelector

open SavedLaunches (getTargetGpus uniqueIds)
open Windows

/-- The fields of a `GpuStatus` that the selector reads. -/
structure GpuStatus where
  index : Nat
  memoryTotalMB : ℚ
  memoryUsedMB : ℚ
  used_le : memoryUsedMB ≤ memoryTotalMB

def GpuStatus.freeMB (g : GpuStatus) : ℚ := g.memoryTotalMB - g.memoryUsedMB

/-- What `getNvidiaSmiInfo` reports. -/
structure Host where
  gpus : List GpuStatus
  nodup : (gpus.map (·.index)).Nodup

structure GpuRecommendation where
  gpuId : Nat
  freeMemoryGb : ℚ
  reason : String
  deriving DecidableEq

/-- `toFixed(1)`, for numbers that are not negative. -/
def toFixed1 (x : ℚ) : String :=
  let tenths := ⌊x * 10 + 1 / 2⌋.toNat
  s!"{tenths / 10}.{tenths % 10}"

def combinedFree (gpus : List GpuStatus) : ℚ := (gpus.map (·.freeMB)).sum

def sortedByIndex (gpus : List GpuStatus) : List GpuStatus :=
  gpus.mergeSort fun a b => decide (a.index ≤ b.index)

def sortedByFree (gpus : List GpuStatus) : List GpuStatus :=
  gpus.mergeSort fun a b => decide (b.freeMB ≤ a.freeMB)

/-- The combined free memory of the `k` GPUs from the one at a position on, in the order of the ids. -/
def freeTotal (gpus : List GpuStatus) (k start : Nat) : ℚ :=
  combinedFree (window (sortedByIndex gpus) k start)

/-- `bestStart` and `bestFreeTotal` after the loop. -/
def bestWindow (gpus : List GpuStatus) (k : Nat) : Nat × ℚ :=
  (List.range (gpus.length + 1 - k)).foldl (keepLarger (freeTotal gpus k)) (0, 0)

def getRecommendedGpu (gpus : List GpuStatus) (k : Nat) : Except String GpuRecommendation :=
  match sortedByFree gpus with
  | [] => .error "No GPUs detected"
  | best :: _ =>
    if k = 1 then
      let freeGb := best.freeMB / 1024
      .ok ⟨best.index, freeGb,
        s!"GPU {best.index} has most free memory ({toFixed1 freeGb} GB)"⟩
    else if gpus.length < k then
      .error s!"Requested {k} execution GPU(s) but only {gpus.length} GPU(s) available"
    else
      let best := bestWindow gpus k
      -- with `k = 0` the last position is -1
      let last := if best.1 + k = 0 then none else (sortedByIndex gpus)[best.1 + k - 1]?
      match (sortedByIndex gpus)[best.1]?, last with
      | some first, some last =>
        .ok ⟨first.index, best.2 / 1024,
          s!"GPUs {first.index}-{last.index} have most combined free memory ({toFixed1 (best.2 / 1024)} GB)"⟩
      | _, _ => .error "Cannot read properties of undefined (reading 'index')"

/-- `getTargetGpus` without `gpuIds`. -/
def autoSelect (gpus : List GpuStatus) (k : Nat) : Except String (List Nat) :=
  (getRecommendedGpu gpus k).map fun recommendation =>
    if 1 < k then (List.range k).map (recommendation.gpuId + ·) else [recommendation.gpuId]

/-- Those that the selection considers: every GPU, or every run of `k` GPUs in the order of their
ids. -/
def selections (gpus : List GpuStatus) (k : Nat) : List (List GpuStatus) :=
  if k = 1 then gpus.map fun g => [g] else windows k (sortedByIndex gpus)

/-- The selection returns `k` distinct ids that are in the list, those of the selection with the most
combined free memory. -/
def Upholds (gpus : List GpuStatus) (k : Nat) : Prop :=
  ∃ ids, autoSelect gpus k = .ok ids ∧ ids.Nodup ∧ ids.length = k ∧
    (∀ id ∈ ids, id ∈ gpus.map (·.index)) ∧
    ∃ chosen ∈ selections gpus k, chosen.map (·.index) = ids ∧
      ∀ other ∈ selections gpus k, combinedFree other ≤ combinedFree chosen

/-- The first run of `k` GPUs, in the order of the ids, with the most combined free memory has ids
without a gap. -/
def BestHasNoGap (gpus : List GpuStatus) (k : Nat) : Prop :=
  ∃ start first, FirstMax (freeTotal gpus k) (gpus.length + 1 - k) start ∧
    (window (sortedByIndex gpus) k start).map (·.index) = List.range' first k

section

variable {gpus : List GpuStatus} {k : Nat}

theorem length_sortedByIndex : (sortedByIndex gpus).length = gpus.length :=
  List.length_mergeSort gpus

theorem sortedByFree_ne_nil (h : gpus ≠ []) : sortedByFree gpus ≠ [] := by
  intro hnil
  have hlen : (sortedByFree gpus).length = gpus.length := List.length_mergeSort gpus
  rw [hnil] at hlen
  exact h (List.length_eq_zero_iff.mp hlen.symm)

theorem mem_sortedByIndex {g : GpuStatus} : g ∈ sortedByIndex gpus ↔ g ∈ gpus :=
  List.mem_mergeSort

theorem pairwise_sortedByIndex (h : (gpus.map (·.index)).Nodup) :
    ((sortedByIndex gpus).map (·.index)).Pairwise (· < ·) := by
  have hsorted : (sortedByIndex gpus).Pairwise fun a b => decide (a.index ≤ b.index) = true :=
    List.pairwise_mergeSort (fun a b c hab hbc => by simp only [decide_eq_true_eq] at *; omega)
      (fun a b => by simp only [Bool.or_eq_true, decide_eq_true_eq]; omega) gpus
  have hnodup : ((sortedByIndex gpus).map (·.index)).Nodup :=
    ((List.mergeSort_perm gpus _).map _).nodup_iff.mpr h
  rw [List.pairwise_map]
  rw [List.nodup_iff_pairwise_ne, List.pairwise_map] at hnodup
  refine (hsorted.and hnodup).imp fun hab => ?_
  obtain ⟨hle, hne⟩ := hab
  rw [decide_eq_true_eq] at hle
  omega

theorem freeMB_nonneg (g : GpuStatus) : 0 ≤ g.freeMB := sub_nonneg.mpr g.used_le

theorem freeTotal_nonneg (start : Nat) : 0 ≤ freeTotal gpus k start := by
  refine List.sum_nonneg fun x hx => ?_
  obtain ⟨g, -, rfl⟩ := List.mem_map.mp hx
  exact freeMB_nonneg g

theorem bestWindow_firstMax (hk : k ≤ gpus.length) :
    FirstMax (freeTotal gpus k) (gpus.length + 1 - k) (bestWindow gpus k).1 := by
  have hlen : gpus.length + 1 - k = gpus.length - k + 1 := by omega
  rw [bestWindow, hlen]
  exact (foldl_keepLarger freeTotal_nonneg _).1

/-- The ids of a launch without requested GPUs are those that the selector returns. -/
theorem autoSelect_eq_getTargetGpus {recommendation : GpuRecommendation}
    (h : getRecommendedGpu gpus k = .ok recommendation) (hk : 1 ≤ k) :
    (autoSelect gpus k).toOption = getTargetGpus (fun _ => recommendation.gpuId) none k := by
  have hmax : max k 1 = k := Nat.max_eq_left hk
  simp only [autoSelect, h, Except.map, Except.toOption, getTargetGpus, Option.getD_none, uniqueIds,
    if_true, hmax]
  split
  · rfl
  · obtain rfl : k = 1 := by omega
    rfl

theorem mem_windows_sorted {w : List GpuStatus} (hk : k ≤ gpus.length) :
    w ∈ windows k (sortedByIndex gpus) ↔
      ∃ start < gpus.length + 1 - k, window (sortedByIndex gpus) k start = w := by
  rw [mem_windows (by rwa [length_sortedByIndex]), length_sortedByIndex]
  refine exists_congr fun start => and_congr_left fun _ => ?_
  omega

/-- A single GPU is selected for its free memory. -/
theorem upholds_one (h : gpus ≠ []) : Upholds gpus 1 := by
  cases hsorted : sortedByFree gpus with
  | nil =>
    exact absurd hsorted (sortedByFree_ne_nil h)
  | cons best rest =>
    have hmem : ∀ g, g ∈ best :: rest ↔ g ∈ gpus := fun g => by
      rw [← hsorted]
      exact List.mem_mergeSort
    have hbest := (hmem best).mp List.mem_cons_self
    have hpairs : (best :: rest).Pairwise fun a b => decide (b.freeMB ≤ a.freeMB) = true := by
      rw [← hsorted]
      refine List.pairwise_mergeSort (fun a b c hab hbc => ?_) (fun a b => ?_) gpus
      · rw [decide_eq_true_eq] at *
        exact hbc.trans hab
      · rw [Bool.or_eq_true, decide_eq_true_eq, decide_eq_true_eq]
        exact le_total _ _
    refine ⟨[best.index], ?_, List.nodup_singleton _, rfl, ?_, [best], ?_, rfl, ?_⟩
    · simp [autoSelect, getRecommendedGpu, hsorted, Except.map]
    · intro id hid
      rw [List.mem_singleton.mp hid]
      exact List.mem_map_of_mem hbest
    · simpa [selections] using hbest
    · intro other hother
      simp only [selections, if_true, List.mem_map] at hother
      obtain ⟨g, hg, rfl⟩ := hother
      simp only [combinedFree, List.map_cons, List.map_nil, List.sum_cons, List.sum_nil, add_zero]
      rcases List.mem_cons.mp ((hmem g).mpr hg) with rfl | hrest
      · exact le_rfl
      · exact of_decide_eq_true (List.rel_of_pairwise_cons hpairs hrest)

theorem bestHasNoGap_one (hlen : 1 ≤ gpus.length) : BestHasNoGap gpus 1 := by
  have hmax := bestWindow_firstMax hlen
  have hlt : (bestWindow gpus 1).1 < (sortedByIndex gpus).length := by
    rw [length_sortedByIndex]
    exact hmax.lt
  refine ⟨_, (sortedByIndex gpus)[(bestWindow gpus 1).1].index, hmax, ?_⟩
  rw [window_succ hlt]
  rfl

/-- Without a GPU to select, the last position of the best run is undefined. -/
theorem autoSelect_zero : ∃ text, autoSelect gpus 0 = .error text := by
  have hmax : FirstMax (freeTotal gpus 0) _ _ := bestWindow_firstMax (Nat.zero_le _)
  have hzero : ∀ start, freeTotal gpus 0 start = 0 := fun _ => rfl
  have hstart : (bestWindow gpus 0).1 = 0 := by
    by_contra hne
    have hlt := hmax.first 0 (Nat.pos_of_ne_zero hne)
    rw [hzero, hzero] at hlt
    exact lt_irrefl _ hlt
  cases hsorted : sortedByFree gpus with
  | nil => exact ⟨_, by simp only [autoSelect, getRecommendedGpu, hsorted, Except.map]; rfl⟩
  | cons best rest =>
    refine ⟨"Cannot read properties of undefined (reading 'index')", ?_⟩
    simp only [autoSelect, getRecommendedGpu, hsorted, Nat.zero_ne_one, if_false, Nat.not_lt_zero,
      hstart, Nat.add_zero, if_true]
    cases (sortedByIndex gpus)[0]? <;> rfl

/-- Several GPUs are selected by the id of the first one of the best run. -/
theorem autoSelect_many (hk : 2 ≤ k) (hlen : k ≤ gpus.length) :
    ∃ first, (sortedByIndex gpus)[(bestWindow gpus k).1]? = some first ∧
      autoSelect gpus k = .ok (List.range' first.index k) := by
  have hstart := (bestWindow_firstMax hlen).lt
  have hsorted : (sortedByIndex gpus).length = gpus.length := length_sortedByIndex
  have hfirst : (bestWindow gpus k).1 < (sortedByIndex gpus).length := by omega
  have hlast : (bestWindow gpus k).1 + k - 1 < (sortedByIndex gpus).length := by omega
  refine ⟨_, List.getElem?_eq_getElem hfirst, ?_⟩
  have hne : gpus ≠ [] := fun hnil => by simp [hnil] at hlen; omega
  obtain ⟨best, rest, hcons⟩ := List.exists_cons_of_ne_nil (sortedByFree_ne_nil hne)
  have hone : k ≠ 1 := by omega
  have hnonneg : (bestWindow gpus k).1 + k ≠ 0 := by omega
  simp only [autoSelect, getRecommendedGpu, hcons, hone, if_false, Nat.not_lt.mpr hlen, hnonneg,
    List.getElem?_eq_getElem hfirst, List.getElem?_eq_getElem hlast, Except.map,
    if_pos (show 1 < k by omega), List.range'_eq_map_range]

theorem upholds_many (hnodup : (gpus.map (·.index)).Nodup) (hk : 2 ≤ k) (hlen : k ≤ gpus.length) :
    Upholds gpus k ↔ BestHasNoGap gpus k := by
  obtain ⟨first, hfirst, hselect⟩ := autoSelect_many hk hlen
  have hmax := bestWindow_firstMax hlen
  have hone : k ≠ 1 := by omega
  have hindex : ((sortedByIndex gpus).map (·.index))[(bestWindow gpus k).1]? =
      some first.index := by rw [List.getElem?_map, hfirst, Option.map_some]
  have hend : (bestWindow gpus k).1 + k ≤ ((sortedByIndex gpus).map (·.index)).length := by
    have := hmax.lt
    rw [List.length_map, length_sortedByIndex]
    omega
  have hwindow := window_eq_range' (pairwise_sortedByIndex hnodup) hindex hend
  have hmem : ∀ id, id ∈ (sortedByIndex gpus).map (·.index) ↔ id ∈ gpus.map (·.index) := fun id => by
    simp [mem_sortedByIndex]
  rw [window_map] at hwindow
  simp only [hmem] at hwindow
  constructor
  · rintro ⟨ids, hids, -, -, hall, -⟩
    rw [hselect] at hids
    cases hids
    exact ⟨_, _, hmax, hwindow.mpr hall⟩
  · rintro ⟨start, id, hstart, hids⟩
    obtain rfl := hstart.unique hmax
    have hlength : (window (sortedByIndex gpus) k (bestWindow gpus k).1).length = k :=
      length_window (by rw [length_sortedByIndex]; have := hmax.lt; omega)
    -- the run begins with the GPU that is recommended
    have hid : id = first.index := by
      have hhead := congrArg List.head? hids
      rw [List.head?_map, window, List.head?_take, List.head?_drop, hfirst, List.head?_range'] at hhead
      simpa [show k ≠ 0 by omega] using hhead.symm
    subst hid
    refine ⟨_, hselect, List.nodup_range', List.length_range', hwindow.mp hids, _, ?_, hids, ?_⟩
    · rw [selections, if_neg hone, mem_windows_sorted hlen]
      exact ⟨_, hmax.lt, rfl⟩
    · intro other hother
      rw [selections, if_neg hone, mem_windows_sorted hlen] at hother
      obtain ⟨start, hlt, rfl⟩ := hother
      exact hmax.le start hlt

end

/-- On every host, the automatic selection of `k` GPUs is one of existing GPUs, the best of those it
considers, exactly when the best run of `k` GPUs has no gap in its ids. -/
theorem auto_select_iff (host : Host) {k : Nat} (hk : k ≤ host.gpus.length) :
    Upholds host.gpus k ↔ 1 ≤ k ∧ BestHasNoGap host.gpus k := by
  rcases Nat.lt_trichotomy k 1 with h | rfl | h
  · obtain rfl : k = 0 := by omega
    refine iff_of_false ?_ (fun h => absurd h.1 (by decide))
    rintro ⟨ids, hids, -⟩
    obtain ⟨text, htext⟩ : ∃ text, autoSelect host.gpus 0 = .error text := autoSelect_zero
    rw [htext] at hids
    cases hids
  · have hne : host.gpus ≠ [] := fun hnil => by simp [hnil] at hk
    exact iff_of_true (upholds_one hne) ⟨le_rfl, bestHasNoGap_one hk⟩
  · rw [and_iff_right (by omega)]
    exact upholds_many host.nodup (by omega) hk

/-- Three free GPUs of 80 GB, with the ids 0, 1 and 3. -/
def gappedHost : Host where
  gpus := [⟨0, 81920, 0, by norm_num⟩, ⟨1, 81920, 0, by norm_num⟩, ⟨3, 81920, 0, by norm_num⟩]
  nodup := by decide

theorem sortedByIndex_gappedHost : sortedByIndex gappedHost.gpus = gappedHost.gpus := by
  simp [sortedByIndex, gappedHost, List.mergeSort, List.MergeSort.Internal.splitInTwo]

/-- The only run of three GPUs begins with GPU 0, and so GPU 2 is selected, which does not exist. -/
theorem missing_gpu_selected :
    autoSelect gappedHost.gpus 3 = .ok [0, 1, 2] ∧ ¬Upholds gappedHost.gpus 3 := by
  have hlen : 3 ≤ gappedHost.gpus.length := by decide
  obtain ⟨first, hfirst, hselect⟩ := autoSelect_many (by decide) hlen
  have hstart : (bestWindow gappedHost.gpus 3).1 < 1 := (bestWindow_firstMax (by decide)).lt
  rw [Nat.lt_one_iff.mp hstart, sortedByIndex_gappedHost] at hfirst
  cases hfirst
  refine ⟨hselect, ?_⟩
  rintro ⟨ids, hids, -, -, hall, -⟩
  rw [hselect] at hids
  cases hids
  exact absurd (hall 2 (by decide)) (by decide)

/-- Of the same GPUs, two are selected well, since the first of the two best runs has no gap. -/
theorem auto_select_two : Upholds gappedHost.gpus 2 := by
  refine (auto_select_iff gappedHost (by decide)).mpr ⟨by decide, 0, 0, ⟨by decide, ?_, ?_⟩, ?_⟩
  · intro j hj
    have hcases : j = 0 ∨ j = 1 := by
      have : j < 2 := hj
      omega
    rcases hcases with rfl | rfl
    · exact le_rfl
    · simp only [freeTotal, sortedByIndex_gappedHost]
      rfl
  · exact fun j hj => absurd hj (Nat.not_lt_zero j)
  · rw [sortedByIndex_gappedHost]
    rfl

end GpuSharing.Sardeenz.GpuSelector
