import Mathlib.Algebra.Order.BigOperators.Group.List
import Mathlib.Algebra.Order.Floor.Ring
import Mathlib.Data.List.Sort
import Mathlib.Data.Rat.Floor
import GpuSharing.Lib.Interpolation

namespace GpuSharing.Sardeenz.BenchmarkMetrics

open Interpolation

/-- `sorted[i]`; `none` where the index is outside of the array. -/
def readAt {K : Type} (sorted : List K) : Int → Option K
  | .ofNat i => sorted[i]?
  | .negSucc _ => none

section Definitions

variable {K : Type} [Field K] [LinearOrder K] [FloorRing K]

/-- `percentile`; `none` when it reads outside of the array. -/
def percentile (sorted : List K) (p : K) : Option K :=
  if sorted.length = 0 then some 0
  else
    let index := p / 100 * ((sorted.length : K) - 1)
    let lower := ⌊index⌋
    let upper := ⌈index⌉
    if lower = upper then readAt sorted lower
    else do
      let low ← readAt sorted lower
      let high ← readAt sorted upper
      some (low + (high - low) * (index - lower))

/-- What a request has measured. -/
structure RequestResult (K : Type) where
  ttftMs : Option K
  totalLatencyMs : K
  completionTokens : Option K
  tokensPerSecond : Option K
  success : Bool

/-- The seven metrics that are computed for each kind of value. -/
structure Spread (K : Type) where
  min : K
  max : K
  avg : K
  p50 : Option K
  p90 : Option K
  p95 : Option K
  p99 : Option K

/-- The metrics of a sorted array of values, which are all undefined when it is empty. -/
def spread : List K → Option (Spread K)
  | [] => none
  | v :: vs => some
    { min := (v :: vs).min (List.cons_ne_nil v vs)
      max := (v :: vs).max (List.cons_ne_nil v vs)
      avg := (v :: vs).foldl (· + ·) 0 / ((v :: vs).length : K)
      p50 := percentile (v :: vs) 50
      p90 := percentile (v :: vs) 90
      p95 := percentile (v :: vs) 95
      p99 := percentile (v :: vs) 99 }

structure Metrics (K : Type) where
  scenarioId : String
  ttft : Option (Spread K)
  tps : Option (Spread K)
  e2e : Option (Spread K)
  goodputCount : Option Nat
  goodputPercent : Option K
  slaThresholdMs : Option K
  totalRequests : Nat
  successfulRequests : Nat
  failedRequests : Nat
  requestsPerSecond : Option K
  tokenPerSecondTotal : Option K

def sort (values : List K) : List K := values.mergeSort fun a b => a ≤ b

def calculateMetrics (scenarioId : String) (results : List (RequestResult K))
    (slaThresholdMs : Option K) : Metrics K :=
  let successful := results.filter (·.success)
  let failed := results.filter (!·.success)
  let ttftValues := sort (successful.filterMap (·.ttftMs))
  let tpsValues := sort (successful.filterMap (·.tokensPerSecond))
  let e2eValues := sort (successful.map (·.totalLatencyMs))
  let goodputCount : Nat := match slaThresholdMs with
    | some threshold => (successful.filter (·.totalLatencyMs < threshold)).length
    | none => 0
  let totalRequests := results.length
  let goodputPercent : K :=
    if 0 < totalRequests then (goodputCount : K) / totalRequests * 100 else 0
  let totalCompletionTokens : K := successful.foldl (fun sum r => sum + r.completionTokens.getD 0) 0
  let totalTimeMs : K := e2eValues.foldl (· + ·) 0
  let tokensPerSecondTotal : K :=
    if 0 < totalTimeMs then totalCompletionTokens / totalTimeMs * 1000 else 0
  { scenarioId := scenarioId
    ttft := spread ttftValues
    tps := spread tpsValues
    e2e := spread e2eValues
    goodputCount := slaThresholdMs.map fun _ => goodputCount
    goodputPercent := slaThresholdMs.map fun _ => goodputPercent
    slaThresholdMs := slaThresholdMs
    totalRequests := totalRequests
    successfulRequests := successful.length
    failedRequests := failed.length
    requestsPerSecond :=
      if 0 < totalTimeMs then some ((totalRequests : K) / totalTimeMs * 1000) else none
    tokenPerSecondTotal :=
      if 0 < tokensPerSecondTotal then some tokensPerSecondTotal else none }

end Definitions

/-- The elements of a list, and from its end on the last one. -/
def extended {K : Type} (sorted : List K) (hne : sorted ≠ []) (i : ℕ) : K :=
  sorted[i]?.getD (sorted.getLast hne)

section Extended

variable {K : Type} {sorted : List K} {i : ℕ}

theorem extended_zero (hne : sorted ≠ []) : extended sorted hne 0 = sorted.head hne := by
  cases sorted with
  | nil => exact absurd rfl hne
  | cons v vs => rfl

theorem extended_of_lt (hne : sorted ≠ []) (hi : i < sorted.length) :
    extended sorted hne i = sorted[i] := by
  rw [extended, List.getElem?_eq_getElem hi, Option.getD_some]

theorem extended_last (hne : sorted ≠ []) (hi : sorted.length - 1 ≤ i) :
    extended sorted hne i = sorted.getLast hne := by
  have hpos := List.length_pos_iff.mpr hne
  obtain rfl | hlt := hi.eq_or_lt
  · rw [extended_of_lt hne (by omega), List.getLast_eq_getElem]
  · rw [extended, List.getElem?_eq_none (by omega), Option.getD_none]

theorem extended_mono [Preorder K] (hne : sorted ≠ []) (hsorted : sorted.Pairwise (· ≤ ·)) :
    Monotone (extended sorted hne) := by
  refine monotone_nat_of_le_succ fun i => ?_
  by_cases hi : i + 1 < sorted.length
  · rw [extended_of_lt hne hi, extended_of_lt hne (Nat.lt_of_succ_lt hi)]
    exact List.pairwise_iff_getElem.mp hsorted i (i + 1) (Nat.lt_of_succ_lt hi) hi
      (Nat.lt_succ_self i)
  · rw [extended_last hne (by omega), extended_last hne (by omega)]

theorem readAt_natCast (hne : sorted ≠ []) (hi : i < sorted.length) :
    readAt sorted i = some (extended sorted hne i) := by
  rw [extended_of_lt hne hi]
  exact List.getElem?_eq_getElem hi

end Extended

section Percentile

variable {K : Type} [Field K] [LinearOrder K] [IsStrictOrderedRing K] [FloorRing K]
  {sorted : List K} {p q : K}

theorem index_bounds (hne : sorted ≠ []) (hp : 0 ≤ p) (hq : p ≤ 100) :
    0 ≤ p / 100 * ((sorted.length : K) - 1) ∧
      p / 100 * ((sorted.length : K) - 1) ≤ ((sorted.length - 1 : ℕ) : K) := by
  have hpos := List.length_pos_iff.mpr hne
  have hlast : ((sorted.length - 1 : ℕ) : K) = (sorted.length : K) - 1 := by
    rw [Nat.cast_sub hpos, Nat.cast_one]
  have hlength : 0 ≤ (sorted.length : K) - 1 := hlast ▸ Nat.cast_nonneg _
  have hshare : p / 100 ≤ 1 := by linarith
  refine ⟨mul_nonneg (by linarith) hlength, ?_⟩
  rw [hlast]
  exact mul_le_of_le_one_left hlength hshare

/-- Within its bounds `percentile` interpolates the array and reads inside of it only. -/
theorem percentile_eq (hne : sorted ≠ []) (hp : 0 ≤ p) (hq : p ≤ 100) :
    percentile sorted p =
      some (interpolate (extended sorted hne) (p / 100 * ((sorted.length : K) - 1))) := by
  obtain ⟨hlow, hhigh⟩ := index_bounds hne hp hq
  have hpos := List.length_pos_iff.mpr hne
  rw [percentile, if_neg hpos.ne']
  generalize p / 100 * ((sorted.length : K) - 1) = index at hlow hhigh
  have hlower : ⌊index⌋ = (⌊index⌋₊ : ℤ) := (Int.natCast_floor_eq_floor hlow).symm
  have hupper : ⌈index⌉ ≤ ((sorted.length - 1 : ℕ) : ℤ) := Int.ceil_le.mpr (by simpa using hhigh)
  have hle : ⌊index⌋ ≤ ⌈index⌉ := Int.floor_le_ceil index
  simp only
  split_ifs with heq
  · have hindex : (⌊index⌋₊ : K) = index := by
      rw [natCast_floor_eq_intCast_floor hlow]
      exact le_antisymm (Int.floor_le index) (heq ▸ Int.le_ceil index)
    rw [hlower, readAt_natCast hne (by omega), interpolate, hindex, sub_self, mul_zero, add_zero]
  · have hnext : ⌈index⌉ = ((⌊index⌋₊ + 1 : ℕ) : ℤ) := by
      have := Int.ceil_le_floor_add_one index
      omega
    rw [hnext, hlower, readAt_natCast hne (by omega), readAt_natCast hne (by omega)]
    simp [interpolate]

/-- The percentiles of a sorted array lie between its ends, in the order of their ranks, and none of
them reads outside of it. -/
theorem percentile_between (hne : sorted ≠ []) (hsorted : sorted.Pairwise (· ≤ ·)) (hp : 0 ≤ p)
    (hpq : p ≤ q) (hq : q ≤ 100) :
    ∃ v w, percentile sorted p = some v ∧ percentile sorted q = some w ∧
      sorted.head hne ≤ v ∧ v ≤ w ∧ w ≤ sorted.getLast hne := by
  have hmono := extended_mono hne hsorted
  obtain ⟨hlow, hhigh⟩ := index_bounds hne hp (hpq.trans hq)
  obtain ⟨hlow', hhigh'⟩ := index_bounds hne (hp.trans hpq) hq
  have hlength : 0 ≤ (sorted.length : K) - 1 := by
    have hone : (1 : K) ≤ sorted.length := by
      exact_mod_cast List.length_pos_iff.mpr hne
    linarith
  have hindex : p / 100 * ((sorted.length : K) - 1) ≤ q / 100 * ((sorted.length : K) - 1) :=
    mul_le_mul_of_nonneg_right (by linarith) hlength
  refine ⟨_, _, percentile_eq hne hp (hpq.trans hq), percentile_eq hne (hp.trans hpq) hq, ?_, ?_, ?_⟩
  · rw [← extended_zero hne]
    exact (interpolate_mem_Icc hmono hlow hhigh).1
  · exact interpolate_mono hmono hlow hindex
  · rw [← extended_last hne le_rfl]
    exact (interpolate_mem_Icc hmono hlow' hhigh').2

theorem percentile_between_latencies :
    ∃ v w : ℚ, percentile [120, 250, 250, 900] 50 = some v ∧
      percentile [120, 250, 250, 900] 95 = some w ∧ 120 ≤ v ∧ v ≤ w ∧ w ≤ 900 :=
  percentile_between (List.cons_ne_nil _ _) (by decide) (by decide) (by decide) (by decide)

end Percentile

section Spread

variable {K : Type} [Field K] [LinearOrder K] [IsStrictOrderedRing K] [FloorRing K]
  {sorted values : List K} {s : Spread K}

/-- The percentiles are defined and in the order of their ranks. -/
def Spread.Ordered {K : Type} [LE K] (s : Spread K) : Prop :=
  ∃ a b c d, s.p50 = some a ∧ s.p90 = some b ∧ s.p95 = some c ∧ s.p99 = some d ∧
    s.min ≤ a ∧ a ≤ b ∧ b ≤ c ∧ c ≤ d ∧ d ≤ s.max

theorem spread_ordered (hsorted : sorted.Pairwise (· ≤ ·)) (h : spread sorted = some s) :
    s.Ordered := by
  cases sorted with
  | nil => cases h
  | cons v vs =>
    cases h
    have hne := List.cons_ne_nil v vs
    obtain ⟨a, b, ha, hb, hmin, hab, -⟩ := percentile_between hne hsorted
      (by norm_num : (0 : K) ≤ 50) (by norm_num : (50 : K) ≤ 90) (by norm_num)
    obtain ⟨b', c, hb', hc, -, hbc, -⟩ := percentile_between hne hsorted
      (by norm_num : (0 : K) ≤ 90) (by norm_num : (90 : K) ≤ 95) (by norm_num)
    obtain ⟨c', d, hc', hd, -, hcd, hmax⟩ := percentile_between hne hsorted
      (by norm_num : (0 : K) ≤ 95) (by norm_num : (95 : K) ≤ 99) (by norm_num)
    cases hb.symm.trans hb'
    cases hc.symm.trans hc'
    refine ⟨a, b, c, d, ha, hb, hc, hd, ?_, hab, hbc, hcd, ?_⟩
    · exact (List.min_le_of_mem List.mem_cons_self).trans hmin
    · exact hmax.trans (List.le_max_of_mem (List.getLast_mem hne))

/-- The average lies between the least and the largest value. -/
theorem spread_avg (h : spread values = some s) : s.min ≤ s.avg ∧ s.avg ≤ s.max := by
  cases values with
  | nil => cases h
  | cons v vs =>
    cases h
    have hpos : (0 : K) < ((v :: vs).length : K) := by
      exact_mod_cast List.length_pos_iff.mpr (List.cons_ne_nil v vs)
    have hsum : (v :: vs).foldl (· + ·) 0 = (v :: vs).sum := List.sum_eq_foldl.symm
    have hleast := List.card_nsmul_le_sum (v :: vs) _ fun x hx => List.min_le_of_mem hx
    have hmost := List.sum_le_card_nsmul (v :: vs) _ fun x hx => List.le_max_of_mem hx
    simp only [hsum]
    rw [nsmul_eq_mul] at hleast hmost
    exact ⟨(le_div_iff₀' hpos).mpr hleast, (div_le_iff₀' hpos).mpr hmost⟩

omit [Field K] [IsStrictOrderedRing K] [FloorRing K] in
theorem sort_sorted (values : List K) : (sort values).Pairwise (· ≤ ·) :=
  List.pairwise_mergeSort' (· ≤ ·) values

section Metrics

variable (scenarioId : String) (results : List (RequestResult K)) (slaThresholdMs : Option K)

omit [IsStrictOrderedRing K] in
/-- Each request is counted once, and only successful ones are in time. -/
theorem calculateMetrics_counts :
    (calculateMetrics scenarioId results slaThresholdMs).successfulRequests +
        (calculateMetrics scenarioId results slaThresholdMs).failedRequests =
      (calculateMetrics scenarioId results slaThresholdMs).totalRequests ∧
    ∀ n ∈ (calculateMetrics scenarioId results slaThresholdMs).goodputCount,
      n ≤ (calculateMetrics scenarioId results slaThresholdMs).successfulRequests := by
  constructor
  · exact (List.length_eq_length_filter_add RequestResult.success).symm
  · intro n hn
    cases slaThresholdMs with
    | none => cases hn
    | some threshold =>
      cases hn
      exact List.length_filter_le _ _

theorem calculateMetrics_ordered
    (h : (calculateMetrics scenarioId results slaThresholdMs).ttft = some s ∨
      (calculateMetrics scenarioId results slaThresholdMs).tps = some s ∨
      (calculateMetrics scenarioId results slaThresholdMs).e2e = some s) : s.Ordered := by
  rcases h with h | h | h
  · exact spread_ordered (sort_sorted _) h
  · exact spread_ordered (sort_sorted _) h
  · exact spread_ordered (sort_sorted _) h

end Metrics

end Spread

end GpuSharing.Sardeenz.BenchmarkMetrics
