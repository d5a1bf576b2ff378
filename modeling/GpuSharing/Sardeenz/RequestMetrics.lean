import Mathlib.Algebra.BigOperators.Group.List.Basic
import Mathlib.Data.List.Induction
import Mathlib.Data.List.Infix
import Mathlib.Data.Rat.Lemmas
import Mathlib.Tactic.FinCases
import Mathlib.Tactic.Linarith
import Mathlib.Tactic.Ring
import GpuSharing.Lib.Dict
import GpuSharing.Lib.Number

namespace GpuSharing.Sardeenz.RequestMetrics

structure ResourceMetrics where
  totalRequests : Nat
  successfulRequests : Nat
  failedRequests : Nat
  avgResponseTimeMs : Option Number
  lastUpdated : Nat
  deriving DecidableEq, Repr

/-- A call of `recordRequest`, with the time at which it is made. -/
structure RecordCall where
  modelPath : String
  success : Bool
  durationMs : ℚ
  now : Nat
  deriving DecidableEq, Repr

/-- The average that is stored when one is there already. -/
def movingAverage (average : Number) (totalCompleted : Nat) (durationMs : ℚ) : Number :=
  ((average.mul (.finite (totalCompleted - 1))).add (.finite durationMs)).div (.finite totalCompleted)

namespace ResourceMetrics

def record (metrics : ResourceMetrics) (c : RecordCall) : ResourceMetrics :=
  let totalCompleted :=
    if c.success then metrics.successfulRequests + 1 else metrics.successfulRequests
  { totalRequests := metrics.totalRequests + 1
    successfulRequests := totalCompleted
    failedRequests := if c.success then metrics.failedRequests else metrics.failedRequests + 1
    avgResponseTimeMs := match metrics.avgResponseTimeMs with
      | none => some (.finite c.durationMs)
      | some average => some (movingAverage average totalCompleted c.durationMs)
    lastUpdated := c.now }

end ResourceMetrics

/-- The metrics by the model's path. -/
abbrev MetricsStore := Dict String ResourceMetrics

def recordRequest (store : MetricsStore) (c : RecordCall) : MetricsStore :=
  match store.lookup c.modelPath with
  | some metrics => store.setItem c.modelPath (metrics.record c)
  | none => store

/-- Metrics of a model of which no request was recorded. -/
structure Fresh (metrics : ResourceMetrics) : Prop where
  totalRequests : metrics.totalRequests = 0
  successfulRequests : metrics.successfulRequests = 0
  failedRequests : metrics.failedRequests = 0
  avgResponseTimeMs : metrics.avgResponseTimeMs = none

def callsOf (modelPath : String) (calls : List RecordCall) : List RecordCall :=
  calls.filter (·.modelPath = modelPath)

/-- The durations of the requests that were successful. -/
def successes (calls : List RecordCall) : List ℚ := (calls.filter (·.success)).map (·.durationMs)

def mean (durations : List ℚ) : ℚ := durations.sum / durations.length

/-- After these calls the average is the mean of the successful requests' durations, once there is
one, and never anything but a number. -/
structure Averages (calls : List RecordCall) (metrics : ResourceMetrics) : Prop where
  isMean : successes calls ≠ [] → metrics.avgResponseTimeMs = some (.finite (mean (successes calls)))
  isFinite : ∀ average ∈ metrics.avgResponseTimeMs, ∃ q, average = .finite q

/-- A request that does not disturb the average: it was successful, it is the first of its model, or
it took as long as the successful ones on average. -/
def Harmless (calls : List RecordCall) (c : RecordCall) : Prop :=
  c.success = true ∨ calls = [] ∨ successes calls ≠ [] ∧ c.durationMs = mean (successes calls)

/-- The counters count the calls, and the average is there from the first one on. -/
structure Counts (calls : List RecordCall) (metrics : ResourceMetrics) : Prop where
  total : metrics.totalRequests = calls.length
  successful : metrics.successfulRequests = (successes calls).length
  failed : metrics.failedRequests + metrics.successfulRequests = metrics.totalRequests
  average : metrics.avgResponseTimeMs = none ↔ calls = []

variable {store : MetricsStore} {calls past : List RecordCall} {c : RecordCall}
  {metrics : ResourceMetrics} {modelPath : String}

theorem successes_append_singleton :
    successes (calls ++ [c]) =
      if c.success then successes calls ++ [c.durationMs] else successes calls := by
  cases hc : c.success <;> simp [successes, hc]

theorem Counts.record (h : Counts calls metrics) : Counts (calls ++ [c]) (metrics.record c) where
  total := by simp [ResourceMetrics.record, h.total]
  successful := by
    rw [successes_append_singleton]
    cases hc : c.success <;> simp [ResourceMetrics.record, hc, h.successful]
  failed := by
    have hfailed := h.failed
    cases hc : c.success
    · simp [ResourceMetrics.record, hc]
      omega
    · simp [ResourceMetrics.record, hc]
      omega
  average := by
    cases hm : metrics.avgResponseTimeMs <;> simp [ResourceMetrics.record, hm]

theorem mean_append_singleton {durations : List ℚ} (h : durations ≠ []) (d : ℚ) :
    mean (durations ++ [d]) =
      (mean durations * durations.length + d) / ((durations.length : ℚ) + 1) := by
  have hlen : (durations.length : ℚ) ≠ 0 :=
    Nat.cast_ne_zero.mpr (List.length_pos_iff.mpr h).ne'
  rw [mean, mean, div_mul_cancel₀ _ hlen]
  simp

theorem movingAverage_finite {q d : ℚ} {n : Nat} (hn : n ≠ 0) :
    movingAverage (.finite q) n d = .finite ((q * (n - 1) + d) / n) := by
  have hn' : (n : ℚ) ≠ 0 := Nat.cast_ne_zero.mpr hn
  simp [movingAverage, Number.mul, Number.add, Number.div, hn']

/-- A further request leaves a right average right exactly when it is harmless. -/
theorem averages_record_iff (hcount : Counts calls metrics) (h : Averages calls metrics) :
    Averages (calls ++ [c]) (metrics.record c) ↔ Harmless calls c := by
  cases havg : metrics.avgResponseTimeMs with
  | none =>
    have hcalls := hcount.average.mp havg
    subst hcalls
    refine iff_of_true ⟨fun hne => ?_, fun average haverage => ?_⟩ (.inr (.inl rfl))
    · cases hc : c.success
      · simp [successes, hc] at hne
      · simp [ResourceMetrics.record, havg, successes, hc, mean]
    · simp only [ResourceMetrics.record, havg, Option.mem_some_iff] at haverage
      exact ⟨_, haverage.symm⟩
  | some average =>
    obtain ⟨q, rfl⟩ := h.isFinite average (by rw [havg]; rfl)
    have hcalls : calls ≠ [] := fun hnil => by simp [hcount.average.mpr hnil] at havg
    have hmean : successes calls ≠ [] → q = mean (successes calls) := by
      intro hne
      have heq := h.isMean hne
      rw [havg] at heq
      cases heq
      rfl
    have hlen : (successes calls).length = 0 ↔ successes calls = [] := List.length_eq_zero_iff
    cases hc : c.success with
    | true =>
      refine iff_of_true ?_ (.inl hc)
      have hnew : (metrics.record c).avgResponseTimeMs =
          some (.finite (mean (successes (calls ++ [c])))) := by
        simp only [ResourceMetrics.record, havg, hc, if_true, hcount.successful,
          successes_append_singleton]
        rw [movingAverage_finite (Nat.succ_ne_zero _)]
        by_cases hne : successes calls = []
        · simp [hne, mean]
        · rw [mean_append_singleton hne, hmean hne]
          simp
      refine ⟨fun _ => hnew, fun average haverage => ?_⟩
      rw [hnew] at haverage
      exact ⟨_, (Option.mem_some_iff.mp haverage).symm⟩
    | false =>
      have hsame : successes (calls ++ [c]) = successes calls := by
        simp [successes_append_singleton, hc]
      have hnew : (metrics.record c).avgResponseTimeMs =
          some (movingAverage (.finite q) (successes calls).length c.durationMs) := by
        simp [ResourceMetrics.record, havg, hc, hcount.successful]
      have hharm : Harmless calls c ↔
          successes calls ≠ [] ∧ c.durationMs = mean (successes calls) := by
        simp [Harmless, hc, hcalls]
      rw [hharm]
      by_cases hne : successes calls = []
      · -- the failure divides by the count of no success
        refine iff_of_false (fun hav => ?_) fun hav => hav.1 hne
        obtain ⟨p, hp⟩ := hav.isFinite _ (by rw [hnew]; rfl)
        rw [hne] at hp
        simp only [List.length_nil, movingAverage, Nat.cast_zero, Number.mul, Number.add] at hp
        exact Number.div_zero_ne_finite _ _ hp
      · have hn : (successes calls).length ≠ 0 := fun h0 => hne (hlen.mp h0)
        have hn' : ((successes calls).length : ℚ) ≠ 0 := Nat.cast_ne_zero.mpr hn
        rw [movingAverage_finite hn, hmean hne] at hnew
        have heq : (mean (successes calls) * ((successes calls).length - 1) + c.durationMs) /
            (successes calls).length = mean (successes calls) ↔
              c.durationMs = mean (successes calls) := by
          rw [div_eq_iff hn']
          constructor <;> intro h <;> linarith
        constructor
        · intro hav
          have hstored := hav.isMean (by rwa [hsame])
          rw [hnew, hsame] at hstored
          simp only [Option.some.injEq, Number.finite.injEq] at hstored
          exact ⟨hne, heq.mp hstored⟩
        · rintro ⟨-, hd⟩
          refine ⟨fun _ => ?_, fun average haverage => ?_⟩
          · rw [hnew, hsame, heq.mpr hd]
          · rw [hnew] at haverage
            exact ⟨_, (Option.mem_some_iff.mp haverage).symm⟩

theorem lookup_recordRequest :
    (recordRequest store c).lookup modelPath =
      if modelPath = c.modelPath then (store.lookup modelPath).map (·.record c)
      else store.lookup modelPath := by
  unfold recordRequest
  cases hm : store.lookup c.modelPath with
  | none =>
    split_ifs with heq
    · rw [heq, hm]
      rfl
    · rfl
  | some metrics =>
    simp only [Dict.lookup_setItem]
    split_ifs with heq
    · rw [heq, hm]
      rfl
    · rfl

theorem callsOf_append_singleton :
    callsOf modelPath (calls ++ [c]) =
      if modelPath = c.modelPath then callsOf modelPath calls ++ [c] else callsOf modelPath calls := by
  rw [callsOf, List.filter_append]
  split_ifs with heq
  · simp [callsOf, heq]
  · simp [callsOf, Ne.symm heq]

def records (store : MetricsStore) (calls : List RecordCall) : MetricsStore :=
  calls.foldl recordRequest store

theorem records_append_singleton :
    records store (calls ++ [c]) = recordRequest (records store calls) c := by
  simp [records]

/-- The calls of a model that has metrics are counted. -/
theorem counts_records (hfresh : ∀ p m, store.lookup p = some m → Fresh m)
    (h : (records store calls).lookup modelPath = some metrics) :
    Counts (callsOf modelPath calls) metrics := by
  induction calls using List.reverseRecOn generalizing metrics with
  | nil =>
    have hf := hfresh modelPath metrics h
    refine ⟨hf.totalRequests, hf.successfulRequests, ?_, by simp [hf.avgResponseTimeMs, callsOf]⟩
    rw [hf.failedRequests, hf.successfulRequests, hf.totalRequests]
  | append_singleton calls c ih =>
    rw [records_append_singleton, lookup_recordRequest] at h
    rw [callsOf_append_singleton]
    split_ifs at h ⊢ with heq
    · obtain ⟨old, hold, rfl⟩ := Option.map_eq_some_iff.mp h
      exact (ih hold).record
    · exact ih h

/-- The averages of all models are right. -/
def AllAverages (store : MetricsStore) (calls : List RecordCall) : Prop :=
  ∀ p m, (records store calls).lookup p = some m → Averages (callsOf p calls) m

theorem isSome_lookup_records {p : String} :
    ((records store calls).lookup p).isSome ↔ (store.lookup p).isSome := by
  induction calls using List.reverseRecOn with
  | nil => rfl
  | append_singleton calls c ih =>
    rw [← ih, records_append_singleton, lookup_recordRequest]
    split_ifs <;> simp

theorem allAverages_append_iff (hfresh : ∀ p m, store.lookup p = some m → Fresh m)
    (h : AllAverages store calls) :
    AllAverages store (calls ++ [c]) ↔
      ((store.lookup c.modelPath).isSome → Harmless (callsOf c.modelPath calls) c) := by
  constructor
  · intro hnew hsome
    obtain ⟨m, hm⟩ := Option.isSome_iff_exists.mp (isSome_lookup_records.mpr hsome)
    have hlook : (records store (calls ++ [c])).lookup c.modelPath = some (m.record c) := by
      rw [records_append_singleton, lookup_recordRequest, if_pos rfl, hm]
      rfl
    have hav := hnew _ _ hlook
    rw [callsOf_append_singleton, if_pos rfl] at hav
    exact (averages_record_iff (counts_records hfresh hm) (h _ _ hm)).mp hav
  · intro hharm p m hm
    rw [records_append_singleton, lookup_recordRequest] at hm
    rw [callsOf_append_singleton]
    split_ifs at hm ⊢ with heq
    · obtain ⟨old, hold, rfl⟩ := Option.map_eq_some_iff.mp hm
      subst heq
      have hsome := isSome_lookup_records.mp (Option.isSome_of_eq_some hold)
      exact (averages_record_iff (counts_records hfresh hold) (h _ _ hold)).mpr (hharm hsome)
    · exact h p m hm

/-- The averages are right after every call exactly when every request that is recorded is
harmless. -/
theorem allAverages_iff (hfresh : ∀ p m, store.lookup p = some m → Fresh m) :
    (∀ past later, calls = past ++ later → AllAverages store past) ↔
      ∀ past c later, calls = past ++ c :: later → (store.lookup c.modelPath).isSome →
        Harmless (callsOf c.modelPath past) c := by
  constructor
  · intro h past c later heq
    have hpast := h past (c :: later) heq
    have hnext := h (past ++ [c]) later (by simp [heq])
    exact (allAverages_append_iff hfresh hpast).mp hnext
  · intro h past
    induction past using List.reverseRecOn with
    | nil =>
      intro later heq p m hm
      have hf := hfresh p m hm
      refine ⟨fun hne => absurd rfl hne, fun average haverage => ?_⟩
      rw [hf.avgResponseTimeMs] at haverage
      cases haverage
    | append_singleton past c ih =>
      intro later heq
      have heq' : calls = past ++ c :: later := by simp [heq]
      exact (allAverages_append_iff hfresh (ih _ heq')).mpr (h past c later heq')

def freshMetrics : ResourceMetrics := ⟨0, 0, 0, none, 0⟩

def freshStore : MetricsStore := Dict.setItem ∅ "org/model" freshMetrics

def call (success : Bool) (durationMs : ℚ) : RecordCall := ⟨"org/model", success, durationMs, 0⟩

theorem fresh_freshStore (p : String) (m : ResourceMetrics) (h : freshStore.lookup p = some m) :
    Fresh m := by
  rw [freshStore, Dict.lookup_setItem] at h
  split_ifs at h
  · cases h
    exact ⟨rfl, rfl, rfl, rfl⟩
  · cases h

/-- The second of two failures divides by zero; a failure that is faster than the successful request
before it takes the average down. -/
theorem failures_disturb_average :
    ¬ AllAverages freshStore [call false 20, call false 70] ∧
      (records freshStore [call false 20, call false 70]).lookup "org/model" =
        some ⟨2, 0, 2, some (.infinity false), 0⟩ ∧
      ¬ AllAverages freshStore [call true 100, call false 10] ∧
      (records freshStore [call true 100, call false 10]).lookup "org/model" =
        some ⟨2, 1, 1, some (.finite 10), 0⟩ := by
  have hfailures : (records freshStore [call false 20, call false 70]).lookup "org/model" =
      some ⟨2, 0, 2, some (.infinity false), 0⟩ := by decide +kernel
  have hfast : (records freshStore [call true 100, call false 10]).lookup "org/model" =
      some ⟨2, 1, 1, some (.finite 10), 0⟩ := by decide +kernel
  refine ⟨fun h => ?_, hfailures, fun h => ?_, hfast⟩
  · obtain ⟨q, hq⟩ := (h _ _ hfailures).isFinite _ rfl
    cases hq
  · have hmean := (h _ _ hfast).isMean (by decide +kernel)
    revert hmean
    decide +kernel

/-- A first failure, two successful requests and a failure that takes as long as they on average. -/
theorem allAverages_iff_harmless :
    AllAverages freshStore [call false 70, call true 100, call true 200, call false 150] := by
  refine (allAverages_iff fresh_freshStore).mpr (fun past c later heq _ => ?_) _ []
    (List.append_nil _).symm
  have hprefix : past ∈ [call false 70, call true 100, call true 200, call false 150].inits := by
    rw [List.mem_inits, heq]
    exact List.prefix_append past _
  have hnext : [call false 70, call true 100, call true 200, call false 150][past.length]? = some c := by
    rw [heq]
    simp
  fin_cases hprefix <;> simp at hnext <;> subst hnext
  · exact .inr (.inl rfl)
  · exact .inl rfl
  · exact .inl rfl
  · exact .inr (.inr ⟨by decide +kernel, by decide +kernel⟩)

end GpuSharing.Sardeenz.RequestMetrics
