import Mathlib.Data.List.Nodup

namespace GpuSharing.KeyedFold

variable {σ κ ν ℓ : Type} {step : σ → ℓ → σ} {key : ℓ → κ} {view : σ → κ → ν} {change : ℓ → ν → ν}

/-- What no step changes stays as it was. -/
theorem foldl_field {φ : Type} {field : σ → φ} (h : ∀ s l, field (step s l) = field s) (ls : List ℓ)
    (s : σ) : field (ls.foldl step s) = field s := by
  induction ls generalizing s with
  | nil => rfl
  | cons l ls ih => rw [List.foldl_cons, ih, h]

/-- Steps that change only what is seen at their own key leave the other keys as they were. -/
theorem foldl_view_of_notMem (hother : ∀ s l k, k ≠ key l → view (step s l) k = view s k)
    {ls : List ℓ} {k : κ} (hk : k ∉ ls.map key) (s : σ) :
    view (ls.foldl step s) k = view s k := by
  induction ls generalizing s with
  | nil => rfl
  | cons l ls ih =>
    simp only [List.map_cons, List.mem_cons, not_or] at hk
    rw [List.foldl_cons, ih hk.2, hother s l k hk.1]

/-- With keys that occur once, each step is what has changed its key. -/
theorem foldl_view (key : ℓ → κ) (hother : ∀ s l k, k ≠ key l → view (step s l) k = view s k)
    (hself : ∀ s l, view (step s l) (key l) = change l (view s (key l)))
    {ls : List ℓ} (hn : (ls.map key).Nodup) {l : ℓ} (hl : l ∈ ls) (s : σ) :
    view (ls.foldl step s) (key l) = change l (view s (key l)) := by
  induction ls generalizing s with
  | nil => simp at hl
  | cons m ls ih =>
    obtain ⟨hm, hn⟩ := List.nodup_cons.mp hn
    rw [List.foldl_cons]
    rcases List.mem_cons.mp hl with rfl | hl
    · rw [foldl_view_of_notMem hother hm, hself]
    · have hne : key l ≠ key m := by
        intro heq
        apply hm
        rw [← heq]
        exact List.mem_map_of_mem hl
      rw [ih hn hl, hother s m (key l) hne]

end GpuSharing.KeyedFold
