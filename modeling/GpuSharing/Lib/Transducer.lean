import Mathlib.Data.List.Basic

namespace GpuSharing.Transducer

variable {σ τ ι κ ο : Type}

/-- Read a list of inputs, each of which may change the state and put something out. -/
def feed (step : σ → ι → σ × List ο) (s : σ) : List ι → σ × List ο
  | [] => (s, [])
  | i :: is =>
    ((feed step (step s i).1 is).1, (step s i).2 ++ (feed step (step s i).1 is).2)

/-- One machine reads what the other puts out. -/
def andThen (first : σ → ι → σ × List κ) (second : τ → κ → τ × List ο) (s : σ × τ) (i : ι) :
    (σ × τ) × List ο :=
  (((first s.1 i).1, (feed second s.2 (first s.1 i).2).1), (feed second s.2 (first s.1 i).2).2)

section
variable (step : σ → ι → σ × List ο) (s : σ)

@[simp] theorem feed_nil : feed step s [] = (s, []) := rfl

@[simp] theorem feed_cons (i : ι) (is : List ι) :
    feed step s (i :: is) =
      ((feed step (step s i).1 is).1, (step s i).2 ++ (feed step (step s i).1 is).2) := rfl

theorem feed_append (is js : List ι) :
    feed step s (is ++ js) =
      ((feed step (feed step s is).1 js).1,
        (feed step s is).2 ++ (feed step (feed step s is).1 js).2) := by
  induction is generalizing s with
  | nil => simp
  | cons i is ih => simp [ih]

/-- A coding of the outputs that the machine reads back, one at a time, is read back as a
whole. -/
theorem feed_flatMap {code : ο → List ι} (hcode : ∀ x, feed step s (code x) = (s, [x]))
    (xs : List ο) : feed step s (xs.flatMap code) = (s, xs) := by
  induction xs with
  | nil => rfl
  | cons x xs ih => simp [feed_append, hcode, ih]

end

theorem feed_andThen (first : σ → ι → σ × List κ) (second : τ → κ → τ × List ο) (s : σ) (t : τ)
    (is : List ι) :
    feed (andThen first second) (s, t) is =
      (((feed first s is).1, (feed second t (feed first s is).2).1),
        (feed second t (feed first s is).2).2) := by
  induction is generalizing s t with
  | nil => rfl
  | cons i is ih => simp [andThen, ih, feed_append]

/-- What a machine puts out may be coded at once or piece by piece. -/
theorem feed_code {f : σ → ι → σ × List κ} {code : List κ → List ο} (hnil : code [] = [])
    (happend : ∀ xs ys, code (xs ++ ys) = code xs ++ code ys) (s : σ) (is : List ι) :
    feed (fun s i => ((f s i).1, code (f s i).2)) s is =
      ((feed f s is).1, code (feed f s is).2) := by
  induction is generalizing s with
  | nil => simp [hnil]
  | cons i is ih => simp [ih, happend]

/-- Two machines whose states stay related put out the same. -/
theorem feed_rel {f : σ → ι → σ × List ο} {g : τ → ι → τ × List ο} {R : σ → τ → Prop}
    (hstep : ∀ s t i, R s t → R (f s i).1 (g t i).1 ∧ (f s i).2 = (g t i).2) {s : σ} {t : τ}
    (h : R s t) (is : List ι) :
    R (feed f s is).1 (feed g t is).1 ∧ (feed f s is).2 = (feed g t is).2 := by
  induction is generalizing s t with
  | nil => exact ⟨h, rfl⟩
  | cons i is ih =>
    obtain ⟨hnext, hout⟩ := hstep s t i h
    obtain ⟨hend, hrest⟩ := ih hnext
    exact ⟨hend, by simp [hout, hrest]⟩

end GpuSharing.Transducer
