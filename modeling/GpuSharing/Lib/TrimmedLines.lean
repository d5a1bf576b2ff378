import Mathlib.Algebra.BigOperators.Group.List.Basic
import Mathlib.Data.List.DropRight
import Mathlib.Tactic.Linarith

namespace GpuSharing.TrimmedLines

section Cuts

variable {ι ο : Type} {good : List ι → List ι → Prop} {f : List ι → List ο} {w : List ι → Int}

/-- Each piece goes well with all that follows it. -/
def Cuts (good : List ι → List ι → Prop) : List (List ι) → Prop
  | [] => True
  | piece :: pieces => good piece pieces.flatten ∧ Cuts good pieces

instance decidableCuts [∀ s t, Decidable (good s t)] : ∀ pieces, Decidable (Cuts good pieces)
  | [] => .isTrue trivial
  | piece :: pieces =>
    have := decidableCuts pieces
    inferInstanceAs (Decidable (good piece pieces.flatten ∧ Cuts good pieces))

theorem Cuts.flatMap (hnil : f [] = []) (h : ∀ s t, good s t → f (s ++ t) = f s ++ f t)
    {pieces : List (List ι)} (hcuts : Cuts good pieces) : f pieces.flatten = pieces.flatMap f := by
  induction pieces with
  | nil => exact hnil
  | cons piece pieces ih => rw [List.flatten_cons, h _ _ hcuts.1, ih hcuts.2, List.flatMap_cons]

/-- A measure that a cut never lowers is at most what the pieces measure together. -/
theorem measure_le_sum (hnil : w [] ≤ 0) (hle : ∀ s t, w (s ++ t) ≤ w s + w t)
    (pieces : List (List ι)) : w pieces.flatten ≤ (pieces.map w).sum := by
  induction pieces with
  | nil => exact hnil
  | cons piece pieces ih =>
    have hpiece := hle piece pieces.flatten
    simp only [List.flatten_cons, List.map_cons, List.sum_cons]
    linarith

/-- If the pieces measure the same, no cut has raised the measure. -/
theorem cuts_of_measure_eq (hnil : w [] ≤ 0) (hle : ∀ s t, w (s ++ t) ≤ w s + w t)
    (hgood : ∀ s t, w (s ++ t) = w s + w t → good s t) {pieces : List (List ι)}
    (h : w pieces.flatten = (pieces.map w).sum) : Cuts good pieces := by
  induction pieces with
  | nil => trivial
  | cons piece pieces ih =>
    have hpiece := hle piece pieces.flatten
    have hpieces := measure_le_sum hnil hle pieces
    simp only [List.flatten_cons, List.map_cons, List.sum_cons] at h
    exact ⟨hgood _ _ (by linarith), ih (by linarith)⟩

end Cuts

variable {α : Type} [DecidableEq α] (space : α → Bool) (newline : α)

def trim (s : List α) : List α := (s.dropWhile space).rdropWhile space

/-- The lines of a text without the white space around it and without blank lines. -/
def lines (s : List α) : List (List α) :=
  ((trim space s).splitOn newline).filter fun line => trim space line ≠ []

/-- The white space between two texts. -/
def gap (s t : List α) : List α := s.rtakeWhile space ++ t.takeWhile space

/-- Between two texts that are not blank, the white space begins and ends with a newline. -/
def Fits (s t : List α) : Prop :=
  s.all space ∨ t.all space ∨
    ((gap space s t).head? = some newline ∧ (gap space s t).getLast? = some newline)

instance decidableFits (s t : List α) : Decidable (Fits space newline s t) :=
  inferInstanceAs (Decidable (_ ∨ _ ∨ _))

variable {space newline} {s t m m' g h : List α}

theorem splitOn_append {as bs : List (List α)} {x y : List α} (hs : s.splitOn newline = as ++ [x])
    (ht : t.splitOn newline = y :: bs) : (s ++ t).splitOn newline = as ++ (x ++ y) :: bs := by
  induction s generalizing as x with
  | nil =>
    rw [List.splitOn_nil] at hs
    cases as with
    | nil =>
      cases hs
      exact ht
    | cons a as => simp at hs
  | cons c s ih =>
    obtain ⟨p, ps, hp⟩ := List.exists_cons_of_ne_nil (List.splitOn_ne_nil newline s)
    rw [List.splitOn_cons_eq_if_modifyHead] at hs
    rw [List.cons_append, List.splitOn_cons_eq_if_modifyHead]
    split_ifs at hs ⊢
    · cases as with
      | nil => simp at hs
      | cons a as =>
        obtain ⟨ha, hs⟩ := List.cons.inj hs
        rw [ih hs, ← ha, List.cons_append]
    · rw [hp, List.modifyHead_cons] at hs
      cases as with
      | nil =>
        obtain ⟨hx, hps⟩ := List.cons.inj hs
        have hone : s.splitOn newline = [] ++ [p] := by rw [hp, hps, List.nil_append]
        rw [ih hone, ← hx]
        rfl
      | cons a as =>
        obtain ⟨ha, hps⟩ := List.cons.inj hs
        have hmore : s.splitOn newline = (p :: as) ++ [x] := hp.trans (congrArg (p :: ·) hps)
        rw [ih hmore, ← ha]
        rfl

/-- A text that begins and ends with something else than white space. -/
structure Solid (space : α → Bool) (m : List α) : Prop where
  first : ∃ c rest, m = c :: rest ∧ space c = false
  last : ∃ rest c, m = rest ++ [c] ∧ space c = false

omit [DecidableEq α] in
/-- The white space around a solid text is what `trim` takes away. -/
theorem around_solid (hg : g.all space) (hh : h.all space) (hm : Solid space m) :
    trim space (g ++ m ++ h) = m ∧ (g ++ m ++ h).takeWhile space = g ∧
      (g ++ m ++ h).rtakeWhile space = h := by
  rw [List.all_eq_true] at hg hh
  obtain ⟨⟨c, rest, hfirst, hc⟩, rest', c', hlast, hc'⟩ := hm
  have hdrop : (m ++ h).dropWhile space = m ++ h := by simp [hfirst, hc]
  have htake : (m ++ h).takeWhile space = [] := by simp [hfirst, hc]
  have hreverse : ∀ x ∈ h.reverse, space x = true := fun x hx => hh x (List.mem_reverse.mp hx)
  refine ⟨?_, ?_, ?_⟩
  · rw [trim, List.append_assoc, List.dropWhile_append_of_pos hg, hdrop, List.rdropWhile,
      List.reverse_append, List.dropWhile_append_of_pos hreverse]
    simp [hlast, hc']
  · rw [List.append_assoc, List.takeWhile_append_of_pos hg, htake, List.append_nil]
  · rw [List.rtakeWhile, List.reverse_append, List.takeWhile_append_of_pos hreverse]
    simp [hlast, hc']

omit [DecidableEq α] in
theorem exists_first (hs : ¬ s.all space) :
    ∃ g c rest, s = g ++ c :: rest ∧ g.all space ∧ space c = false := by
  have hsplit := List.takeWhile_append_dropWhile (p := space) (l := s)
  cases hdrop : s.dropWhile space with
  | nil =>
    refine absurd (List.all_eq_true.mpr fun c hc => ?_) hs
    exact List.dropWhile_eq_nil_iff.mp hdrop c hc
  | cons c rest =>
    have hne : s.dropWhile space ≠ [] := by simp [hdrop]
    have hc := List.head_dropWhile_not space hne
    simp only [hdrop, List.head_cons] at hc
    exact ⟨s.takeWhile space, c, rest, by rw [← hdrop, hsplit], List.all_takeWhile, hc⟩

omit [DecidableEq α] in
/-- A text that is not blank is solid within white space. -/
theorem exists_solid (hs : ¬ s.all space) :
    ∃ g m h, s = g ++ m ++ h ∧ g.all space ∧ h.all space ∧ Solid space m := by
  obtain ⟨g, c, rest, rfl, hg, hc⟩ := exists_first hs
  have hreverse : ¬ (c :: rest).reverse.all space := by simp [hc]
  obtain ⟨h, c', rest', heq, hh, hc'⟩ := exists_first hreverse
  have hcons : c :: rest = rest'.reverse ++ [c'] ++ h.reverse := by
    rw [← List.reverse_reverse (c :: rest), heq]
    simp
  refine ⟨g, rest'.reverse ++ [c'], h.reverse, ?_, hg, by simpa using hh, ⟨?_, rest'.reverse, c', rfl, hc'⟩⟩
  · rw [hcons, List.append_assoc, List.append_assoc, List.append_assoc]
  · cases hr : rest'.reverse with
    | nil => exact ⟨c', [], rfl, hc'⟩
    | cons x xs =>
      rw [hr, List.cons_append, List.cons_append, List.cons.injEq] at hcons
      exact ⟨x, xs ++ [c'], rfl, hcons.1 ▸ hc⟩

/-- The lines of a text that is trimmed. -/
def solidLines (space : α → Bool) (newline : α) (m : List α) : List (List α) :=
  (m.splitOn newline).filter fun line => trim space line ≠ []

omit [DecidableEq α] in
theorem trim_eq_nil : trim space s = [] ↔ s.all space := by
  constructor
  · intro htrim
    by_contra hs
    obtain ⟨g, m, h, rfl, hg, hh, hm⟩ := exists_solid hs
    rw [(around_solid hg hh hm).1] at htrim
    obtain ⟨⟨c, rest, hfirst, -⟩, -⟩ := hm
    rw [hfirst] at htrim
    cases htrim
  · intro hs
    have hdrop : s.dropWhile space = [] :=
      List.dropWhile_eq_nil_iff.mpr (List.all_eq_true.mp hs)
    rw [trim, hdrop, List.rdropWhile_nil]

theorem lines_of_blank (hs : s.all space) : lines space newline s = [] := by
  have htrim : trim space ([] : List α) = [] := rfl
  rw [lines, trim_eq_nil.mpr hs, List.splitOn_nil]
  simp [htrim]

theorem lines_around (hg : g.all space) (hh : h.all space) (hm : Solid space m) :
    lines space newline (g ++ m ++ h) = solidLines space newline m := by
  rw [lines, (around_solid hg hh hm).1, solidLines]

theorem mem_of_mem_splitOn {line : List α} (hline : line ∈ s.splitOn newline) :
    ∀ c ∈ line, c ∈ s := by
  induction s generalizing line with
  | nil =>
    rw [List.splitOn_nil, List.mem_singleton] at hline
    subst hline
    exact fun c hc => hc
  | cons a s ih =>
    obtain ⟨p, ps, hp⟩ := List.exists_cons_of_ne_nil (List.splitOn_ne_nil newline s)
    rw [List.splitOn_cons_eq_if_modifyHead] at hline
    intro c hc
    split_ifs at hline
    · rcases List.mem_cons.mp hline with rfl | hline
      · cases hc
      · exact List.mem_cons_of_mem _ (ih hline c hc)
    · rw [hp, List.modifyHead_cons] at hline
      rw [hp] at ih
      rcases List.mem_cons.mp hline with rfl | hline
      · rcases List.mem_cons.mp hc with rfl | hc
        · exact List.mem_cons_self
        · exact List.mem_cons_of_mem _ (ih List.mem_cons_self c hc)
      · exact List.mem_cons_of_mem _ (ih (List.mem_cons_of_mem _ hline) c hc)

/-- Lines of white space are dropped. -/
theorem solidLines_of_blank (hs : s.all space) : solidLines space newline s = [] := by
  rw [solidLines, List.filter_eq_nil_iff]
  intro line hline
  have hsub : line.all space := by
    rw [List.all_eq_true] at hs ⊢
    exact fun c hc => hs c (mem_of_mem_splitOn hline c hc)
  simp [trim_eq_nil, hsub]

theorem solidLines_append_newline (s t : List α) :
    solidLines space newline (s ++ newline :: t) =
      solidLines space newline s ++ solidLines space newline t := by
  rw [solidLines, List.splitOn_append_cons_self, List.filter_append]
  rfl

/-- The last line of one solid text and the first line of another, with what stands on the same
line. -/
theorem Solid.joins (hm : Solid space m) (hm' : Solid space m') (hnl : space newline = true) :
    ∃ as x y bs, solidLines space newline m = as ++ [x] ∧ solidLines space newline m' = y :: bs ∧
      ∀ g, newline ∉ g → solidLines space newline (m ++ g) = as ++ [x ++ g] ∧
        solidLines space newline (g ++ m') = (g ++ y) :: bs ∧
        solidLines space newline (m ++ g ++ m') = as ++ (x ++ g ++ y) :: bs := by
  have hkeep : ∀ {l} c, c ∈ l → space c = false → trim space l ≠ [] := by
    intro l c hmem hc htrim
    have hall := List.all_eq_true.mp (trim_eq_nil.mp htrim) c hmem
    rw [hc] at hall
    cases hall
  have hone : ∀ {g : List α}, newline ∉ g → g.splitOn newline = [] ++ [g] :=
    List.splitOn_eq_singleton
  obtain ⟨-, rest, c, rfl, hc⟩ := hm
  obtain ⟨⟨c', rest', rfl, hc'⟩, -⟩ := hm'
  have hne : ∀ {c}, space c = false → newline ∉ [c] := by
    intro c hc hmem
    rw [List.mem_singleton] at hmem
    rw [hmem, hc] at hnl
    cases hnl
  have hrest := (List.dropLast_append_getLast (List.splitOn_ne_nil newline rest)).symm
  obtain ⟨y, bs, hrest'⟩ := List.exists_cons_of_ne_nil (List.splitOn_ne_nil newline rest')
  generalize (rest.splitOn newline).dropLast = as, (rest.splitOn newline).getLast _ = x at hrest
  have hlast := splitOn_append hrest (hone (hne hc))
  have hfirst : (c' :: rest').splitOn newline = (c' :: y) :: bs :=
    splitOn_append (hone (hne hc')) hrest'
  refine ⟨as.filter (trim space · ≠ []), x ++ [c], c' :: y, bs.filter (trim space · ≠ []), ?_, ?_,
    fun g hg => ?_⟩
  · simp [solidLines, hlast, hkeep c _ hc]
  · simp [solidLines, hfirst, hkeep c' _ hc']
  · have hafter := splitOn_append hlast (hone hg)
    have hbefore := splitOn_append (hone hg) hfirst
    have hboth := splitOn_append hafter hfirst
    refine ⟨?_, ?_, ?_⟩
    · rw [solidLines, hafter, List.filter_append]
      simp [hkeep c _ hc]
    · rw [solidLines, hbefore]
      simp [hkeep c' _ hc']
    · rw [solidLines, hboth, List.filter_append]
      simp [hkeep c _ hc]

omit [DecidableEq α] in
theorem head_before_newline (hg : newline ∉ g) :
    (g ++ newline :: s).head? = some newline ↔ g = [] := by
  cases g with
  | nil => simp
  | cons c g =>
    have hc : c ≠ newline := fun heq => hg (heq ▸ List.mem_cons_self)
    simp [hc]

omit [DecidableEq α] in
theorem getLast_after_newline (hg : newline ∉ g) :
    (s ++ newline :: g).getLast? = some newline ↔ g = [] := by
  rw [List.getLast?_eq_head?_reverse, List.reverse_append, List.reverse_cons, List.append_assoc,
    List.singleton_append, head_before_newline (by simpa using hg), List.reverse_eq_nil_iff]

omit [DecidableEq α] in
theorem exists_last_newline (hs : newline ∈ s) : ∃ r g, s = r ++ newline :: g ∧ newline ∉ g := by
  obtain ⟨as, bs, heq, has⟩ := List.eq_append_cons_of_mem (List.mem_reverse.mpr hs)
  refine ⟨bs.reverse, as.reverse, ?_, by simpa using has⟩
  rw [← List.reverse_reverse s, heq]
  simp

/-- The lines around the white space between two texts. -/
theorem lines_append (hnl : space newline = true) (hs : ¬ s.all space) (ht : ¬ t.all space) :
    ∃ as x y bs, lines space newline s = as ++ [x] ∧ lines space newline t = y :: bs ∧
      ((newline ∉ gap space s t ∧
          lines space newline (s ++ t) = as ++ (x ++ gap space s t ++ y) :: bs) ∨
        ∃ g g', lines space newline (s ++ t) = as ++ (x ++ g) :: (g' ++ y) :: bs ∧
          ((gap space s t).head? = some newline ↔ g = []) ∧
          ((gap space s t).getLast? = some newline ↔ g' = [])) := by
  obtain ⟨a, m, b, rfl, ha, hb, hm⟩ := exists_solid hs
  obtain ⟨a', m', b', rfl, ha', hb', hm'⟩ := exists_solid ht
  have hgap : gap space (a ++ m ++ b) (a' ++ m' ++ b') = b ++ a' := by
    rw [gap, (around_solid ha hb hm).2.2, (around_solid ha' hb' hm').2.1]
  have hspace : (b ++ a').all space := by simp [hb, ha']
  have hwhole : Solid space (m ++ (b ++ a') ++ m') := by
    obtain ⟨⟨c, rest, rfl, hc⟩, -⟩ := hm
    obtain ⟨-, rest', c', rfl, hc'⟩ := hm'
    exact ⟨⟨c, rest ++ (b ++ a') ++ (rest' ++ [c']), by simp, hc⟩,
      c :: rest ++ (b ++ a') ++ rest', c', by simp, hc'⟩
  have hlines : lines space newline (a ++ m ++ b ++ (a' ++ m' ++ b')) =
      solidLines space newline (m ++ (b ++ a') ++ m') := by
    rw [← lines_around ha hb' hwhole]
    simp
  rw [hgap, hlines, lines_around ha hb hm, lines_around ha' hb' hm']
  generalize b ++ a' = w at hspace
  obtain ⟨as, x, y, bs, hx, hy, hjoin⟩ := hm.joins hm' hnl
  refine ⟨as, x, y, bs, hx, hy, ?_⟩
  by_cases hmem : newline ∈ w
  · obtain ⟨g, rest, rfl, hg⟩ := List.eq_append_cons_of_mem hmem
    obtain ⟨r, g', hrest, hg'⟩ : ∃ r g', newline :: rest = r ++ newline :: g' ∧ newline ∉ g' :=
      exists_last_newline List.mem_cons_self
    have hafter : solidLines space newline (rest ++ m') = (g' ++ y) :: bs := by
      cases r with
      | nil =>
        rw [(List.cons.inj hrest).2]
        exact (hjoin g' hg').2.1
      | cons c r =>
        have heq : rest = r ++ newline :: g' := (List.cons.inj hrest).2
        subst heq
        have hr : r.all space := by
          simp only [List.all_append, List.all_cons, Bool.and_eq_true] at hspace
          exact hspace.2.2.1
        rw [List.append_assoc, List.cons_append, solidLines_append_newline, solidLines_of_blank hr]
        exact (hjoin g' hg').2.1
    refine .inr ⟨g, g', ?_, head_before_newline hg, ?_⟩
    · rw [← List.append_assoc, List.append_assoc, List.cons_append, solidLines_append_newline,
        (hjoin g hg).1, hafter]
      simp
    · rw [hrest, ← List.append_assoc]
      exact getLast_after_newline hg'
  · exact .inl ⟨hmem, (hjoin w hmem).2.2⟩

/-- How many more lines than characters there are. -/
def surplus (ls : List (List α)) : Int := ls.length - (ls.map List.length).sum

omit [DecidableEq α] in
@[simp] theorem surplus_nil : surplus ([] : List (List α)) = 0 := rfl

omit [DecidableEq α] in
@[simp] theorem surplus_append (ls ls' : List (List α)) :
    surplus (ls ++ ls') = surplus ls + surplus ls' := by
  simp only [surplus, List.length_append, List.map_append, List.sum_append]
  push_cast
  omega

omit [DecidableEq α] in
@[simp] theorem surplus_cons (l : List α) (ls : List (List α)) :
    surplus (l :: ls) = 1 - l.length + surplus ls := by
  simp only [surplus, List.length_cons, List.map_cons, List.sum_cons]
  push_cast
  omega

theorem lines_append_blank (hs : s.all space) :
    lines space newline (s ++ t) = lines space newline t ∧
      lines space newline (t ++ s) = lines space newline t := by
  by_cases ht : t.all space
  · have hst : (s ++ t).all space := by simp [hs, ht]
    have hts : (t ++ s).all space := by simp [hs, ht]
    rw [lines_of_blank hst, lines_of_blank hts, lines_of_blank ht]
    exact ⟨rfl, rfl⟩
  · obtain ⟨g, m, h, rfl, hg, hh, hm⟩ := exists_solid ht
    have hsg : (s ++ g).all space := by simp [hs, hg]
    have hhs : (h ++ s).all space := by simp [hs, hh]
    have hbefore : lines space newline (s ++ g ++ m ++ h) = _ := lines_around hsg hh hm
    have hafter : lines space newline (g ++ m ++ (h ++ s)) = _ := lines_around hg hhs hm
    rw [lines_around hg hh hm]
    simp only [List.append_assoc] at hbefore hafter ⊢
    exact ⟨hbefore, hafter⟩

/-- A cut never lowers the surplus, keeps it only where the texts fit, and there it keeps the
lines. -/
theorem surplus_lines_append (hnl : space newline = true) (s t : List α) :
    surplus (lines space newline (s ++ t)) ≤
        surplus (lines space newline s) + surplus (lines space newline t) ∧
      (surplus (lines space newline (s ++ t)) =
          surplus (lines space newline s) + surplus (lines space newline t) → Fits space newline s t) ∧
      (Fits space newline s t →
        lines space newline (s ++ t) = lines space newline s ++ lines space newline t) := by
  by_cases hs : s.all space
  · rw [(lines_append_blank hs).1, lines_of_blank hs]
    exact ⟨by simp, fun _ => .inl hs, fun _ => rfl⟩
  by_cases ht : t.all space
  · rw [(lines_append_blank ht).2, lines_of_blank ht]
    exact ⟨by simp, fun _ => .inr (.inl ht), fun _ => by simp⟩
  obtain ⟨as, x, y, bs, hx, hy, hcases⟩ := lines_append hnl hs ht
  rw [hx, hy]
  have hfits : Fits space newline s t ↔
      (gap space s t).head? = some newline ∧ (gap space s t).getLast? = some newline := by
    simp [Fits, hs, ht]
  rw [hfits]
  rcases hcases with ⟨hnone, hjoined⟩ | ⟨g, g', hlines, hhead, hlast⟩
  · have hlt : surplus (as ++ (x ++ gap space s t ++ y) :: bs) <
        surplus (as ++ [x]) + surplus (y :: bs) := by
      simp
      omega
    rw [hjoined]
    exact ⟨hlt.le, fun heq => absurd heq hlt.ne,
      fun hnl => absurd (List.mem_of_mem_head? hnl.1) hnone⟩
  · rw [hlines, hhead, hlast]
    simp only [surplus_append, surplus_cons, surplus_nil, List.length_append]
    push_cast
    refine ⟨by omega, fun heq => ?_, ?_⟩
    · exact ⟨List.eq_nil_of_length_eq_zero (by omega), List.eq_nil_of_length_eq_zero (by omega)⟩
    · rintro ⟨rfl, rfl⟩
      simp

omit [DecidableEq α] in
theorem surplus_flatMap (f : List α → List (List α)) (pieces : List (List α)) :
    surplus (pieces.flatMap f) = (pieces.map fun piece => surplus (f piece)).sum := by
  induction pieces with
  | nil => rfl
  | cons piece pieces ih =>
    rw [List.flatMap_cons, surplus_append, ih, List.map_cons, List.sum_cons]

/-- The pieces of a text have its lines exactly when they fit. -/
theorem lines_flatten_iff (hnl : space newline = true) (pieces : List (List α)) :
    lines space newline pieces.flatten = pieces.flatMap (lines space newline) ↔
      Cuts (Fits space newline) pieces := by
  have hnil : lines space newline [] = [] := lines_of_blank rfl
  constructor
  · intro heq
    refine cuts_of_measure_eq (w := fun s => surplus (lines space newline s)) (by simp [hnil])
      (fun s t => (surplus_lines_append hnl s t).1) (fun s t => (surplus_lines_append hnl s t).2.1) ?_
    rw [heq, surplus_flatMap]
  · exact fun hcuts => hcuts.flatMap hnil fun s t => (surplus_lines_append hnl s t).2.2

section Characters

variable {p : α → Bool} (hp : ∀ c, space c = true → p c = false)
include hp

omit [DecidableEq α] in
theorem filter_of_blank (hs : s.all space) : s.filter p = [] := by
  rw [List.filter_eq_nil_iff]
  intro c hc
  simp [hp c (List.all_eq_true.mp hs c hc)]

theorem filter_splitOn (hnl : space newline = true) (s : List α) :
    (s.splitOn newline).flatten.filter p = s.filter p := by
  induction s with
  | nil => simp
  | cons c s ih =>
    rw [List.splitOn_cons_eq_if_modifyHead]
    split_ifs with hc
    · have hcp : p c = false := by
        rw [beq_iff_eq.mp hc]
        exact hp newline hnl
      simp [ih, hcp]
    · obtain ⟨x, xs, hx⟩ := List.exists_cons_of_ne_nil (List.splitOn_ne_nil newline s)
      rw [hx] at ih
      rw [hx, List.modifyHead_cons, List.flatten_cons, List.cons_append, List.filter_cons,
        List.filter_cons, ← ih, List.flatten_cons]

/-- The lines have all the characters but white space. -/
theorem filter_lines (hnl : space newline = true) (s : List α) :
    (lines space newline s).flatten.filter p = s.filter p := by
  have hdrop : ∀ ls : List (List α),
      (ls.filter fun line => trim space line ≠ []).flatten.filter p = ls.flatten.filter p := by
    intro ls
    induction ls with
    | nil => rfl
    | cons line ls ih =>
      rw [List.filter_cons]
      split_ifs with hline
      · rw [List.flatten_cons, List.flatten_cons, List.filter_append, List.filter_append, ih]
      · have hblank : line.all space := trim_eq_nil.mp (by simpa using hline)
        rw [ih, List.flatten_cons, List.filter_append, filter_of_blank hp hblank, List.nil_append]
  rw [lines, hdrop, filter_splitOn hp hnl]
  by_cases hs : s.all space
  · rw [trim_eq_nil.mpr hs, filter_of_blank hp hs, List.filter_nil]
  · obtain ⟨g, m, h, rfl, hg, hh, hm⟩ := exists_solid hs
    rw [(around_solid hg hh hm).1, List.filter_append, List.filter_append, filter_of_blank hp hg,
      filter_of_blank hp hh, List.nil_append, List.append_nil]

end Characters

end GpuSharing.TrimmedLines
