import Mathlib.Data.List.Induction
import GpuSharing.Lib.TrimmedLines

namespace GpuSharing.CutLines

variable {α β : Type}

section Lines

variable [DecidableEq α] (newline : α)

/-- The parts of a piece's last line go on with the parts of the first line that follows. -/
def goOn : List (List α) → List (List (List α)) → List (List (List α))
  | [], lines => lines
  | [x], [] => [[x]]
  | [x], parts :: lines => (x :: parts) :: lines
  | x :: y :: piece, lines => [x] :: goOn (y :: piece) lines

/-- The lines of a text that comes in pieces, each as the parts that the pieces hold of it. -/
def cutLines : List (List α) → List (List (List α))
  | [] => [[]]
  | piece :: pieces => goOn (piece.splitOn newline) (cutLines pieces)

omit [DecidableEq α] in
theorem goOn_append (as : List (List α)) (x : List α) (parts : List (List α))
    (lines : List (List (List α))) :
    goOn (as ++ [x]) (parts :: lines) = as.map ([·]) ++ (x :: parts) :: lines := by
  induction as with
  | nil => rfl
  | cons a as ih =>
    cases as with
    | nil => rfl
    | cons b as =>
      rw [List.cons_append, List.cons_append, goOn, ← List.cons_append, ih]
      simp

theorem exists_splitOn (piece : List α) : ∃ as x, piece.splitOn newline = as ++ [x] := by
  have hne := List.splitOn_ne_nil newline piece
  exact (List.eq_nil_or_concat' (piece.splitOn newline)).resolve_left hne

theorem cutLines_ne_nil (pieces : List (List α)) :
    ∃ parts lines, cutLines newline pieces = parts :: lines := by
  induction pieces with
  | nil => exact ⟨[], [], rfl⟩
  | cons piece pieces ih =>
    obtain ⟨parts, lines, hlines⟩ := ih
    obtain ⟨as, x, hsplit⟩ := exists_splitOn newline piece
    rw [cutLines, hlines, hsplit, goOn_append]
    cases as with
    | nil => exact ⟨_, _, rfl⟩
    | cons a as => exact ⟨_, _, rfl⟩

theorem map_flatten_cutLines (pieces : List (List α)) :
    (cutLines newline pieces).map List.flatten = pieces.flatten.splitOn newline := by
  induction pieces with
  | nil => simp [cutLines]
  | cons piece pieces ih =>
    obtain ⟨parts, lines, hlines⟩ := cutLines_ne_nil newline pieces
    obtain ⟨as, x, hsplit⟩ := exists_splitOn newline piece
    rw [hlines, List.map_cons] at ih
    have hall := TrimmedLines.splitOn_append hsplit ih.symm
    rw [cutLines, hlines, hsplit, goOn_append, List.flatten_cons, hall]
    simp [Function.comp_def]

theorem flatten_cutLines (pieces : List (List α)) :
    (cutLines newline pieces).flatten = pieces.flatMap (·.splitOn newline) := by
  induction pieces with
  | nil => rfl
  | cons piece pieces ih =>
    obtain ⟨parts, lines, hlines⟩ := cutLines_ne_nil newline pieces
    obtain ⟨as, x, hsplit⟩ := exists_splitOn newline piece
    have hsingles : (as.map ([·])).flatten = as := List.flatMap_singleton' as
    rw [hlines, List.flatten_cons] at ih
    rw [cutLines, hlines, hsplit, goOn_append, List.flatMap_cons, hsplit, ← ih, List.flatten_append,
      hsingles]
    simp

end Lines

variable (read : List α → Option β)

/-- The last value that is read of some texts, or else the one from before. -/
def lastRead (b : β) (texts : List (List α)) : β := texts.foldl (fun b text => (read text).getD b) b

/-- The last value that is read of the parts of a line. -/
def partsRead (parts : List (List α)) : Option β :=
  lastRead (fun part => (read part).map some) none parts

theorem lastRead_append (b : β) (texts more : List (List α)) :
    lastRead read b (texts ++ more) = lastRead read (lastRead read b texts) more :=
  List.foldl_append

theorem lastRead_parts (b : β) (parts : List (List α)) :
    lastRead read b parts = (partsRead read parts).getD b := by
  induction parts using List.reverseRecOn with
  | nil => rfl
  | append_singleton parts part ih =>
    rw [partsRead, lastRead_append, lastRead_append, ← partsRead, ih]
    simp only [lastRead, List.foldl_cons, List.foldl_nil]
    cases read part with
    | none => simp
    | some u => simp

/-- Neither the line nor a part of it is read. -/
def Silent (parts : List (List α)) : Prop :=
  read parts.flatten = none ∧ partsRead read parts = none

/-- The line alone is read, but as what the parts of the lines before it end in, or its parts alone
are, but as what the lines before it end in. -/
def Repeats (b : β) (before : List (List (List α))) (parts : List (List α)) : Prop :=
  (partsRead read parts = none ∧ read parts.flatten = some (lastRead read b before.flatten)) ∨
    (read parts.flatten = none ∧
      partsRead read parts = some (lastRead read b (before.map List.flatten)))

/-- The last line that is read, or of which a part is, is read as its parts are, unless it
repeats. -/
def Harmless (b : β) (cut : List (List (List α))) : Prop :=
  ∀ before parts after, cut = before ++ parts :: after → (∀ later ∈ after, Silent read later) →
    read parts.flatten ≠ partsRead read parts → Repeats read b before parts

variable {read}

theorem lastRead_cut_append (b : β) (cut : List (List (List α))) (parts : List (List α)) :
    lastRead read b ((cut ++ [parts]).map List.flatten) =
        (read parts.flatten).getD (lastRead read b (cut.map List.flatten)) ∧
      lastRead read b (cut ++ [parts]).flatten =
        (partsRead read parts).getD (lastRead read b cut.flatten) := by
  constructor
  · rw [List.map_append, lastRead_append]
    rfl
  · rw [List.flatten_append, lastRead_append, ← lastRead_parts]
    simp

theorem harmless_silent {b : β} {cut : List (List (List α))} {parts : List (List α)}
    (h : Silent read parts) : Harmless read b (cut ++ [parts]) ↔ Harmless read b cut := by
  constructor
  · intro hall before line after heq hafter hmis
    apply hall before line (after ++ [parts])
    · rw [heq]
      simp
    · intro later hlater
      rcases List.mem_append.mp hlater with hlater | hlater
      · exact hafter later hlater
      · rw [List.mem_singleton.mp hlater]
        exact h
    · exact hmis
  · intro hcut before line after heq hafter hmis
    rcases List.eq_nil_or_concat' after with rfl | ⟨after, last, rfl⟩
    · have hlast := List.append_inj_right' heq rfl
      obtain rfl : parts = line := by simpa using hlast
      exact absurd (h.1.trans h.2.symm) hmis
    · rw [← List.cons_append, ← List.append_assoc] at heq
      have hinit := List.append_inj_left' heq rfl
      apply hcut before line after hinit
      · intro later hlater
        exact hafter later (List.mem_append_left _ hlater)
      · exact hmis

theorem harmless_read {b : β} {cut : List (List (List α))} {parts : List (List α)}
    (h : ¬Silent read parts) : Harmless read b (cut ++ [parts]) ↔
      (read parts.flatten ≠ partsRead read parts → Repeats read b cut parts) := by
  constructor
  · intro hall hmis
    exact hall cut parts [] rfl (by simp) hmis
  · intro hlast before line after heq hafter hmis
    rcases List.eq_nil_or_concat' after with rfl | ⟨after, last, rfl⟩
    · have hinit := List.append_inj_left' heq rfl
      have hline := List.append_inj_right' heq rfl
      obtain rfl : parts = line := by simpa using hline
      rw [← hinit]
      exact hlast hmis
    · rw [← List.cons_append, ← List.append_assoc] at heq
      have hline := List.append_inj_right' heq rfl
      obtain rfl : parts = last := by simpa using hline
      exact absurd (hafter parts (by simp)) h

/-- Reading the parts ends in the same as reading the lines exactly when the cuts are harmless. -/
theorem lastRead_cut_iff (b : β) (cut : List (List (List α))) :
    lastRead read b cut.flatten = lastRead read b (cut.map List.flatten) ↔ Harmless read b cut := by
  induction cut using List.reverseRecOn with
  | nil => simp [lastRead, Harmless]
  | append_singleton cut parts ih =>
    obtain ⟨hlines, hparts⟩ := @lastRead_cut_append _ _ read b cut parts
    rw [hlines, hparts]
    by_cases hsilent : Silent read parts
    · rw [harmless_silent hsilent, hsilent.1, hsilent.2]
      exact ih
    · rw [harmless_read hsilent]
      rw [Silent, not_and_or] at hsilent
      unfold Repeats
      cases hline : read parts.flatten with
      | none =>
        cases hpart : partsRead read parts with
        | none => simp [hline, hpart] at hsilent
        | some v => simp
      | some u =>
        cases hpart : partsRead read parts with
        | none => simp [eq_comm]
        | some v => simp [eq_comm]

/-- At most one piece has something of the line. -/
def Uncut (parts : List (List α)) : Prop := (parts.filter fun part => !part.isEmpty).length ≤ 1

theorem partsRead_filter (hnil : read [] = none) (parts : List (List α)) :
    partsRead read (parts.filter fun part => !part.isEmpty) = partsRead read parts := by
  induction parts using List.reverseRecOn with
  | nil => rfl
  | append_singleton parts part ih =>
    rw [List.filter_append, partsRead, partsRead, lastRead_append, lastRead_append, ← partsRead,
      ← partsRead, ih]
    cases part with
    | nil => simp [lastRead, hnil]
    | cons c part => rfl

theorem harmless_of_uncut {b : β} {cut : List (List (List α))} (hnil : read [] = none)
    (h : ∀ parts ∈ cut, Uncut parts) : Harmless read b cut := by
  intro before parts after heq _ hmis
  have hone := h parts (by simp [heq])
  have hflatten : (parts.filter fun part => !part.isEmpty).flatten = parts.flatten :=
    List.flatten_filter_not_isEmpty
  have hread := partsRead_filter hnil parts
  rw [Uncut] at hone
  apply absurd _ hmis
  rw [← hflatten, ← hread]
  generalize (parts.filter fun part => !part.isEmpty) = filled at hone
  cases filled with
  | nil => exact hnil
  | cons part rest =>
    obtain rfl : rest = [] := by simpa using hone
    cases hpart : read part with
    | none => simp [partsRead, lastRead, hpart]
    | some u => simp [partsRead, lastRead, hpart]

end GpuSharing.CutLines
