import Mathlib.Data.List.Basic
import Mathlib.Data.UInt

namespace GpuSharing.SplitReads

/-- A byte stream as its reader has it: what is still to come, how much has been read, and whether the
end of the stream follows. -/
structure Source (α : Type) where
  pending : List α
  position : Nat
  closed : Bool
  deriving DecidableEq, Repr

variable {α : Type}

def Source.skip (s : Source α) (n : Nat) : Source α :=
  { s with pending := s.pending.drop n, position := s.position + n }

@[simp] theorem Source.skip_closed (s : Source α) (n : Nat) : (s.skip n).closed = s.closed := rfl

@[simp] theorem Source.skip_pending (s : Source α) (n : Nat) :
    (s.skip n).pending = s.pending.drop n := rfl

@[simp] theorem Source.skip_position (s : Source α) (n : Nat) :
    (s.skip n).position = s.position + n := rfl

@[simp] theorem Source.skip_zero (s : Source α) : s.skip 0 = s := rfl

theorem Source.skip_skip (s : Source α) (m n : Nat) : (s.skip m).skip n = s.skip (m + n) := by
  simp [skip, List.drop_drop, Nat.add_assoc]

/-- How much a read of at most `n` returns. `available` says for each position how much has arrived
when it is read there; a read waits for something, so it is at least one. -/
def taken (available : Nat → Nat) (n : Nat) (s : Source α) : Nat :=
  min (min n (max 1 (available s.position))) s.pending.length

/-- A read returns nothing at the end of the stream, and `none` when it waits for ever. -/
def recv (available : Nat → Nat) (n : Nat) (s : Source α) : Option (List α × Source α) :=
  if s.pending = [] then if s.closed then some ([], s) else none
  else some (s.pending.take (taken available n s), s.skip (taken available n s))

inductive Outcome (α : Type)
  | data (read : List α) (s : Source α)
  | ended (s : Source α)
  | waits
  deriving DecidableEq, Repr

section Recv

variable (available : Nat → Nat) {n : Nat} {s : Source α}

theorem taken_le : taken available n s ≤ n :=
  (Nat.min_le_left _ _).trans (Nat.min_le_left _ _)

theorem taken_le_length : taken available n s ≤ s.pending.length := Nat.min_le_right _ _

theorem taken_pos (hn : 0 < n) (hs : s.pending ≠ []) : 0 < taken available n s := by
  have := List.length_pos_iff.mpr hs
  simp only [taken]
  omega

theorem recv_of_pending (hs : s.pending ≠ []) :
    recv available n s = some (s.pending.take (taken available n s),
      s.skip (taken available n s)) := if_neg hs

theorem recv_of_end (hs : s.pending = []) :
    recv available n s = if s.closed then some ([], s) else none := if_pos hs

variable {available} in
theorem recv_shrinks {c : α} {cs : List α} {t : Source α}
    (h : recv available n s = some (c :: cs, t)) : t.pending.length < s.pending.length := by
  by_cases hs : s.pending = []
  · rw [recv_of_end _ hs] at h
    split at h <;> cases h
  · rw [recv_of_pending _ hs] at h
    obtain ⟨hread, rfl⟩ := Prod.mk.inj (Option.some.inj h)
    have hlen := congrArg List.length hread
    simp only [List.length_take, List.length_cons, Source.skip_pending, List.length_drop] at hlen ⊢
    omega

end Recv

/-- Read until there are `length`. -/
def recvAll (available : Nat → Nat) (length : Nat) (read : List α) (s : Source α) : Outcome α :=
  if read.length < length then
    match _h : recv available (length - read.length) s with
    | none => .waits
    | some ([], t) => .ended t
    | some (c :: cs, t) => recvAll available length (read ++ c :: cs) t
  else .data read s
termination_by s.pending.length
decreasing_by exact recv_shrinks _h

section RecvAll

variable (available : Nat → Nat) {length : Nat}

theorem recvAll_done {read : List α} {s : Source α} (h : length ≤ read.length) :
    recvAll available length read s = .data read s := by
  rw [recvAll, if_neg (Nat.not_lt.mpr h)]

theorem recvAll_end {read : List α} {s : Source α} (h : read.length < length)
    (hs : s.pending = []) :
    recvAll available length read s = if s.closed then .ended s else .waits := by
  rw [recvAll, if_pos h]
  split
  · rename_i hnone
    rw [recv_of_end _ hs] at hnone
    split at hnone
    · cases hnone
    · rename_i hopen
      rw [if_neg hopen]
  · rename_i hnil
    rw [recv_of_end _ hs] at hnil
    split at hnil
    · rename_i hclosed
      cases hnil
      rw [if_pos hclosed]
    · cases hnil
  · rename_i hcons
    rw [recv_of_end _ hs] at hcons
    split at hcons <;> cases hcons

variable {available} in
theorem recvAll_cons {read cs : List α} {c : α} {s t : Source α} (h : read.length < length)
    (hr : recv available (length - read.length) s = some (c :: cs, t)) :
    recvAll available length read s = recvAll available length (read ++ c :: cs) t := by
  rw [recvAll, if_pos h]
  split <;> rename_i hread <;> rw [hr] at hread <;> cases hread
  rfl

/-- A read in the middle leaves the rest to be read. -/
theorem recvAll_next {read : List α} {s : Source α} (h : read.length < length)
    (hs : s.pending ≠ []) : ∃ k, 0 < k ∧ k ≤ length - read.length ∧ k ≤ s.pending.length ∧
      recvAll available length read s =
        recvAll available length (read ++ s.pending.take k) (s.skip k) := by
  have hneed : 0 < length - read.length := by omega
  have hpos := taken_pos available hneed hs
  refine ⟨_, hpos, taken_le _, taken_le_length _, ?_⟩
  obtain ⟨c, cs, htake⟩ : ∃ c cs, s.pending.take (taken available (length - read.length) s) =
      c :: cs := List.exists_cons_of_ne_nil fun hnil => by
    have hlen := congrArg List.length hnil
    have := List.length_pos_iff.mpr hs
    rw [List.length_take, List.length_nil] at hlen
    omega
  have hread := recv_of_pending available (n := length - read.length) hs
  rw [htake] at hread
  rw [recvAll_cons h hread, htake]

/-- However the stream is split, the loop reads what it asks for when it is all there, … -/
theorem recvAll_eq {read : List α} {s : Source α} (hread : read.length ≤ length)
    (hs : length ≤ read.length + s.pending.length) :
    recvAll available length read s =
      .data (read ++ s.pending.take (length - read.length)) (s.skip (length - read.length)) := by
  induction hn : s.pending.length using Nat.strong_induction_on generalizing read s with
  | _ n ih =>
    by_cases hlt : read.length < length
    · have hpending : s.pending ≠ [] := by
        intro hnil
        rw [hnil, List.length_nil] at hs
        omega
      obtain ⟨k, hpos, hk, hklen, heq⟩ := recvAll_next available hlt hpending
      have hsplit : length - read.length = k + (length - (read.length + k)) := by omega
      rw [heq, ih (s.pending.length - k) (by omega) (by simp; omega) (by simp; omega) (by simp)]
      simp only [List.length_append, List.length_take, Nat.min_eq_left hklen, List.append_assoc,
        Source.skip_pending, Source.skip_skip]
      rw [← List.take_add, ← hsplit]
    · have hdone : length - read.length = 0 := by omega
      rw [recvAll_done _ (by omega), hdone]
      simp

/-- … and otherwise it comes to the end of the stream or waits. -/
theorem recvAll_short {read : List α} {s : Source α}
    (hs : read.length + s.pending.length < length) :
    (∃ t, recvAll available length read s = .ended t) ∧ s.closed = true ∨
      recvAll available length read s = .waits ∧ s.closed = false := by
  induction hn : s.pending.length using Nat.strong_induction_on generalizing read s with
  | _ n ih =>
    by_cases hpending : s.pending = []
    · rw [recvAll_end _ (by omega) hpending]
      cases s.closed
      · exact .inr ⟨rfl, rfl⟩
      · exact .inl ⟨⟨s, rfl⟩, rfl⟩
    · have hlt : read.length < length := by omega
      obtain ⟨k, hpos, hk, hklen, heq⟩ := recvAll_next available hlt hpending
      rw [heq]
      have hnext : (read ++ s.pending.take k).length + (s.skip k).pending.length < length := by
        simp
        omega
      exact ih (s.pending.length - k) (by omega) hnext (by simp)

end RecvAll

/-- The lowest `k` digits of `n` to the base 256, the highest first. -/
def toBytes : Nat → Nat → List UInt8
  | 0, _ => []
  | k + 1, n => toBytes k (n / 256) ++ [UInt8.ofNat n]

def fromBytes (bytes : List UInt8) : Nat := bytes.foldl (fun n b => n * 256 + b.toNat) 0

@[simp] theorem length_toBytes (k n : Nat) : (toBytes k n).length = k := by
  induction k generalizing n with
  | zero => rfl
  | succ k ih => simp [toBytes, ih]

theorem fromBytes_toBytes (k n : Nat) (h : n < 256 ^ k) : fromBytes (toBytes k n) = n := by
  induction k generalizing n with
  | zero =>
    have hn : n = 0 := by simpa using h
    subst hn
    rfl
  | succ k ih =>
    have hd : n / 256 < 256 ^ k := by
      apply (Nat.div_lt_iff_lt_mul (by decide : 0 < 256)).mpr
      simpa [Nat.pow_succ] using h
    have hrest := ih (n / 256) hd
    rw [fromBytes] at hrest
    rw [fromBytes, toBytes, List.foldl_append, hrest]
    simp only [List.foldl_cons, List.foldl_nil, UInt8.toNat_ofNat']
    omega

end GpuSharing.SplitReads
