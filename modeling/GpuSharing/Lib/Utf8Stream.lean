import Mathlib.Data.List.Basic
import GpuSharing.Lib.Transducer

namespace GpuSharing.Utf8Stream

open Transducer

/-- What a decoder holds between two bytes: nothing, or the beginning of a character, with the
bounds of its next byte, the number of bytes after that one and the bits it has read. -/
inductive Decoder where
  | start
  | pending (lower upper later point : Nat)
  deriving DecidableEq, Repr

def replacement : Char := '\uFFFD'

/-- What the first byte of a character says: the character itself or how it goes on. -/
def first (b : Nat) : Decoder × List Char :=
  if b ≤ 0x7F then (.start, [Char.ofNat b])
  else if 0xC2 ≤ b ∧ b ≤ 0xDF then (.pending 0x80 0xBF 0 (b - 0xC0), [])
  else if 0xE0 ≤ b ∧ b ≤ 0xEF then
    -- neither overlong forms nor surrogates
    (.pending (if b = 0xE0 then 0xA0 else 0x80) (if b = 0xED then 0x9F else 0xBF) 1 (b - 0xE0), [])
  else if 0xF0 ≤ b ∧ b ≤ 0xF4 then
    -- neither overlong forms nor numbers over 0x10FFFF
    (.pending (if b = 0xF0 then 0x90 else 0x80) (if b = 0xF4 then 0x8F else 0xBF) 2 (b - 0xF0), [])
  else (.start, [replacement])

def decode : Decoder → UInt8 → Decoder × List Char
  | .start, b => first b.toNat
  | .pending lower upper later point, b =>
    if lower ≤ b.toNat ∧ b.toNat ≤ upper then
      match later with
      | 0 => (.start, [Char.ofNat (point * 64 + (b.toNat - 0x80))])
      | later + 1 => (.pending 0x80 0xBF later (point * 64 + (b.toNat - 0x80)), [])
    -- a broken character is replaced, and the byte that broke it is read again
    else ((first b.toNat).1, replacement :: (first b.toNat).2)

/-- What is left in the decoder when the bytes end. -/
def finish : Decoder → List Char
  | .start => []
  | .pending .. => [replacement]

/-- A byte order mark is dropped at the beginning; the state says whether it is over. -/
def dropMark (begun : Bool) (c : Char) : Bool × List Char :=
  (true, if !begun && c = '\uFEFF' then [] else [c])

def encode (text : List Char) : List UInt8 := text.flatMap String.utf8EncodeChar

@[simp] theorem encode_append (text rest : List Char) :
    encode (text ++ rest) = encode text ++ encode rest := List.flatMap_append

theorem feed_dropMark_true (text : List Char) : feed dropMark true text = (true, text) := by
  induction text with
  | nil => rfl
  | cons c text ih => simp [dropMark, ih]

/-- Only a mark at the very beginning is dropped. -/
theorem feed_dropMark {text : List Char} (h : text.head? ≠ some '\uFEFF') (begun : Bool) :
    (feed dropMark begun text).2 = text := by
  cases text with
  | nil => rfl
  | cons c text =>
    have hc : c ≠ '\uFEFF' := by simpa using h
    simp [dropMark, hc, feed_dropMark_true]

theorem toNat_ofNat_lt {n : Nat} (h : n < 256) : (UInt8.ofNat n).toNat = n := by
  rw [UInt8.toNat_ofNat']
  omega

theorem feed_first {n : Nat} {d : Decoder} {text : List Char} (h : n < 256)
    (hfirst : first n = (d, text)) (bs : List UInt8) :
    feed decode .start (UInt8.ofNat n :: bs) =
      ((feed decode d bs).1, text ++ (feed decode d bs).2) := by
  have hstep : decode .start (UInt8.ofNat n) = (d, text) := by
    rw [decode, toNat_ofNat_lt h, hfirst]
  rw [feed_cons, hstep]

theorem feed_last {lower upper point n : Nat} (h : n < 256) (hl : lower ≤ n) (hu : n ≤ upper) :
    feed decode (.pending lower upper 0 point) [UInt8.ofNat n] =
      (.start, [Char.ofNat (point * 64 + (n - 0x80))]) := by
  rw [feed_cons, decode, toNat_ofNat_lt h, if_pos ⟨hl, hu⟩]
  rfl

theorem feed_later {lower upper later point n : Nat} (h : n < 256) (hl : lower ≤ n)
    (hu : n ≤ upper) (bs : List UInt8) :
    feed decode (.pending lower upper (later + 1) point) (UInt8.ofNat n :: bs) =
      feed decode (.pending 0x80 0xBF later (point * 64 + (n - 0x80))) bs := by
  rw [feed_cons, decode, toNat_ofNat_lt h, if_pos ⟨hl, hu⟩]
  rfl

theorem feed_decode_utf8EncodeChar (c : Char) :
    feed decode .start (String.utf8EncodeChar c) = (.start, [c]) := by
  have hvalid : c.val.toNat < 0xD800 ∨ 0xDFFF < c.val.toNat ∧ c.val.toNat < 0x110000 := c.valid
  have hc : Char.ofNat c.val.toNat = c := Char.ofNat_toNat c
  generalize hv : c.val.toNat = v at hvalid hc
  unfold String.utf8EncodeChar
  simp only [hv]
  split_ifs with h1 h2 h3
  · have hfirst : first v = (.start, [c]) := by rw [first, if_pos h1, hc]
    rw [feed_first (by omega) hfirst]
    rfl
  · have hfirst : first (v / 64 % 32 + 0xC0) = (.pending 0x80 0xBF 0 (v / 64), []) := by
      have hsmall : v / 64 % 32 = v / 64 := by omega
      rw [hsmall, first, if_neg (by omega), if_pos (by omega)]
      simp
    have hpoint : v / 64 * 64 + (v % 64 + 0x80 - 0x80) = v := by omega
    rw [feed_first (by omega) hfirst, feed_last (by omega) (by omega) (by omega), hpoint, hc]
    rfl
  · have hfirst : first (v / 4096 % 16 + 0xE0) =
        (.pending (if v / 4096 = 0 then 0xA0 else 0x80) (if v / 4096 = 0xD then 0x9F else 0xBF) 1
          (v / 4096), []) := by
      have hsmall : v / 4096 % 16 = v / 4096 := by omega
      rw [hsmall, first, if_neg (by omega), if_neg (by omega), if_pos (by omega)]
      simp
    have hpoint : (v / 4096 * 64 + (v / 64 % 64 + 0x80 - 0x80)) * 64 +
        (v % 64 + 0x80 - 0x80) = v := by omega
    rw [feed_first (by omega) hfirst, feed_later (by omega) (by split_ifs <;> omega)
      (by split_ifs <;> omega), feed_last (by omega) (by omega) (by omega), hpoint, hc]
    rfl
  · have hfirst : first (v / 262144 % 8 + 0xF0) =
        (.pending (if v / 262144 = 0 then 0x90 else 0x80) (if v / 262144 = 4 then 0x8F else 0xBF) 2
          (v / 262144), []) := by
      have hsmall : v / 262144 % 8 = v / 262144 := by omega
      rw [hsmall, first, if_neg (by omega), if_neg (by omega), if_neg (by omega),
        if_pos (by omega)]
      simp
    have hpoint : ((v / 262144 * 64 + (v / 4096 % 64 + 0x80 - 0x80)) * 64 +
        (v / 64 % 64 + 0x80 - 0x80)) * 64 + (v % 64 + 0x80 - 0x80) = v := by omega
    rw [feed_first (by omega) hfirst, feed_later (by omega) (by split_ifs <;> omega)
      (by split_ifs <;> omega), feed_later (by omega) (by omega) (by omega),
      feed_last (by omega) (by omega) (by omega), hpoint, hc]
    rfl

/-- Every text is read back from its bytes. -/
theorem feed_decode_encode (text : List Char) :
    feed decode .start (encode text) = (.start, text) :=
  feed_flatMap decode .start feed_decode_utf8EncodeChar text

/-- Bytes that are decoded at once. -/
def text (bytes : List UInt8) : List Char :=
  (feed decode .start bytes).2 ++ finish (feed decode .start bytes).1

/-- The next byte goes on with the character that the decoder holds. -/
def Decoder.Continues : Decoder → List UInt8 → Prop
  | .pending lower upper _ _, b :: _ => lower ≤ b.toNat ∧ b.toNat ≤ upper
  | _, _ => False

instance decidableContinues : ∀ (d : Decoder) (rest : List UInt8), Decidable (d.Continues rest)
  | .pending .., _ :: _ => inferInstanceAs (Decidable (_ ∧ _))
  | .pending .., [] | .start, _ => .isFalse id

/-- The bytes end within a character with which the next ones go on. -/
def SplitsCharacter (bytes rest : List UInt8) : Prop := (feed decode .start bytes).1.Continues rest

instance decidableSplitsCharacter (bytes rest : List UInt8) :
    Decidable (SplitsCharacter bytes rest) :=
  inferInstanceAs (Decidable (Decoder.Continues _ _))

theorem text_append {bytes rest : List UInt8} (h : ¬ SplitsCharacter bytes rest) :
    text (bytes ++ rest) = text bytes ++ text rest := by
  rw [text, text, text, feed_append]
  cases hd : (feed decode .start bytes).1 with
  | start => simp [finish]
  | pending lower upper later point =>
    cases rest with
    | nil => simp [finish]
    | cons b rest =>
      have hb : ¬ (lower ≤ b.toNat ∧ b.toNat ≤ upper) := by
        simpa [SplitsCharacter, hd, Decoder.Continues] using h
      simp [feed_cons, decode, hb, finish]

/-- What a decoder holds can only go on with bytes that begin no character. -/
def Decoder.Bounded : Decoder → Prop
  | .start => True
  | .pending lower upper _ _ => 0x80 ≤ lower ∧ upper ≤ 0xBF

theorem first_bounded (b : Nat) : (first b).1.Bounded := by
  unfold first
  split_ifs <;> simp [Decoder.Bounded]

section Pending

variable {lower upper later point : Nat} {b : UInt8}

theorem decode_broken (hb : ¬ (lower ≤ b.toNat ∧ b.toNat ≤ upper)) :
    decode (.pending lower upper later point) b =
      ((first b.toNat).1, replacement :: (first b.toNat).2) := by
  cases later <;> exact if_neg hb

theorem decode_last (hb : lower ≤ b.toNat ∧ b.toNat ≤ upper) :
    decode (.pending lower upper 0 point) b =
      (.start, [Char.ofNat (point * 64 + (b.toNat - 0x80))]) := if_pos hb

theorem decode_later (hb : lower ≤ b.toNat ∧ b.toNat ≤ upper) :
    decode (.pending lower upper (later + 1) point) b =
      (.pending 0x80 0xBF later (point * 64 + (b.toNat - 0x80)), []) := if_pos hb

end Pending

theorem decode_bounded {d : Decoder} (hd : d.Bounded) (b : UInt8) : (decode d b).1.Bounded := by
  cases d with
  | start => exact first_bounded _
  | pending lower upper later point =>
    by_cases hb : lower ≤ b.toNat ∧ b.toNat ≤ upper
    · cases later with
      | zero =>
        rw [decode_last hb]
        trivial
      | succ later =>
        rw [decode_later hb]
        exact ⟨Nat.le_refl _, Nat.le_refl _⟩
    · rw [decode_broken hb]
      exact first_bounded _

theorem feed_bounded {d : Decoder} (hd : d.Bounded) (bytes : List UInt8) :
    (feed decode d bytes).1.Bounded := by
  induction bytes generalizing d with
  | nil => exact hd
  | cons b bytes ih => exact ih (decode_bounded hd b)

section Count

variable {p : Char → Bool} {lower upper later point : Nat} {b : UInt8}

/-- How many characters a decoder makes of bytes. -/
def made (p : Char → Bool) (d : Decoder) (bytes : List UInt8) : Nat :=
  ((feed decode d bytes).2 ++ finish (feed decode d bytes).1).countP p

theorem made_cons (d : Decoder) (b : UInt8) (bytes : List UInt8) :
    made p d (b :: bytes) = (decode d b).2.countP p + made p (decode d b).1 bytes := by
  simp [made]

theorem made_continues {bytes : List UInt8} (hb : lower ≤ b.toNat ∧ b.toNat ≤ upper)
    (hlater : ∀ later point, made p (.pending 0x80 0xBF later point) bytes ≤ 1 + made p .start bytes) :
    made p (.pending lower upper later point) (b :: bytes) ≤ 1 + made p .start bytes := by
  rw [made_cons]
  cases later with
  | zero =>
    have hone : [Char.ofNat (point * 64 + (b.toNat - 0x80))].countP p ≤ 1 := List.countP_le_length
    rw [decode_last hb]
    exact Nat.add_le_add_right hone _
  | succ later =>
    rw [decode_later hb, List.countP_nil, Nat.zero_add]
    exact hlater later _

variable (hp : p replacement = true)
include hp

/-- A byte that begins no character is replaced. -/
theorem made_start_continues (hd : (Decoder.pending lower upper later point).Bounded)
    (hb : lower ≤ b.toNat ∧ b.toNat ≤ upper) (bytes : List UInt8) :
    made p .start (b :: bytes) = 1 + made p .start bytes := by
  have hfirst : first b.toNat = (.start, [replacement]) := by
    obtain ⟨hlower, hupper⟩ := hd
    rw [first, if_neg (by omega), if_neg (by omega), if_neg (by omega), if_neg (by omega)]
  rw [made_cons, decode, hfirst]
  simp [hp]

theorem made_pending_le (hd : (Decoder.pending lower upper later point).Bounded)
    (bytes : List UInt8) :
    made p (.pending lower upper later point) bytes ≤ 1 + made p .start bytes := by
  induction bytes generalizing lower upper later point with
  | nil => simp [made, finish, hp]
  | cons b bytes ih =>
    by_cases hb : lower ≤ b.toNat ∧ b.toNat ≤ upper
    · have hle : made p (.pending lower upper later point) (b :: bytes) ≤ 1 + made p .start bytes :=
        made_continues hb fun _ _ => ih ⟨Nat.le_refl _, Nat.le_refl _⟩
      rw [made_start_continues hp hd hb]
      omega
    · rw [made_cons, made_cons, decode_broken hb, decode]
      simp [hp]
      omega

/-- Bytes that are decoded in two goes are at least as many characters, and more if one is split. -/
theorem text_append_count (bytes rest : List UInt8) :
    (text (bytes ++ rest)).countP p ≤ (text bytes).countP p + (text rest).countP p ∧
      (SplitsCharacter bytes rest →
        (text (bytes ++ rest)).countP p < (text bytes).countP p + (text rest).countP p) := by
  by_cases hsplit : SplitsCharacter bytes rest
  · have hbounded : (feed decode .start bytes).1.Bounded :=
      feed_bounded (show Decoder.start.Bounded from trivial) bytes
    have hwhole : (text (bytes ++ rest)).countP p =
        (feed decode .start bytes).2.countP p + made p (feed decode .start bytes).1 rest := by
      simp only [text, made, feed_append, List.append_assoc, List.countP_append]
    have hlt : (text (bytes ++ rest)).countP p <
        (text bytes).countP p + (text rest).countP p := by
      rw [hwhole, text, List.countP_append, text, Nat.add_assoc]
      rw [SplitsCharacter] at hsplit
      refine Nat.add_lt_add_left ?_ _
      match hd : (feed decode .start bytes).1, rest, hsplit with
      | .pending lower upper later point, b :: rest, hb =>
        rw [hd] at hbounded
        have hle : made p (.pending lower upper later point) (b :: rest) ≤ 1 + made p .start rest :=
          made_continues hb fun _ _ => made_pending_le hp ⟨Nat.le_refl _, Nat.le_refl _⟩ rest
        have hstart := made_start_continues hp hbounded hb rest
        rw [made] at hstart
        rw [hstart, finish, List.countP_singleton, if_pos hp]
        omega
    exact ⟨Nat.le_of_lt hlt, fun _ => hlt⟩
  · rw [text_append hsplit, List.countP_append]
    exact ⟨Nat.le_refl _, fun h => absurd h hsplit⟩

end Count

end GpuSharing.Utf8Stream
