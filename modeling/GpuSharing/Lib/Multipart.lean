import Mathlib.Data.List.Infix
import GpuSharing.Lib.Utf8Stream

namespace GpuSharing.Multipart

open Utf8Stream (encode text)

section Cut

variable {α : Type} [DecidableEq α] {c : α} {sep before after xs ys : List α}

/-- What stands before and after the first occurrence of `sep`. -/
def cut (sep : List α) : List α → Option (List α × List α)
  | [] => none
  | x :: xs =>
    if sep <+: x :: xs then some ([], (x :: xs).drop sep.length)
    else (cut sep xs).map fun found => (x :: found.1, found.2)

theorem cut_some (h : cut (c :: sep) xs = some (before, after)) :
    xs = before ++ (c :: sep ++ after) ∧ ¬ c :: sep <:+: before := by
  induction xs generalizing before with
  | nil => cases h
  | cons x xs ih =>
    rw [cut] at h
    split_ifs at h with hstarts
    · cases h
      exact ⟨(List.prefix_iff_eq_append.mp hstarts).symm, by simp⟩
    · obtain ⟨found, hfound, heq⟩ := Option.map_eq_some_iff.mp h
      cases heq
      obtain ⟨hxs, hnot⟩ := ih hfound
      refine ⟨congrArg (x :: ·) hxs, fun hwithin => ?_⟩
      obtain hp | hi := List.infix_cons_iff.mp hwithin
      · refine hstarts (hp.trans ?_)
        rw [hxs]
        exact List.prefix_append (x :: found.1) _
      · exact hnot hi

theorem cut_length (h : cut (c :: sep) xs = some (before, after)) : after.length < xs.length := by
  rw [(cut_some h).1]
  simp only [List.length_append, List.length_cons]
  omega

/-- A text that holds no separator is found before the separator that follows it. -/
theorem cut_append (hc : c ∉ sep) (h : ¬ c :: sep <:+: xs) (ys : List α) :
    cut (c :: sep) (xs ++ (c :: sep ++ ys)) = some (xs, ys) := by
  induction xs with
  | nil =>
    have hstarts : c :: sep <+: c :: (sep ++ ys) := List.prefix_append (c :: sep) ys
    rw [List.nil_append, List.cons_append, cut, if_pos hstarts, ← List.cons_append, List.drop_left]
  | cons x xs ih =>
    have hnot : ¬ c :: sep <+: x :: xs ++ (c :: sep ++ ys) := by
      intro hstarts
      obtain hin | hout := List.prefix_or_prefix_of_prefix hstarts (List.prefix_append (x :: xs) _)
      · exact h hin.isInfix
      · -- an occurrence that goes on into the separator would repeat its first symbol
        obtain ⟨tail, htail⟩ := hout
        obtain ⟨rest, hrest⟩ := hstarts
        have hnext : x :: xs ++ (tail ++ rest) = x :: xs ++ (c :: sep ++ ys) := by
          rw [← List.append_assoc, htail, hrest]
        replace hnext := List.append_cancel_left hnext
        cases tail with
        | nil =>
          rw [List.append_nil] at htail
          exact h (htail ▸ List.infix_rfl)
        | cons d tail =>
          have hd : d = c := (List.cons.inj hnext).1
          have hsep : xs ++ d :: tail = sep := (List.cons.inj htail).2
          apply hc
          rw [← hsep, hd]
          simp
    rw [List.cons_append, cut, ← List.cons_append, if_neg hnot,
      ih fun hwithin => h (List.infix_cons_iff.mpr (.inr hwithin))]
    rfl

theorem cut_singleton_append (h : c ∉ xs) (ys : List α) :
    cut [c] (xs ++ c :: ys) = some (xs, ys) :=
  cut_append (List.not_mem_nil) (fun hwithin => h (hwithin.subset List.mem_cons_self)) ys

omit [DecidableEq α] in
/-- No occurrence starts in a text without the first symbol. -/
theorem infix_of_append (h : c :: sep <:+: xs ++ ys) (hc : c ∉ xs) : c :: sep <:+: ys := by
  induction xs with
  | nil => exact h
  | cons x xs ih =>
    rw [List.cons_append] at h
    obtain hstarts | hwithin := List.infix_cons_iff.mp h
    · obtain ⟨rfl, -⟩ := List.cons_prefix_cons.mp hstarts
      exact absurd List.mem_cons_self hc
    · exact ih hwithin fun hmem => hc (List.mem_cons_of_mem x hmem)

theorem isPrefixOf?_append (xs ys : List α) : xs.isPrefixOf? (xs ++ ys) = some ys := by
  induction xs with
  | nil => rfl
  | cons x xs ih => simp [List.isPrefixOf?, ih]

theorem isPrefixOf?_some (h : xs.isPrefixOf? ys = some after) : ys = xs ++ after := by
  induction xs generalizing ys with
  | nil => simpa [List.isPrefixOf?] using h
  | cons x xs ih =>
    cases ys with
    | nil => cases h
    | cons y ys =>
      simp only [List.isPrefixOf?, beq_iff_eq] at h
      split_ifs at h with hxy
      rw [hxy, ih h]
      rfl

end Cut

/-- A part of a form. The value of a field is text, what a file holds are bytes. -/
inductive Part
  | field (name mimetype value : List Char)
  | file (name filename mimetype : List Char) (content : List UInt8)
  deriving DecidableEq, Repr

/-- What the header of a part says: the name of the part, and of a file its own name and its type. -/
structure Header where
  name : List Char
  file : Option (List Char × List Char)

def quote : UInt8 := 34

def crlf : List UInt8 := [13, 10]

def dashes : List UInt8 := [45, 45]

def nameStart : List UInt8 := encode "Content-Disposition: form-data; name=\"".toList

def filenameStart : List UInt8 := encode "; filename=\"".toList

def typeStart : List UInt8 := encode "Content-Type: ".toList

def textPlain : List Char := "text/plain".toList

def Header.bytes : Header → List UInt8
  | ⟨name, none⟩ => nameStart ++ (encode name ++ [quote])
  | ⟨name, some (filename, mimetype)⟩ =>
    nameStart ++ (encode name ++ quote :: (filenameStart ++ (encode filename ++
      quote :: (crlf ++ (typeStart ++ encode mimetype)))))

namespace Part

def header : Part → Header
  | .field name _ _ => ⟨name, none⟩
  | .file name filename mimetype _ => ⟨name, some (filename, mimetype)⟩

def bytes : Part → List UInt8
  | .field _ _ value => encode value
  | .file _ _ _ content => content

def isFile : Part → Bool
  | .field .. => false
  | .file .. => true

/-- The header of a field is written without a type, which makes it plain text. -/
def Typed : Part → Prop
  | .field _ mimetype _ => mimetype = textPlain
  | .file .. => True

instance decidableTyped : ∀ p : Part, Decidable p.Typed
  | .field _ mimetype _ => inferInstanceAs (Decidable (mimetype = textPlain))
  | .file .. => .isTrue trivial

/-- From the end of one delimiter to the next. -/
def written (p : Part) : List UInt8 := crlf ++ (p.header.bytes ++ (crlf ++ (crlf ++ p.bytes)))

end Part

/-- What separates the parts of a form, with the line break before it. -/
def delimiter (boundary : List UInt8) : List UInt8 := crlf ++ (dashes ++ boundary)

/-- A boundary is made of printable characters. -/
def IsBoundary (boundary : List UInt8) : Prop := ∀ c ∈ boundary, 0x20 < c ∧ c < 0x7F

instance decidableIsBoundary (boundary : List UInt8) : Decidable (IsBoundary boundary) :=
  inferInstanceAs (Decidable (∀ c ∈ boundary, _))

/-- The content of a part does not hold the delimiter, counting the line break before it. -/
def Part.Clean (boundary : List UInt8) (p : Part) : Prop := ¬ delimiter boundary <:+: crlf ++ p.bytes

instance decidableClean (boundary : List UInt8) (p : Part) : Decidable (p.Clean boundary) :=
  inferInstanceAs (Decidable (¬ _))

/-- A form as its sender lays it out. -/
def writeForm (boundary : List UInt8) (parts : List Part) : List UInt8 :=
  (parts.flatMap fun p => dashes ++ (boundary ++ (p.written ++ crlf))) ++
    (dashes ++ (boundary ++ (dashes ++ crlf)))

/-- What a reader of forms is relied on for; it reads back the headers that are `legible`. -/
structure ReadsForms (read : List UInt8 → List UInt8 → Option (List Part))
    (legible : Header → Prop) : Prop where
  reads : ∀ boundary parts, IsBoundary boundary →
    (∀ p ∈ parts, legible p.header ∧ p.Typed ∧ p.Clean boundary) →
    read boundary (writeForm boundary parts) = some parts
  clean : ∀ boundary body parts, IsBoundary boundary → read boundary body = some parts →
    ∀ p ∈ parts, p.Clean boundary

/-- One part from between two delimiters; a field that is not text is refused. -/
def readPart (piece : List UInt8) : Option Part := do
  let (name, rest) ← cut [quote] (← (crlf ++ nameStart).isPrefixOf? piece)
  match (crlf ++ crlf).isPrefixOf? rest with
  | some value =>
    if encode (text value) = value then some (.field (text name) textPlain (text value)) else none
  | none =>
    let (filename, rest) ← cut [quote] (← filenameStart.isPrefixOf? rest)
    let (mimetype, rest) ← cut [13] (← (crlf ++ typeStart).isPrefixOf? rest)
    some (.file (text name) (text filename) (text mimetype) (← (10 :: crlf).isPrefixOf? rest))

def readParts (boundary rest : List UInt8) : Option (List Part) :=
  if dashes <+: rest then some []
  else
    match _h : cut (delimiter boundary) rest with
    | none => none
    | some (piece, rest) => do
      let p ← readPart piece
      let parts ← readParts boundary rest
      some (p :: parts)
termination_by rest.length
decreasing_by exact cut_length _h

def readForm (boundary body : List UInt8) : Option (List Part) := do
  let (_, rest) ← cut (delimiter boundary) (crlf ++ body)
  readParts boundary rest

/-- A value that stands between two quotation marks as it is. -/
def Plain (value : List Char) : Prop := ∀ c ∈ encode value, c ≠ quote ∧ c ≠ 13

def Header.Plain : Header → Prop
  | ⟨name, none⟩ => Multipart.Plain name
  | ⟨name, some (filename, mimetype)⟩ =>
    Multipart.Plain name ∧ Multipart.Plain filename ∧ Multipart.Plain mimetype

instance decidablePlain (value : List Char) : Decidable (Plain value) :=
  inferInstanceAs (Decidable (∀ c ∈ encode value, _))

instance decidableHeaderPlain : ∀ h : Header, Decidable h.Plain
  | ⟨name, none⟩ => inferInstanceAs (Decidable (Plain name))
  | ⟨name, some (filename, mimetype)⟩ =>
    inferInstanceAs (Decidable (Plain name ∧ Plain filename ∧ Plain mimetype))

/-- A text of printable characters can be a boundary. -/
theorem isBoundary_encode {value : List Char} (h : ∀ c ∈ value, 0x20 < c.toNat ∧ c.toNat < 0x7F) :
    IsBoundary (encode value) := by
  intro b hb
  obtain ⟨c, hc, hb⟩ := List.mem_flatMap.mp hb
  obtain ⟨hlow, hhigh⟩ := h c hc
  have hone : String.utf8EncodeChar c = [UInt8.ofNat c.toNat] := by
    have hle : c.val.toNat ≤ 0x7F := Nat.le_of_lt hhigh
    rw [String.utf8EncodeChar, if_pos hle]
    rfl
  rw [hone, List.mem_singleton] at hb
  have hnat := Utf8Stream.toNat_ofNat_lt (Nat.lt_trans hhigh (by decide))
  rw [hb, UInt8.lt_iff_toNat_lt, UInt8.lt_iff_toNat_lt, hnat]
  exact ⟨hlow, hhigh⟩

theorem text_encode (value : List Char) : text (encode value) = value := by
  rw [text, Utf8Stream.feed_decode_encode]
  exact List.append_nil value

theorem Plain.quote_notMem {value : List Char} (h : Plain value) : quote ∉ encode value :=
  fun hmem => (h quote hmem).1 rfl

theorem Plain.notMem {value : List Char} (h : Plain value) : 13 ∉ encode value :=
  fun hmem => (h 13 hmem).2 rfl

section Delimiter

variable {boundary : List UInt8} {p : Part} {parts : List Part}

theorem IsBoundary.notMem (hb : IsBoundary boundary) : 13 ∉ 10 :: (dashes ++ boundary) := by
  intro hmem
  simp only [dashes, List.cons_append, List.nil_append, List.mem_cons] at hmem
  rcases hmem with h | h | h | h
  · cases h
  · cases h
  · cases h
  · exact absurd (hb 13 h).1 (by decide)

/-- The line break that a header goes on with does not begin a delimiter. -/
theorem infix_of_crlf {x : UInt8} {ys : List UInt8} (hx : x ≠ 45)
    (h : delimiter boundary <:+: crlf ++ x :: ys) : delimiter boundary <:+: x :: ys := by
  obtain hstarts | hwithin := List.infix_cons_iff.mp h
  · obtain ⟨-, hstarts⟩ := List.cons_prefix_cons.mp hstarts
    obtain ⟨-, hstarts⟩ := List.cons_prefix_cons.mp hstarts
    exact absurd (List.cons_prefix_cons.mp hstarts).1.symm hx
  · have hbreak : delimiter boundary <:+: [10] ++ x :: ys := hwithin
    exact infix_of_append hbreak (by decide)

theorem nameStart_eq : ∃ rest, nameStart = 67 :: rest ∧ 13 ∉ nameStart :=
  ⟨nameStart.tail, by decide, by decide⟩

theorem typeStart_eq : ∃ rest, typeStart = 67 :: rest ∧ 13 ∉ typeStart :=
  ⟨typeStart.tail, by decide, by decide⟩

/-- The delimiter is in what is written of a part only where it is in the content. -/
theorem not_infix_written (hplain : p.header.Plain) (hclean : p.Clean boundary) :
    ¬ delimiter boundary <:+: p.written := by
  intro h
  apply hclean
  obtain ⟨rest, hname, hnameStart⟩ := nameStart_eq
  obtain ⟨rest', htype, htypeStart⟩ := typeStart_eq
  have hend : ∀ {xs : List UInt8}, 13 ∉ xs →
      delimiter boundary <:+: xs ++ (crlf ++ (crlf ++ p.bytes)) →
      delimiter boundary <:+: crlf ++ p.bytes := by
    intro xs hxs hwithin
    exact infix_of_crlf (by decide) (infix_of_append hwithin hxs)
  cases p with
  | field name mimetype value =>
    have hstart : delimiter boundary <:+:
        (nameStart ++ (encode name ++ [quote])) ++ (crlf ++ (crlf ++ encode value)) := by
      rw [hname]
      rw [Part.written, Part.header, Header.bytes, hname] at h
      exact infix_of_crlf (by decide) h
    refine hend ?_ hstart
    have := Plain.notMem hplain
    simp [hnameStart, this, quote]
  | file name filename mimetype content =>
    obtain ⟨hplainName, hplainFilename, hplainType⟩ := hplain
    have hstart : delimiter boundary <:+:
        (nameStart ++ (encode name ++ quote :: (filenameStart ++ (encode filename ++ [quote])))) ++
          (crlf ++ (typeStart ++ (encode mimetype ++ (crlf ++ (crlf ++ content))))) := by
      rw [hname]
      rw [Part.written, Part.header, Header.bytes, hname] at h
      have := infix_of_crlf (by decide) h
      simpa [Part.bytes] using this
    have htypeLine : delimiter boundary <:+:
        (typeStart ++ encode mimetype) ++ (crlf ++ (crlf ++ content)) := by
      have hfilenameStart : 13 ∉ filenameStart := by decide
      have := infix_of_append hstart (by
        simp [hnameStart, hplainName.notMem, hfilenameStart, hplainFilename.notMem, quote])
      rw [htype] at this ⊢
      simpa using infix_of_crlf (by decide) this
    refine hend ?_ htypeLine
    simp [htypeStart, hplainType.notMem]

end Delimiter

section Read

variable {boundary body piece rest : List UInt8} {p : Part} {parts : List Part}

theorem readPart_written (hplain : p.header.Plain) (htyped : p.Typed) :
    readPart p.written = some p := by
  cases p with
  | field name mimetype value =>
    have hwritten : (Part.field name mimetype value).written =
        (crlf ++ nameStart) ++ (encode name ++ quote :: ((crlf ++ crlf) ++ encode value)) := by
      simp [Part.written, Part.header, Header.bytes, Part.bytes]
    rw [readPart, hwritten, isPrefixOf?_append]
    simp only [Option.bind_eq_bind, Option.bind_some,
      cut_singleton_append (Plain.quote_notMem hplain), isPrefixOf?_append, text_encode, if_true]
    rw [show mimetype = textPlain from htyped]
  | file name filename mimetype content =>
    obtain ⟨hplainName, hplainFilename, hplainType⟩ := hplain
    have hwritten : (Part.file name filename mimetype content).written =
        (crlf ++ nameStart) ++ (encode name ++ quote :: (filenameStart ++ (encode filename ++
          quote :: ((crlf ++ typeStart) ++ (encode mimetype ++ 13 :: ((10 :: crlf) ++ content)))))) := by
      simp [Part.written, Part.header, Header.bytes, Part.bytes, crlf]
    have hnone : ∀ ys, (crlf ++ crlf).isPrefixOf? (filenameStart ++ ys) = none := fun ys => rfl
    rw [readPart, hwritten, isPrefixOf?_append]
    simp only [Option.bind_eq_bind, Option.bind_some, isPrefixOf?_append, text_encode, hnone,
      cut_singleton_append hplainName.quote_notMem, cut_singleton_append hplainType.notMem,
      cut_singleton_append hplainFilename.quote_notMem]

/-- The content that is read ends the piece, and a line break stands before it. -/
theorem readPart_suffix (h : readPart piece = some p) : crlf ++ p.bytes <:+ piece := by
  obtain ⟨start, hstart, h⟩ := Option.bind_eq_some_iff.mp h
  obtain ⟨⟨name, rest⟩, hname, h⟩ := Option.bind_eq_some_iff.mp h
  have hpiece : piece = crlf ++ nameStart ++ (name ++ quote :: rest) := by
    rw [isPrefixOf?_some hstart, (cut_some hname).1]
    rfl
  simp only at h
  split at h
  case h_1 value hvalue =>
    split_ifs at h with htext
    cases h
    refine ⟨crlf ++ nameStart ++ (name ++ quote :: crlf), ?_⟩
    rw [Part.bytes, htext, hpiece, isPrefixOf?_some hvalue]
    simp
  case h_2 =>
    obtain ⟨start', hstart', h⟩ := Option.bind_eq_some_iff.mp h
    obtain ⟨⟨filename, rest'⟩, hfilename, h⟩ := Option.bind_eq_some_iff.mp h
    obtain ⟨start'', hstart'', h⟩ := Option.bind_eq_some_iff.mp h
    obtain ⟨⟨mimetype, rest''⟩, hmimetype, h⟩ := Option.bind_eq_some_iff.mp h
    obtain ⟨content, hcontent, h⟩ := Option.bind_eq_some_iff.mp h
    simp only at hstart'' hcontent h
    cases h
    have hrest : rest = filenameStart ++ (filename ++ quote :: rest') := by
      rw [isPrefixOf?_some hstart', (cut_some hfilename).1]
      rfl
    have hrest' : rest' = crlf ++ typeStart ++ (mimetype ++ crlf ++ (crlf ++ content)) := by
      rw [isPrefixOf?_some hstart'', (cut_some hmimetype).1, isPrefixOf?_some hcontent]
      simp [crlf]
    refine ⟨crlf ++ nameStart ++ (name ++ quote :: (filenameStart ++ (filename ++ quote ::
      (crlf ++ typeStart ++ (mimetype ++ crlf))))), ?_⟩
    rw [hpiece, hrest, hrest']
    simp [Part.bytes]

/-- What follows the first delimiter of a form. -/
def following (boundary : List UInt8) : List Part → List UInt8
  | [] => dashes ++ crlf
  | p :: parts => p.written ++ (delimiter boundary ++ following boundary parts)

theorem crlf_writeForm (boundary : List UInt8) (parts : List Part) :
    crlf ++ writeForm boundary parts = delimiter boundary ++ following boundary parts := by
  induction parts with
  | nil => simp [writeForm, following, delimiter]
  | cons p parts ih =>
    rw [following, ← ih]
    simp [writeForm, delimiter]

theorem readParts_following (hb : IsBoundary boundary)
    (h : ∀ p ∈ parts, p.header.Plain ∧ p.Typed ∧ p.Clean boundary) :
    readParts boundary (following boundary parts) = some parts := by
  induction parts with
  | nil =>
    rw [readParts, following, if_pos (List.prefix_append dashes crlf)]
  | cons p parts ih =>
    obtain ⟨hplain, htyped, hclean⟩ := h p List.mem_cons_self
    have hcut : cut (delimiter boundary) (following boundary (p :: parts)) =
        some (p.written, following boundary parts) :=
      cut_append hb.notMem (not_infix_written hplain hclean) _
    have hdashes : ¬ dashes <+: following boundary (p :: parts) := by
      intro hstarts
      cases (List.cons_prefix_cons.mp hstarts).1
    rw [readParts, if_neg hdashes]
    split
    case h_1 heq =>
      rw [hcut] at heq
      cases heq
    case h_2 piece rest heq =>
      rw [hcut] at heq
      cases heq
      simp [readPart_written hplain htyped, ih fun q hq => h q (List.mem_cons_of_mem p hq)]

theorem readParts_clean (h : readParts boundary rest = some parts) :
    ∀ p ∈ parts, p.Clean boundary := by
  fun_induction readParts boundary rest generalizing parts with
  | case1 =>
    cases h
    nofun
  | case2 => cases h
  | case3 rest hdashes piece rest' hcut ih =>
    obtain ⟨p, hp, h⟩ := Option.bind_eq_some_iff.mp h
    obtain ⟨parts, hparts, h⟩ := Option.bind_eq_some_iff.mp h
    cases h
    intro q hq
    obtain rfl | hq := List.mem_cons.mp hq
    · intro hwithin
      exact (cut_some hcut).2 (hwithin.trans (readPart_suffix hp).isInfix)
    · exact ih hparts q hq

theorem readsForms : ReadsForms readForm Header.Plain where
  reads boundary parts hb h := by
    have hcut : cut (delimiter boundary) (crlf ++ writeForm boundary parts) =
        some ([], following boundary parts) := by
      have hnil : ¬ delimiter boundary <:+: [] := fun hwithin => nomatch List.infix_nil.mp hwithin
      rw [crlf_writeForm]
      exact cut_append hb.notMem hnil _
    simp [readForm, hcut, readParts_following hb h]
  clean boundary body parts _ h := by
    obtain ⟨found, -, hparts⟩ := Option.bind_eq_some_iff.mp h
    exact readParts_clean hparts

end Read

end GpuSharing.Multipart
