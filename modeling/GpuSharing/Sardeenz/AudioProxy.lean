import Mathlib.Algebra.Group.Nat.Defs
import Mathlib.Data.List.Sort
import GpuSharing.Lib.Dict
import GpuSharing.Lib.Multipart

namespace GpuSharing.Sardeenz

open Multipart
open Utf8Stream (encode)

/-- A file of the form as the handler keeps it. -/
structure FormFile where
  fieldname : List Char
  file : List UInt8
  filename : List Char
  mimetype : List Char
  deriving DecidableEq, Repr

structure FormData where
  model : Option (List Char)
  fields : Dict (List Char) (List Char)
  files : List FormFile

/-- `fields[fieldname] = value`. A text that is assigned to `__proto__` is dropped. -/
def assignField (fields : Dict (List Char) (List Char)) (fieldname value : List Char) :
    Dict (List Char) (List Char) :=
  if fieldname = "__proto__".toList then fields else Dict.setItem fields fieldname value

namespace FormData

def empty : FormData := ⟨none, ∅, []⟩

/-- What the handler does with one part. -/
def collect (d : FormData) : Part → FormData
  | .file fieldname filename mimetype file =>
    { d with files := d.files ++ [⟨fieldname, file, filename, mimetype⟩] }
  | .field fieldname _ value =>
    { d with
      fields := assignField d.fields fieldname value
      model := if fieldname = "model".toList then some value else d.model }

end FormData

/-- The number that a key is the canonical form of, where that is an array index. -/
def arrayIndex (key : List Char) : Option Nat :=
  let n := Nat.ofDigitChars 10 key 0
  if Nat.toDigits 10 n = key ∧ n < 2 ^ 32 - 1 then some n else none

/-- Array indices come before all other keys. -/
def keyRank (key : List Char) : Nat := (arrayIndex key).getD (2 ^ 32)

/-- `Object.entries`: array indices in ascending order, then the other keys as they were made. -/
def objectEntries (fields : Dict (List Char) (List Char)) : List (List Char × List Char) :=
  (fields.entries.reverse.map fun e => (e.1, e.2)).insertionSort fun e f =>
    keyRank e.1 ≤ keyRank f.1

/-- The boundary of the rebuilt form, by `Date.now()`. -/
def formBoundary (now : Nat) : List Char := "----FormBoundary".toList ++ Nat.toDigits 10 now

/-- The body that the handler rebuilds. -/
def requestBody (boundary : List Char) (d : FormData) : List UInt8 :=
  ((objectEntries d.fields).flatMap fun (key, value) =>
    encode ("--".toList ++ boundary ++ "\r\n".toList) ++
    encode ("Content-Disposition: form-data; name=\"".toList ++ key ++ "\"\r\n\r\n".toList) ++
    encode (value ++ "\r\n".toList)) ++
  (d.files.flatMap fun file =>
    encode ("--".toList ++ boundary ++ "\r\n".toList) ++
    encode ("Content-Disposition: form-data; name=\"".toList ++ file.fieldname ++
      "\"; filename=\"".toList ++ file.filename ++ "\"\r\n".toList) ++
    encode ("Content-Type: ".toList ++ file.mimetype ++ "\r\n\r\n".toList) ++
    file.file ++
    encode "\r\n".toList) ++
  encode ("--".toList ++ boundary ++ "--\r\n".toList)

structure AppError where
  message : List Char
  statusCode : Nat
  type : List Char
  deriving DecidableEq, Repr

/-- The request for the instance. -/
structure AudioRequest where
  targetUrl : List Char
  contentType : List Char
  contentLength : Nat
  body : List UInt8
  deriving DecidableEq, Repr

/-- What becomes of a request. The message of a bad gateway is the one of what was thrown. -/
inductive AudioReply
  | badRequest (message : String)
  | appError (e : AppError)
  | badGateway
  | fetch (request : AudioRequest)
  deriving DecidableEq, Repr

/-- The limits that the server registers for forms; the reading of a larger form throws. -/
def withinLimits (parts : List Part) : Prop :=
  parts.countP Part.isFile ≤ 1 ∧ ∀ p ∈ parts, p.isFile → p.bytes.length ≤ 100 * 1024 * 1024

instance decidableWithinLimits (parts : List Part) : Decidable (withinLimits parts) :=
  inferInstanceAs (Decidable (_ ∧ _))

/-- `handleAudioProxyRequest`, to its `fetch`. `read` reads the form from the incoming body by its
boundary, and `selectInstanceForAudio` chooses the port. -/
def handleAudioProxyRequest (read : List UInt8 → List UInt8 → Option (List Part))
    (selectInstanceForAudio : List Char → Except AppError Nat) (now : Nat)
    (endpoint contentType : List Char) (boundary body : List UInt8) : AudioReply :=
  if ¬ "multipart/form-data".toList <:+: contentType then
    .badRequest "Content-Type must be multipart/form-data for audio endpoints"
  else
    match read boundary body with
    | none => .badGateway
    | some parts =>
      if ¬ withinLimits parts then .badGateway
      else
        let d := parts.foldl FormData.collect .empty
        match d.model with
        | none | some [] => .badRequest "Missing required field: model"
        | some (c :: model) =>
          match selectInstanceForAudio (c :: model) with
          | .error e => .appError e
          | .ok port =>
            .fetch
              { targetUrl := "http://localhost:".toList ++ Nat.toDigits 10 port ++ endpoint
                contentType := "multipart/form-data; boundary=".toList ++ formBoundary now
                contentLength := (requestBody (formBoundary now) d).length
                body := requestBody (formBoundary now) d }

/-- The names and the values of the fields. -/
def fieldsOf (parts : List Part) : List (List Char × List Char) :=
  parts.filterMap fun
    | .field name _ value => some (name, value)
    | .file .. => none

def filesOf (parts : List Part) : List FormFile :=
  parts.filterMap fun
    | .field .. => none
    | .file name filename mimetype content => some ⟨name, content, filename, mimetype⟩

/-- The form is laid out as the handler rebuilds it. -/
structure KeepsForm (boundary : List UInt8) (parts : List Part) : Prop where
  fieldsFirst : parts.Pairwise fun p q => p.isFile → q.isFile
  distinct : ((fieldsOf parts).map Prod.fst).Nodup
  unprototyped : "__proto__".toList ∉ (fieldsOf parts).map Prod.fst
  indicesFirst : ((fieldsOf parts).map Prod.fst).Pairwise fun j k => keyRank j ≤ keyRank k
  typed : ∀ p ∈ parts, p.Typed
  clean : ∀ p ∈ parts, p.Clean boundary

def fieldPart (e : List Char × List Char) : Part := .field e.1 textPlain e.2

def FormFile.part (file : FormFile) : Part :=
  .file file.fieldname file.filename file.mimetype file.file

/-- The parts of the form that the handler writes. -/
def FormData.parts (d : FormData) : List Part :=
  (objectEntries d.fields).map fieldPart ++ d.files.map FormFile.part

section Entries

variable {fields : Dict (List Char) (List Char)} {e : List Char × List Char}
  {l : List (List Char × List Char)} {parts : List Part} {d : FormData}

theorem mem_objectEntries :
    e ∈ objectEntries fields ↔ (⟨e.1, e.2⟩ : Sigma fun _ => List Char) ∈ fields.entries := by
  rw [objectEntries, List.mem_insertionSort, List.mem_map]
  constructor
  · rintro ⟨x, hx, rfl⟩
    exact List.mem_reverse.mp hx
  · intro hmem
    exact ⟨_, List.mem_reverse.mpr hmem, rfl⟩

theorem objectEntries_sorted (fields : Dict (List Char) (List Char)) :
    (objectEntries fields).Pairwise fun e f => keyRank e.1 ≤ keyRank f.1 := by
  have : Std.Total fun e f : List Char × List Char => keyRank e.1 ≤ keyRank f.1 :=
    ⟨fun e f => le_total (keyRank e.1) (keyRank f.1)⟩
  have : IsTrans (List Char × List Char) fun e f => keyRank e.1 ≤ keyRank f.1 :=
    ⟨fun _ _ _ => le_trans⟩
  exact List.pairwise_insertionSort _ _

theorem objectEntries_of_entries (h : fields.entries = l.reverse.map fun e => ⟨e.1, e.2⟩)
    (hsorted : l.Pairwise fun e f => keyRank e.1 ≤ keyRank f.1) : objectEntries fields = l := by
  have hmade : (fields.entries.reverse.map fun e => (e.1, e.2)) = l := by
    rw [h]
    simp [Function.comp_def]
  rw [objectEntries, hmade]
  exact hsorted.insertionSort_eq

theorem nodup_objectEntries (fields : Dict (List Char) (List Char)) :
    ((objectEntries fields).map Prod.fst).Nodup := by
  have hperm := (List.perm_insertionSort (fun e f : List Char × List Char =>
    keyRank e.1 ≤ keyRank f.1) (fields.entries.reverse.map fun e => (e.1, e.2))).map Prod.fst
  refine hperm.nodup_iff.mpr ?_
  rw [List.map_map, List.map_reverse, List.nodup_reverse]
  exact fields.nodupKeys

theorem mem_assignField {k v : List Char} {x : Sigma fun _ : List Char => List Char}
    (h : x ∈ (assignField fields k v).entries) :
    x ∈ fields.entries ∨ x = ⟨k, v⟩ ∧ k ≠ "__proto__".toList := by
  unfold assignField at h
  split_ifs at h with hproto
  · exact .inl h
  · exact (Dict.mem_entries_setItem h).symm.imp_right fun hx => ⟨hx, hproto⟩

/-- An entry was assigned, under a name that can be. -/
theorem mem_assigned {x : Sigma fun _ : List Char => List Char}
    (h : x ∈ (l.foldl (fun fields e => assignField fields e.1 e.2) fields).entries) :
    x ∈ fields.entries ∨ (x.1, x.2) ∈ l ∧ x.1 ≠ "__proto__".toList := by
  induction l generalizing fields with
  | nil => exact .inl h
  | cons e l ih =>
    obtain hbefore | ⟨hmem, hne⟩ := ih h
    · obtain hold | ⟨rfl, hne⟩ := mem_assignField hbefore
      · exact .inl hold
      · exact .inr ⟨List.mem_cons_self, hne⟩
    · exact .inr ⟨List.mem_cons_of_mem e hmem, hne⟩

/-- Distinct names come into the record one after the other. -/
theorem assigned_entries (hdistinct : (l.map Prod.fst).Nodup)
    (hproto : "__proto__".toList ∉ l.map Prod.fst) (hnew : ∀ k ∈ l.map Prod.fst, k ∉ fields.keys) :
    (l.foldl (fun fields e => assignField fields e.1 e.2) fields).entries =
      (l.reverse.map fun e => ⟨e.1, e.2⟩) ++ fields.entries := by
  induction l generalizing fields with
  | nil => rfl
  | cons e l ih =>
    obtain ⟨he, hdistinct⟩ := List.nodup_cons.mp hdistinct
    rw [List.map_cons, List.mem_cons, not_or] at hproto
    obtain ⟨hne, hproto⟩ := hproto
    have hentries : (assignField fields e.1 e.2).entries = ⟨e.1, e.2⟩ :: fields.entries := by
      rw [assignField, if_neg (Ne.symm hne)]
      exact Dict.entries_setItem (hnew e.1 List.mem_cons_self) e.2
    have hkeys : (assignField fields e.1 e.2).keys = e.1 :: fields.keys := by
      rw [AList.keys, hentries]
      rfl
    rw [List.foldl_cons, ih hdistinct hproto, hentries]
    · simp
    · intro k hk hmem
      rw [hkeys] at hmem
      obtain rfl | hmem := List.mem_cons.mp hmem
      · exact he hk
      · exact hnew k (List.mem_cons_of_mem _ hk) hmem

theorem collect_fields (parts : List Part) (d : FormData) :
    (parts.foldl FormData.collect d).fields =
      (fieldsOf parts).foldl (fun fields e => assignField fields e.1 e.2) d.fields := by
  induction parts generalizing d with
  | nil => rfl
  | cons p parts ih => cases p <;> exact ih _

theorem collect_files (parts : List Part) (d : FormData) :
    (parts.foldl FormData.collect d).files = d.files ++ filesOf parts := by
  induction parts generalizing d with
  | nil => exact (List.append_nil d.files).symm
  | cons p parts ih =>
    cases p with
    | field name mimetype value => exact ih _
    | file name filename mimetype content =>
      rw [List.foldl_cons, ih]
      simp [FormData.collect, filesOf]

theorem fieldsOf_parts (d : FormData) : fieldsOf d.parts = objectEntries d.fields := by
  have hfields : ∀ l, fieldsOf (l.map fieldPart) = l := by
    intro l
    induction l with
    | nil => rfl
    | cons e l ih => exact congrArg (e :: ·) ih
  have hfiles : ∀ files : List FormFile, fieldsOf (files.map FormFile.part) = [] := by
    intro files
    induction files with
    | nil => rfl
    | cons file files ih => exact ih
  rw [FormData.parts, fieldsOf, List.filterMap_append, ← fieldsOf, ← fieldsOf, hfields, hfiles,
    List.append_nil]

/-- Whatever the handler has collected, it writes it laid out so. -/
theorem FormData.keepsForm {boundary : List UInt8}
    (hproto : "__proto__".toList ∉ (objectEntries d.fields).map Prod.fst)
    (hclean : ∀ p ∈ d.parts, p.Clean boundary) : KeepsForm boundary d.parts := by
  refine ⟨?_, ?_, ?_, ?_, ?_, hclean⟩
  · refine List.pairwise_append.mpr ⟨?_, ?_, ?_⟩
    · exact List.pairwise_map.mpr (List.pairwise_of_forall fun e f h => nomatch h)
    · exact List.pairwise_map.mpr (List.pairwise_of_forall fun e f _ => rfl)
    · intro p hp q hq _
      obtain ⟨file, -, rfl⟩ := List.mem_map.mp hq
      rfl
  · rw [fieldsOf_parts]
    exact nodup_objectEntries d.fields
  · rw [fieldsOf_parts]
    exact hproto
  · rw [fieldsOf_parts]
    exact List.pairwise_map.mpr (objectEntries_sorted d.fields)
  · intro p hp
    obtain hp | hp := List.mem_append.mp hp
    · obtain ⟨e, -, rfl⟩ := List.mem_map.mp hp
      rfl
    · obtain ⟨file, -, rfl⟩ := List.mem_map.mp hp
      trivial

/-- A form with its fields first is its fields followed by its files. -/
theorem parts_eq (hfirst : parts.Pairwise fun p q => p.isFile → q.isFile)
    (htyped : ∀ p ∈ parts, p.Typed) :
    (fieldsOf parts).map fieldPart ++ (filesOf parts).map FormFile.part = parts := by
  induction parts with
  | nil => rfl
  | cons p parts ih =>
    obtain ⟨hp, hfirst⟩ := List.pairwise_cons.mp hfirst
    have htail := ih hfirst fun q hq => htyped q (List.mem_cons_of_mem p hq)
    cases p with
    | field name mimetype value =>
      rw [show mimetype = textPlain from htyped _ List.mem_cons_self]
      exact congrArg (Part.field name textPlain value :: ·) htail
    | file name filename mimetype content =>
      have hnone : fieldsOf parts = [] := by
        refine List.filterMap_eq_nil_iff.mpr fun q hq => ?_
        cases q with
        | field => exact absurd (hp _ hq rfl) (by simp [Part.isFile])
        | file => rfl
      rw [hnone] at htail
      have hfields : fieldsOf (Part.file name filename mimetype content :: parts) = [] := hnone
      rw [hfields]
      exact congrArg (Part.file name filename mimetype content :: ·) htail

/-- The form that the handler rebuilds from one that keeps to its layout is the same form. -/
theorem KeepsForm.rebuilt {boundary : List UInt8} (h : KeepsForm boundary parts) :
    (parts.foldl FormData.collect .empty).parts = parts := by
  have hobject : objectEntries (parts.foldl FormData.collect .empty).fields = fieldsOf parts := by
    have hsorted := h.indicesFirst
    rw [List.pairwise_map] at hsorted
    have hnew : ∀ k ∈ (fieldsOf parts).map Prod.fst,
        k ∉ (∅ : Dict (List Char) (List Char)).keys := fun k _ hk => nomatch hk
    refine objectEntries_of_entries ?_ hsorted
    rw [collect_fields]
    exact (assigned_entries h.distinct h.unprototyped hnew).trans (List.append_nil _)
  rw [FormData.parts, hobject, collect_files]
  exact parts_eq h.fieldsFirst h.typed

/-- What is rebuilt has the headers and contents of parts that came in. -/
theorem mem_rebuilt {p : Part} (h : p ∈ (parts.foldl FormData.collect .empty).parts) :
    p.Typed ∧ ∃ q ∈ parts, p.header = q.header ∧ p.bytes = q.bytes := by
  obtain hp | hp := List.mem_append.mp h
  · obtain ⟨e, he, rfl⟩ := List.mem_map.mp hp
    rw [collect_fields] at he
    obtain hempty | ⟨he, -⟩ := mem_assigned (mem_objectEntries.mp he)
    · cases hempty
    · obtain ⟨q, hq, hqe⟩ := List.mem_filterMap.mp he
      refine ⟨rfl, q, hq, ?_⟩
      cases q with
      | field => cases hqe; exact ⟨rfl, rfl⟩
      | file => cases hqe
  · obtain ⟨file, hfile, rfl⟩ := List.mem_map.mp hp
    rw [collect_files] at hfile
    obtain ⟨q, hq, hqe⟩ := List.mem_filterMap.mp hfile
    refine ⟨trivial, q, hq, ?_⟩
    cases q with
    | field => cases hqe
    | file => cases hqe; exact ⟨rfl, rfl⟩

end Entries

section Body

variable (boundary : List Char)

theorem encode_dashes : encode "--".toList = dashes := by decide

theorem encode_crlf : encode "\r\n".toList = crlf := by decide

theorem encode_blank : encode "\r\n\r\n".toList = crlf ++ crlf := by decide

theorem encode_nameEnd : encode "\"\r\n\r\n".toList = quote :: (crlf ++ crlf) := by decide

theorem encode_filename : encode "\"; filename=\"".toList = quote :: filenameStart := by decide

theorem encode_filenameEnd : encode "\"\r\n".toList = quote :: crlf := by decide

theorem encode_close : encode "--\r\n".toList = dashes ++ crlf := by decide

theorem requestBody_eq (d : FormData) :
    requestBody boundary d = writeForm (encode boundary) d.parts := by
  simp only [requestBody, writeForm, FormData.parts, List.flatMap_append, List.flatMap_map,
    Utf8Stream.encode_append, encode_dashes, encode_crlf, encode_blank, encode_nameEnd,
    encode_filename, encode_filenameEnd, encode_close, Part.written, fieldPart, FormFile.part,
    Part.header, Part.bytes, Header.bytes, nameStart, typeStart, List.append_assoc,
    List.cons_append, List.nil_append]

end Body

section Fetch

variable {read : List UInt8 → List UInt8 → Option (List Part)} {legible : Header → Prop}
  {selectInstanceForAudio : List Char → Except AppError Nat} {now : Nat}
  {endpoint contentType : List Char} {boundary body : List UInt8} {request : AudioRequest}
  {parts : List Part}

theorem isBoundary_formBoundary (now : Nat) : IsBoundary (encode (formBoundary now)) := by
  apply isBoundary_encode
  intro c hc
  obtain hc | hc := List.mem_append.mp hc
  · have hprintable : ∀ c ∈ "----FormBoundary".toList, 0x20 < c.toNat ∧ c.toNat < 0x7F := by
      simp
    exact hprintable c hc
  · have hdigit : c.isDigit = true := Nat.isDigit_of_mem_toDigits (by decide) (by decide) hc
    simp only [Char.isDigit, Bool.and_eq_true, decide_eq_true_iff] at hdigit
    have hlow : 48 ≤ c.toNat := UInt32.le_iff_toNat_le.mp hdigit.1
    have hhigh : c.toNat ≤ 57 := UInt32.le_iff_toNat_le.mp hdigit.2
    omega

/-- What is fetched is the form of the incoming parts, rebuilt. -/
theorem fetch_some (h : handleAudioProxyRequest read selectInstanceForAudio now endpoint contentType
      boundary body = .fetch request) :
    ∃ parts, read boundary body = some parts ∧ request.body =
      writeForm (encode (formBoundary now)) (parts.foldl FormData.collect .empty).parts := by
  unfold handleAudioProxyRequest at h
  split_ifs at h with htype
  split at h
  case h_1 => cases h
  case h_2 parts hread =>
    split_ifs at h with hlimits
    simp only at h
    split at h
    case h_1 => cases h
    case h_2 => cases h
    case h_3 =>
      split at h
      case h_1 => cases h
      case h_2 =>
        cases h
        exact ⟨parts, hread, requestBody_eq _ _⟩

theorem fetch_of_parts {c : Char} {model : List Char} {port : Nat}
    (htype : "multipart/form-data".toList <:+: contentType) (hread : read boundary body = some parts)
    (hlimits : withinLimits parts)
    (hmodel : (parts.foldl FormData.collect .empty).model = some (c :: model))
    (hselect : selectInstanceForAudio (c :: model) = .ok port) :
    ∃ request, handleAudioProxyRequest read selectInstanceForAudio now endpoint contentType boundary
      body = .fetch request := by
  unfold handleAudioProxyRequest
  split_ifs
  simp only [hread]
  split_ifs
  simp only [hmodel, hselect]
  exact ⟨_, rfl⟩

instance decidableKeepsForm (boundary : List UInt8) (parts : List Part) :
    Decidable (KeepsForm boundary parts) :=
  decidable_of_iff (parts.Pairwise (fun p q => p.isFile → q.isFile) ∧
      ((fieldsOf parts).map Prod.fst).Nodup ∧ "__proto__".toList ∉ (fieldsOf parts).map Prod.fst ∧
      ((fieldsOf parts).map Prod.fst).Pairwise (fun j k => keyRank j ≤ keyRank k) ∧
      (∀ p ∈ parts, p.Typed) ∧ ∀ p ∈ parts, p.Clean boundary)
    ⟨fun ⟨h1, h2, h3, h4, h5, h6⟩ => ⟨h1, h2, h3, h4, h5, h6⟩,
      fun ⟨h1, h2, h3, h4, h5, h6⟩ => ⟨h1, h2, h3, h4, h5, h6⟩⟩

/-- A request for a transcription with the given form. -/
def transcribe (parts : List Part) : AudioReply :=
  handleAudioProxyRequest readForm (fun _ => .ok 8001) 1700000000000
    "/v1/audio/transcriptions".toList "multipart/form-data; boundary=x".toList
    [120] (writeForm [120] parts)

def wholeForm : List Part :=
  [.field "model".toList textPlain "whisper".toList,
    .file "file".toList "a.wav".toList "audio/wav".toList [82, 73, 70, 70, 0, 255]]

/-- The elements of a list come as fields of one name. -/
def listForm : List Part :=
  [.field "model".toList textPlain "whisper".toList,
    .field "timestamp_granularities[]".toList textPlain "word".toList,
    .field "timestamp_granularities[]".toList textPlain "segment".toList]

theorem readForm_wholeForm : readForm [120] (writeForm [120] wholeForm) = some wholeForm :=
  readsForms.reads _ _ (by decide +kernel) (by decide +kernel)

theorem readForm_listForm : readForm [120] (writeForm [120] listForm) = some listForm :=
  readsForms.reads _ _ (by decide +kernel) (by decide +kernel)

theorem transcribe_wholeForm : ∃ request, transcribe wholeForm = .fetch request :=
  fetch_of_parts (by decide +kernel) readForm_wholeForm (by decide +kernel) rfl rfl

theorem transcribe_listForm : ∃ request, transcribe listForm = .fetch request :=
  fetch_of_parts (by decide +kernel) readForm_listForm (by decide +kernel) rfl rfl

end Fetch

end GpuSharing.Sardeenz
