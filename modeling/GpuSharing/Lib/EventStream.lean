import Mathlib.Data.List.Basic
import Mathlib.Data.List.TakeWhile
import GpuSharing.Lib.Transducer

namespace GpuSharing.EventStream

open Transducer

structure Event where
  type : List Char
  data : List Char
  lastEventId : List Char
  deriving DecidableEq, Repr

/-- The reader of an event stream: the line it is in, whether the last character was a carriage
return, and the buffers of the event that the next blank line dispatches. -/
structure Parser where
  line : List Char
  afterReturn : Bool
  data : List Char
  eventType : List Char
  lastEventId : List Char
  deriving DecidableEq, Repr

def Parser.initial : Parser := ⟨[], false, [], [], []⟩

def message : List Char := ['m', 'e', 's', 's', 'a', 'g', 'e']

def typeOf (eventType : List Char) : List Char := if eventType = [] then message else eventType

def fieldName (line : List Char) : List Char := line.takeWhile (· ≠ ':')

/-- One space after the colon does not belong to the value. -/
def fieldValue (line : List Char) : List Char :=
  match line.dropWhile (· ≠ ':') with
  | [] => []
  | _ :: ' ' :: value => value
  | _ :: value => value

/-- A text without line ends. -/
def OneLine (text : List Char) : Prop := '\n' ∉ text ∧ '\r' ∉ text

instance (text : List Char) : Decidable (OneLine text) := inferInstanceAs (Decidable (_ ∧ _))

theorem oneLine_cons {c : Char} {text : List Char} :
    OneLine (c :: text) ↔ (c ≠ '\n' ∧ c ≠ '\r') ∧ OneLine text := by
  simp only [OneLine, List.mem_cons, not_or, ne_comm (a := c)]
  exact and_and_and_comm

namespace Parser

/-- Every other field is ignored, and so is a comment, whose name is empty. -/
def field (p : Parser) (name value : List Char) : Parser :=
  if name = ['e', 'v', 'e', 'n', 't'] then { p with eventType := value }
  else if name = ['d', 'a', 't', 'a'] then { p with data := p.data ++ value ++ ['\n'] }
  else if name = ['i', 'd'] ∧ '\x00' ∉ value then { p with lastEventId := value }
  else p

def dispatch (p : Parser) : Parser × List Event :=
  ({ p with data := [], eventType := [] },
    if p.data = [] then [] else [⟨typeOf p.eventType, p.data.dropLast, p.lastEventId⟩])

def endLine (p : Parser) : Parser × List Event :=
  if p.line = [] then p.dispatch
  else ({ p.field (fieldName p.line) (fieldValue p.line) with line := [] }, [])

/-- Lines end with a line feed, with a carriage return or with both. -/
def read (p : Parser) (c : Char) : Parser × List Event :=
  if c = '\n' then
    if p.afterReturn then ({ p with afterReturn := false }, []) else p.endLine
  else if c = '\r' then ({ p.endLine.1 with afterReturn := true }, p.endLine.2)
  else ({ p with line := p.line ++ [c], afterReturn := false }, [])

/-- The reader is between two events: it is in no line and has no field of the next event. -/
def Quiet (p : Parser) : Prop := p.line = [] ∧ p.data = [] ∧ typeOf p.eventType = message

instance (p : Parser) : Decidable p.Quiet := inferInstanceAs (Decidable (_ ∧ _ ∧ _))

/-- Two readers that dispatch the same events, but for a line feed after a carriage return. -/
structure Alike (p q : Parser) : Prop where
  line : p.line = q.line
  data : p.data = q.data
  type : typeOf p.eventType = typeOf q.eventType
  lastEventId : p.lastEventId = q.lastEventId

/-- Between two events that line feed makes no difference either. -/
def Same (p q : Parser) : Prop := Alike p q ∧ (p.afterReturn = q.afterReturn ∨ p.Quiet)

variable {p q : Parser}

theorem Alike.symm (h : Alike p q) : Alike q p :=
  ⟨h.line.symm, h.data.symm, h.type.symm, h.lastEventId.symm⟩

theorem Alike.trans {r : Parser} (h : Alike p q) (hr : Alike q r) : Alike p r :=
  ⟨h.line.trans hr.line, h.data.trans hr.data, h.type.trans hr.type,
    h.lastEventId.trans hr.lastEventId⟩

theorem alike_afterReturn (p : Parser) (afterReturn : Bool) : Alike { p with afterReturn } p :=
  ⟨rfl, rfl, rfl, rfl⟩

theorem Alike.quiet_iff (h : Alike p q) : p.Quiet ↔ q.Quiet := by
  rw [Quiet, Quiet, h.line, h.data, h.type]

theorem field_with_line (name value line : List Char) (afterReturn : Bool) :
    { p with line, afterReturn }.field name value =
      { p.field name value with line, afterReturn } := by
  unfold field
  split_ifs <;> rfl

@[simp] theorem field_afterReturn (name value : List Char) :
    (p.field name value).afterReturn = p.afterReturn := by
  unfold field
  split_ifs <;> rfl

theorem endLine_afterReturn : p.endLine.1.afterReturn = p.afterReturn := by
  unfold endLine dispatch
  split_ifs <;> simp

theorem Alike.field (h : Alike p q) (name value : List Char) :
    Alike (p.field name value) (q.field name value) := by
  unfold Parser.field
  split_ifs
  · exact ⟨h.line, h.data, rfl, h.lastEventId⟩
  · exact ⟨h.line, by simp [h.data], h.type, h.lastEventId⟩
  · exact ⟨h.line, h.data, h.type, rfl⟩
  · exact h

theorem Alike.endLine (h : Alike p q) :
    Alike p.endLine.1 q.endLine.1 ∧ p.endLine.2 = q.endLine.2 := by
  unfold Parser.endLine
  rw [h.line]
  split_ifs with hline
  · refine ⟨⟨h.line, rfl, rfl, h.lastEventId⟩, ?_⟩
    simp only [dispatch, h.data, h.type, h.lastEventId]
  · have hfield := h.field (fieldName q.line) (fieldValue q.line)
    exact ⟨⟨rfl, hfield.data, hfield.type, hfield.lastEventId⟩, rfl⟩

/-- A blank line between two events changes nothing. -/
theorem Quiet.endLine (h : p.Quiet) : Alike p.endLine.1 p ∧ p.endLine.2 = [] := by
  obtain ⟨hline, hdata, htype⟩ := h
  unfold Parser.endLine dispatch
  rw [if_pos hline]
  exact ⟨⟨rfl, hdata.symm, htype.symm, rfl⟩, by simp [hdata]⟩

theorem Same.refl (p : Parser) : Same p p := ⟨⟨rfl, rfl, rfl, rfl⟩, .inl rfl⟩

theorem Same.quiet_iff (h : Same p q) : p.Quiet ↔ q.Quiet := h.1.quiet_iff

theorem Same.trans {r : Parser} (h : Same p q) (hr : Same q r) : Same p r := by
  refine ⟨h.1.trans hr.1, ?_⟩
  rcases h.2 with heq | hquiet
  · rcases hr.2 with heq' | hquiet
    · exact .inl (heq.trans heq')
    · exact .inr (h.quiet_iff.mpr hquiet)
  · exact .inr hquiet

theorem Same.read (h : Same p q) (c : Char) :
    Same (p.read c).1 (q.read c).1 ∧ (p.read c).2 = (q.read c).2 := by
  obtain ⟨halike, hreturn⟩ := h
  unfold Parser.read
  split_ifs with hfeed hp hq hq hret
  · exact ⟨⟨(alike_afterReturn p _).trans (halike.trans (alike_afterReturn q _).symm), .inl rfl⟩,
      rfl⟩
  · -- `q` sees a blank line where `p` sees the end of the last one
    have hquiet : p.Quiet := hreturn.resolve_left (by simp [hp, hq])
    obtain ⟨hend, hout⟩ := (halike.quiet_iff.mp hquiet).endLine
    exact ⟨⟨(alike_afterReturn p _).trans (halike.trans hend.symm), .inr hquiet⟩, hout.symm⟩
  · have hquiet : p.Quiet := hreturn.resolve_left (by simp [hp, hq])
    obtain ⟨hend, hout⟩ := hquiet.endLine
    exact ⟨⟨hend.trans (halike.trans (alike_afterReturn q _).symm),
      .inr (hend.quiet_iff.mpr hquiet)⟩, hout⟩
  · obtain ⟨hend, hout⟩ := halike.endLine
    refine ⟨⟨hend, .inl ?_⟩, hout⟩
    rw [endLine_afterReturn, endLine_afterReturn, eq_false_of_ne_true hp,
      eq_false_of_ne_true hq]
  · obtain ⟨hend, hout⟩ := halike.endLine
    exact ⟨⟨(alike_afterReturn _ _).trans (hend.trans (alike_afterReturn _ _).symm), .inl rfl⟩,
      hout⟩
  · refine ⟨⟨⟨?_, halike.data, halike.type, halike.lastEventId⟩, .inl rfl⟩, rfl⟩
    simp [halike.line]

theorem Same.feed (h : Same p q) (text : List Char) :
    Same (Transducer.feed Parser.read p text).1 (Transducer.feed Parser.read q text).1 ∧
      (Transducer.feed Parser.read p text).2 = (Transducer.feed Parser.read q text).2 :=
  feed_rel (fun _ _ c hsame => hsame.read c) h text

theorem feed_read_line {text : List Char} (htext : OneLine text) (hne : text ≠ []) :
    Transducer.feed read p text = ({ p with line := p.line ++ text, afterReturn := false }, []) := by
  induction text generalizing p with
  | nil => exact absurd rfl hne
  | cons c text ih =>
    obtain ⟨⟨hfeed, hreturn⟩, htail⟩ := oneLine_cons.mp htext
    have hread : p.read c = ({ p with line := p.line ++ [c], afterReturn := false }, []) := by
      rw [Parser.read, if_neg hfeed, if_neg hreturn]
    rw [feed_cons, hread]
    by_cases hnil : text = []
    · simp [hnil]
    · rw [ih htail hnil]
      simp

end Parser

/-- What a line says that begins with a colon; readers ignore it. -/
structure Comment where
  body : List Char
  oneLine : OneLine body

/-- A comment and the blank line after it. -/
def Comment.text (k : Comment) : List Char := ':' :: k.body ++ ['\n', '\n']

namespace Parser

variable {p q : Parser}

/-- A line, its end and a blank line after it. -/
theorem feed_read_dispatch {text : List Char} (htext : OneLine text) (hne : text ≠ []) :
    Transducer.feed read p (text ++ ['\n', '\n']) =
      { p.field (fieldName (p.line ++ text)) (fieldValue (p.line ++ text)) with
        line := [], afterReturn := false }.dispatch := by
  rw [feed_append, feed_read_line htext hne]
  have hline : p.line ++ text ≠ [] := by simp [hne]
  simp [Parser.read, endLine, hline, dispatch, field_with_line]

theorem Quiet.feed_comment (h : p.Quiet) (k : Comment) :
    Same (Transducer.feed read p k.text).1 p ∧ (Transducer.feed read p k.text).2 = [] := by
  obtain ⟨hline, hdata, htype⟩ := h
  have hbody : OneLine (':' :: k.body) := oneLine_cons.mpr ⟨by decide, k.oneLine⟩
  have hignored : p.field (fieldName (p.line ++ ':' :: k.body))
      (fieldValue (p.line ++ ':' :: k.body)) = p := by
    simp [hline, fieldName, field]
  rw [Comment.text, feed_read_dispatch hbody (List.cons_ne_nil _ _), hignored]
  refine ⟨⟨⟨hline.symm, hdata.symm, htype.symm, rfl⟩, .inr ?_⟩, ?_⟩
  · exact ⟨rfl, rfl, rfl⟩
  · simp [dispatch, hdata]

/-- An event of one line. -/
def plainEvent : List Char := ['d', 'a', 't', 'a', ':', 'z', '\n', '\n']

theorem fieldName_append_of_colon {line rest : List Char} (h : ':' ∈ line) :
    fieldName (line ++ rest) = fieldName line := by
  unfold fieldName
  rw [List.takeWhile_append, if_neg]
  intro hlen
  have hall := List.takeWhile_eq_self_iff.mp
    ((List.takeWhile_prefix (l := line) (· ≠ ':')).eq_of_length hlen)
  simpa using hall ':' h

theorem fieldName_append_colon {line rest : List Char} (h : ':' ∉ line) :
    fieldName (line ++ ':' :: rest) = line := by
  unfold fieldName
  rw [List.takeWhile_append_of_pos (by simpa using fun c hc => ne_of_mem_of_not_mem hc h)]
  simp

theorem field_data (name value : List Char) :
    (p.field name value).data =
      if name = ['d', 'a', 't', 'a'] then p.data ++ value ++ ['\n'] else p.data := by
  unfold field
  split_ifs with hevent hdata
  · simp [hevent] at hdata
  all_goals rfl

theorem field_data_eq_nil {name value : List Char} :
    (p.field name value).data = [] ↔ name ≠ ['d', 'a', 't', 'a'] ∧ p.data = [] := by
  rw [field_data]
  split_ifs with h <;> simp [h]

theorem dispatch_plain (hdata : p.data = []) (htype : p.eventType = []) (hline : p.line = []) :
    (Transducer.feed read p plainEvent).2 = [⟨message, ['z'], p.lastEventId⟩] := by
  have hplain : plainEvent = ['d', 'a', 't', 'a', ':', 'z'] ++ ['\n', '\n'] := rfl
  rw [hplain, feed_read_dispatch (by decide) (by simp)]
  simp [dispatch, field, fieldName, fieldValue, hline, hdata, htype, typeOf]

/-- Before an event of one line a comment is seen anywhere but between two events: it ends the
line it stands in and dispatches the event it stands in. -/
theorem quiet_of_unseen (k : Comment)
    (h : (Transducer.feed read p plainEvent).2 =
      (Transducer.feed read p (k.text ++ plainEvent)).2) : p.Quiet := by
  have hbody : OneLine (':' :: k.body) := oneLine_cons.mpr ⟨by decide, k.oneLine⟩
  have hplain : plainEvent = ['d', 'a', 't', 'a', ':', 'z'] ++ ['\n', '\n'] := rfl
  rw [feed_append, Comment.text, feed_read_dispatch hbody (List.cons_ne_nil _ _)] at h
  generalize hr : p.field (fieldName (p.line ++ ':' :: k.body))
    (fieldValue (p.line ++ ':' :: k.body)) = r at h
  have hplainAfter := dispatch_plain
    (p := ({ r with line := [], afterReturn := false } : Parser).dispatch.1) rfl rfl rfl
  rw [hplainAfter] at h
  rw [hplain, feed_read_dispatch (by decide) (by simp)] at h
  generalize hd : p.field (fieldName (p.line ++ ['d', 'a', 't', 'a', ':', 'z']))
    (fieldValue (p.line ++ ['d', 'a', 't', 'a', ':', 'z'])) = d at h
  simp only [dispatch] at h
  have hseen : d.data ≠ [] := by
    intro hnil
    simp [hnil] at h
  have hrdata : r.data = [] := by
    by_contra hne
    simp [hne, hseen] at h
  simp only [hseen, hrdata, if_true, if_false, List.nil_append] at h
  have htype : typeOf d.eventType = message := by
    simp only [List.cons.injEq, Event.mk.injEq] at h
    exact h.1.1
  obtain ⟨hname, hnil⟩ := field_data_eq_nil.mp (hr ▸ hrdata)
  by_cases hline : p.line = []
  · refine ⟨hline, hnil, ?_⟩
    rw [← htype, ← hd]
    simp [hline, fieldName, field]
  · -- the line goes on with the event's own line, which is then no data
    refine absurd ?_ hseen
    rw [← hd]
    refine field_data_eq_nil.mpr ⟨?_, hnil⟩
    by_cases hcolon : ':' ∈ p.line
    · rw [fieldName_append_of_colon hcolon] at hname ⊢
      exact hname
    · have hsplit : p.line ++ ['d', 'a', 't', 'a', ':', 'z'] =
          (p.line ++ ['d', 'a', 't', 'a']) ++ ':' :: ['z'] := by simp
      rw [hsplit, fieldName_append_colon (by simpa using hcolon)]
      simpa using hline


end Parser

end GpuSharing.EventStream
