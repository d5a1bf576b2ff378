import Mathlib.Data.List.Induction
import GpuSharing.Lib.EventStream
import GpuSharing.Lib.Utf8Stream

namespace GpuSharing.Sardeenz.StreamRelay

open EventStream Transducer Utf8Stream

/-- A `TextDecoder`: the character it is in, and whether the byte order mark is over. -/
abbrev TextDecoder := Decoder × Bool

def TextDecoder.new : TextDecoder := (.start, false)

/-- One byte of `decoder.decode(value, { stream: true })`. -/
def decodeByte : TextDecoder → UInt8 → TextDecoder × List Char := andThen decode dropMark

/-- A copy of the relay loop: the comment its timer writes, and whether it writes what
`decoder.decode()` has left when the upstream ends. -/
structure Relay where
  heartbeat : Comment
  flushes : Bool

def pipeStreamToReply : Relay :=
  ⟨⟨" heartbeat".toList, by decide +kernel⟩, true⟩

def directStreamRelay : Relay :=
  ⟨⟨" heartbeat".toList, by decide +kernel⟩, true⟩

def clusterEventRelay : Relay :=
  ⟨⟨" relay-heartbeat".toList, by decide +kernel⟩, false⟩

/-- What one turn of the event loop does: `reader.read()` returns, or the timer fires. -/
inductive Turn where
  | chunk (value : List UInt8)
  | heartbeat
  deriving DecidableEq, Repr

namespace Relay

variable (relay : Relay)

def say (decoder : TextDecoder) : Turn → TextDecoder × List Char
  | .chunk value => feed decodeByte decoder value
  | .heartbeat => (decoder, relay.heartbeat.text)

/-- `reply.raw.write` sends a string in UTF-8. -/
def write (decoder : TextDecoder) (turn : Turn) : TextDecoder × List UInt8 :=
  ((relay.say decoder turn).1, encode (relay.say decoder turn).2)

/-- All that the client receives when the upstream ends after these turns. -/
def relayed (turns : List Turn) : List UInt8 :=
  (feed relay.write .new turns).2 ++
    if relay.flushes then encode (finish (feed relay.write .new turns).1.1) else []

end Relay

/-- All that the upstream sent. -/
def upstream (turns : List Turn) : List UInt8 :=
  turns.flatMap fun
    | .chunk value => value
    | .heartbeat => []

/-- The events a client reads from a stream. -/
def events (bytes : List UInt8) : List Event :=
  (feed Parser.read .initial
    ((feed decodeByte .new bytes).2 ++ finish (feed decodeByte .new bytes).1.1)).2

def Relay.Transparent (relay : Relay) (turns : List Turn) : Prop :=
  events (relay.relayed turns) = events (upstream turns)

instance (relay : Relay) (turns : List Turn) : Decidable (relay.Transparent turns) :=
  inferInstanceAs (Decidable (_ = _))

/-- The upstream's text as far as it was sent, and the decoder after it. -/
def soFar (turns : List Turn) : TextDecoder × List Char := feed decodeByte .new (upstream turns)

/-- A client that reads the upstream itself. -/
def reader (turns : List Turn) : Parser := (feed Parser.read .initial (soFar turns).2).1

/-- Each heartbeat comes when the upstream has sent whole events only. -/
def BetweenEvents (turns : List Turn) : Prop :=
  ∀ before after, turns = before ++ .heartbeat :: after → (reader before).Quiet

/-- No second byte order mark follows the one that the relay drops, unless a heartbeat comes
before it. -/
def OneMark (turns : List Turn) : Prop :=
  ∀ before after, turns = before ++ after → .heartbeat ∉ before →
    (soFar before).2.head? ≠ some '\uFEFF'

section
variable {relay : Relay} {turns : List Turn}

theorem feed_write (decoder : TextDecoder) (turns : List Turn) :
    feed relay.write decoder turns =
      ((feed relay.say decoder turns).1, encode (feed relay.say decoder turns).2) :=
  @feed_code _ _ _ _ relay.say encode rfl encode_append decoder turns

@[simp] theorem soFar_append_chunk (value : List UInt8) :
    soFar (turns ++ [.chunk value]) =
      ((feed decodeByte (soFar turns).1 value).1,
        (soFar turns).2 ++ (feed decodeByte (soFar turns).1 value).2) := by
  simp [soFar, upstream, feed_append]

@[simp] theorem soFar_append_heartbeat : soFar (turns ++ [.heartbeat]) = soFar turns := by
  simp [soFar, upstream]

/-- What a client reads from text that was sent in UTF-8. -/
theorem events_encode {text : List Char} (h : text.head? ≠ some '\uFEFF') :
    events (encode text) = (feed Parser.read .initial text).2 := by
  have hread : feed decodeByte .new (encode text) =
      ((.start, (feed dropMark false text).1), text) := by
    rw [decodeByte, TextDecoder.new, feed_andThen, feed_decode_encode, feed_dropMark h]
  simp [events, hread, finish]

theorem events_upstream :
    events (upstream turns) = (feed Parser.read .initial (soFar turns).2).2 := by
  rw [events, ← soFar, feed_append]
  cases (soFar turns).1.1 <;> simp [finish, Parser.read, replacement]

/-- The relay's decoder is the client's own, and what the relay has said reads like what the
upstream has. -/
structure Follows (relay : Relay) (turns : List Turn) : Prop where
  decoder : (feed relay.say .new turns).1 = (soFar turns).1
  same : (feed Parser.read .initial (feed relay.say .new turns).2).1.Same (reader turns)
  events : (feed Parser.read .initial (feed relay.say .new turns).2).2 =
    (feed Parser.read .initial (soFar turns).2).2

theorem Follows.chunk (h : Follows relay turns) (value : List UInt8) :
    Follows relay (turns ++ [.chunk value]) := by
  have hdecoder := h.decoder
  obtain ⟨hsame, hout⟩ := h.same.feed (feed decodeByte (soFar turns).1 value).2
  constructor
  · simp [feed_append, Relay.say, hdecoder]
  · simpa [reader, feed_append, Relay.say, hdecoder] using hsame
  · rw [reader] at hout
    simp [feed_append, Relay.say, hdecoder, h.events, hout]

theorem Follows.heartbeat (h : Follows relay turns) (hquiet : (reader turns).Quiet) :
    Follows relay (turns ++ [.heartbeat]) := by
  obtain ⟨hsame, hout⟩ := (h.same.quiet_iff.mpr hquiet).feed_comment relay.heartbeat
  constructor
  · simp [feed_append, Relay.say, h.decoder]
  · simpa [reader, feed_append, Relay.say] using hsame.trans h.same
  · simpa [feed_append, Relay.say, h.events] using hout

theorem BetweenEvents.before {after : List Turn} (h : BetweenEvents (turns ++ after)) :
    BetweenEvents turns := by
  rintro before rest rfl
  exact h before (rest ++ after) (by simp)

theorem BetweenEvents.follows (h : BetweenEvents turns) (relay : Relay) :
    Follows relay turns := by
  induction turns using List.reverseRecOn with
  | nil => exact ⟨rfl, .refl _, rfl⟩
  | append_singleton turns turn ih =>
    cases turn with
    | chunk value => exact (ih h.before).chunk value
    | heartbeat => exact (ih h.before).heartbeat (h turns [] rfl)

theorem OneMark.before {after : List Turn} (h : OneMark (turns ++ after)) : OneMark turns := by
  rintro before rest rfl
  exact h before (rest ++ after) (by simp)

/-- Until the first heartbeat the relay says what the upstream says. -/
theorem say_of_not_mem (h : .heartbeat ∉ turns) : feed relay.say .new turns = soFar turns := by
  induction turns using List.reverseRecOn with
  | nil => rfl
  | append_singleton turns turn ih =>
    rw [List.mem_append, not_or] at h
    cases turn with
    | chunk value => simp [feed_append, Relay.say, ih h.1]
    | heartbeat => simp at h

theorem OneMark.say (h : OneMark turns) (relay : Relay) :
    (feed relay.say .new turns).2.head? ≠ some '\uFEFF' := by
  by_cases hmem : .heartbeat ∈ turns
  · -- before the first heartbeat the upstream's text, and then a colon
    obtain ⟨before, after, rfl, hbefore⟩ := List.eq_append_cons_of_mem hmem
    have hhead := h before _ rfl hbefore
    rw [feed_append, feed_cons, say_of_not_mem hbefore, Relay.say, List.head?_append,
      List.head?_append, Comment.text]
    cases hfirst : (soFar before).2.head? with
    | none => simp
    | some c => simpa [hfirst] using hhead
  · rw [say_of_not_mem hmem]
    exact h turns [] (by simp) hmem

/-- What a client reads from the relay: the replacement character that a flush may add ends no
line. -/
theorem events_relayed (h : OneMark turns) :
    events (relay.relayed turns) = (feed Parser.read .initial (feed relay.say .new turns).2).2 := by
  have hhead := h.say relay
  rw [Relay.relayed, feed_write]
  cases hflushes : relay.flushes with
  | false => simp [events_encode hhead]
  | true =>
    rw [if_pos rfl, ← encode_append, events_encode, feed_append]
    · cases (feed relay.say .new turns).1.1 <;> simp [finish, Parser.read, replacement]
    · cases htext : (feed relay.say .new turns).2 with
      | nil => cases (feed relay.say .new turns).1.1 <;> simp [finish, replacement]
      | cons c text => simpa [htext] using hhead

theorem Follows.transparent (h : Follows relay turns) (hmark : OneMark turns) :
    relay.Transparent turns := by
  rw [Relay.Transparent, events_relayed hmark, events_upstream]
  exact h.events

theorem BetweenEvents.nil : BetweenEvents [] := by
  intro before after heq
  simp at heq

theorem BetweenEvents.chunk (h : BetweenEvents turns) (value : List UInt8) :
    BetweenEvents (turns ++ [.chunk value]) := by
  intro before after heq
  rcases List.eq_nil_or_concat' after with rfl | ⟨middle, turn, rfl⟩
  · obtain ⟨-, hturn⟩ := List.append_inj' heq rfl
    simp at hturn
  · rw [← List.cons_append, ← List.append_assoc] at heq
    exact h before middle (List.append_inj' heq rfl).1

theorem BetweenEvents.heartbeat (h : BetweenEvents turns) (hquiet : (reader turns).Quiet) :
    BetweenEvents (turns ++ [.heartbeat]) := by
  intro before after heq
  rcases List.eq_nil_or_concat' after with rfl | ⟨middle, turn, rfl⟩
  · obtain ⟨rfl, -⟩ := List.append_inj' heq rfl
    exact hquiet
  · rw [← List.cons_append, ← List.append_assoc] at heq
    exact h before middle (List.append_inj' heq rfl).1

theorem OneMark.nil : OneMark [] := by
  intro before after heq _
  obtain ⟨rfl, -⟩ := List.append_eq_nil_iff.mp heq.symm
  simp [soFar, upstream]

theorem OneMark.chunk (h : OneMark turns) {value : List UInt8}
    (hhead : (soFar (turns ++ [.chunk value])).2.head? ≠ some '\uFEFF') :
    OneMark (turns ++ [.chunk value]) := by
  intro before after heq hbefore
  rcases List.eq_nil_or_concat' after with rfl | ⟨middle, turn, rfl⟩
  · rw [List.append_nil] at heq
    exact heq ▸ hhead
  · rw [← List.append_assoc] at heq
    exact h before middle (List.append_inj' heq rfl).1 hbefore

theorem OneMark.heartbeat (h : OneMark turns) (after : List Turn) :
    OneMark (turns ++ .heartbeat :: after) := by
  intro before rest heq hbefore
  rcases List.append_eq_append_iff.mp heq with ⟨middle, rfl, hmiddle⟩ | ⟨middle, rfl, -⟩
  · cases middle with
    | nil => exact h _ [] (by simp) (by simpa using hbefore)
    | cons turn middle =>
      obtain ⟨rfl, -⟩ := List.cons.inj hmiddle
      simp at hbefore
  · exact h before middle rfl hbefore

/-- Once a client would have read nothing else from an event of one line, the heartbeat came
between two events. -/
theorem Follows.quiet (h : Follows relay turns) (hmark : OneMark turns)
    (hstart : (soFar turns).1.1 = .start)
    (hseen : relay.Transparent (turns ++ [.heartbeat, .chunk (encode Parser.plainEvent)])) :
    (reader turns).Quiet := by
  have hplain : (feed decodeByte (soFar turns).1 (encode Parser.plainEvent)).2 =
      Parser.plainEvent := by
    have hdecoder : (soFar turns).1 = (.start, (soFar turns).1.2) := Prod.ext hstart rfl
    rw [hdecoder, decodeByte, feed_andThen, feed_decode_encode]
    exact feed_dropMark (by decide) _
  have hup : (soFar (turns ++ [.heartbeat, .chunk (encode Parser.plainEvent)])).2 =
      (soFar turns).2 ++ Parser.plainEvent := by
    rw [List.append_cons, soFar_append_chunk, soFar_append_heartbeat, hplain]
  have hsaid : (feed relay.say .new
      (turns ++ [.heartbeat, .chunk (encode Parser.plainEvent)])).2 =
      (feed relay.say .new turns).2 ++ (relay.heartbeat.text ++ Parser.plainEvent) := by
    simp [feed_append, Relay.say, h.decoder, hplain]
  rw [Relay.Transparent, events_relayed (hmark.heartbeat _), events_upstream, hsaid, hup,
    feed_append, feed_append _ _ (soFar turns).2, h.events] at hseen
  have hrest := List.append_cancel_left hseen
  rw [← reader, ← (h.same.feed Parser.plainEvent).2] at hrest
  exact h.same.quiet_iff.mp (Parser.quiet_of_unseen relay.heartbeat hrest.symm)

/-- The client reads the upstream's own events when each heartbeat comes between two of them;
a heartbeat that comes elsewhere is seen, whatever part of an event was sent, in what the
upstream may send next. -/
theorem relayed_events (relay : Relay) :
    (∀ turns, OneMark turns → BetweenEvents turns → relay.Transparent turns) ∧
      ∀ turns, OneMark turns → BetweenEvents turns → (soFar turns).1.1 = .start →
        ((∀ value, relay.Transparent (turns ++ [.heartbeat, .chunk value])) ↔
          (reader turns).Quiet) := by
  refine ⟨fun turns hmark h => (h.follows relay).transparent hmark, fun turns hmark h hstart => ?_⟩
  constructor
  · intro hall
    exact (h.follows relay).quiet hmark hstart (hall _)
  · intro hquiet value
    have hfollows := ((h.follows relay).heartbeat hquiet).chunk value
    rw [List.append_assoc] at hfollows
    exact hfollows.transparent (hmark.heartbeat _)

end

-- a heartbeat where the upstream goes on with the blank line itself is not noticed
example : pipeStreamToReply.Transparent
    [.chunk (encode "data: a\n".toList), .heartbeat, .chunk (encode "\n".toList)] := by
  decide +kernel

/-- A heartbeat between two events. -/
def wholeEvents : List Turn :=
  [.chunk (encode "data: a\n\n".toList), .heartbeat, .chunk (encode "data: b\n\n".toList)]

theorem oneMark_wholeEvents : OneMark wholeEvents :=
  ((OneMark.nil.chunk (by decide +kernel)).heartbeat []).chunk (by decide +kernel)

theorem betweenEvents_wholeEvents : BetweenEvents wholeEvents :=
  ((BetweenEvents.nil.chunk _).heartbeat (by decide +kernel)).chunk _

theorem relayed_events_wholeEvents :
    clusterEventRelay.Transparent wholeEvents ∧
      ∀ value, clusterEventRelay.Transparent (wholeEvents ++ [.heartbeat, .chunk value]) :=
  ⟨(relayed_events clusterEventRelay).1 wholeEvents oneMark_wholeEvents betweenEvents_wholeEvents,
    ((relayed_events clusterEventRelay).2 wholeEvents oneMark_wholeEvents
      betweenEvents_wholeEvents (by decide +kernel)).mpr (by decide +kernel)⟩

/-- The upstream's event comes in two chunks, and the timer fires between them. -/
def splitEvent : List Turn :=
  [.chunk (encode "data: hel".toList), .heartbeat, .chunk (encode "lo\n\n".toList)]

theorem heartbeat_splits_event :
    ¬ pipeStreamToReply.Transparent splitEvent ∧ ¬ directStreamRelay.Transparent splitEvent ∧
      ¬ clusterEventRelay.Transparent splitEvent := by
  decide +kernel

end GpuSharing.Sardeenz.StreamRelay
