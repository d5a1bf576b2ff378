import GpuSharing.Lib.SplitReads

namespace GpuSharing.Kvcached.TpSocket

open SplitReads

/-- The exceptions of `send_msg` and `recv_msg`, with their texts. -/
inductive IpcError
  | connectionError (text : String)
  | valueError (text : String)
  | overflowError (text : String)
  | unpicklingError (text : String)
  deriving DecidableEq, Repr

def IpcError.text : IpcError → String
  | .connectionError text | .valueError text | .overflowError text | .unpicklingError text => text

/-- The `pickle` module: `loads` gives back what `dumps` has coded, and may raise for other bytes. -/
structure Pickle (M : Type) where
  dumps : M → List UInt8
  loads : List UInt8 → Except String M
  loads_dumps : ∀ m, loads (dumps m) = .ok m
  dumps_ne_nil : ∀ m, dumps m ≠ []

/-- What a call of `recv_msg` comes to. -/
inductive Received (M : Type)
  | message (m : M)
  | raises (e : IpcError)
  | waits
  deriving DecidableEq, Repr

section

variable {M : Type} (P : Pickle M) (available : Nat → Nat)

/-- The bytes that `send_msg` puts on the wire; a length that does not fit into four bytes is
refused before. -/
def sendMsg (m : M) : Except IpcError (List UInt8) :=
  if (P.dumps m).length < 256 ^ 4 then
    .ok (toBytes 4 (P.dumps m).length ++ P.dumps m)
  else .error (.overflowError "int too big to convert")

/-- The loop of `recv_msg` is `recvAll`. -/
def recvMsg (s : Source UInt8) : Received M × Source UInt8 :=
  match recv available 4 s with
  | none => (.waits, s)
  | some (lengthBytes, s) =>
    if lengthBytes = [] then (.raises (.connectionError "Socket connection closed"), s)
    else if lengthBytes.length ≠ 4 then
      (.raises (.valueError "Received incomplete length bytes from socket"), s)
    else
      let length := fromBytes lengthBytes
      if length = 0 then (.raises (.valueError "Received invalid length for message"), s)
      else match recvAll available length [] s with
        | .waits => (.waits, s)
        | .ended s =>
          (.raises (.connectionError "Socket connection closed while receiving data"), s)
        | .data data s =>
          if data.length ≠ length then
            (.raises (.valueError "Received data length does not match expected length"), s)
          else match P.loads data with
            | .ok m => (.message m, s)
            | .error text => (.raises (.unpicklingError text), s)

/-- The results of so many calls of `recv_msg`, one after the other. -/
def recvMsgs : Nat → Source UInt8 → List (Received M)
  | 0, _ => []
  | calls + 1, s =>
    (recvMsg P available s).1 :: recvMsgs calls (recvMsg P available s).2

/-- The messages sent back to back. -/
def sendMsgs : List M → Except IpcError (List UInt8)
  | [] => .ok []
  | m :: ms => do
    let bytes ← sendMsg P m
    let rest ← sendMsgs ms
    return bytes ++ rest

def frameLength (m : M) : Nat := 4 + (P.dumps m).length

/-- The messages that are wholly within the first `cut` bytes of the wire. -/
def whole : Nat → List M → List M
  | cut, m :: ms => if frameLength P m ≤ cut then m :: whole (cut - frameLength P m) ms else []
  | _, [] => []

/-- The result of a call at the end of what the peer has sent, which it closes or not. -/
def Ends {M : Type} (closed : Bool) (r : Received M) : Prop :=
  (∀ m, r ≠ .message m) ∧ (closed = true → ∃ e, r = .raises e)

/-- A peer sends the messages and only the first `cut` bytes of them arrive: `recv_msg` returns those
that are whole, in order, and the next call returns no message; it raises if the peer has closed. -/
def RoundTrip (msgs : List M) (cut : Nat) (closed : Bool) : Prop :=
  ∃ bytes r, sendMsgs P msgs = .ok bytes ∧
    recvMsgs P available ((whole P cut msgs).length + 1) ⟨bytes.take cut, 0, closed⟩ =
      (whole P cut msgs).map .message ++ [r] ∧ Ends closed r

/-- Each read of the prefix of one of the messages, the first of which begins at `position`, finds all
four bytes. -/
def PrefixesArrive : Nat → List M → Prop
  | position, m :: ms =>
    4 ≤ available position ∧ PrefixesArrive (position + frameLength P m) ms
  | _, [] => True

end

section Recv

variable {M : Type} {P : Pickle M} {available : Nat → Nat} {s : Source UInt8}

theorem recvMsg_end (hs : s.pending = []) : (recvMsg P available s).1 =
    if s.closed then .raises (.connectionError "Socket connection closed") else .waits := by
  rw [recvMsg, recv_of_end _ hs]
  cases s.closed <;> rfl

theorem recvMsg_ends (hs : s.pending = []) : Ends s.closed (recvMsg P available s).1 := by
  rw [recvMsg_end hs]
  cases s.closed <;> simp [Ends]

/-- The first read is one of less than four bytes. -/
theorem recvMsg_incomplete (hs : s.pending ≠ []) (hread : taken available 4 s ≠ 4) :
    (recvMsg P available s).1 =
      .raises (.valueError "Received incomplete length bytes from socket") := by
  have hpos := taken_pos available (n := 4) (by decide) hs
  have hle : taken available 4 s ≤ s.pending.length := taken_le_length available
  have hlength : (s.pending.take (taken available 4 s)).length = taken available 4 s := by
    rw [List.length_take, Nat.min_eq_left hle]
  have hne : s.pending.take (taken available 4 s) ≠ [] := by
    intro hnil
    rw [hnil, List.length_nil] at hlength
    omega
  rw [recvMsg, recv_of_pending _ hs]
  simp only [hne, if_false, hlength, ne_eq, hread, not_false_eq_true, if_true]

theorem taken_eq_four : taken available 4 s = 4 ↔
    4 ≤ available s.position ∧ 4 ≤ s.pending.length := by
  simp only [taken]
  omega

/-- The first read is one of four bytes. -/
theorem recvMsg_header (h : taken available 4 s = 4) : recvMsg P available s =
    if fromBytes (s.pending.take 4) = 0 then
      (.raises (.valueError "Received invalid length for message"), s.skip 4)
    else match recvAll available (fromBytes (s.pending.take 4)) [] (s.skip 4) with
      | .waits => (.waits, s.skip 4)
      | .ended s =>
        (.raises (.connectionError "Socket connection closed while receiving data"), s)
      | .data data t =>
        if data.length ≠ fromBytes (s.pending.take 4) then
          (.raises (.valueError "Received data length does not match expected length"), t)
        else match P.loads data with
          | .ok m => (.message m, t)
          | .error text => (.raises (.unpicklingError text), t) := by
  have hfour := (taken_eq_four.mp h).2
  have hs : s.pending ≠ [] := by
    intro hnil
    rw [hnil, List.length_nil] at hfour
    omega
  have hlength : (s.pending.take 4).length = 4 := by rw [List.length_take, Nat.min_eq_left hfour]
  have hne : s.pending.take 4 ≠ [] := by
    intro hnil
    rw [hnil, List.length_nil] at hlength
    omega
  rw [recvMsg, recv_of_pending _ hs, h]
  simp only [hne, if_false, hlength, ne_eq, not_true_eq_false]

theorem recvMsg_zero (h : taken available 4 s = 4) (hzero : fromBytes (s.pending.take 4) = 0) :
    (recvMsg P available s).1 =
      .raises (.valueError "Received invalid length for message") := by
  rw [recvMsg_header h, if_pos hzero]

theorem recvMsg_data (h : taken available 4 s = 4) (hpos : 0 < fromBytes (s.pending.take 4))
    (hlen : 4 + fromBytes (s.pending.take 4) ≤ s.pending.length) : recvMsg P available s =
      (match P.loads ((s.pending.drop 4).take (fromBytes (s.pending.take 4))) with
        | .ok m => .message m
        | .error text => .raises (.unpicklingError text),
      s.skip (4 + fromBytes (s.pending.take 4))) := by
  generalize hn : fromBytes (s.pending.take 4) = n at hpos hlen
  have hrest : (s.skip 4).pending.length = s.pending.length - 4 := by simp
  have hread : recvAll available n [] (s.skip 4) = _ :=
    recvAll_eq available (by simp) (by rw [List.length_nil]; omega)
  have hdata : ((s.pending.drop 4).take n).length = n := by
    rw [List.length_take, List.length_drop]
    omega
  rw [recvMsg_header h, hn, if_neg (Nat.ne_of_gt hpos), hread]
  simp only [List.nil_append, List.length_nil, Nat.sub_zero, Source.skip_pending, hdata, ne_eq,
    not_true_eq_false, if_false, Source.skip_skip]
  split <;> rfl

/-- The stream ends, or the call waits, before all the bytes that the prefix announces are there. -/
theorem recvMsg_short (h : taken available 4 s = 4)
    (hlen : s.pending.length < 4 + fromBytes (s.pending.take 4)) :
    (∃ e, (recvMsg P available s).1 = .raises e) ∧ s.closed = true ∨
      (recvMsg P available s).1 = .waits ∧ s.closed = false := by
  have hfour := (taken_eq_four.mp h).2
  rw [recvMsg_header h, if_neg (by omega)]
  have hrest : ([] : List UInt8).length + (s.skip 4).pending.length <
      fromBytes (s.pending.take 4) := by
    simp
    omega
  rcases recvAll_short available hrest with ⟨⟨t, ht⟩, hclosed⟩ | ⟨hwaits, hopen⟩
  · rw [ht]
    exact .inl ⟨⟨_, rfl⟩, hclosed⟩
  · rw [hwaits]
    exact .inr ⟨rfl, hopen⟩

theorem recvMsg_waits_iff : (recvMsg P available s).1 = .waits ↔ s.closed = false ∧
    (s.pending = [] ∨ 4 ≤ available s.position ∧ 4 ≤ s.pending.length ∧
      s.pending.length < 4 + fromBytes (s.pending.take 4)) := by
  by_cases hs : s.pending = []
  · rw [recvMsg_end hs]
    cases s.closed <;> simp [hs]
  by_cases hread : taken available 4 s = 4
  · obtain ⟨hav, hfour⟩ := taken_eq_four.mp hread
    simp only [hs, hav, hfour, true_and, false_or]
    by_cases hlen : s.pending.length < 4 + fromBytes (s.pending.take 4)
    · rcases recvMsg_short (P := P) hread hlen with ⟨⟨e, he⟩, hclosed⟩ | ⟨hwaits, hopen⟩
      · simp [he, hclosed]
      · simp [hwaits, hopen, hlen]
    · refine iff_of_false ?_ fun h => hlen h.2
      by_cases hzero : fromBytes (s.pending.take 4) = 0
      · simp [recvMsg_zero hread hzero]
      · rw [recvMsg_data hread (Nat.pos_of_ne_zero hzero) (Nat.le_of_not_lt hlen)]
        dsimp only
        split <;> simp
  · rw [recvMsg_incomplete hs hread]
    refine iff_of_false (by simp) ?_
    rintro ⟨-, hnil | ⟨hav, hfour, -⟩⟩
    · exact hs hnil
    · exact hread (taken_eq_four.mpr ⟨hav, hfour⟩)

end Recv

section Frame

variable {M : Type} {P : Pickle M} {available : Nat → Nat} {s : Source UInt8} {m : M}

def frame (P : Pickle M) (m : M) : List UInt8 := toBytes 4 (P.dumps m).length ++ P.dumps m

@[simp] theorem length_frame : (frame P m).length = frameLength P m := by
  simp [frame, frameLength]

theorem sendMsg_eq_ok {bytes : List UInt8} :
    sendMsg P m = .ok bytes ↔ (P.dumps m).length < 256 ^ 4 ∧ frame P m = bytes := by
  unfold sendMsg frame
  split
  · rename_i h
    simp only [h, true_and, Except.ok.injEq]
  · rename_i h
    simp only [h, false_and, reduceCtorEq]

theorem sendMsgs_eq_ok {msgs : List M} {bytes : List UInt8} :
    sendMsgs P msgs = .ok bytes ↔
      (∀ m ∈ msgs, (P.dumps m).length < 256 ^ 4) ∧ msgs.flatMap (frame P) = bytes := by
  induction msgs generalizing bytes with
  | nil => simp [sendMsgs]
  | cons m msgs ih =>
    cases hm : sendMsg P m with
    | error e =>
      have hlong : ¬(P.dumps m).length < 256 ^ 4 := fun h => by
        rw [sendMsg_eq_ok.mpr ⟨h, rfl⟩] at hm
        cases hm
      simp only [sendMsgs, hm, bind, Except.bind, List.forall_mem_cons, hlong, false_and, reduceCtorEq]
    | ok first =>
      obtain ⟨hlen, rfl⟩ := sendMsg_eq_ok.mp hm
      cases hrest : sendMsgs P msgs with
      | error e =>
        have hbad : ¬∀ m ∈ msgs, (P.dumps m).length < 256 ^ 4 := fun h => by
          rw [ih.mpr ⟨h, rfl⟩] at hrest
          cases hrest
        simp only [sendMsgs, hm, hrest, bind, Except.bind, List.forall_mem_cons, hbad, and_false,
          false_and, reduceCtorEq]
      | ok rest =>
        obtain ⟨hall, rfl⟩ := ih.mp hrest
        simp only [sendMsgs, hm, hrest, bind, Except.bind, pure, Except.pure, Except.ok.injEq,
          List.forall_mem_cons, hlen, true_and, List.flatMap_cons]
        exact (and_iff_right hall).symm

theorem fromBytes_frame (hlen : (P.dumps m).length < 256 ^ 4) (rest : List UInt8) :
    fromBytes ((frame P m ++ rest).take 4) = (P.dumps m).length := by
  have htake : (frame P m ++ rest).take 4 = toBytes 4 (P.dumps m).length := by
    rw [frame, List.append_assoc, List.take_left' (length_toBytes 4 _)]
  rw [htake, fromBytes_toBytes 4 _ hlen]

theorem recvMsg_frame (hlen : (P.dumps m).length < 256 ^ 4) {rest : List UInt8}
    (hs : s.pending = frame P m ++ rest) (hav : 4 ≤ available s.position) :
    recvMsg P available s = (.message m, s.skip (frameLength P m)) := by
  have hlength : s.pending.length = frameLength P m + rest.length := by
    rw [hs, List.length_append, length_frame]
  have hfour : taken available 4 s = 4 := taken_eq_four.mpr ⟨hav, by
    rw [hlength, frameLength]
    omega⟩
  have hn : fromBytes (s.pending.take 4) = (P.dumps m).length := by
    rw [hs, fromBytes_frame hlen]
  have hpos : 0 < (P.dumps m).length := List.length_pos_iff.mpr (P.dumps_ne_nil m)
  have hpayload : (s.pending.drop 4).take (P.dumps m).length = P.dumps m := by
    rw [hs, frame, List.append_assoc, List.drop_left' (length_toBytes 4 _), List.take_left' rfl]
  rw [recvMsg_data hfour (by omega) (by rw [hn, hlength, frameLength]; omega), hn, hpayload,
    P.loads_dumps]
  rfl

/-- A message that is cut is not returned. -/
theorem recvMsg_truncated (hlen : (P.dumps m).length < 256 ^ 4) {k : Nat}
    (hs : s.pending = (frame P m).take k) (hk : k < frameLength P m) :
    Ends s.closed (recvMsg P available s).1 := by
  have hlength : s.pending.length = k := by
    rw [hs, List.length_take, length_frame, Nat.min_eq_left hk.le]
  by_cases hnil : s.pending = []
  · exact recvMsg_ends hnil
  by_cases hread : taken available 4 s = 4
  · have hfour := (taken_eq_four.mp hread).2
    have hbegins : fromBytes (s.pending.take 4) = (P.dumps m).length := by
      have hmin : min 4 k = 4 := by omega
      rw [hs, List.take_take, hmin, ← fromBytes_frame hlen [], List.append_nil]
    have hshort : s.pending.length < 4 + fromBytes (s.pending.take 4) := by
      rw [hbegins, hlength]
      exact hk
    rcases recvMsg_short (P := P) hread hshort with ⟨⟨e, he⟩, -⟩ | ⟨hwaits, hopen⟩
    · simp [Ends, he]
    · simp [Ends, hwaits, hopen]
  · simp [Ends, recvMsg_incomplete hnil hread]

/-- The messages that are whole are received in order exactly when their prefixes arrive whole. -/
theorem recvMsgs_iff {msgs : List M} (hlen : ∀ m ∈ msgs, (P.dumps m).length < 256 ^ 4) {cut : Nat}
    (hs : s.pending = (msgs.flatMap (frame P)).take cut) :
    (∃ r, recvMsgs P available ((whole P cut msgs).length + 1) s =
        (whole P cut msgs).map .message ++ [r] ∧ Ends s.closed r) ↔
      PrefixesArrive P available s.position (whole P cut msgs) := by
  induction msgs generalizing cut s with
  | nil =>
    have hnil : s.pending = [] := by simpa using hs
    exact iff_of_true ⟨_, rfl, recvMsg_ends hnil⟩ trivial
  | cons m msgs ih =>
    obtain ⟨hm, hlen⟩ := List.forall_mem_cons.mp hlen
    rw [List.flatMap_cons] at hs
    by_cases hcut : frameLength P m ≤ cut
    · have hpending : s.pending =
          frame P m ++ (msgs.flatMap (frame P)).take (cut - frameLength P m) := by
        rw [hs, List.take_append, length_frame, List.take_of_length_le (by rwa [length_frame])]
      simp only [whole, if_pos hcut, PrefixesArrive, List.length_cons, List.map_cons,
        List.cons_append, recvMsgs]
      by_cases hav : 4 ≤ available s.position
      · have hnext : (s.skip (frameLength P m)).pending =
            (msgs.flatMap (frame P)).take (cut - frameLength P m) := by
          rw [Source.skip_pending, hpending, List.drop_left' length_frame]
        have hrest := ih hlen hnext
        rw [Source.skip_closed, Source.skip_position] at hrest
        rw [recvMsg_frame hm hpending hav, and_iff_right hav, ← hrest]
        simp only [List.cons.injEq, true_and, recvMsgs]
      · have hne : s.pending ≠ [] := by
          intro hnil
          have hzero := congrArg List.length (hpending.symm.trans hnil)
          rw [List.length_append, length_frame, frameLength, List.length_nil] at hzero
          omega
        have hread : taken available 4 s ≠ 4 := fun h => hav (taken_eq_four.mp h).1
        refine iff_of_false ?_ fun h => hav h.1
        rintro ⟨r, heq, -⟩
        rw [recvMsg_incomplete hne hread] at heq
        cases (List.cons.inj heq).1
    · have hpending : s.pending = (frame P m).take cut := by
        rw [hs, List.take_append_of_le_length (by rw [length_frame]; omega)]
      simp only [whole, if_neg hcut]
      exact iff_of_true ⟨_, rfl, recvMsg_truncated hm hpending (by omega)⟩ trivial

end Frame

/-- A socket delivers every message, in order, and lets none through that is cut, exactly when each
message fits the prefix and every prefix of a message that arrives can be read at once. -/
theorem roundTrip_iff {M : Type} (P : Pickle M) (available : Nat → Nat) (msgs : List M) (cut : Nat)
    (closed : Bool) : RoundTrip P available msgs cut closed ↔
      (∀ m ∈ msgs, (P.dumps m).length < 256 ^ 4) ∧
        PrefixesArrive P available 0 (whole P cut msgs) := by
  unfold RoundTrip
  constructor
  · rintro ⟨bytes, r, hsend, hrecv, hend⟩
    obtain ⟨hlen, rfl⟩ := sendMsgs_eq_ok.mp hsend
    exact ⟨hlen, (recvMsgs_iff hlen rfl).mp ⟨r, hrecv, hend⟩⟩
  · rintro ⟨hlen, harrive⟩
    obtain ⟨r, hrecv, hend⟩ :=
      (recvMsgs_iff (s := ⟨(msgs.flatMap (frame P)).take cut, 0, closed⟩) hlen rfl).mpr harrive
    exact ⟨_, r, sendMsgs_eq_ok.mpr ⟨hlen, rfl⟩, hrecv, hend⟩

/-- What `pickle` makes of the reply of a command that was carried out. -/
def successPickle : Pickle Unit where
  dumps _ := [128, 4, 149, 23, 0, 0, 0, 0, 0, 0, 0, 125, 148, 140, 6, 115, 116, 97, 116, 117, 115, 148,
    140, 7, 115, 117, 99, 99, 101, 115, 115, 148, 115, 46]
  loads bytes :=
    if bytes = [128, 4, 149, 23, 0, 0, 0, 0, 0, 0, 0, 125, 148, 140, 6, 115, 116, 97, 116, 117, 115,
      148, 140, 7, 115, 117, 99, 99, 101, 115, 115, 148, 115, 46] then .ok ()
    else .error "invalid load key"
  loads_dumps _ := if_pos rfl
  dumps_ne_nil _ := List.cons_ne_nil _ _

/-- The reply is sent whole, but its prefix arrives in two parts. -/
theorem split_prefix_lost : ¬RoundTrip successPickle (fun _ => 2) [()] 38 true := by
  rintro ⟨bytes, r, hsend, hrecv, hend⟩
  obtain ⟨hlen, rfl⟩ := sendMsgs_eq_ok.mp hsend
  have harrive := (recvMsgs_iff (s := ⟨_, 0, true⟩) hlen rfl).mp ⟨r, hrecv, hend⟩
  exact absurd harrive.1 (by decide)

end GpuSharing.Kvcached.TpSocket
