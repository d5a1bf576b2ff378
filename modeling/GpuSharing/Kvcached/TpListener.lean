import GpuSharing.Kvcached.TpSocket

namespace GpuSharing.Kvcached.TpListener

open SplitReads TpSocket

inductive PyValue
  | int (n : Int)
  | bool (b : Bool)
  | str (s : String)
  | list (xs : List Int)
  deriving DecidableEq, Repr

/-- What the listener sees of a message: a dictionary, or an object whose `get` raises. -/
inductive PyObject
  | dict (entries : List (String × PyValue))
  | other (getError : String)
  deriving DecidableEq, Repr

/-- The functions of `vmm_ops` that the listener calls. -/
inductive Call
  | mapToKvTensors (offsets groupId : PyValue)
  | unmapFromKvTensors (offsets groupId : PyValue)
  | kvTensorsCreated (groupId : PyValue)
  deriving DecidableEq, Repr

/-- A client and what its connection meets. It sends some bytes and then closes its side or not;
`available` says how much of them has arrived when they are read, `gone` whether a reply can no longer
be sent, and `call` what a function called for it returns or raises. -/
structure Client where
  sent : List UInt8
  closes : Bool
  available : Nat → Nat
  gone : Bool
  call : Call → Except String Bool

/-- What `server_sock.accept()` comes to. -/
inductive Accept
  | raises
  | connection (c : Client)

def successReply : PyObject := .dict [("status", .str "success")]

def createdReply (created : Bool) : PyObject :=
  .dict [("status", .str "success"), ("created", .bool created)]

def errorReply (message : String) : PyObject :=
  .dict [("status", .str "error"), ("message", .str message)]

/-- The reply to a message, or the text of the exception. -/
def dispatch (call : Call → Except String Bool) : PyObject → Except String PyObject
  | .other getError => .error getError
  | .dict entries =>
    let groupId := (entries.lookup "group_id").getD (.int 0)
    match entries.lookup "cmd" with
    | none => .error "'cmd'"
    | some cmd =>
      if cmd = .str "map_to_kv_tensors" then
        match entries.lookup "offsets" with
        | none => .error "'offsets'"
        | some offsets => (call (.mapToKvTensors offsets groupId)).map fun ok =>
          if ok then successReply else errorReply "map_to_kv_tensors returned false"
      else if cmd = .str "unmap_from_kv_tensors" then
        match entries.lookup "offsets" with
        | none => .error "'offsets'"
        | some offsets => (call (.unmapFromKvTensors offsets groupId)).map fun ok =>
          if ok then successReply else errorReply "unmap_from_kv_tensors returned false"
      else if cmd = .str "kv_tensors_created" then
        (call (.kvTensorsCreated groupId)).map createdReply
      else .ok (errorReply "Unknown command")

/-- What an iteration of the loop comes to after its `accept`: the connection is closed with the replies
that were sent, an exception leaves the loop, or `recv_msg` waits for ever. -/
inductive Iteration
  | done (replies : List PyObject)
  | ends
  | waits
  deriving DecidableEq, Repr

/-- The `send_msg` of the `except` branch, which no other `try` is around. -/
def sendError (c : Client) (text : String) : Iteration :=
  if c.gone then .ends else .done [errorReply text]

/-- A command with its fields. -/
def IsCommand (entries : List (String × PyValue)) : Prop :=
  entries.lookup "cmd" = some (.str "kv_tensors_created") ∨
    (entries.lookup "cmd" = some (.str "map_to_kv_tensors") ∨
      entries.lookup "cmd" = some (.str "unmap_from_kv_tensors")) ∧
    (entries.lookup "offsets").isSome

/-- `accept` brings a client to whom a reply can be sent and who has closed, or has sent something and,
where the prefix of its message can be read at once, as many bytes as the prefix announces. -/
def Served : Accept → Prop
  | .raises => False
  | .connection c => c.gone = false ∧ (c.closes = true ∨ c.sent ≠ [] ∧
      (4 ≤ c.available 0 → 4 ≤ c.sent.length → 4 + fromBytes (c.sent.take 4) ≤ c.sent.length))

/-- The thread of the listener: at `accept`, waiting in `recv_msg`, or over. -/
inductive Listener
  | accepting
  | waiting
  | ended
  deriving DecidableEq, Repr

section

variable {M : Type} (P : Pickle M) (view : M → PyObject)

/-- The `try` statement. A `send_msg` that raises in it is followed by the one of the `except` branch. -/
def serve (c : Client) : Iteration :=
  match (recvMsg P c.available ⟨c.sent, 0, c.closes⟩).1 with
  | .waits => .waits
  | .raises e => sendError c e.text
  | .message m =>
    match dispatch c.call (view m) with
    | .error text => sendError c text
    | .ok reply => if c.gone then sendError c "[Errno 32] Broken pipe" else .done [reply]

/-- The loop from one `accept` to the next, with the replies that it sends. -/
def acceptAndServe : Accept → Listener × List PyObject
  | .raises => (.ended, [])
  | .connection c => match serve P view c with
    | .done replies => (.accepting, replies)
    | .ends => (.ended, [])
    | .waits => (.waiting, [])

/-- The loop, for what its calls of `accept` come to, with the replies to each. -/
def listenLoop : Listener → List Accept → Listener × List (List PyObject)
  | l, [] => (l, [])
  | .accepting, a :: as =>
    let rest := listenLoop (acceptAndServe P view a).1 as
    (rest.1, (acceptAndServe P view a).2 :: rest.2)
  | l, _ :: as => ((listenLoop l as).1, [] :: (listenLoop l as).2)

/-- The client sends a well-formed command. -/
def WellFormed (c : Client) : Prop :=
  ∃ m entries bytes rest, view m = .dict entries ∧ IsCommand entries ∧
    sendMsg P m = .ok bytes ∧ c.sent = bytes ++ rest

/-- After the connections the listener accepts again, and each well-formed command of them has got
exactly one reply. -/
def Upholds (as : List Accept) : Prop :=
  (listenLoop P view .accepting as).1 = .accepting ∧
    ∀ c replies, (Accept.connection c, replies) ∈ as.zip (listenLoop P view .accepting as).2 →
      WellFormed P view c → replies.length = 1

end

section

variable {M : Type} (P : Pickle M) (view : M → PyObject) {c : Client}

theorem serve_gone (h : c.gone = true) : serve P view c = .ends ∨ serve P view c = .waits := by
  unfold serve
  split
  · exact .inr rfl
  · simp [sendError, h]
  · split <;> simp [sendError, h]

/-- A client that can be replied to gets one reply, whatever is received and whatever comes of it. -/
theorem serve_replies (h : c.gone = false)
    (hrecv : (recvMsg P c.available ⟨c.sent, 0, c.closes⟩).1 ≠ .waits) :
    ∃ reply, serve P view c = .done [reply] := by
  unfold serve
  split
  · rename_i hwaits
    exact absurd hwaits hrecv
  · exact ⟨_, if_neg (by simp [h])⟩
  · split
    · exact ⟨_, if_neg (by simp [h])⟩
    · exact ⟨_, if_neg (by simp [h])⟩

theorem serve_done {replies : List PyObject} (h : serve P view c = .done replies) :
    c.gone = false ∧ replies.length = 1 := by
  cases hgone : c.gone with
  | true => rcases serve_gone P view hgone with he | hw <;> simp_all
  | false =>
    have hrecv : (recvMsg P c.available ⟨c.sent, 0, c.closes⟩).1 ≠ .waits := by
      intro hwaits
      simp [serve, hwaits] at h
    obtain ⟨reply, hreply⟩ := serve_replies P view hgone hrecv
    rw [hreply] at h
    cases h
    exact ⟨rfl, rfl⟩

theorem served_iff : Served (.connection c) ↔ c.gone = false ∧
    (recvMsg P c.available ⟨c.sent, 0, c.closes⟩).1 ≠ .waits := by
  rw [ne_eq, recvMsg_waits_iff]
  simp only [Served, ne_eq]
  refine and_congr_right fun _ => ?_
  cases c.closes
  · push Not
    tauto
  · simp

/-- The loop comes back to `accept` exactly when the client is served, and then with one reply. -/
theorem acceptAndServe_accepting {a : Accept} :
    (acceptAndServe P view a).1 = .accepting ↔ Served a := by
  cases a with
  | raises => simp [acceptAndServe, Served]
  | connection c =>
    rw [served_iff P]
    constructor
    · intro h
      cases hserve : serve P view c with
      | done replies =>
        refine ⟨(serve_done P view hserve).1, fun hwaits => ?_⟩
        simp [serve, hwaits] at hserve
      | ends => simp [acceptAndServe, hserve] at h
      | waits => simp [acceptAndServe, hserve] at h
    · rintro ⟨hgone, hrecv⟩
      obtain ⟨reply, hreply⟩ := serve_replies P view hgone hrecv
      simp [acceptAndServe, hreply]

theorem acceptAndServe_replies {a : Accept} (h : Served a) :
    (acceptAndServe P view a).2.length = 1 := by
  cases a with
  | raises => exact h.elim
  | connection c =>
    obtain ⟨hgone, hrecv⟩ := (served_iff P).mp h
    obtain ⟨reply, hreply⟩ := serve_replies P view hgone hrecv
    simp [acceptAndServe, hreply]

/-- A thread that is over, or that waits for a client, never accepts again. -/
theorem listenLoop_stuck {l : Listener} (h : l ≠ .accepting) (as : List Accept) :
    (listenLoop P view l as).1 = l := by
  induction as with
  | nil => cases l <;> rfl
  | cons a as ih =>
    cases l with
    | accepting => exact absurd rfl h
    | waiting => exact ih
    | ended => exact ih

theorem listenLoop_accepting {as : List Accept} :
    (listenLoop P view .accepting as).1 = .accepting ↔ ∀ a ∈ as, Served a := by
  induction as with
  | nil => simp [listenLoop]
  | cons a as ih =>
    rw [List.forall_mem_cons, ← acceptAndServe_accepting P view, ← ih]
    simp only [listenLoop]
    by_cases h : (acceptAndServe P view a).1 = .accepting
    · rw [h]
      exact (and_iff_right rfl).symm
    · rw [listenLoop_stuck P view h]
      exact iff_of_false h fun hand => h hand.1

theorem listenLoop_replies {as : List Accept} (h : ∀ a ∈ as, Served a) {a : Accept}
    {replies : List PyObject} (hmem : (a, replies) ∈ as.zip (listenLoop P view .accepting as).2) :
    replies.length = 1 := by
  induction as with
  | nil => simp at hmem
  | cons b as ih =>
    obtain ⟨hb, has⟩ := List.forall_mem_cons.mp h
    simp only [listenLoop, (acceptAndServe_accepting P view).mpr hb, List.zip_cons_cons, List.mem_cons,
      Prod.mk.injEq] at hmem
    rcases hmem with ⟨-, rfl⟩ | hrest
    · exact acceptAndServe_replies P view hb
    · exact ih has hrest

end

/-- The listener goes on accepting, and answers every well-formed command once, exactly as long as
every `accept` brings a client that it can serve. -/
theorem listener_iff {M : Type} (P : Pickle M) (view : M → PyObject) (as : List Accept) :
    Upholds P view as ↔ ∀ a ∈ as, Served a := by
  constructor
  · exact fun h => (listenLoop_accepting P view).mp h.1
  · intro h
    exact ⟨(listenLoop_accepting P view).mpr h,
      fun c replies hmem _ => listenLoop_replies P view h hmem⟩

/-- What `pickle` makes of the command that asks whether the tensors of group 0 are created. -/
def commandPickle : Pickle Unit where
  dumps _ := [128, 4, 149, 45, 0, 0, 0, 0, 0, 0, 0, 125, 148, 40, 140, 3, 99, 109, 100, 148, 140, 18,
    107, 118, 95, 116, 101, 110, 115, 111, 114, 115, 95, 99, 114, 101, 97, 116, 101, 100, 148, 140, 8,
    103, 114, 111, 117, 112, 95, 105, 100, 148, 75, 0, 117, 46]
  loads bytes :=
    if bytes = [128, 4, 149, 45, 0, 0, 0, 0, 0, 0, 0, 125, 148, 40, 140, 3, 99, 109, 100, 148, 140, 18,
      107, 118, 95, 116, 101, 110, 115, 111, 114, 115, 95, 99, 114, 101, 97, 116, 101, 100, 148, 140,
      8, 103, 114, 111, 117, 112, 95, 105, 100, 148, 75, 0, 117, 46] then .ok ()
    else .error "invalid load key"
  loads_dumps _ := if_pos rfl
  dumps_ne_nil _ := List.cons_ne_nil _ _

def commandView (_ : Unit) : PyObject :=
  .dict [("cmd", .str "kv_tensors_created"), ("group_id", .int 0)]

/-- A client that connects and closes at once ends the listener, and the command after it is not
answered. -/
theorem vanished_client_ends_listener : ¬Upholds commandPickle commandView
    [.connection ⟨[], true, fun _ => 4096, true, fun _ => .ok true⟩,
      .connection ⟨frame commandPickle (), false, fun _ => 4096, false, fun _ => .ok true⟩] := by
  rintro ⟨haccepting, -⟩
  have hserved := (listenLoop_accepting _ _).mp haccepting _ List.mem_cons_self
  exact absurd hserved.1 (by decide)

end GpuSharing.Kvcached.TpListener
