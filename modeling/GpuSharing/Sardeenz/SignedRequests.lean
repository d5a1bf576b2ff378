import GpuSharing.Lib.Json
import GpuSharing.Sardeenz.ClusterAuth

namespace GpuSharing.Sardeenz.ClusterAuth

open SavedLaunches (isWhiteSpace)

/-- `JSON.parse`, with `none` for an error, and `JSON.stringify`. What is written can be read, as a
value that is written in the same way. -/
structure JsonText where
  parse : String → Option Json
  stringify : Json → String
  parse_empty : parse "" = none
  parse_stringify : ∀ w, ∃ v, parse (stringify w) = some v ∧ stringify v = stringify w

/-- The method and the path of a request for another pod. -/
structure Target where
  method : String
  path : List Char
  upper : toUpperCase method = method
  oneLine : '\n' ∉ method.toList
  internal : startsWith path "/internal/" = true
  plain : '\n' ∉ path

/-- A request that a pod signs, where `none` stands for no body. -/
structure SignedRequest where
  target : Target
  body : Option Json
  timestamp : Int

/-- A request that arrives, with its parsed body. -/
structure Incoming where
  target : Target
  url : String
  body : Option Json
  path_eq : pathOf url = target.path

variable (V : Server) (J : JsonText)

def signRequest (method : String) (path : List Char) (body secret : String) (timestamp : Int) :
    String × Int :=
  (V.hmacSha256 secret (signedPayload method path timestamp body), timestamp)

/-- The headers under the names that the receiver gives them. -/
def buildSignedHeaders (now : Int) (method : String) (path : List Char) (body : String) :
    List (String × HeaderValue) :=
  let headers := [("content-type", .single "application/json")]
  if V.clusterSecret ≠ "" then
    let signed := signRequest V method path body V.clusterSecret now
    headers ++ [("x-cluster-signature", .single signed.1),
      ("x-cluster-timestamp", .single (toString signed.2))]
  else headers

namespace SignedRequest

variable (S : SignedRequest)

/-- The body as it is sent. -/
def text : String := (S.body.map J.stringify).getD ""

def signature : String :=
  (signRequest V S.target.method S.target.path (S.text J) V.clusterSecret S.timestamp).1

def headers : List (String × HeaderValue) :=
  buildSignedHeaders V S.timestamp S.target.method S.target.path (S.text J)

/-- The headers hold the request's signature, in hexadecimal. -/
def Signs (headers : List (String × HeaderValue)) : Prop :=
  ∃ signature, headers.lookup SIGNATURE_HEADER = some (.single signature) ∧
    bufferFromHex signature.toList = bufferFromHex (S.signature V J).toList

/-- The request that arrives has the same method, path and body. -/
def Matches (R : Incoming) : Prop :=
  S.target = R.target ∧ (S.body.bind fun w => J.parse (J.stringify w)) = R.body

end SignedRequest

/-- What the hook sees of a request: `request.body ? JSON.stringify(request.body) : ''`. -/
def Incoming.request (R : Incoming) (headers : List (String × HeaderValue)) : HttpRequest where
  method := R.target.method
  url := R.url
  headers := headers
  body := (R.body.filter Json.truthy).map J.stringify

/-- The body that the hook verifies. -/
def Incoming.text (R : Incoming) : String :=
  ((R.body.filter Json.truthy).map J.stringify).getD ""

def timestampOf (headers : List (String × HeaderValue)) : Option Int :=
  match headers.lookup TIMESTAMP_HEADER with
  | some (.single timestampStr) => parseInt timestampStr
  | _ => none

def InWindow (now timestamp : Int) : Prop := (now - timestamp).natAbs ≤ REPLAY_WINDOW_MS

instance (now timestamp : Int) : Decidable (InWindow now timestamp) :=
  inferInstanceAs (Decidable (_ ≤ _))

/-- For this method, path and body the hook accepts in the window what was signed, and what it
accepts was signed, and agrees with all that its signature was made for. -/
structure Exact (now : Int) (R : Incoming) : Prop where
  accepts : ∀ S : SignedRequest, S.Matches J R → InWindow now S.timestamp →
    clusterAuth V now (R.request J (S.headers V J)) = .ok true
  rejects : ∀ headers, clusterAuth V now (R.request J headers) = .ok true →
    (∃ S : SignedRequest, S.Signs V J headers) ∧ ∀ S : SignedRequest, S.Signs V J headers →
      S.Matches J R ∧ timestampOf headers = some S.timestamp ∧ InWindow now S.timestamp

/-- HMAC as an injective function with digests that are not empty. -/
structure Server.IdealHmac (V : Server) : Prop where
  digest : ∀ payload, bufferFromHex (V.hmacSha256 V.clusterSecret payload).toList ≠ []
  injective : ∀ payload payload', bufferFromHex (V.hmacSha256 V.clusterSecret payload).toList =
    bufferFromHex (V.hmacSha256 V.clusterSecret payload').toList → payload = payload'

theorem isDigit_not_space {c : Char} (hc : c.isDigit = true) : isWhiteSpace c = false := by
  by_contra hspace
  rw [Bool.not_eq_false, isWhiteSpace, Bool.or_eq_true, decide_eq_true_iff] at hspace
  rcases hspace with hmem | hrange
  · have hnone : ∀ d ∈ ['\t', '\n', '\x0b', '\x0c', '\r', ' ', '\u00a0', '\u1680', '\u2028',
        '\u2029', '\u202f', '\u205f', '\u3000', '\ufeff'], d.isDigit = false := by simp
    rw [hnone c hmem] at hc
    cases hc
  · have hle : c.val.toNat ≤ 57 := by
      simp only [Char.isDigit, Bool.and_eq_true, decide_eq_true_iff] at hc
      exact UInt32.le_iff_toNat_le.mp hc.2
    have hge : 0x2000 ≤ c.val.toNat := by
      simp only [Bool.and_eq_true, decide_eq_true_iff] at hrange
      exact UInt32.le_iff_toNat_le.mp hrange.1
    omega

theorem digits_eq (cs : List Char) (n : Nat) (h : ∀ c ∈ cs, c.isDigit = true) :
    digits cs n = Nat.ofDigitChars 10 cs n := by
  induction cs generalizing n with
  | nil => simp [digits]
  | cons c cs ih =>
    have hc := h c (by simp)
    have hcs : ∀ d ∈ cs, d.isDigit = true := fun d hd => h d (by simp [hd])
    rw [digits, if_pos hc, ih _ hcs, Nat.ofDigitChars_cons]

theorem digits_toDigits (n : Nat) : digits (Nat.toDigits 10 n) 0 = n := by
  have hdigits : ∀ c ∈ Nat.toDigits 10 n, c.isDigit = true := fun c hc =>
    Nat.isDigit_of_mem_toDigits (by decide) (by decide) hc
  rw [digits_eq _ _ hdigits, Nat.ofDigitChars_ten_toDigits]

theorem toDigits_cons (n : Nat) : ∃ c cs, Nat.toDigits 10 n = c :: cs ∧ c.isDigit = true := by
  have hdigits : ∀ c ∈ Nat.toDigits 10 n, c.isDigit = true := fun c hc =>
    Nat.isDigit_of_mem_toDigits (by decide) (by decide) hc
  cases hcs : Nat.toDigits 10 n with
  | nil => exact absurd hcs Nat.toDigits_ne_nil
  | cons c cs => exact ⟨c, cs, rfl, hdigits c (by simp [hcs])⟩

theorem parseInt_toString (t : Int) : parseInt (toString t) = some t := by
  cases t with
  | ofNat n =>
    obtain ⟨c, cs, hcs, hc⟩ := toDigits_cons n
    have hlist : (toString (Int.ofNat n)).toList = c :: cs := by
      rw [← hcs]
      exact Nat.toList_repr
    have hvalue := digits_toDigits n
    rw [hcs] at hvalue
    have hminus : c ≠ '-' := by
      intro heq
      rw [heq] at hc
      cases hc
    have hplus : c ≠ '+' := by
      intro heq
      rw [heq] at hc
      cases hc
    rw [parseInt, hlist, List.dropWhile_cons_of_neg (by simp [isDigit_not_space hc])]
    split
    case h_1 heq => exact absurd (List.cons.inj heq).1 hminus
    case h_2 heq => exact absurd (List.cons.inj heq).1 hplus
    case h_3 => simp [hc, hvalue]
  | negSucc n =>
    obtain ⟨c, cs, hcs, hc⟩ := toDigits_cons (n + 1)
    have hlist : (toString (Int.negSucc n)).toList = '-' :: c :: cs := by
      rw [← hcs, ← Nat.toList_repr]
      exact String.toList_append
    have hvalue := digits_toDigits (n + 1)
    rw [hcs] at hvalue
    rw [parseInt, hlist, List.dropWhile_cons_of_neg (by decide)]
    simp only [List.head?_cons, Option.map_some, hc, Option.getD_some, if_true, hvalue]
    rfl

theorem newline_notMem_toString (t : Int) : '\n' ∉ (toString t).toList := by
  have hdigits : ∀ n : Nat, '\n' ∉ Nat.toDigits 10 n := by
    intro n hmem
    have hdigit : ('\n').isDigit = true := Nat.isDigit_of_mem_toDigits (by decide) (by decide) hmem
    cases hdigit
  cases t with
  | ofNat n =>
    have hlist : (toString (Int.ofNat n)).toList = Nat.toDigits 10 n := Nat.toList_repr
    rw [hlist]
    exact hdigits n
  | negSucc n =>
    have hlist : (toString (Int.negSucc n)).toList = '-' :: Nat.toDigits 10 (n + 1) := by
      rw [← Nat.toList_repr]
      exact String.toList_append
    rw [hlist, List.mem_cons, not_or]
    exact ⟨by decide, hdigits (n + 1)⟩

/-- The first separator of a text is found in one place only. -/
theorem cut_unique {α : Type} {xs xs' ys ys' : List α} {c : α} (hxs : c ∉ xs) (hxs' : c ∉ xs')
    (h : xs ++ c :: ys = xs' ++ c :: ys') : xs = xs' ∧ ys = ys' := by
  induction xs generalizing xs' with
  | nil =>
    cases xs' with
    | nil => exact ⟨rfl, (List.cons.inj h).2⟩
    | cons x' xs' =>
      have hhead := (List.cons.inj h).1
      exact absurd (by simp [hhead]) hxs'
  | cons x xs ih =>
    cases xs' with
    | nil =>
      have hhead := (List.cons.inj h).1
      exact absurd (by simp [hhead]) hxs
    | cons x' xs' =>
      obtain ⟨rfl, htail⟩ := List.cons.inj h
      have hxs := List.not_mem_of_not_mem_cons hxs
      have hxs' := List.not_mem_of_not_mem_cons hxs'
      obtain ⟨hxs, hys⟩ := ih hxs hxs' htail
      exact ⟨congrArg (x :: ·) hxs, hys⟩

/-- What is signed tells method, path, timestamp and body. -/
theorem signedPayload_injective {T T' : Target} {t t' : Int} {body body' : String}
    (h : signedPayload T.method T.path t body = signedPayload T'.method T'.path t' body') :
    T = T' ∧ t = t' ∧ body = body' := by
  have hlist := congrArg String.toList h
  simp only [signedPayload, T.upper, T'.upper, String.toList_append, String.toList_ofList,
    List.append_assoc, show ("\n" : String).toList = ['\n'] from rfl, List.singleton_append] at hlist
  obtain ⟨hmethod, hlist⟩ := cut_unique T.oneLine T'.oneLine hlist
  obtain ⟨hpath, hlist⟩ := cut_unique T.plain T'.plain hlist
  obtain ⟨htime, hbody⟩ :=
    cut_unique (newline_notMem_toString t) (newline_notMem_toString t') hlist
  have ht : parseInt (toString t) = parseInt (toString t') := by rw [String.ext htime]
  rw [parseInt_toString, parseInt_toString] at ht
  refine ⟨?_, Option.some.inj ht, String.ext hbody⟩
  cases T
  cases T'
  have hmethod' := String.ext hmethod
  dsimp only at hmethod' hpath
  subst hmethod' hpath
  rfl

variable {V J}

theorem lookup_headers (hsecret : V.clusterSecret ≠ "") (S : SignedRequest) :
    (S.headers V J).lookup SIGNATURE_HEADER = some (.single (S.signature V J)) ∧
      (S.headers V J).lookup TIMESTAMP_HEADER = some (.single (toString S.timestamp)) := by
  rw [SignedRequest.headers, buildSignedHeaders, if_pos hsecret]
  constructor
  · rfl
  · rfl

theorem pathOf_internal (R : Incoming) : startsWith R.url.toList "/internal/" = true := by
  have hbegins : pathOf R.url <+: R.url.toList := List.takeWhile_prefix _
  have hinternal := R.target.internal
  rw [← R.path_eq] at hinternal
  rw [startsWith, List.isPrefixOf_iff_prefix] at hinternal ⊢
  exact hinternal.trans hbegins

/-- The hook accepts exactly the requests that carry the HMAC of what it sees of them. -/
theorem clusterAuth_ok_iff (hsecret : V.clusterSecret ≠ "") (hmac : V.IdealHmac) {now : Int}
    {req : HttpRequest} (hurl : startsWith req.url.toList "/internal/" = true) :
    clusterAuth V now req = .ok true ↔ Signed V now req := by
  constructor
  · intro h
    exact (clusterAuth_guarded hsecret hurl h).2
  · intro h
    obtain ⟨signature, timestampStr, timestamp, hsignature, htime, hparse, hage, hbytes⟩ := h
    have hsig : signature ≠ "" := by
      intro heq
      rw [heq] at hbytes
      exact hmac.digest _ hbytes.symm
    have hstr : timestampStr ≠ "" := by
      intro heq
      rw [heq] at hparse
      cases hparse
    have hverify := verifyRequest_spec.mpr ⟨hage, hbytes⟩
    unfold clusterAuth
    rw [if_neg (not_not.mpr hurl), if_neg hsecret, hsignature]
    simp only [if_neg hsig, htime, if_neg hstr, hparse, verifyRequestDualSecret, hverify, if_true]

theorem accepted_iff (hsecret : V.clusterSecret ≠ "") (hmac : V.IdealHmac) {now : Int}
    {R : Incoming} {headers : List (String × HeaderValue)} :
    clusterAuth V now (R.request J headers) = .ok true ↔
      ∃ signature timestamp, headers.lookup SIGNATURE_HEADER = some (.single signature) ∧
        timestampOf headers = some timestamp ∧ InWindow now timestamp ∧
        bufferFromHex signature.toList = bufferFromHex (V.hmacSha256 V.clusterSecret
          (signedPayload R.target.method R.target.path timestamp (R.text J))).toList := by
  rw [clusterAuth_ok_iff hsecret hmac (pathOf_internal R)]
  constructor
  · intro h
    obtain ⟨signature, timestampStr, timestamp, hsignature, htime, hparse, hage, hbytes⟩ := h
    have hstamp : timestampOf headers = some timestamp := by
      change headers.lookup TIMESTAMP_HEADER = _ at htime
      rw [timestampOf, htime]
      exact hparse
    rw [← R.path_eq]
    exact ⟨signature, timestamp, hsignature, hstamp, hage, hbytes⟩
  · intro h
    obtain ⟨signature, timestamp, hsignature, hstamp, hage, hbytes⟩ := h
    rw [← R.path_eq] at hbytes
    unfold timestampOf at hstamp
    split at hstamp
    case h_1 timestampStr htime =>
      exact ⟨signature, timestampStr, timestamp, hsignature, htime, hstamp, hage, hbytes⟩
    case h_2 => cases hstamp

theorem accepted_headers (hsecret : V.clusterSecret ≠ "") (hmac : V.IdealHmac) {now : Int}
    {R : Incoming} {S : SignedRequest} (htarget : S.target = R.target) (htext : S.text J = R.text J)
    (hage : InWindow now S.timestamp) :
    clusterAuth V now (R.request J (S.headers V J)) = .ok true := by
  obtain ⟨hsignature, htime⟩ := lookup_headers (J := J) hsecret S
  have hstamp : timestampOf (S.headers V J) = some S.timestamp := by
    rw [timestampOf, htime]
    exact parseInt_toString S.timestamp
  rw [accepted_iff hsecret hmac, ← htarget, ← htext]
  exact ⟨S.signature V J, S.timestamp, hsignature, hstamp, hage, rfl⟩

theorem signs_headers (hsecret : V.clusterSecret ≠ "") (S : SignedRequest) :
    S.Signs V J (S.headers V J) :=
  ⟨S.signature V J, (lookup_headers hsecret S).1, rfl⟩

/-- Every signature of an accepted request was made for the payload that the hook sees. -/
theorem signs_accepted (hsecret : V.clusterSecret ≠ "") (hmac : V.IdealHmac) {now : Int}
    {R : Incoming} {S : SignedRequest} {headers : List (String × HeaderValue)}
    (h : clusterAuth V now (R.request J headers) = .ok true) (hsigns : S.Signs V J headers) :
    S.target = R.target ∧ S.text J = R.text J ∧ timestampOf headers = some S.timestamp ∧
      InWindow now S.timestamp := by
  obtain ⟨signature, timestamp, hsignature, hstamp, hage, hbytes⟩ :=
    (accepted_iff hsecret hmac).mp h
  obtain ⟨signature', hsignature', hbytes'⟩ := hsigns
  obtain rfl : signature = signature' := by
    rw [hsignature] at hsignature'
    cases hsignature'
    rfl
  have hpayload := hmac.injective _ _ (hbytes'.symm.trans hbytes)
  obtain ⟨htarget, rfl, htext⟩ := signedPayload_injective hpayload
  exact ⟨htarget, htext, hstamp, hage⟩

/-- JSON carries the value over, and it is true, so that the hook does not take it for no body. -/
def Carried (J : JsonText) (v : Json) : Prop :=
  v.truthy = true ∧ J.parse (J.stringify v) = some v

theorem text_of_carried {R : Incoming} (h : ∀ v ∈ R.body, Carried J v) :
    R.text J = (R.body.map J.stringify).getD "" := by
  unfold Incoming.text
  cases hbody : R.body with
  | none => rfl
  | some v =>
    have htruthy := (h v hbody).1
    simp [Option.filter, htruthy]

theorem stringify_ne_empty (J : JsonText) (w : Json) : J.stringify w ≠ "" := by
  obtain ⟨v, hparse, _⟩ := J.parse_stringify w
  intro heq
  rw [heq, J.parse_empty] at hparse
  cases hparse

theorem body_eq_iff {R : Incoming} (h : ∀ v ∈ R.body, Carried J v) (S : SignedRequest) :
    S.text J = R.text J ↔ (S.body.bind fun w => J.parse (J.stringify w)) = R.body := by
  rw [text_of_carried h, SignedRequest.text]
  cases hsent : S.body with
  | none =>
    cases hbody : R.body with
    | none => simp
    | some v =>
      have hne := stringify_ne_empty J v
      simp [hne.symm]
  | some w =>
    obtain ⟨v', hparse, hagain⟩ := J.parse_stringify w
    cases hbody : R.body with
    | none =>
      have hne := stringify_ne_empty J w
      simp [hne, hparse]
    | some v =>
      have hcarried := (h v hbody).2
      constructor
      · intro heq
        change J.stringify w = J.stringify v at heq
        change J.parse (J.stringify w) = some v
        rw [heq]
        exact hcarried
      · intro heq
        change J.parse (J.stringify w) = some v at heq
        rw [hparse] at heq
        cases heq
        exact hagain.symm

/-- Bytes 0 and 1 in hexadecimal. -/
def hexBits (bits : List Bool) : List Char := bits.flatMap fun b => ['0', if b then '1' else '0']

theorem bufferFromHex_hexBits (bits : List Bool) :
    bufferFromHex (hexBits bits) = bits.map Bool.toNat := by
  induction bits with
  | nil => rfl
  | cons b bits ih =>
    rw [List.map_cons, ← ih]
    cases b with
    | false => rfl
    | true => rfl

/-- Characters in unary. -/
def spelled (cs : List Char) : List Bool :=
  cs.flatMap fun c => List.replicate c.toNat true ++ [false]

theorem spelled_injective {cs ds : List Char} (h : spelled cs = spelled ds) : cs = ds := by
  have hnone : ∀ n, false ∉ List.replicate n true := by
    intro n hmem
    cases List.eq_of_mem_replicate hmem
  induction cs generalizing ds with
  | nil =>
    cases ds with
    | nil => rfl
    | cons d ds => simp [spelled] at h
  | cons c cs ih =>
    cases ds with
    | nil => simp [spelled] at h
    | cons d ds =>
      simp only [spelled, List.flatMap_cons, List.append_assoc, List.singleton_append] at h
      obtain ⟨hcode, hrest⟩ := cut_unique (hnone _) (hnone _) h
      have hlength := congrArg List.length hcode
      rw [List.length_replicate, List.length_replicate] at hlength
      have hchar : c = d := Char.ext (UInt32.toNat_inj.mp hlength)
      rw [hchar, ih hrest]

/-- The HMACs of three payloads. -/
def eventDigests : List (String × String) :=
  [("POST\n/internal/cluster/event\n1700000000000\n",
      "30cca9f1cc09bfb281408915d79bac86c552a3cae1448879802dce1ab4e47a10"),
    ("POST\n/internal/cluster/event\n1700000000000\nnull",
      "cc578f70e008a7d04f4ae09098a22c1b40a6544243a3b45e117f126bb7e1bb37"),
    ("POST\n/internal/cluster/event\n1700000000000\n\x7b\x7d",
      "6ebdf8a77dc65ce92fd961302e657f0b689d5513236cb850d50bcf9af0c33ddd")]

/-- All other payloads have longer digests. -/
def eventDigest (payload : String) : String :=
  (eventDigests.lookup payload).getD
    (String.ofList (hexBits (List.replicate 33 false ++ spelled payload.toList)))

def eventServer : Server :=
  { securedServer with hmacSha256 := fun _ payload => eventDigest payload }

theorem eventDigest_other {payload : String} (h : eventDigests.lookup payload = none) :
    bufferFromHex (eventDigest payload).toList =
      List.replicate 33 0 ++ (spelled payload.toList).map Bool.toNat := by
  rw [eventDigest, h, Option.getD_none, String.toList_ofList, bufferFromHex_hexBits,
    List.map_append]
  rfl

theorem eventDigest_known {payload digest : String}
    (h : eventDigests.lookup payload = some digest) :
    (payload, digest) ∈ eventDigests ∧ eventDigest payload = digest := by
  obtain ⟨before, after, heq, -⟩ := List.lookup_eq_some_iff.mp h
  constructor
  · rw [heq]
    simp
  · rw [eventDigest, h, Option.getD_some]

theorem eventServer_ideal : eventServer.IdealHmac := by
  have hshort : ∀ p ∈ eventDigests, (bufferFromHex p.2.toList).length = 32 := by decide +kernel
  constructor
  · intro payload hempty
    change bufferFromHex (eventDigest payload).toList = [] at hempty
    have hlength := congrArg List.length hempty
    cases hp : eventDigests.lookup payload with
    | some digest =>
      obtain ⟨hmem, heq⟩ := eventDigest_known hp
      have hsize := hshort _ hmem
      rw [heq, hsize] at hlength
      cases hlength
    | none =>
      rw [eventDigest_other hp] at hlength
      simp at hlength
  · intro payload payload' h
    change bufferFromHex (eventDigest payload).toList =
      bufferFromHex (eventDigest payload').toList at h
    have hapart : ∀ p ∈ eventDigests, ∀ q ∈ eventDigests,
        bufferFromHex p.2.toList = bufferFromHex q.2.toList → p.1 = q.1 := by decide +kernel
    have hlength := congrArg List.length h
    cases hp : eventDigests.lookup payload with
    | some digest =>
      obtain ⟨hmem, heq⟩ := eventDigest_known hp
      have hsize := hshort _ hmem
      cases hq : eventDigests.lookup payload' with
      | some digest' =>
        obtain ⟨hmem', heq'⟩ := eventDigest_known hq
        rw [heq, heq'] at h
        exact hapart _ hmem _ hmem' h
      | none =>
        rw [eventDigest_other hq, heq, hsize] at hlength
        simp at hlength
    | none =>
      cases hq : eventDigests.lookup payload' with
      | some digest' =>
        obtain ⟨hmem', heq'⟩ := eventDigest_known hq
        have hsize := hshort _ hmem'
        rw [eventDigest_other hp, heq', hsize] at hlength
        simp at hlength
      | none =>
        rw [eventDigest_other hp, eventDigest_other hq, List.append_cancel_left_eq] at h
        have htoNat : Function.Injective Bool.toNat := by
          intro a b
          cases a <;> cases b <;> simp
        have hbits := List.map_injective_iff.mpr htoNat h
        exact String.ext (spelled_injective hbits)

/-- `JSON` as far as it comes to `null` and to an object without fields. -/
def emptyJson : JsonText where
  parse text :=
    if text = "null" then some .null
    else if text = "\x7b\x7d" then some (.object [])
    else none
  stringify
    | .null => "null"
    | _ => "\x7b\x7d"
  parse_empty := by decide
  parse_stringify w := by
    cases w with
    | null => exact ⟨.null, rfl, rfl⟩
    | _ => exact ⟨.object [], rfl, rfl⟩

def eventTarget : Target where
  method := "POST"
  path := "/internal/cluster/event".toList
  upper := by decide
  oneLine := by decide
  internal := by decide
  plain := by decide

def eventRequest (body : Option Json) : Incoming where
  target := eventTarget
  url := "/internal/cluster/event"
  body := body
  path_eq := by decide

end GpuSharing.Sardeenz.ClusterAuth
