import Mathlib.Data.List.Infix
import GpuSharing.Sardeenz.LaunchOptions

namespace GpuSharing.Sardeenz.ClusterAuth

open SavedLaunches (isWhiteSpace)

inductive AuthMode
  | none
  | simple
  | oauth
  deriving DecidableEq, Repr

/-- A header's value; a header that came more than once has several. -/
inductive HeaderValue
  | single (value : String)
  | multi (values : List String)
  deriving DecidableEq, Repr

/-- `body` is the parsed body as `JSON.stringify` writes it, `none` for one that is falsy. -/
structure HttpRequest where
  method : String
  url : String
  headers : List (String × HeaderValue)
  body : Option String
  deriving DecidableEq, Repr

structure Reply where
  code : Nat
  error : String
  deriving DecidableEq, Repr

/-- The configuration and what the server uses of its libraries: `sanitizeUrl` is the path the
router matches on, `authenticate` says that the request has a valid token, `replies` is what rate
limit, leader forwarding, parsing and validation answer before the handler's own hooks. -/
structure Server where
  authMode : AuthMode
  nodeEnv : String
  clusterSecret : String
  sanitizeUrl : String → Option (List Char)
  authenticate : HttpRequest → Bool
  replies : HttpRequest → Option Reply
  hmacSha256 : String → String → String

def HttpRequest.header (req : HttpRequest) (name : String) : Option HeaderValue :=
  req.headers.lookup name

def startsWith (url : List Char) (head : String) : Bool := head.toList.isPrefixOf url

/-- `url.split('?')[0]`. -/
def pathOf (url : String) : List Char := url.toList.takeWhile (· ≠ '?')

def SIGNATURE_HEADER : String := "x-cluster-signature"

def TIMESTAMP_HEADER : String := "x-cluster-timestamp"

def REPLAY_WINDOW_MS : Nat := 30000

def digits : List Char → Nat → Nat
  | [], n => n
  | c :: cs, n => if c.isDigit then digits cs (10 * n + (c.toNat - '0'.toNat)) else n

/-- `parseInt(s, 10)`, `none` for `NaN`. -/
def parseInt (s : String) : Option Int :=
  let unsigned (cs : List Char) : Option Int :=
    if (cs.head?.map Char.isDigit).getD false then some (digits cs 0) else none
  match s.toList.dropWhile isWhiteSpace with
  | '-' :: cs => (unsigned cs).map (- ·)
  | '+' :: cs => unsigned cs
  | cs => unsigned cs

def hexDigit (c : Char) : Option Nat :=
  if '0' ≤ c ∧ c ≤ '9' then some (c.toNat - '0'.toNat)
  else if 'a' ≤ c ∧ c ≤ 'f' then some (c.toNat - 'a'.toNat + 10)
  else if 'A' ≤ c ∧ c ≤ 'F' then some (c.toNat - 'A'.toNat + 10)
  else none

/-- `Buffer.from(s, 'hex')`: it ends before the first pair that is not hexadecimal. -/
def bufferFromHex : List Char → List Nat
  | a :: b :: cs => match hexDigit a, hexDigit b with
    | some x, some y => (16 * x + y) :: bufferFromHex cs
    | _, _ => []
  | _ => []

def toUpperCase (s : String) : String := String.ofList (s.toList.map Char.toUpper)

/-- What is signed. -/
def signedPayload (method : String) (path : List Char) (timestamp : Int) (body : String) : String :=
  toUpperCase method ++ "\n" ++ String.ofList path ++ "\n" ++ toString timestamp ++ "\n" ++ body

variable (V : Server)

def verifyRequest (now : Int) (method : String) (path : List Char) (body signature : String)
    (timestamp : Int) (secret : String) : Bool :=
  if REPLAY_WINDOW_MS < (now - timestamp).natAbs then false
  else
    let expected := V.hmacSha256 secret (signedPayload method path timestamp body)
    let sigBuf := bufferFromHex signature.toList
    let expectedBuf := bufferFromHex expected.toList
    if sigBuf.length ≠ expectedBuf.length then false else decide (sigBuf = expectedBuf)

def verifyRequestDualSecret (now : Int) (method : String) (path : List Char)
    (body signature : String) (timestamp : Int) (currentSecret : String)
    (previousSecret : Option String) : Bool :=
  if verifyRequest V now method path body signature timestamp currentSecret then true
  else match previousSecret with
  | some secret =>
    secret ≠ "" && verifyRequest V now method path body signature timestamp secret
  | none => false

/-- The `preHandler` hook of the plugin: a reply, or whether it has verified a signature. -/
def clusterAuth (now : Int) (req : HttpRequest) : Except Reply Bool :=
  if ¬startsWith req.url.toList "/internal/" then .ok false
  else if V.clusterSecret = "" then .ok false
  else match req.header SIGNATURE_HEADER with
  | some (.single signature) =>
    if signature = "" then .error ⟨401, "Missing X-Cluster-Signature header"⟩
    else match req.header TIMESTAMP_HEADER with
    | some (.single timestampStr) =>
      if timestampStr = "" then .error ⟨401, "Missing X-Cluster-Timestamp header"⟩
      else match parseInt timestampStr with
      | none => .error ⟨401, "Invalid X-Cluster-Timestamp header"⟩
      | some timestamp =>
        if verifyRequestDualSecret V now req.method (pathOf req.url) (req.body.getD "") signature
            timestamp V.clusterSecret none then .ok true
        else .error ⟨401, "Invalid cluster signature"⟩
    | _ => .error ⟨401, "Missing X-Cluster-Timestamp header"⟩
  | _ => .error ⟨401, "Missing X-Cluster-Signature header"⟩

def PUBLIC_ROUTE_PREFIXES : List String := ["/api/health", "/api/auth", "/docs", "/metrics"]

def INFERENCE_ROUTE_PREFIXES : List String :=
  ["/v1/", "/tokenize", "/detokenize", "/pooling", "/classification", "/score", "/re-rank",
    "/api/direct/"]

def isPublicRoute (url : String) : Bool := PUBLIC_ROUTE_PREFIXES.any (startsWith (pathOf url))

def isInferenceRoute (url : String) : Bool :=
  INFERENCE_ROUTE_PREFIXES.any (startsWith (pathOf url))

/-- The server's own `onRequest` hook. -/
def adminAuth (req : HttpRequest) : Option Reply :=
  if V.authMode = .none ∨ isPublicRoute req.url ∨ isInferenceRoute req.url ∨
      startsWith req.url.toList "/internal/" ∨ "auth_error=".toList <:+: req.url.toList ∨
      (V.nodeEnv = "production" ∧ ¬startsWith req.url.toList "/api/") ∨ V.authenticate req then
    none
  else some ⟨401, "Unauthorized"⟩

/-- What answers a request before the hooks of its handler. -/
def earlier (req : HttpRequest) : Option Reply := (adminAuth V req).or (V.replies req)

/-- The handlers registered under `/internal`. -/
def internalRoutes : List (String × String) :=
  [("GET", "/internal/ping"), ("POST", "/internal/heartbeat"), ("GET", "/internal/state"),
    ("POST", "/internal/cluster/event"), ("POST", "/internal/models/load"),
    ("POST", "/internal/models/:id/unload"), ("GET", "/internal/models/:id/events"),
    ("POST", "/internal/presets/sync"), ("GET", "/internal/memory-profiles"),
    ("POST", "/internal/memory-profiles"), ("GET", "/internal/gpu/available"),
    ("GET", "/internal/memory/multi-gpu"), ("GET", "/internal/gpu/info"),
    ("GET", "/internal/models"), ("POST", "/internal/models/:id/sleep"),
    ("POST", "/internal/models/:id/wake"), ("GET", "/internal/models/:id/logs"),
    ("GET", "/internal/moves/:moveId/events")]

def segments (path : List Char) : List (List Char) := path.splitOn '/'

/-- A parameter stands for one segment that is not empty. -/
def matchesSegment (pattern segment : List Char) : Bool :=
  if pattern.head? = some ':' then !segment.isEmpty else decide (pattern = segment)

def matchesPath (pattern : String) (path : List Char) : Bool :=
  (segments pattern.toList).length = (segments path).length &&
    ((segments pattern.toList).zip (segments path)).all fun s => matchesSegment s.1 s.2

/-- The handler under `/internal` that the router dispatches to, on the decoded path. A `HEAD` goes
to the handler of its `GET`. -/
def route (req : HttpRequest) : Option (String × String) :=
  (V.sanitizeUrl req.url).bind fun path => internalRoutes.find? fun r =>
    (req.method = r.1 || (req.method = "HEAD" && r.1 = "GET")) && matchesPath r.2 path

inductive Outcome
  | notFound
  | replied (reply : Reply)
  | ran (handler : String × String)
  deriving DecidableEq, Repr

/-- How a request ends, and whether the hook had verified its signature by then. -/
structure Served where
  verified : Bool
  outcome : Outcome
  deriving DecidableEq, Repr

/-- The way of a request through the server: a reply ends it. -/
def serve (now : Int) (req : HttpRequest) : Served :=
  match route V req with
  | none => ⟨false, .notFound⟩
  | some handler =>
    match earlier V req with
    | some reply => ⟨false, .replied reply⟩
    | none =>
      match clusterAuth V now req with
      | .error reply => ⟨false, .replied reply⟩
      | .ok verified => ⟨verified, .ran handler⟩

/-- The signature header is the HMAC of the request under the secret, in hexadecimal, and the
timestamp header, which it covers, is recent. -/
def Signed (now : Int) (req : HttpRequest) : Prop :=
  ∃ signature timestampStr timestamp,
    req.header SIGNATURE_HEADER = some (.single signature) ∧
    req.header TIMESTAMP_HEADER = some (.single timestampStr) ∧
    parseInt timestampStr = some timestamp ∧ (now - timestamp).natAbs ≤ REPLAY_WINDOW_MS ∧
    bufferFromHex signature.toList = bufferFromHex (V.hmacSha256 V.clusterSecret
      (signedPayload req.method (pathOf req.url) timestamp (req.body.getD ""))).toList

variable {V}

theorem verifyRequest_spec {now timestamp : Int} {method body signature secret : String}
    {path : List Char} :
    verifyRequest V now method path body signature timestamp secret = true ↔
      (now - timestamp).natAbs ≤ REPLAY_WINDOW_MS ∧ bufferFromHex signature.toList =
        bufferFromHex (V.hmacSha256 secret (signedPayload method path timestamp body)).toList := by
  unfold verifyRequest
  by_cases hage : REPLAY_WINDOW_MS < (now - timestamp).natAbs
  · rw [if_pos hage]
    simp only [Bool.false_eq_true, false_iff, not_and]
    intro hle
    exact absurd hle (not_le.mpr hage)
  · rw [if_neg hage]
    dsimp only
    have hle := not_lt.mp hage
    split_ifs with hlen
    · simp only [false_iff, not_and]
      intro _ heq
      exact hlen (congrArg List.length heq)
    · rw [decide_eq_true_iff]
      exact ⟨fun heq => ⟨hle, heq⟩, fun h => h.2⟩

/-- The hook lets a guarded request pass only when it has verified its signature. -/
theorem clusterAuth_guarded {now : Int} {req : HttpRequest} {verified : Bool}
    (hsecret : V.clusterSecret ≠ "") (hurl : startsWith req.url.toList "/internal/" = true)
    (h : clusterAuth V now req = .ok verified) : verified = true ∧ Signed V now req := by
  unfold clusterAuth at h
  rw [if_neg (not_not.mpr hurl), if_neg hsecret] at h
  split at h
  case h_2 => cases h
  case h_1 signature hsignature =>
    split_ifs at h
    split at h
    case h_2 => cases h
    case h_1 timestampStr htimestampStr =>
      split_ifs at h
      split at h
      case h_1 => cases h
      case h_2 timestamp htimestamp =>
        split_ifs at h with hverify
        cases h
        have hsingle : verifyRequest V now req.method (pathOf req.url) (req.body.getD "") signature
            timestamp V.clusterSecret = true := by
          simpa [verifyRequestDualSecret] using hverify
        obtain ⟨hage, hhmac⟩ := verifyRequest_spec.mp hsingle
        exact ⟨rfl, signature, timestampStr, timestamp, hsignature, htimestampStr, htimestamp, hage,
          hhmac⟩

theorem clusterAuth_unguarded {now : Int} {req : HttpRequest}
    (hurl : startsWith req.url.toList "/internal/" = false) : clusterAuth V now req = .ok false := by
  unfold clusterAuth
  rw [if_pos (by simp [hurl])]

/-- A request for a handler under `/internal` is verified before the handler runs exactly when its
url begins with `/internal/` as it was sent, or nothing runs because an earlier stage replies. -/
theorem verified_first_iff (V : Server) (now : Int) (req : HttpRequest) (handler : String × String)
    (hsecret : V.clusterSecret ≠ "") (hroute : route V req = some handler) :
    ((serve V now req).outcome = .ran handler →
      (serve V now req).verified = true ∧ Signed V now req) ↔
      startsWith req.url.toList "/internal/" = true ∨ earlier V req ≠ none := by
  unfold serve
  rw [hroute]
  cases hearlier : earlier V req with
  | some reply => simp
  | none =>
    simp only [ne_eq, not_true_eq_false, or_false]
    cases hurl : startsWith req.url.toList "/internal/" with
    | false =>
      rw [clusterAuth_unguarded hurl]
      simp
    | true =>
      simp only [iff_true]
      intro hran
      cases hauth : clusterAuth V now req with
      | error reply =>
        rw [hauth] at hran
        cases hran
      | ok verified => exact clusterAuth_guarded hsecret hurl hauth

/-- The escapes that `decodeURI` leaves alone. -/
def reservedChars : List Char := "#$&+,/:;=?@".toList

/-- `decodeURI`, for escapes of ASCII characters. -/
def decodeURI : List Char → Option (List Char)
  | [] => some []
  | '%' :: a :: b :: cs => match hexDigit a, hexDigit b with
    | some x, some y =>
      if 128 ≤ 16 * x + y then none
      else if Char.ofNat (16 * x + y) ∈ reservedChars then
        (decodeURI cs).map fun rest => '%' :: a :: b :: rest
      else (decodeURI cs).map fun rest => Char.ofNat (16 * x + y) :: rest
    | _, _ => none
  | '%' :: _ => none
  | c :: cs => (decodeURI cs).map (c :: ·)

/-- The path that find-my-way matches on: without origin, query and fragment, and decoded. -/
def findMyWay (url : String) : Option (List Char) :=
  let path := if url.toList.head? = some '/' then url.toList
    else if startsWith url.toList "http://" then (url.toList.drop 7).dropWhile (· ≠ '/')
    else if startsWith url.toList "https://" then (url.toList.drop 8).dropWhile (· ≠ '/')
    else url.toList
  decodeURI (path.takeWhile fun c => c ≠ '?' ∧ c ≠ '#')

theorem decodeURI_plain {cs : List Char} (h : '%' ∉ cs) : decodeURI cs = some cs := by
  induction cs with
  | nil => rfl
  | cons c cs ih =>
    obtain ⟨hc, hcs⟩ := not_or.mp (mt List.mem_cons.mpr h)
    unfold decodeURI
    split
    case h_1 heq => cases heq
    case h_2 heq =>
      cases heq
      exact absurd rfl hc
    case h_3 heq =>
      cases heq
      exact absurd rfl hc
    case h_4 heq =>
      cases heq
      rw [ih hcs]
      rfl

/-- Every pattern begins with `/internal/`. -/
theorem segments_internalRoutes : ∀ r ∈ internalRoutes,
    (segments r.2.toList).take 2 = [[], "internal".toList] ∧ 2 < (segments r.2.toList).length := by
  decide +kernel

theorem matchesPath_prefix {pattern : String} {path : List Char}
    (hpattern : (segments pattern.toList).take 2 = [[], "internal".toList] ∧
      2 < (segments pattern.toList).length)
    (h : matchesPath pattern path = true) : startsWith path "/internal/" = true := by
  obtain ⟨htake, hlong⟩ := hpattern
  unfold matchesPath at h
  generalize segments pattern.toList = ps at htake hlong h
  obtain ⟨hlen, hall⟩ := Bool.and_eq_true_iff.mp h
  have hjoin : ['/'].intercalate (segments path) = path := List.intercalate_splitOn ..
  match ps, hps : segments path, htake, hlong with
  | p :: q :: r :: ps, [], _, _ | p :: q :: r :: ps, [_], _, _ | p :: q :: r :: ps, [_, _], _, _ =>
    rw [hps] at hlen
    simp at hlen
  | p :: q :: r :: ps, a :: b :: c :: qs, htake, _ =>
    obtain ⟨rfl, rfl⟩ : p = [] ∧ q = "internal".toList := by simpa using htake
    rw [hps] at hall hjoin
    simp only [List.zip_cons_cons, List.all_cons, Bool.and_eq_true] at hall
    obtain ⟨ha, hb, -⟩ := hall
    obtain rfl : a = [] := by simpa [matchesSegment, eq_comm] using ha
    obtain rfl : b = "internal".toList := by simpa [matchesSegment, eq_comm] using hb
    rw [startsWith, List.isPrefixOf_iff_prefix, ← hjoin]
    exact ⟨(List.intersperse ['/'] (c :: qs)).flatten, rfl⟩

/-- Over find-my-way only a url with an escape or an origin can get past the hook. -/
theorem plain_url_guarded (hrouter : V.sanitizeUrl = findMyWay) {req : HttpRequest}
    {handler : String × String} (hroute : route V req = some handler)
    (hslash : req.url.toList.head? = some '/') (hplain : '%' ∉ req.url.toList) :
    startsWith req.url.toList "/internal/" = true := by
  have hsub := List.takeWhile_prefix (l := req.url.toList) fun c => c ≠ '?' ∧ c ≠ '#'
  have hpath : findMyWay req.url = some (req.url.toList.takeWhile fun c => c ≠ '?' ∧ c ≠ '#') := by
    rw [findMyWay, if_pos hslash]
    exact decodeURI_plain fun hin => hplain (hsub.subset hin)
  rw [route, hrouter, hpath, Option.bind_some] at hroute
  have hmatch := List.find?_some hroute
  have hprefix := matchesPath_prefix (segments_internalRoutes _ (List.mem_of_find?_eq_some hroute))
    (Bool.and_eq_true_iff.mp hmatch).2
  rw [startsWith, List.isPrefixOf_iff_prefix] at hprefix ⊢
  exact hprefix.trans hsub

def pingSignature : String :=
  "ea87206b7f32736a1f16edd92f63c3c4ea3c1bfe9e57bd745aa0474a31c7f386"

/-- A pod with a secret and JWT authentication for its admin routes. -/
def securedServer : Server where
  authMode := .simple
  nodeEnv := "development"
  clusterSecret := "0123456789abcdef"
  sanitizeUrl := findMyWay
  authenticate _ := false
  replies _ := none
  hmacSha256 secret payload :=
    if secret = "0123456789abcdef" ∧ payload = "GET\n/internal/ping\n1700000000000\n" then
      pingSignature
    else ""

def signedPing : HttpRequest where
  method := "GET"
  url := "/internal/ping"
  headers := [("x-cluster-signature", .single pingSignature),
    ("x-cluster-timestamp", .single "1700000000000")]
  body := none

/-- `%69` is an `i`. -/
def escapedState : HttpRequest where
  method := "GET"
  url := "/%69nternal/state?auth_error="
  headers := []
  body := none

theorem verified_first_signedPing :
    ((serve securedServer 1700000000500 signedPing).outcome = .ran ("GET", "/internal/ping") →
      (serve securedServer 1700000000500 signedPing).verified = true ∧
        Signed securedServer 1700000000500 signedPing) ∧
    (serve securedServer 1700000000500 signedPing).outcome = .ran ("GET", "/internal/ping") ∧
    ¬((serve securedServer 0 escapedState).outcome = .ran ("GET", "/internal/state") →
      (serve securedServer 0 escapedState).verified = true ∧
        Signed securedServer 0 escapedState) := by
  refine ⟨?_, by decide +kernel, ?_⟩
  · exact (verified_first_iff securedServer 1700000000500 signedPing _ (by decide)
      (by decide +kernel)).mpr (.inl (by decide))
  · exact mt (verified_first_iff securedServer 0 escapedState _ (by decide)
      (by decide +kernel)).mp (by decide +kernel)

/-- The handler runs without a signature although a secret is configured. -/
theorem escapedState_unverified : securedServer.clusterSecret ≠ "" ∧
    serve securedServer 0 escapedState = ⟨false, .ran ("GET", "/internal/state")⟩ := by
  decide +kernel

end GpuSharing.Sardeenz.ClusterAuth
