import ExchangeApiws.Native.RetryLoops

/-!
# Concurrent KuCoin calls

Translation of `src/auth.rs`, of `execute_with_retries` in `src/client.rs` and of the
server-time synchronisation of `src/rest/market.rs`, for any number of calls through any clones
of one `KuCoinClient`. The clones share the clock offset. Reading the offset, reading the clock
and signing, sending, receiving, waking up and storing a new offset are one step each, and
steps of different calls interleave freely. Calls are numbered by natural numbers and time is
counted in nanoseconds. HMAC-SHA256 is the parameter `hmac`, and `localMs` the local wall clock.
The floats of the backoff are rational numbers.
-/

namespace ExchangeApiws.Native.KucoinClient

open Kucoin RetryLoops

/-! ## Signing -/

/-- API credentials. -/
structure Credentials where
  key : String
  secret : String
  passphrase : String
  deriving DecidableEq, Repr

/-- A digit of the standard base64 alphabet. -/
def base64Char (n : ℕ) : Char :=
  if n < 26 then Char.ofNat (n + 65)
  else if n < 52 then Char.ofNat (n + 71)
  else if n < 62 then Char.ofNat (n - 4)
  else if n = 62 then '+'
  else '/'

/-- `B64.encode`, with padding. -/
def base64 : List UInt8 → List Char
  | [] => []
  | [a] => [base64Char (a.toNat / 4), base64Char (a.toNat % 4 * 16), '=', '=']
  | [a, b] =>
    [base64Char (a.toNat / 4), base64Char (a.toNat % 4 * 16 + b.toNat / 16),
      base64Char (b.toNat % 16 * 4), '=']
  | a :: b :: c :: rest =>
    base64Char (a.toNat / 4) :: base64Char (a.toNat % 4 * 16 + b.toNat / 16) ::
      base64Char (b.toNat % 16 * 4 + c.toNat / 64) :: base64Char (c.toNat % 64) :: base64 rest

/-- Compute `base64(HMAC-SHA256(key, message))`. -/
def hmacB64 (hmac : List UInt8 → List UInt8 → List UInt8) (key message : String) : String :=
  String.ofList (base64 (hmac (bytes key) (bytes message)))

/-- Local wall-clock in milliseconds, shifted by a signed offset. Saturates. -/
def skewedTimestampMs (localMs offsetMs : Int64) : Int64 :=
  Int64.ofIntClamp (localMs.toInt + offsetMs.toInt)

/-- What is signed: `ts + METHOD + endpoint + body`. -/
def prehash (ts method endpoint body : String) : String := ts ++ method.toUpper ++ endpoint ++ body

/-- Build the full signed header map for one request. -/
def buildHeadersWithOffset [HeaderValue] (hmac : List UInt8 → List UInt8 → List UInt8)
    (creds : Credentials) (method endpoint body : String) (localMs offsetMs : Int64) :
    Result (List (String × String)) := do
  let ts := toString (skewedTimestampMs localMs offsetMs)
  let sig := hmacB64 hmac creds.secret (prehash ts method endpoint body)
  let ppSig := hmacB64 hmac creds.secret creds.passphrase
  hv creds.key
  hv sig
  hv ts
  hv ppSig
  return [("KC-API-KEY", creds.key), ("KC-API-SIGN", sig), ("KC-API-TIMESTAMP", ts),
    ("KC-API-PASSPHRASE", ppSig), ("KC-API-KEY-VERSION", "2"),
    ("content-type", "application/json")]

/-! ## Calls -/

/-- What a call hands to `execute_with_retries`. -/
structure CallSpec where
  verb : String
  endpoint : String
  url : String
  body : Option String
  deriving DecidableEq, Repr

/-- The methods of the client, with their arguments; a body is already serialised. -/
inductive Method where
  | get (path : String) (params : List (String × String))
  | post (path body : String)
  | delete (endpoint : String)
  | put (path body : String)
  deriving DecidableEq, Repr

/-- What a method hands to `execute_with_retries`. `get` percent-encodes its parameters into the
    endpoint. -/
def Method.spec (baseUrl : String) : Method → CallSpec
  | .get path params =>
    let endpoint := path ++ buildQueryString params
    ⟨"GET", endpoint, baseUrl ++ endpoint, none⟩
  | .post path body => ⟨"POST", path, baseUrl ++ path, some body⟩
  | .delete endpoint => ⟨"DELETE", endpoint, baseUrl ++ endpoint, none⟩
  | .put path body => ⟨"PUT", path, baseUrl ++ path, some body⟩

/-- `get_server_time`. -/
def getServerTime : Method := .get "/api/v1/timestamp" []

/-- A request with its signed headers. -/
structure SignedRequest where
  verb : String
  url : String
  headers : List (String × String)
  body : Option String
  deriving DecidableEq, Repr

/-- The first half of the loop body: headers, then the verb, then the body. -/
def signRequest [HeaderValue] (hmac : List UInt8 → List UInt8 → List UInt8) (creds : Credentials)
    (spec : CallSpec) (localMs offsetMs : Int64) : Result SignedRequest := do
  let bodyStr := spec.body.getD ""
  let headers ← buildHeadersWithOffset hmac creds spec.verb spec.endpoint bodyStr localMs offsetMs
  if spec.verb ∈ ["GET", "POST", "DELETE", "PUT"] then
    return ⟨spec.verb, spec.url, headers, if bodyStr.isEmpty then none else some bodyStr⟩
  else
    throw (.config ("unsupported HTTP verb: " ++ spec.verb))

/-- `str::parse::<u64>`. -/
def parseU64 (s : String) : Option UInt64 :=
  if startsWith s "-" then none
  else (parseInt s).bind fun i => if i < 2 ^ 64 then some (UInt64.ofNat i.toNat) else none

/-- A response with the text of its `gw-ratelimit-reset` header. -/
structure Answer (F : Type) where
  response : Response F
  rateLimitReset : Option String

/-- `check_rate_limit`: how long to sleep after a 429, in milliseconds. -/
def resetMs (rateLimitReset : Option String) : UInt64 := (rateLimitReset.bind parseU64).getD 2000

/-- Default exponential back-off base, in seconds. -/
def DEFAULT_BACKOFF : ℚ := 3 / 2

/-- A ±25 % jitter for `base`; `nanos` is the sub-second part of the system time. -/
def jitterSecs (nanos : ℕ) (base : ℚ) : ℚ := base * ((nanos / 10 ^ 9 - 1 / 2) * (1 / 2))

/-- `Duration::from_secs_f64`: the nearest whole number of nanoseconds. -/
def fromSecs (secs : ℚ) : ℕ := ⌊secs * 10 ^ 9 + 1 / 2⌋₊

/-- The sleep after the network error of an attempt, in nanoseconds. -/
def backoffWait (attempt nanos : ℕ) : ℕ :=
  let base := DEFAULT_BACKOFF ^ (attempt + 1)
  fromSecs (max (base + jitterSecs nanos base) (1 / 10))

/-- A signed request with its timestamp, the time at which the clock was read for it, and the
    number of offsets that had been stored when the offset was read. -/
structure Stamped where
  request : SignedRequest
  timestamp : Int64
  signedAt : ℕ
  syncs : ℕ
  deriving DecidableEq, Repr

/-- Where a call stands. -/
inductive Phase (F : Type) where
  | notStarted
  /-- At the condition of the loop. -/
  | top
  /-- The offset is read, the clock is not. -/
  | loaded (offset : Int64) (syncs : ℕ)
  | signed (stamped : Stamped)
  | inFlight
  | sleeping (deadline : ℕ)
  /-- `sync_server_time` has the server's time and has yet to store the offset. -/
  | storing (offset : Int64) (response : Response F)
  /-- The loop is over: with an error, or with a response that is not a 429. -/
  | returned (result : Result (Response F))

/-- A call with the variables of its loop. `syncFrom` is the clock reading that
    `sync_server_time` made when it began, and `received` what came back so far, and when. -/
structure Call (F : Type) where
  spec : CallSpec
  startedAt : ℕ
  syncFrom : Option Int64
  lastErr : Option ExchangeError
  rateLimitHits : ℕ
  attempt : ℕ
  received : List (ℕ × Except String (Answer F))
  phase : Phase F

/-- A call that begins. -/
def Call.begin {F : Type} (spec : CallSpec) (startedAt : ℕ) (syncFrom : Option Int64) : Call F :=
  ⟨spec, startedAt, syncFrom, none, 0, 0, [], .top⟩

/-- What the clones of a client share, and what they read from outside: the clock at a time, and
    the text of `serde_json`'s error for a value that is not an `i64`. -/
structure Setting (F : Type) where
  hmac : List UInt8 → List UInt8 → List UInt8
  creds : Credentials
  baseUrl : String
  localMs : ℕ → Int64
  i64Error : Value F → String

variable {F : Type}

/-- `serde_json::from_value::<i64>`. -/
def Setting.i64FromValue (setting : Setting F) (v : Value F) : Except String Int64 :=
  match v.asI64 with
  | some i => .ok i
  | none => .error (setting.i64Error v)

/-- Where a call goes on with a response that is not a 429. -/
def Call.finish (setting : Setting F) (call : Call F) (response : Response F) : Phase F :=
  match call.syncFrom with
  | none => .returned (.ok response)
  | some localMs =>
    match unwrapResponse setting.i64FromValue response with
    | .ok serverMs => .storing (serverMs - localMs) response
    | .error _ => .returned (.ok response)

/-- The second half of the loop body, at time `now`. `nanos` is the sub-second part of the system
    time that the jitter reads; `none` if it is a second or more. -/
def Call.afterReceive (setting : Setting F) (call : Call F) (now nanos : ℕ) :
    Except String (Answer F) → Option (Call F)
  | .ok answer =>
    if answer.response.status = 429 then
      let call := { call with rateLimitHits := call.rateLimitHits + 1 }
      if call.rateLimitHits > MAX_RATE_LIMIT_RETRIES then
        some { call with phase := .returned (.error (.api "429" (call.spec.verb ++ " " ++
          call.spec.endpoint ++ " was rate-limited " ++ toString MAX_RATE_LIMIT_RETRIES ++
          " times; giving up"))) }
      else
        -- a rate-limit sleep does not use up the retry budget
        some { call with
          lastErr := some (.api "429" "rate limited")
          phase := .sleeping (now + (resetMs answer.rateLimitReset).toNat * 10 ^ 6) }
    else some { call with phase := call.finish setting answer.response }
  | .error e =>
    if call.attempt < DEFAULT_RETRIES - 1 then
      if nanos < 10 ^ 9 then
        some { call with
          lastErr := some (.http e)
          attempt := call.attempt + 1
          phase := .sleeping (now + backoffWait call.attempt nanos) }
      else none
    else some { call with phase := .returned (.error (.http e)) }

/-- The result of a call at its target type. -/
def Call.result {T : Type} (fromValue : Value F → Except String T) (call : Call F) :
    Option (Result T) :=
  match call.phase with
  | .returned result => some (result.bind (unwrapResponse fromValue))
  | _ => none

/-- A request on the wire. -/
structure Sending where
  call : ℕ
  sentAt : ℕ
  stamped : Stamped
  deriving DecidableEq, Repr

/-- The time, the shared offset with the number of times it was stored, the calls, and the
    requests in the order in which they are sent. -/
structure State (F : Type) where
  now : ℕ
  offset : Int64
  syncs : ℕ
  calls : ℕ → Call F
  wire : List Sending

/-- A new client. -/
def State.new (F : Type) : State F where
  now := 0
  offset := 0
  syncs := 0
  calls _ := { Call.begin ⟨"", "", "", none⟩ 0 none with phase := .notStarted }
  wire := []

inductive Action (F : Type) where
  | advance (nanos : ℕ)
  | start (call : ℕ) (method : Method)
  /-- `sync_server_time` or `refresh_server_time`. -/
  | startSync (call : ℕ)
  | load (call : ℕ)
  | sign (call : ℕ)
  | send (call : ℕ)
  | receive (call : ℕ) (outcome : Except String (Answer F)) (nanos : ℕ)
  | wake (call : ℕ)
  | store (call : ℕ)

/-- Replace a call. -/
def State.setCall (s : State F) (c : ℕ) (call : Call F) : State F :=
  { s with calls := Function.update s.calls c call }

/-- Put a call into another phase. -/
def State.setPhase (s : State F) (c : ℕ) (phase : Phase F) : State F :=
  s.setCall c { s.calls c with phase := phase }

/-- One step; `none` when the call is not there. -/
def step [HeaderValue] (setting : Setting F) (s : State F) : Action F → Option (State F)
  | .advance nanos => some { s with now := s.now + nanos }
  | .start c method =>
    match (s.calls c).phase with
    | .notStarted => some (s.setCall c (.begin (method.spec setting.baseUrl) s.now none))
    | _ => none
  | .startSync c =>
    match (s.calls c).phase with
    | .notStarted =>
      some (s.setCall c
        (.begin (getServerTime.spec setting.baseUrl) s.now (some (setting.localMs s.now))))
    | _ => none
  | .load c =>
    match (s.calls c).phase with
    | .top =>
      if (s.calls c).attempt < DEFAULT_RETRIES then some (s.setPhase c (.loaded s.offset s.syncs))
      else some (s.setPhase c (.returned (.error ((s.calls c).lastErr.getD (.api "retry_exhausted"
        ((s.calls c).spec.verb ++ " " ++ (s.calls c).spec.endpoint ++ " failed after " ++
          toString DEFAULT_RETRIES ++ " attempts"))))))
    | _ => none
  | .sign c =>
    match (s.calls c).phase with
    | .loaded offset syncs =>
      let localMs := setting.localMs s.now
      match signRequest setting.hmac setting.creds (s.calls c).spec localMs offset with
      | .error e => some (s.setPhase c (.returned (.error e)))
      | .ok request =>
        some (s.setPhase c (.signed ⟨request, skewedTimestampMs localMs offset, s.now, syncs⟩))
    | _ => none
  | .send c =>
    match (s.calls c).phase with
    | .signed stamped =>
      some { s.setPhase c .inFlight with wire := s.wire ++ [⟨c, s.now, stamped⟩] }
    | _ => none
  | .receive c outcome nanos =>
    match (s.calls c).phase with
    | .inFlight =>
      let call := { s.calls c with received := (s.calls c).received ++ [(s.now, outcome)] }
      (call.afterReceive setting s.now nanos outcome).map (s.setCall c)
    | _ => none
  | .wake c =>
    match (s.calls c).phase with
    | .sleeping deadline => if deadline ≤ s.now then some (s.setPhase c .top) else none
    | _ => none
  | .store c =>
    match (s.calls c).phase with
    | .storing offset response =>
      some { s.setPhase c (.returned (.ok response)) with offset := offset, syncs := s.syncs + 1 }
    | _ => none

end ExchangeApiws.Native.KucoinClient
