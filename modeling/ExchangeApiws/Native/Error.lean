import ExchangeApiws.Native.Json

/-!
# Errors

Translation of `src/error.rs`: the crate's error type and the triage of exchange errors
that callers act on. The payloads of third-party errors are kept as their text.
-/

namespace ExchangeApiws.Native

/-- All errors the crate can return. -/
inductive ExchangeError where
  /-- HTTP transport error from `reqwest`. -/
  | http (error : String)
  /-- WebSocket transport error from `tungstenite`. -/
  | webSocket (error : String)
  /-- JSON serialization or deserialization error. -/
  | json (error : String)
  /-- The exchange returned a non-success response code. -/
  | api (code message : String)
  | auth (message : String)
  | config (message : String)
  | order (message : String)
  /-- The WebSocket feed gave up after exhausting all reconnect attempts. -/
  | wsDisconnected (url : String) (attempts : UInt32)
  | insufficientData (message : String)
  | other (message : String)
  deriving DecidableEq, Repr

/-- `Result<T, ExchangeError>`. -/
abbrev Result (α : Type) := Except ExchangeError α

/-- How a caller should react to an error. -/
inductive ErrorClass where
  /-- Transient: safe to retry the same request after a backoff. -/
  | retriable
  /-- Permanent for this request. -/
  | fatal
  /-- Unknown outcome: a submit may or may not have reached the matching engine. -/
  | ambiguous (clientOid : Option String)
  deriving DecidableEq, Repr

/-- Retriable KuCoin and gateway codes, apart from rate limits and clock skew. -/
def isRetriableCode (code : String) : Bool :=
  ["100001", "100002", "200002", "300001", "500000", "502", "503", "504"].contains code ||
    startsWith code "5"

namespace ExchangeError

/-- The code of an `api` error. -/
def kucoinCode : ExchangeError → Option String
  | .api code _ => some code
  | _ => none

/-- The exchange rate-limited this request. -/
def isRateLimited (e : ExchangeError) : Bool :=
  e.kucoinCode == some "429" || e.kucoinCode == some "429000"

/-- A timestamp or clock-skew rejection. -/
def isClockSkew (e : ExchangeError) : Bool :=
  e.kucoinCode == some "400002" || e.kucoinCode == some "400003"

/-- Retrying the identical request could plausibly succeed. -/
def isRetriable : ExchangeError → Bool
  | .http _ => true
  | .wsDisconnected _ _ => true
  | .api code message =>
    isRetriableCode code || (api code message).isRateLimited || (api code message).isClockSkew
  | _ => false

/-- A KuCoin duplicate-`clientOid` rejection: an earlier submit of the same `clientOid`
    already reached the engine. -/
def isDuplicateClientOid : ExchangeError → Bool
  | .api code message =>
    let m := String.ofList (message.toList.map Char.toLower)
    (code == "400100" || code == "300005" || code == "100004") &&
      contains m "clientoid" && (contains m "duplicate" || contains m "exist")
  | _ => false

/-- Triage of an error of a read, query or cancel. -/
def classify (e : ExchangeError) : ErrorClass :=
  if e.isRetriable then .retriable else .fatal

/-- Triage of an error of an order submit that used `clientOid`. -/
def classifySubmit (e : ExchangeError) (clientOid : String) : ErrorClass :=
  match e with
  | .http _ => .ambiguous (some clientOid)
  | .api code message =>
    if (api code message).isDuplicateClientOid then .ambiguous (some clientOid)
    else (api code message).classify
  | _ => e.classify

/-- A submit error is `Ambiguous` exactly when it is a transport error or a duplicate
    rejection, and then it carries the submit's `clientOid`. -/
theorem classifySubmit_eq_ambiguous_iff (e : ExchangeError) (clientOid : String) :
    e.classifySubmit clientOid = .ambiguous (some clientOid) ↔
      (∃ error, e = .http error) ∨ e.isDuplicateClientOid = true := by
  have hclassify : ∀ e : ExchangeError, e.classify ≠ .ambiguous (some clientOid) := by
    intro e
    unfold classify
    split <;> simp
  cases e with
  | http error => simp [classifySubmit]
  | api code message =>
    simp only [classifySubmit]
    split
    · simp [*]
    · simp [*]
  | _ => simp [classifySubmit, isDuplicateClientOid, hclassify]

end ExchangeError

end ExchangeApiws.Native
