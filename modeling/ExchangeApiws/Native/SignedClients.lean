import ExchangeApiws.Native.Http

/-!
# Nonces of the signed clients

Translation of `next_nonce`, `next_id`, `sign_body` and `post` of `src/kraken/private.rs` and
`src/cryptocom/private.rs`, for any number of calls through any clones of one client. The
clones share the two counters. The `fetch_add` of the id, the reading of the clock, the
`fetch_max` and the `fetch_add` of the nonce, the send and its outcome are one step each;
steps of different calls interleave freely. Calls are numbered by natural numbers. Waiting
before a retry is left out: the next step of a call may come at any time.
-/

namespace ExchangeApiws.Native.SignedClients

/-- The two clients that mint nonces. -/
inductive Client where
  | kraken
  | cryptocom
  deriving DecidableEq, Repr

/-- `Utc::now().timestamp_millis().max(0)` as an unsigned number. -/
def floorMs (clock : Int64) : UInt64 := if clock < 0 then 0 else clock.toUInt64

/-- The nonce that `next_nonce` returns for the counter value it took: Crypto.com converts it
    with `i64::try_from(next).unwrap_or(i64::MAX)`. -/
def Client.nonceOf : Client → UInt64 → ℤ
  | .kraken, next => next.toNat
  | .cryptocom, next => if next.toNat < 2 ^ 63 then next.toNat else 2 ^ 63 - 1

/-- What a run of `sign_body` put into its request: id, nonce, and the reading of the clock
    that the nonce was minted from. -/
structure Signed where
  call : ℕ
  id : Option Int64
  clock : Int64
  nonce : ℤ
  deriving DecidableEq, Repr

/-- The atomic step that a run of `sign_body` takes next. -/
inductive SignStep where
  /-- `next_id.fetch_add(1)`, in the Crypto.com client. -/
  | nextId
  | readClock (id : Option Int64)
  /-- `nonce_state.fetch_max(now_ms)` -/
  | fetchMax (id : Option Int64) (clock : Int64)
  /-- `nonce_state.fetch_add(1)` -/
  | fetchAdd (id : Option Int64) (clock : Int64)
  deriving DecidableEq, Repr

/-- The first step of `sign_body`. -/
def Client.firstStep : Client → SignStep
  | .kraken => .readClock none
  | .cryptocom => .nextId

/-- Where a call of `post` stands. -/
inductive Phase where
  | notStarted
  /-- Signing: up front, where the body is thrown away, or for an attempt. -/
  | signing (upfront : Bool) (next : SignStep)
  /-- The request of an attempt is built and about to be sent. -/
  | signed (request : Signed)
  | inFlight
  | returned
  deriving DecidableEq, Repr

/-- A call of `post` with the variables of its `send_with_retry`. -/
structure Call where
  phase : Phase
  attempt : ℕ
  rateLimitHits : ℕ
  deriving DecidableEq, Repr

/-- What a send comes back with. -/
inductive Outcome where
  | networkError
  | rateLimited
  | response
  deriving DecidableEq, Repr

/-- What `send_with_retry` does with an outcome: build the next attempt or return. -/
def Call.afterSend (client : Client) (call : Call) : Outcome → Call
  | .networkError =>
    if call.attempt < DEFAULT_RETRIES - 1 then
      { call with phase := .signing false client.firstStep, attempt := call.attempt + 1 }
    else { call with phase := .returned }
  | .rateLimited =>
    if call.rateLimitHits + 1 > MAX_RATE_LIMIT_RETRIES then { call with phase := .returned }
    else
      { call with
        phase := .signing false client.firstStep
        rateLimitHits := call.rateLimitHits + 1 }
  | .response => { call with phase := .returned }

/-- The counters that the clones share, the calls, the nonces minted in the order of the
    `fetch_add` steps, and the requests in the order in which they are sent. -/
structure State where
  nonceState : UInt64
  nextId : Int64
  calls : ℕ → Call
  minted : List Signed
  sent : List Signed

/-- A new client. -/
def State.new : State where
  nonceState := 0
  nextId := 1
  calls _ := ⟨.notStarted, 0, 0⟩
  minted := []
  sent := []

inductive Action where
  | start (call : ℕ)
  | nextId (call : ℕ)
  | readClock (call : ℕ) (clock : Int64)
  | fetchMax (call : ℕ)
  | fetchAdd (call : ℕ)
  | send (call : ℕ)
  | receive (call : ℕ) (outcome : Outcome)
  deriving DecidableEq, Repr

/-- Put a call into another phase. -/
def State.setPhase (s : State) (call : ℕ) (phase : Phase) : State :=
  { s with calls := Function.update s.calls call { s.calls call with phase := phase } }

/-- Where a call goes on when it has signed. With a secret that does not decode, the signing
    up front ends the call. -/
def afterSigning (client : Client) (secretOk upfront : Bool) (request : Signed) : Phase :=
  if !secretOk then .returned
  else if upfront then .signing false client.firstStep
  else .signed request

/-- One step; `none` when the call is not there. -/
def step (client : Client) (secretOk : Bool) (s : State) : Action → Option State
  | .start call =>
    match (s.calls call).phase with
    | .notStarted => some (s.setPhase call (.signing true client.firstStep))
    | _ => none
  | .nextId call =>
    match (s.calls call).phase with
    | .signing upfront .nextId =>
      some { s.setPhase call (.signing upfront (.readClock (some s.nextId))) with
        nextId := s.nextId + 1 }
    | _ => none
  | .readClock call clock =>
    match (s.calls call).phase with
    | .signing upfront (.readClock id) =>
      some (s.setPhase call (.signing upfront (.fetchMax id clock)))
    | _ => none
  | .fetchMax call =>
    match (s.calls call).phase with
    | .signing upfront (.fetchMax id clock) =>
      some { s.setPhase call (.signing upfront (.fetchAdd id clock)) with
        nonceState := max s.nonceState (floorMs clock) }
    | _ => none
  | .fetchAdd call =>
    match (s.calls call).phase with
    | .signing upfront (.fetchAdd id clock) =>
      let request : Signed := ⟨call, id, clock, client.nonceOf s.nonceState⟩
      some { s.setPhase call (afterSigning client secretOk upfront request) with
        nonceState := s.nonceState + 1
        minted := s.minted ++ [request] }
    | _ => none
  | .send call =>
    match (s.calls call).phase with
    | .signed request => some { s.setPhase call .inFlight with sent := s.sent ++ [request] }
    | _ => none
  | .receive call outcome =>
    match (s.calls call).phase with
    | .inFlight =>
      some { s with
        calls := Function.update s.calls call ((s.calls call).afterSend client outcome) }
    | _ => none

end ExchangeApiws.Native.SignedClients
