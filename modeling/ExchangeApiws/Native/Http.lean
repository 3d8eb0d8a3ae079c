import ExchangeApiws.Native.Error

/-!
# HTTP calls with retries

Translation of the retry loop of `src/http.rs` and `src/client.rs`. The loop is written
three times in the source with the same conditions, counters and texts, so it is one
definition here. The network enters as the list of outcomes of the successive sends; waiting
takes no part in what is sent or returned and is left out.
-/

namespace ExchangeApiws.Native

/-- Default number of HTTP retry attempts for transient failures. -/
def DEFAULT_RETRIES : ℕ := 3

/-- Cap on consecutive 429 sleeps per call. -/
def MAX_RATE_LIMIT_RETRIES : ℕ := 5

/-- What of a response the clients read. Reading the body can fail with a transport error
    and decoding it with a decoding error. -/
structure Response (F : Type) where
  status : ℕ
  text : Except String String
  json : Except String (Value F)

/-- `StatusCode::is_success`. -/
def Response.isSuccess {F : Type} (resp : Response F) : Bool :=
  200 ≤ resp.status && resp.status < 300

/-- The parameters of a request: a query or form of pairs, or a JSON body. -/
inductive Params (F : Type) where
  | form (pairs : List (String × String))
  | json (body : Value F)

/-- A text field of a request's parameters. -/
def Params.field {F : Type} (params : Params F) (name : String) : Option String :=
  match params with
  | .form pairs => pairs.lookup name
  | .json body => (body.get name).bind Value.asStr

/-- A signed request. `stamp` holds the fields that are minted for each attempt
    (timestamp, nonce, request id). The signature, which is computed from the other fields
    and the secret, is left out. -/
structure Request (F : Type) where
  path : String
  stamp : List (String × ℤ)
  params : Params F

/-- A call that has come back: its result and the requests it sent, in order. -/
structure Sent (F T : Type) where
  result : Result T
  requests : List (Request F)

/-- Continue with the value of a call that succeeded. -/
def Sent.andThen {F T U : Type} (sent : Sent F T) (f : T → Result U) : Sent F U where
  result := sent.result.bind f
  requests := sent.requests

/-- Put a request in front of those of a call. -/
def Sent.after {F T : Type} (request : Request F) (sent : Sent F T) : Sent F T :=
  { sent with requests := request :: sent.requests }

variable {F : Type}

/-- The retry loop. `headers` is computed before each send, `build` gives the request of
    the next send, and `outcomes` are what the sends come back with; `none` when the call is
    still waiting at the end of the list. Returns the first response that is not a 429. -/
def retryLoop (label : String) (headers : Result Unit) (retries : ℕ) (build : ℕ → Request F) :
    List (Except String (Response F)) → ℕ → ℕ → Option ExchangeError → Option (Sent F (Response F))
  | outcomes, attempt, rateLimitHits, lastErr =>
    if attempt < retries then
      match headers with
      | .error e => some ⟨.error e, []⟩
      | .ok () =>
        match outcomes with
        | [] => none
        | outcome :: rest =>
          Option.map (Sent.after (build (attempt + rateLimitHits))) <|
            match outcome with
            | .error e =>
              if attempt < retries - 1 then
                retryLoop label headers retries build rest (attempt + 1) rateLimitHits
                  (some (.http e))
              else some ⟨.error (.http e), []⟩
            | .ok resp =>
              if resp.status = 429 then
                if rateLimitHits + 1 > MAX_RATE_LIMIT_RETRIES then
                  some ⟨.error (.api "429" (label ++ " was rate-limited " ++
                    toString MAX_RATE_LIMIT_RETRIES ++ " times; giving up")), []⟩
                else
                  -- a rate-limit sleep does not use up the retry budget
                  retryLoop label headers retries build rest attempt (rateLimitHits + 1)
                    (some (.api "429" "rate limited"))
              else some ⟨.ok resp, []⟩
    else
      some ⟨.error (lastErr.getD (.api "retry_exhausted"
        (label ++ " failed after " ++ toString retries ++ " attempts"))), []⟩

/-- `send_with_retry`: the request is built, and so stamped and signed, for each attempt. -/
def sendWithRetry (label : String) (build : ℕ → Request F)
    (outcomes : List (Except String (Response F))) : Option (Sent F (Response F)) :=
  retryLoop label (.ok ()) DEFAULT_RETRIES build outcomes 0 0 none

end ExchangeApiws.Native
