import ExchangeApiws.Native.KucoinRest

/-!
# The three retry loops

`src/http.rs` and `src/client.rs` write the retry loop three times: in
`PublicRestClient::get`, in `send_with_retry` and in `KuCoinClient::execute_with_retries`.
Here each of them is translated on its own, with the variables it declares and with the
requests that it builds and sends. The outcomes of the successive sends come from a list, and
a loop that waits for an outcome at the end of it returns `none`. Waiting before a retry is left
out.
-/

namespace ExchangeApiws.Native.RetryLoops

/-- The variables of a loop, with the requests built and the requests sent so far. -/
structure LoopState (R : Type) where
  lastErr : Option ExchangeError
  rateLimitHits : ℕ
  attempt : ℕ
  built : List R
  sent : List R

/-- The variables before the first pass. -/
def LoopState.start (R : Type) : LoopState R := ⟨none, 0, 0, [], []⟩

/-- Run the request builder. -/
def LoopState.build {R : Type} (s : LoopState R) (request : R) : LoopState R :=
  { s with built := s.built ++ [request] }

/-- Send a request that was built. -/
def LoopState.send {R : Type} (s : LoopState R) (request : R) : LoopState R :=
  { s with sent := s.sent ++ [request] }

/-- A call that has come back. `fellThrough` marks the error after the loop. -/
structure Ended (R T : Type) where
  result : Result T
  built : List R
  sent : List R
  fellThrough : Bool

/-- Return from inside the loop. -/
def LoopState.return {R T : Type} (s : LoopState R) (result : Result T) : Ended R T :=
  ⟨result, s.built, s.sent, false⟩

/-- The error after the loop. -/
def LoopState.fallThrough {R : Type} (s : LoopState R) (T : Type) (label : String) (retries : ℕ) :
    Ended R T :=
  ⟨.error (s.lastErr.getD (.api "retry_exhausted"
    (label ++ " failed after " ++ toString retries ++ " attempts"))), s.built, s.sent, true⟩

variable {F T : Type}

/-- What `get` makes of a response that is not a 429. -/
def decodeResponse (fromJson : Value F → Except String T) (resp : Response F) : Result T :=
  if !resp.isSuccess then
    .error (.api (toString resp.status) (match resp.text with
      | .ok text => text
      | .error _ => "no body"))
  else
    (resp.json.bind fromJson).mapError .http

/-- The loop of `PublicRestClient::get`; `url` is base URL, path and query string. -/
def getLoop (url path : String) (fromJson : Value F → Except String T) :
    List (Except String (Response F)) → LoopState String → Option (Ended String T)
  | outcomes, s =>
    if s.attempt < DEFAULT_RETRIES then
      let s := (s.build url).send url
      match outcomes with
      | [] => none
      | .error e :: rest =>
        if s.attempt < DEFAULT_RETRIES - 1 then
          getLoop url path fromJson rest
            { s with lastErr := some (.http e), attempt := s.attempt + 1 }
        else some (s.return (.error (.http e)))
      | .ok resp :: rest =>
        if resp.status = 429 then
          let s := { s with rateLimitHits := s.rateLimitHits + 1 }
          if s.rateLimitHits > MAX_RATE_LIMIT_RETRIES then
            some (s.return (.error (.api "429" ("GET " ++ path ++ " was rate-limited " ++
              toString MAX_RATE_LIMIT_RETRIES ++ " times; giving up"))))
          else
            getLoop url path fromJson rest
              { s with lastErr := some (.api "429" "rate limited") }
        else some (s.return (decodeResponse fromJson resp))
    else some (s.fallThrough T ("GET " ++ path) DEFAULT_RETRIES)

/-- `PublicRestClient::get`. -/
def get (url path : String) (fromJson : Value F → Except String T)
    (outcomes : List (Except String (Response F))) : Option (Ended String T) :=
  getLoop url path fromJson outcomes (LoopState.start String)

/-- The loop of `send_with_retry`; `build n` is what the `n`-th run of the closure returns. -/
def sendLoop {R : Type} (label : String) (build : ℕ → R) :
    List (Except String (Response F)) → LoopState R → Option (Ended R (Response F))
  | outcomes, s =>
    if s.attempt < DEFAULT_RETRIES then
      let request := build s.built.length
      let s := (s.build request).send request
      match outcomes with
      | [] => none
      | .error e :: rest =>
        if s.attempt < DEFAULT_RETRIES - 1 then
          sendLoop label build rest
            { s with lastErr := some (.http e), attempt := s.attempt + 1 }
        else some (s.return (.error (.http e)))
      | .ok resp :: rest =>
        if resp.status = 429 then
          let s := { s with rateLimitHits := s.rateLimitHits + 1 }
          if s.rateLimitHits > MAX_RATE_LIMIT_RETRIES then
            some (s.return (.error (.api "429" (label ++ " was rate-limited " ++
              toString MAX_RATE_LIMIT_RETRIES ++ " times; giving up"))))
          else
            sendLoop label build rest { s with lastErr := some (.api "429" "rate limited") }
        else some (s.return (.ok resp))
    else some (s.fallThrough (Response F) label DEFAULT_RETRIES)

/-- `send_with_retry`. -/
def sendWithRetry {R : Type} (label : String) (build : ℕ → R)
    (outcomes : List (Except String (Response F))) : Option (Ended R (Response F)) :=
  sendLoop label build outcomes (LoopState.start R)

/-- A request of the KuCoin client. The signatures among its headers are left out. -/
structure KucoinRequest where
  verb : String
  url : String
  key : String
  timestamp : ℤ
  body : Option String
  deriving DecidableEq, Repr

/-- The first half of the loop body of `execute_with_retries`: headers, then the verb, then
    the body. -/
def buildRequest [Kucoin.HeaderValue] (key verb url : String) (body : Option String)
    (timestamp : ℤ) : Result KucoinRequest :=
  match Kucoin.buildHeaders key with
  | .error e => .error e
  | .ok () =>
    if verb ∈ ["GET", "POST", "DELETE", "PUT"] then
      let bodyStr := body.getD ""
      .ok ⟨verb, url, key, timestamp, if bodyStr.isEmpty then none else some bodyStr⟩
    else .error (.config ("unsupported HTTP verb: " ++ verb))

/-- The loop of `execute_with_retries`; `timestamp n` stamps the `n`-th request. -/
def executeLoop [Kucoin.HeaderValue] (key verb endpoint url : String) (body : Option String)
    (retries : ℕ) (timestamp : ℕ → ℤ) (fromValue : Value F → Except String T) :
    List (Except String (Response F)) → LoopState KucoinRequest → Option (Ended KucoinRequest T)
  | outcomes, s =>
    if s.attempt < retries then
      match buildRequest key verb url body (timestamp s.built.length) with
      | .error e => some (s.return (.error e))
      | .ok request =>
        let s := (s.build request).send request
        match outcomes with
        | [] => none
        | .ok resp :: rest =>
          if resp.status = 429 then
            let s := { s with rateLimitHits := s.rateLimitHits + 1 }
            if s.rateLimitHits > MAX_RATE_LIMIT_RETRIES then
              some (s.return (.error (.api "429" (verb ++ " " ++ endpoint ++
                " was rate-limited " ++ toString MAX_RATE_LIMIT_RETRIES ++
                " times; giving up"))))
            else
              executeLoop key verb endpoint url body retries timestamp fromValue rest
                { s with lastErr := some (.api "429" "rate limited") }
          else some (s.return (Kucoin.unwrapResponse fromValue resp))
        | .error e :: rest =>
          if s.attempt < retries - 1 then
            executeLoop key verb endpoint url body retries timestamp fromValue rest
              { s with lastErr := some (.http e), attempt := s.attempt + 1 }
          else some (s.return (.error (.http e)))
    else some (s.fallThrough T (verb ++ " " ++ endpoint) retries)

/-- `KuCoinClient::execute_with_retries`. -/
def executeWithRetries [Kucoin.HeaderValue] (key verb endpoint url : String)
    (body : Option String) (retries : ℕ) (timestamp : ℕ → ℤ) (fromValue : Value F → Except String T)
    (outcomes : List (Except String (Response F))) : Option (Ended KucoinRequest T) :=
  executeLoop key verb endpoint url body retries timestamp fromValue outcomes
    (LoopState.start KucoinRequest)

end ExchangeApiws.Native.RetryLoops
