import ExchangeApiws.Native.Http
import ExchangeApiws.Native.Query

/-!
# KuCoin REST client

Translation of the GET, POST and DELETE paths of `src/client.rs` and of the order and transfer
methods of `src/rest/orders.rs` and `src/rest/account.rs`. `timestamp n` is the
`KC-API-TIMESTAMP` that the `n`-th attempt is stamped with and `fromValue` is
`serde_json::from_value` at the method's response type.
-/

namespace ExchangeApiws.Native.Kucoin

variable {F : Type} [F64 F] {T : Type}

/-- Order side. -/
inductive Side where
  | buy
  | sell
  deriving DecidableEq, Repr

def Side.asStr : Side → String
  | .buy => "buy"
  | .sell => "sell"

/-- Futures order type. -/
inductive OrderType where
  | market
  | limit
  deriving DecidableEq, Repr

def OrderType.asStr : OrderType → String
  | .market => "market"
  | .limit => "limit"

/-- How long an order remains active. -/
inductive TimeInForce where
  | gtc
  | gtt
  | ioc
  | fok
  deriving DecidableEq, Repr, Inhabited

def TimeInForce.asStr : TimeInForce → String
  | .gtc => "GTC"
  | .gtt => "GTT"
  | .ioc => "IOC"
  | .fok => "FOK"

/-- Self-trade prevention strategy. -/
inductive STP where
  | dc
  | co
  | cn
  | cb
  deriving DecidableEq, Repr

def STP.asStr : STP → String
  | .dc => "DC"
  | .co => "CO"
  | .cn => "CN"
  | .cb => "CB"

/-- A submitted order paired with the `clientOid` used to place it. -/
structure SubmittedOrder where
  orderId : String
  clientOid : String
  deriving DecidableEq, Repr

/-- `HeaderValue::from_str` of the `http` crate, and the `{:?}` text of a string. Visible ASCII is
    a header value, and a text with a line break is none. -/
class HeaderValue where
  fromStr : String → Bool
  debugStr : String → String
  fromStr_visible : ∀ s, (∀ c ∈ s.toList, 32 ≤ c.toNat ∧ c.toNat < 127) → fromStr s = true
  fromStr_break : ∀ s, '\n' ∈ s.toList ∨ '\r' ∈ s.toList → fromStr s = false

namespace SampleHeaders

/-- Control characters are refused, for concrete inputs. -/
scoped instance headerValue : HeaderValue where
  fromStr s := s.toList.all fun c => (32 ≤ c.toNat && c.toNat != 127) || c == '\t'
  debugStr := String.quote
  fromStr_visible s h := by
    rw [List.all_eq_true]
    intro c hc
    have hc := h c hc
    simp only [Bool.or_eq_true, Bool.and_eq_true, decide_eq_true_eq, bne_iff_ne]
    omega
  fromStr_break s h := by
    rw [List.all_eq_false]
    rcases h with h | h
    · exact ⟨_, h, by decide⟩
    · exact ⟨_, h, by decide⟩

end SampleHeaders

/-- Convert a string to a header value. -/
def hv [HeaderValue] (s : String) : Result Unit :=
  if HeaderValue.fromStr s then .ok ()
  else .error (.auth ("header value contains invalid bytes: " ++ HeaderValue.debugStr s))

/-- The headers of a request. Signatures and timestamps are visible ASCII, so the API key alone
    decides. -/
def buildHeaders [HeaderValue] (key : String) : Result Unit := hv key

/-- Unwrap the `{"code":"200000","data":{...}}` envelope. -/
def unwrapEnvelope (fromValue : Value F → Except String T) (raw : Value F) : Result T :=
  let code := ((raw.get "code").bind Value.asStr).getD "unknown"
  if code ≠ "200000" then
    .error (.api code (((raw.get "msg").bind Value.asStr).getD "no message"))
  else
    (fromValue ((raw.get "data").getD .null)).mapError .json

/-- What `execute_with_retries` makes of a response that is not a 429: a body that does not
    decode is a `reqwest` error. -/
def unwrapResponse (fromValue : Value F → Except String T) (resp : Response F) : Result T :=
  match resp.json with
  | .error e => .error (.http e)
  | .ok raw => unwrapEnvelope fromValue raw

/-- The retry loop for all HTTP verbs, at the defaults that every caller passes. The same
    body is sent at each attempt, under a fresh timestamp. -/
def executeWithRetries [HeaderValue] (key : String) (timestamp : ℕ → ℤ) (verb endpoint : String)
    (body : Value F) (fromValue : Value F → Except String T)
    (outcomes : List (Except String (Response F))) : Option (Sent F T) :=
  (retryLoop (verb ++ " " ++ endpoint) (buildHeaders key) DEFAULT_RETRIES
      (fun n => ⟨endpoint, [("KC-API-TIMESTAMP", timestamp n)], .json body⟩)
      outcomes 0 0 none).map
    (·.andThen (unwrapResponse fromValue))

/-- Authenticated GET. The parameters are percent-encoded into the endpoint. -/
def get [HeaderValue] (key : String) (timestamp : ℕ → ℤ) (path : String)
    (params : List (String × String)) (fromValue : Value F → Except String T)
    (outcomes : List (Except String (Response F))) : Option (Sent F T) :=
  let endpoint := path ++ buildQueryString params
  (retryLoop ("GET " ++ endpoint) (buildHeaders key) DEFAULT_RETRIES
      (fun n => ⟨endpoint, [("KC-API-TIMESTAMP", timestamp n)], .form []⟩)
      outcomes 0 0 none).map
    (·.andThen (unwrapResponse fromValue))

/-- Authenticated POST. -/
def post [HeaderValue] (key : String) (timestamp : ℕ → ℤ) (path : String) (body : Value F)
    (fromValue : Value F → Except String T) (outcomes : List (Except String (Response F))) :
    Option (Sent F T) :=
  executeWithRetries key timestamp "POST" path body fromValue outcomes

/-- Authenticated DELETE. The endpoint includes its query, and there is no body. -/
def delete [HeaderValue] (key : String) (timestamp : ℕ → ℤ) (endpoint : String)
    (fromValue : Value F → Except String T) (outcomes : List (Except String (Response F))) :
    Option (Sent F T) :=
  (retryLoop ("DELETE " ++ endpoint) (buildHeaders key) DEFAULT_RETRIES
      (fun n => ⟨endpoint, [("KC-API-TIMESTAMP", timestamp n)], .form []⟩)
      outcomes 0 0 none).map
    (·.andThen (unwrapResponse fromValue))

/-- Cancel all open orders for a symbol. -/
def cancelAllOrders [HeaderValue] (key : String) (timestamp : ℕ → ℤ)
    (fromValue : Value F → Except String T) (symbol : String)
    (outcomes : List (Except String (Response F))) : Option (Sent F T) :=
  delete key timestamp ("/api/v1/orders?symbol=" ++ symbol) fromValue outcomes

/-- Cancel all stop orders for a symbol. -/
def cancelAllStopOrders [HeaderValue] (key : String) (timestamp : ℕ → ℤ)
    (fromValue : Value F → Except String T) (symbol : String)
    (outcomes : List (Except String (Response F))) : Option (Sent F T) :=
  delete key timestamp ("/api/v1/stopOrders?symbol=" ++ symbol) fromValue outcomes

/-- The body of `place_order_with_client_oid`. -/
def orderBody (clientOid symbol : String) (side : Side) (size leverage : UInt32)
    (orderType : OrderType) (price : Option F) (timeInForce : Option TimeInForce)
    (reduceOnly : Bool) (stp : Option STP) : Value F :=
  .object <|
    [("clientOid", .string clientOid),
      ("side", .string side.asStr),
      ("symbol", .string symbol),
      ("type", .string orderType.asStr),
      ("size", .number (.posInt size.toUInt64)),
      ("leverage", .string (toString leverage)),
      ("timeInForce", .string (timeInForce.getD .gtc).asStr),
      ("reduceOnly", .bool reduceOnly)] ++
    (price.map fun p => ("price", Value.string (F64.display p))).toList ++
    (stp.map fun s => ("stp", Value.string s.asStr)).toList

/-- Place a futures order with a caller-supplied `clientOid`. -/
def placeOrderWithClientOid [HeaderValue] (key : String) (timestamp : ℕ → ℤ)
    (fromValue : Value F → Except String String) (clientOid symbol : String) (side : Side)
    (size leverage : UInt32) (orderType : OrderType) (price : Option F)
    (timeInForce : Option TimeInForce) (reduceOnly : Bool) (stp : Option STP)
    (outcomes : List (Except String (Response F))) : Option (Sent F SubmittedOrder) :=
  if orderType = .limit ∧ price.isNone then
    some ⟨.error (.order "place_order: price is required for limit orders"), []⟩
  else
    (post key timestamp "/api/v1/orders"
      (orderBody clientOid symbol side size leverage orderType price timeInForce reduceOnly stp)
      fromValue outcomes).map
      (·.andThen fun orderId => .ok ⟨orderId, clientOid⟩)

/-- Place a futures order under a fresh `uuid`; returns the order id. -/
def placeOrder [HeaderValue] (key : String) (timestamp : ℕ → ℤ)
    (fromValue : Value F → Except String String) (uuid symbol : String) (side : Side)
    (size leverage : UInt32) (orderType : OrderType) (price : Option F)
    (timeInForce : Option TimeInForce) (reduceOnly : Bool) (stp : Option STP)
    (outcomes : List (Except String (Response F))) : Option (Sent F String) :=
  (placeOrderWithClientOid key timestamp fromValue uuid symbol side size leverage orderType price
    timeInForce reduceOnly stp outcomes).map (·.andThen fun submitted => .ok submitted.orderId)

/-- The body of `close_position_with_client_oid`. -/
def closeBody (clientOid symbol : String) (qty : Int32) (leverage : UInt32) : Value F :=
  .object
    [("clientOid", .string clientOid),
      ("side", .string (if 0 < qty then Side.sell else Side.buy).asStr),
      ("symbol", .string symbol),
      ("type", .string "market"),
      ("size", .number (.posInt (UInt64.ofNat qty.toInt.natAbs))),
      ("leverage", .string (toString leverage)),
      ("closeOrder", .bool true),
      ("timeInForce", .string "GTC")]

/-- Close a position with a market order under a caller-supplied `clientOid`. -/
def closePositionWithClientOid [HeaderValue] (key : String) (timestamp : ℕ → ℤ)
    (fromValue : Value F → Except String String) (clientOid symbol : String) (qty : Int32)
    (leverage : UInt32) (outcomes : List (Except String (Response F))) :
    Option (Sent F SubmittedOrder) :=
  if qty = 0 then some ⟨.error (.order "qty is 0 — nothing to close"), []⟩
  else
    (post key timestamp "/api/v1/orders" (closeBody clientOid symbol qty leverage) fromValue
      outcomes).map
      (·.andThen fun orderId => .ok ⟨orderId, clientOid⟩)

/-- Close a position under a fresh `uuid`; returns the order id. -/
def closePosition [HeaderValue] (key : String) (timestamp : ℕ → ℤ)
    (fromValue : Value F → Except String String) (uuid symbol : String) (qty : Int32)
    (leverage : UInt32) (outcomes : List (Except String (Response F))) : Option (Sent F String) :=
  (closePositionWithClientOid key timestamp fromValue uuid symbol qty leverage outcomes).map
    (·.andThen fun submitted => .ok submitted.orderId)

/-- Transfer funds to the main account; returns the application id. -/
def transferToMain [HeaderValue] (key : String) (timestamp : ℕ → ℤ)
    (fromValue : Value F → Except String String) (currency : String) (amount : F)
    (outcomes : List (Except String (Response F))) : Option (Sent F String) :=
  post key timestamp "/api/v1/transfer-out"
    (.object [("currency", .string currency), ("amount", .number (.float amount)),
      ("recAccountType", .string "MAIN")])
    fromValue outcomes

/-- Transfer funds to the futures account; returns the application id. -/
def transferToFutures [HeaderValue] (key : String) (timestamp : ℕ → ℤ)
    (fromValue : Value F → Except String String) (currency : String) (amount : F)
    (outcomes : List (Except String (Response F))) : Option (Sent F String) :=
  post key timestamp "/api/v1/transfer-in"
    (.object [("currency", .string currency), ("amount", .number (.float amount)),
      ("payAccountType", .string "MAIN")])
    fromValue outcomes

end ExchangeApiws.Native.Kucoin
