import ExchangeApiws.Native.Http

/-!
# Signed REST clients of Binance, Bybit, Kraken and Crypto.com

Translation of the order and withdrawal methods of `src/binance/signed_rest.rs`,
`src/bybit/private.rs`, `src/kraken/private.rs` and `src/cryptocom/private.rs`, and of the
queries of `src/bybit/private.rs`. Every method builds its parameters once and hands
`send_with_retry` a closure that stamps and signs them for each attempt: `timestamp n`,
`nonce n` and `id n` are the stamps of the `n`-th attempt. Decoding into a response type is a
parameter, as is the outcome of the signing check that Kraken and Crypto.com make before the
first attempt.
-/

namespace ExchangeApiws.Native

variable {F T : Type}

/-- Return early with an error that is found before the first send. -/
def checkFirst (check : Result Unit) (call : Option (Sent F T)) : Option (Sent F T) :=
  match check with
  | .error e => some ⟨.error e, []⟩
  | .ok () => call

namespace Binance

/-- Decode a response. `apiError` reads the error envelope `{code, msg}`. -/
def unwrapBinance (apiError : Value F → Option (Int64 × String))
    (decode : Value F → Except String T) (resp : Response F) : Result T :=
  match resp.text with
  | .error e => .error (.http e)
  | .ok text =>
    if resp.isSuccess then
      match resp.json with
      | .error e => .error (.json e)
      | .ok raw => (decode raw).mapError .json
    else
      match resp.json.toOption.bind apiError with
      | some (code, msg) => .error (.api (toString code) msg)
      | none => .error (.api (toString resp.status) text)

/-- Signed POST. The parameters travel in the query, with `recvWindow` and a fresh
    `timestamp` behind them. -/
def signedPost (recvWindow : UInt64) (timestamp : ℕ → ℤ) (path : String)
    (params : List (String × String)) (apiError : Value F → Option (Int64 × String))
    (decode : Value F → Except String T) (outcomes : List (Except String (Response F))) :
    Option (Sent F T) :=
  (sendWithRetry ("Binance POST " ++ path)
      (fun n => ⟨path, [("timestamp", timestamp n)],
        .form (params ++ [("recvWindow", toString recvWindow)])⟩) outcomes).map
    (·.andThen (unwrapBinance apiError decode))

/-- `POST /api/v3/order`. -/
def placeOrder (recvWindow : UInt64) (timestamp : ℕ → ℤ)
    (apiError : Value F → Option (Int64 × String)) (decode : Value F → Except String T)
    (symbol side orderType quantity : String) (price timeInForce : Option String)
    (outcomes : List (Except String (Response F))) : Option (Sent F T) :=
  signedPost recvWindow timestamp "/api/v3/order"
    ([("symbol", symbol), ("side", side), ("type", orderType), ("quantity", quantity)] ++
      (price.map fun p => ("price", p)).toList ++
      (timeInForce.map fun tif => ("timeInForce", tif)).toList)
    apiError decode outcomes

end Binance

namespace Bybit

inductive OrderSide where
  | buy
  | sell
  deriving DecidableEq, Repr

def OrderSide.serialize : OrderSide → String
  | .buy => "Buy"
  | .sell => "Sell"

inductive OrderType where
  | limit
  | market
  deriving DecidableEq, Repr

def OrderType.serialize : OrderType → String
  | .limit => "Limit"
  | .market => "Market"

inductive TimeInForce where
  | gtc
  | ioc
  | fok
  | postOnly
  deriving DecidableEq, Repr

def TimeInForce.serialize : TimeInForce → String
  | .gtc => "GTC"
  | .ioc => "IOC"
  | .fok => "FOK"
  | .postOnly => "PostOnly"

/-- A new-order request. -/
structure OrderRequest where
  category : String
  symbol : String
  side : OrderSide
  orderType : OrderType
  qty : String
  price : Option String
  timeInForce : Option TimeInForce
  orderLinkId : Option String
  reduceOnly : Option Bool
  deriving DecidableEq, Repr

/-- The request as JSON; absent options are not serialized. -/
def OrderRequest.serialize (order : OrderRequest) : Value F :=
  .object <|
    [("category", .string order.category),
      ("symbol", .string order.symbol),
      ("side", .string order.side.serialize),
      ("orderType", .string order.orderType.serialize),
      ("qty", .string order.qty)] ++
    (order.price.map fun p => ("price", Value.string p)).toList ++
    (order.timeInForce.map fun tif => ("timeInForce", Value.string tif.serialize)).toList ++
    (order.orderLinkId.map fun id => ("orderLinkId", Value.string id)).toList ++
    (order.reduceOnly.map fun r => ("reduceOnly", Value.bool r)).toList

/-- Parse an envelope; `envelope` reads `{retCode, retMsg, result}` and a body that does not
    decode is a `reqwest` error. -/
def unwrapResult (envelope : Value F → Except String (Int64 × String × Value F))
    (decode : Value F → Except String T) (resp : Response F) : Result T :=
  match resp.json.bind envelope with
  | .error e => .error (.http e)
  | .ok (retCode, retMsg, result) =>
    if retCode ≠ 0 then .error (.api (toString retCode) retMsg)
    else (decode result).mapError .json

/-- Signed POST of a JSON body. -/
def signedPost (timestamp : ℕ → ℤ) (path : String) (body : Value F)
    (outcomes : List (Except String (Response F))) : Option (Sent F (Response F)) :=
  sendWithRetry ("Bybit POST " ++ path)
    (fun n => ⟨path, [("X-BAPI-TIMESTAMP", timestamp n)], .json body⟩) outcomes

/-- Product class of the v5 endpoints. -/
inductive Category where
  | spot
  | linear
  | inverse
  deriving DecidableEq, Repr

def Category.asStr : Category → String
  | .spot => "spot"
  | .linear => "linear"
  | .inverse => "inverse"

/-- Signed GET with a raw query string. -/
def signedGet (timestamp : ℕ → ℤ) (path query : String)
    (outcomes : List (Except String (Response F))) : Option (Sent F (Response F)) :=
  let url := if query.isEmpty then path else path ++ "?" ++ query
  sendWithRetry ("Bybit GET " ++ path)
    (fun n => ⟨url, [("X-BAPI-TIMESTAMP", timestamp n)], .form []⟩) outcomes

/-- The query of `get_open_orders` and `get_positions`. -/
def categoryQuery (category : Category) (symbol : Option String) : String :=
  let q := "category=" ++ category.asStr
  match symbol with
  | some s => q ++ "&symbol=" ++ s
  | none => q

/-- `GET /v5/order/realtime`. -/
def getOpenOrders (timestamp : ℕ → ℤ)
    (envelope : Value F → Except String (Int64 × String × Value F)) (category : Category)
    (symbol : Option String) (outcomes : List (Except String (Response F))) :
    Option (Sent F (Value F)) :=
  (signedGet timestamp "/v5/order/realtime" (categoryQuery category symbol) outcomes).map
    (·.andThen (unwrapResult envelope .ok))

/-- `GET /v5/position/list`. -/
def getPositions (timestamp : ℕ → ℤ)
    (envelope : Value F → Except String (Int64 × String × Value F)) (category : Category)
    (symbol : Option String) (outcomes : List (Except String (Response F))) :
    Option (Sent F (Value F)) :=
  (signedGet timestamp "/v5/position/list" (categoryQuery category symbol) outcomes).map
    (·.andThen (unwrapResult envelope .ok))

/-- `GET /v5/account/wallet-balance`. -/
def getWalletBalance (timestamp : ℕ → ℤ)
    (envelope : Value F → Except String (Int64 × String × Value F))
    (decode : Value F → Except String T) (accountType : String)
    (outcomes : List (Except String (Response F))) : Option (Sent F T) :=
  (signedGet timestamp "/v5/account/wallet-balance" ("accountType=" ++ accountType) outcomes).map
    (·.andThen (unwrapResult envelope decode))

/-- `POST /v5/order/create`. -/
def placeOrder (timestamp : ℕ → ℤ)
    (envelope : Value F → Except String (Int64 × String × Value F))
    (decode : Value F → Except String T) (order : OrderRequest)
    (outcomes : List (Except String (Response F))) : Option (Sent F T) :=
  (signedPost timestamp "/v5/order/create" order.serialize outcomes).map
    (·.andThen (unwrapResult envelope decode))

end Bybit

/-- The check that Kraken and Crypto.com make on a response before they unwrap its envelope. -/
def unwrapSuccess (unwrap : Value F → Result T) (resp : Response F) : Result T :=
  if resp.isSuccess then
    match resp.json with
    | .error e => .error (.http e)
    | .ok raw => unwrap raw
  else
    .error (.api (toString resp.status)
      (match resp.text with
        | .ok text => text
        | .error _ => "no body"))

namespace Kraken

/-- Unwrap `{"error": [...], "result": ...}`. -/
def unwrapKrakenEnvelope (decode : Value F → Except String T) (raw : Value F) : Result T :=
  let errors := (((raw.get "error").bind Value.asArray).getD []).filterMap Value.asStr
  if errors ≠ [] then .error (.api "kraken_error" ("; ".intercalate errors))
  else (decode ((raw.get "result").getD .null)).mapError .json

/-- Signed POST. A fresh nonce goes in front of the form body at each attempt. -/
def post (signing : Result Unit) (nonce : ℕ → ℤ) (path : String) (params : List (String × String))
    (decode : Value F → Except String T) (outcomes : List (Except String (Response F))) :
    Option (Sent F T) :=
  checkFirst signing <|
    (sendWithRetry ("Kraken POST " ++ path) (fun n => ⟨path, [("nonce", nonce n)], .form params⟩)
      outcomes).map (·.andThen (unwrapSuccess (unwrapKrakenEnvelope decode)))

/-- Optional flags of `place_order_with`. -/
structure OrderOptions where
  postOnly : Bool := false
  validate : Bool := false
  clientOrderId : Option String := none
  expireAfterSecs : Option UInt64 := none
  deriving DecidableEq, Repr

/-- The form parameters of `place_order_with`. -/
def orderParams (pair side orderType volume : String) (price : Option String)
    (opts : OrderOptions) : List (String × String) :=
  [("pair", pair), ("type", side), ("ordertype", orderType), ("volume", volume)] ++
    (price.map fun p => ("price", p)).toList ++
    (if opts.postOnly then [("oflags", "post")] else []) ++
    (if opts.validate then [("validate", "true")] else []) ++
    (opts.clientOrderId.map fun id => ("cl_ord_id", id)).toList ++
    match opts.expireAfterSecs with
    | some secs => [("timeinforce", "GTD"), ("expiretm", "+" ++ toString secs)]
    | none => []

/-- `POST /0/private/AddOrder` with options. -/
def placeOrderWith (signing : Result Unit) (nonce : ℕ → ℤ) (decode : Value F → Except String T)
    (pair side orderType volume : String) (price : Option String) (opts : OrderOptions)
    (outcomes : List (Except String (Response F))) : Option (Sent F T) :=
  post signing nonce "/0/private/AddOrder" (orderParams pair side orderType volume price opts)
    decode outcomes

/-- `POST /0/private/AddOrder`. -/
def placeOrder (signing : Result Unit) (nonce : ℕ → ℤ) (decode : Value F → Except String T)
    (pair side orderType volume : String) (price : Option String)
    (outcomes : List (Except String (Response F))) : Option (Sent F T) :=
  placeOrderWith signing nonce decode pair side orderType volume price {} outcomes

/-- `POST /0/private/Withdraw`. -/
def withdraw (signing : Result Unit) (nonce : ℕ → ℤ) (decode : Value F → Except String T)
    (asset key amount : String) (outcomes : List (Except String (Response F))) :
    Option (Sent F T) :=
  post signing nonce "/0/private/Withdraw" [("asset", asset), ("key", key), ("amount", amount)]
    decode outcomes

end Kraken

namespace Cryptocom

/-- Unwrap `{"code": 0, "result": ...}`. -/
def unwrapCryptocomEnvelope (decode : Value F → Except String T) (raw : Value F) : Result T :=
  let code := ((raw.get "code").bind Value.asI64).getD (-1)
  if code ≠ 0 then
    .error (.api (toString code) (((raw.get "message").bind Value.asStr).getD "no message"))
  else (decode ((raw.get "result").getD .null)).mapError .json

/-- Signed POST. The envelope gets a fresh `id` and `nonce` at each attempt. -/
def post (signing : Result Unit) (id nonce : ℕ → ℤ) (apiKey method : String) (params : Value F)
    (decode : Value F → Except String T) (outcomes : List (Except String (Response F))) :
    Option (Sent F T) :=
  checkFirst signing <|
    (sendWithRetry ("Crypto.com POST " ++ method)
      (fun n => ⟨method, [("id", id n), ("nonce", nonce n)],
        .json (.object [("method", .string method), ("api_key", .string apiKey),
          ("params", params)])⟩)
      outcomes).map (·.andThen (unwrapSuccess (unwrapCryptocomEnvelope decode)))

/-- `POST /private/create-order`. -/
def placeOrder (signing : Result Unit) (id nonce : ℕ → ℤ) (apiKey : String)
    (decode : Value F → Except String T) (instrument side orderType quantity : String)
    (price : Option String) (outcomes : List (Except String (Response F))) : Option (Sent F T) :=
  post signing id nonce apiKey "private/create-order"
    (.object <|
      [("instrument_name", .string instrument), ("side", .string side),
        ("type", .string orderType), ("quantity", .string quantity)] ++
      (price.map fun p => ("price", Value.string p)).toList)
    decode outcomes

/-- `POST /private/create-withdrawal`. -/
def createWithdrawal (signing : Result Unit) (id nonce : ℕ → ℤ) (apiKey : String)
    (decode : Value F → Except String T) (currency amount address : String)
    (outcomes : List (Except String (Response F))) : Option (Sent F T) :=
  post signing id nonce apiKey "private/create-withdrawal"
    (.object [("currency", .string currency), ("amount", .string amount),
      ("address", .string address)])
    decode outcomes

end Cryptocom

end ExchangeApiws.Native
