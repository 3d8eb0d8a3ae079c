import ExchangeApiws.Native.CryptocomWs

/-!
# Private order streams

Translation of `OrderUpdate` and its documented accumulator from `src/actors.rs`, and of the
order parsers of the connectors with a private feed: `src/ws/feed.rs` (KuCoin),
`src/binance/private_ws.rs`, `src/kraken/ws.rs`, `src/bybit/private_ws.rs` and
`src/cryptocom/private_ws.rs`. A `parseMessage` of this file yields the `OrderUpdate`s of a
frame; the messages of its other channels are left out. `now` is the reading of the receipt
clock. The Crypto.com stream also answers the server's heartbeats.
-/

namespace ExchangeApiws.Native

/-- The further operations on `f64` that the order parsers use. -/
class F64Arith (F : Type) extends F64 F, Add F, Sub F, Mul F where
  /-- `f64::max`. -/
  fmax : F → F → F
  /-- `>` on `f64`, which is not the order of `total_cmp`. -/
  gt : F → F → Bool
  /-- `Iterator::sum`. -/
  sum : List F → F
  /-- The text `serde_json` gives a float. -/
  jsonText : F → String

/-- Whole numbers in place of floats, for concrete inputs. -/
instance : F64Arith ℤ where
  fmax := max
  gt a b := decide (b < a)
  sum := List.sum
  jsonText := toString

/-- The KuCoin envelope: the fields of `WsMessage` that `parse_message` reads. -/
structure WsMessage (F : Type) where
  msgType : String
  topic : Option String
  data : Option (Value F)

/-- What the parsers take from outside the crate: `serde_json::from_str` at its two types,
    `str::to_lowercase` and the milliseconds of an RFC 3339 timestamp. -/
structure Reader (F : Type) where
  json : String → Result (Value F)
  wsMessage : String → Result (WsMessage F)
  toLowercase : String → String
  rfc3339 : String → Option Int64

/-- A fill or status-change event for an order on the private feed. -/
structure OrderUpdate (F : Type) where
  symbol : String
  exchange : String
  orderId : String
  clientOid : Option String
  side : TradeSide
  orderType : String
  status : String
  price : F
  size : F
  filledSize : F
  remainingSize : F
  fee : F
  /-- The fill price of this execution. -/
  matchPrice : Option F
  /-- The fill size of this execution. -/
  matchSize : Option F
  /-- The exchange's trade id of this execution. -/
  tradeId : Option String
  exchangeTs : Int64
  receiptTs : Int64
  deriving DecidableEq

/-- The state of the documented accumulator: the trade ids it has inserted and the sum. -/
structure FillAccumulator (F : Type) where
  seen : List String
  notional : F

/-- `on_order_update` of the `OrderUpdate` docs: count an update only when all three fill
    fields are there and its trade id is new. -/
def onOrderUpdate {F : Type} [F64Arith F] (a : FillAccumulator F) (u : OrderUpdate F) :
    FillAccumulator F :=
  match u.matchPrice, u.matchSize, u.tradeId with
  | some px, some sz, some id =>
    if id ∈ a.seen then a else { seen := id :: a.seen, notional := a.notional + px * sz }
  | _, _, _ => a

/-- A string, unless it is empty. -/
def nonempty (s : String) : Option String := if s.isEmpty then none else some s

/-- The side named by a field, with the connector's default; everything but `sell` is a buy. -/
def sideOf {F : Type} (d : Value F) (key default : String) : TradeSide :=
  if eqIgnoreAsciiCase (d.strOr key default) "sell" then .sell else .buy

/-- `Number::to_string`. -/
def Number.text {F : Type} [F64Arith F] : Number F → String
  | .posInt n => toString n.toNat
  | .negInt i => toString i.toInt
  | .float x => F64Arith.jsonText x

/-! ## KuCoin -/

namespace KucoinFeed

variable {F : Type} [F64Arith F]

def exchangeName : String := "kucoin"

/-- The parser a topic is routed to. -/
inductive Route where
  | trade
  | ticker
  | depth
  | level2
  | orderUpdate
  | position
  | balance
  | instrument
  | advancedOrder
  deriving DecidableEq, Repr

/-- The routing of `parse_message`: the first pattern that the topic contains. -/
def routeOf (topic : String) : Option Route :=
  if contains topic "/contractMarket/execution" || contains topic "/market/match" then
    some .trade
  else if contains topic "/contractMarket/tickerV2" || contains topic "/contractMarket/ticker" ||
      contains topic "/market/ticker" then
    some .ticker
  else if contains topic "level2Depth" then some .depth
  else if contains topic "level2" then some .level2
  else if contains topic "/contractMarket/tradeOrders" then some .orderUpdate
  else if contains topic "/contract/position" then some .position
  else if contains topic "/contractAccount/wallet" then some .balance
  else if contains topic "/contract/instrument" then some .instrument
  else if contains topic "/contractMarket/advancedOrders" then some .advancedOrder
  else none

/-- A field that is a numeric string or a number; `none` where it is missing or neither. -/
def strF64Opt (data : Value F) (key : String) : Option F :=
  (data.get key).bind fun v =>
    match v.asStr with
    | some s => F64.parse s
    | none => v.asF64

def strF64 (data : Value F) (key : String) : F := (strF64Opt data key).getD 0

/-- `ts` is in nanoseconds and `updatedAt` in milliseconds. -/
def parseOrderUpdate (exchange : String) (now : Int64) (data : Value F) :
    List (OrderUpdate F) :=
  [{ symbol := data.strOr "symbol" ""
     exchange := exchange
     orderId := data.strOr "orderId" ""
     clientOid := (data.index "clientOid").asStr
     side := sideOf data "side" "buy"
     orderType := data.strOr "type" "market"
     status := data.strOr "status" ""
     price := strF64 data "price"
     size := strF64 data "size"
     filledSize := strF64 data "filledSize"
     remainingSize := strF64 data "remainSize"
     fee := strF64 data "fee"
     matchPrice := strF64Opt data "matchPrice"
     matchSize := strF64Opt data "matchSize"
     tradeId := (data.index "tradeId").asStr
     exchangeTs := (((data.index "ts").asI64.map (· / 1000000)).or
       (data.index "updatedAt").asI64).getD now
     receiptTs := now }]

/-- The order updates of a frame that deserializes. -/
def parseFrame (now : Int64) (msg : WsMessage F) : List (OrderUpdate F) :=
  if msg.msgType = "message" then
    match msg.data with
    | none => []
    | some data =>
      match routeOf (msg.topic.getD "") with
      | some .orderUpdate => parseOrderUpdate exchangeName now data
      | _ => []
  else []

def parseMessage (reader : Reader F) (now : Int64) (raw : String) :
    Result (List (OrderUpdate F)) :=
  (reader.wsMessage raw).map (parseFrame now)

end KucoinFeed

/-! ## Binance -/

namespace BinanceUserData

variable {F : Type} [F64Arith F]

def exchangeName : String := "binance"

/-- `X`, the order status, in the crate's vocabulary. -/
def mapStatus (status : String) : String :=
  match status with
  | "PARTIALLY_FILLED" => "partialFilled"
  | "FILLED" => "filled"
  | "CANCELED" | "REJECTED" | "EXPIRED" | "PENDING_CANCEL" => "canceled"
  | _ => "open"

/-- An integer field that is a JSON number. -/
def i64Num (d : Value F) (key : String) : Option Int64 := (d.get key).bind Value.asI64

/-- A spot `executionReport`; only the price and the size of a fill depend on `x`. -/
def parseExecutionReport (reader : Reader F) (now : Int64) (d : Value F) :
    Option (OrderUpdate F) :=
  ((d.get "s").bind Value.asStr).map fun symbol =>
    let size := d.strF64 "q"
    let filledSize := d.strF64 "z"
    let isTrade := (d.get "x").bind Value.asStr == some "TRADE"
    { symbol := symbol
      exchange := exchangeName
      orderId := ((i64Num d "i").map fun i => toString i.toInt).getD ""
      clientOid := nonempty (d.strOr "c" "")
      side := sideOf d "S" "BUY"
      orderType := reader.toLowercase (d.strOr "o" "MARKET")
      status := mapStatus (d.strOr "X" "")
      price := d.strF64 "p"
      size := size
      filledSize := filledSize
      remainingSize := F64Arith.fmax (size - filledSize) 0
      fee := d.strF64 "n"
      matchPrice := if isTrade then some (d.strF64 "L") else none
      matchSize := if isTrade then some (d.strF64 "l") else none
      tradeId := ((i64Num d "t").filter fun t => decide (0 ≤ t)).map fun t => toString t.toInt
      exchangeTs := ((i64Num d "T").or (i64Num d "E")).getD now
      receiptTs := now }

/-- The order updates of a frame that is JSON. -/
def parseFrame (reader : Reader F) (now : Int64) (json : Value F) : List (OrderUpdate F) :=
  if (json.get "e").bind Value.asStr = some "executionReport" then
    (parseExecutionReport reader now json).toList
  else []

def parseMessage (reader : Reader F) (now : Int64) (raw : String) :
    Result (List (OrderUpdate F)) :=
  (reader.json raw).map (parseFrame reader now)

end BinanceUserData

/-! ## Kraken -/

namespace KrakenWs

variable {F : Type} [F64Arith F]

def exchangeName : String := "kraken"

/-- A field that is a JSON number; `0.0` where it is missing or not a number. -/
def f64Field (v : Value F) (key : String) : F := ((v.get key).bind Value.asF64).getD 0

/-- The sum of the `qty`s of the `fees` array. -/
def sumFees (d : Value F) : F :=
  match (d.get "fees").bind Value.asArray with
  | none => 0
  | some fees => F64Arith.sum (fees.map fun f => f64Field f "qty")

/-- The v2 `order_status` in the crate's vocabulary. -/
def mapOrderStatus (status : String) : String :=
  match status with
  | "partially_filled" => "partialFilled"
  | "filled" => "filled"
  | "canceled" | "expired" => "canceled"
  | _ => "open"

/-- An execution report; a fill has `exec_type` `trade`. -/
def parseExecution (reader : Reader F) (now : Int64) (d : Value F) : Option (OrderUpdate F) :=
  ((d.get "symbol").bind Value.asStr).map fun symbol =>
    let size := f64Field d "order_qty"
    let filledSize := f64Field d "cum_qty"
    let isTrade := (d.get "exec_type").bind Value.asStr == some "trade"
    { symbol := symbol
      exchange := exchangeName
      orderId := d.strOr "order_id" ""
      -- the client reference is a string, or the legacy number
      clientOid := (nonempty (d.strOr "cl_ord_id" "")).or
        ((((d.get "order_userref").bind Value.asI64).filter fun r => decide (r ≠ 0)).map
          fun r => toString r.toInt)
      side := sideOf d "side" "buy"
      orderType := reader.toLowercase (d.strOr "order_type" "")
      status := mapOrderStatus (d.strOr "order_status" "")
      price := f64Field d "limit_price"
      size := size
      filledSize := filledSize
      remainingSize := F64Arith.fmax (size - filledSize) 0
      fee := sumFees d
      matchPrice := if isTrade then some (f64Field d "last_price") else none
      matchSize := if isTrade then some (f64Field d "last_qty") else none
      tradeId := if isTrade then nonempty (d.strOr "exec_id" "") else none
      exchangeTs := (((d.get "timestamp").bind Value.asStr).bind reader.rfc3339).getD now
      receiptTs := now }

/-- The order updates of a frame that is JSON. -/
def parseFrame (reader : Reader F) (now : Int64) (json : Value F) : List (OrderUpdate F) :=
  if (json.get "method").isSome then []
  else match (json.get "data").bind Value.asArray with
    | none => []
    | some data =>
      if json.strOr "channel" "" = "executions" then
        data.filterMap (parseExecution reader now)
      else []

def parseMessage (reader : Reader F) (now : Int64) (raw : String) :
    Result (List (OrderUpdate F)) :=
  (reader.json raw).map (parseFrame reader now)

end KrakenWs

/-! ## Bybit -/

namespace BybitPrivate

variable {F : Type} [F64Arith F]

def exchangeName : String := "bybit"

/-- `orderStatus` in the crate's vocabulary. -/
def mapStatus (status : String) : String :=
  match status with
  | "PartiallyFilled" => "partialFilled"
  | "Filled" => "filled"
  | "Cancelled" | "PartiallyFilledCanceled" | "Deactivated" | "Rejected" => "canceled"
  | _ => "open"

/-- An integer field that is a numeric string. -/
def strI64 (d : Value F) (key : String) : Option Int64 :=
  ((d.get key).bind Value.asStr).bind parseI64

def orderTypeOf (reader : Reader F) (d : Value F) : String :=
  reader.toLowercase (d.strOr "orderType" "Market")

/-- An element of the `order` topic: order state, without fill details. -/
def parseOrder (reader : Reader F) (now : Int64) (d : Value F) : Option (OrderUpdate F) :=
  ((d.get "symbol").bind Value.asStr).map fun symbol =>
    { symbol := symbol
      exchange := exchangeName
      orderId := d.strOr "orderId" ""
      clientOid := nonempty (d.strOr "orderLinkId" "")
      side := sideOf d "side" "Buy"
      orderType := orderTypeOf reader d
      status := mapStatus (d.strOr "orderStatus" "")
      price := d.strF64 "price"
      size := d.strF64 "qty"
      filledSize := d.strF64 "cumExecQty"
      remainingSize := d.strF64 "leavesQty"
      fee := d.strF64 "cumExecFee"
      matchPrice := none
      matchSize := none
      tradeId := none
      exchangeTs := (strI64 d "updatedTime").getD now
      receiptTs := now }

/-- An element of the `execution` topic: one fill. -/
def parseExecution (reader : Reader F) (now : Int64) (d : Value F) : Option (OrderUpdate F) :=
  ((d.get "symbol").bind Value.asStr).map fun symbol =>
    let matchSize := d.strF64 "execQty"
    { symbol := symbol
      exchange := exchangeName
      orderId := d.strOr "orderId" ""
      clientOid := nonempty (d.strOr "orderLinkId" "")
      side := sideOf d "side" "Buy"
      orderType := orderTypeOf reader d
      status := "partialFilled"
      price := d.strF64 "orderPrice"
      size := d.strF64 "orderQty"
      filledSize := matchSize
      remainingSize := 0
      fee := d.strF64 "execFee"
      matchPrice := some (d.strF64 "execPrice")
      matchSize := some matchSize
      tradeId := nonempty (d.strOr "execId" "")
      exchangeTs := (strI64 d "execTime").getD now
      receiptTs := now }

/-- The order updates of a frame that is JSON; op responses carry none. -/
def parseFrame (reader : Reader F) (now : Int64) (json : Value F) : List (OrderUpdate F) :=
  if (json.get "op").isSome then []
  else match (json.get "data").bind Value.asArray with
    | none => []
    | some data =>
      if json.strOr "topic" "" = "order" then data.filterMap (parseOrder reader now)
      else if json.strOr "topic" "" = "execution" then
        data.filterMap (parseExecution reader now)
      else []

def parseMessage (reader : Reader F) (now : Int64) (raw : String) :
    Result (List (OrderUpdate F)) :=
  (reader.json raw).map (parseFrame reader now)

end BybitPrivate

/-! ## Crypto.com -/

namespace CryptocomUser

variable {F : Type} [F64Arith F]

def exchangeName : String := "cryptocom"

/-- The first nonempty string among the fields. -/
def strAny (d : Value F) (keys : List String) : String :=
  ((keys.map fun k => d.strOr k "").find? fun s => !s.isEmpty).getD ""

/-- A field that is a string or a number, as text. -/
def idString (d : Value F) (key : String) : String :=
  match d.get key with
  | some (.string s) => s
  | some (.number n) => n.text
  | _ => ""

/-- The first numeric string among the fields. -/
def strF64Any (d : Value F) (keys : List String) : F := (keys.findSome? d.optStrF64).getD 0

/-- An integer field that is a number or a numeric string. -/
def i64Any (d : Value F) (key : String) : Option Int64 :=
  (d.get key).bind fun v => v.asI64.or (v.asStr.bind parseI64)

/-- `status` in the crate's vocabulary: an order with fills that is not at its end is
    partially filled. -/
def mapOrderStatus (status : String) (filledSize : F) : String :=
  match status with
  | "FILLED" => "filled"
  | "CANCELED" | "REJECTED" | "EXPIRED" => "canceled"
  | _ => if F64Arith.gt filledSize 0 then "partialFilled" else "open"

/-- An element of `user.order`: order state, without fill details. -/
def parseUserOrder (reader : Reader F) (now : Int64) (d : Value F) : Option (OrderUpdate F) :=
  ((d.get "instrument_name").bind Value.asStr).map fun symbol =>
    let size := d.strF64 "quantity"
    let filledSize := d.strF64 "cumulative_quantity"
    { symbol := symbol
      exchange := exchangeName
      orderId := idString d "order_id"
      clientOid := nonempty (d.strOr "client_oid" "")
      side := sideOf d "side" "BUY"
      orderType := reader.toLowercase (strAny d ["order_type", "type"])
      status := mapOrderStatus (d.strOr "status" "") filledSize
      price := strF64Any d ["limit_price", "price"]
      size := size
      filledSize := filledSize
      remainingSize := F64Arith.fmax (size - filledSize) 0
      fee := d.strF64 "cumulative_fee"
      matchPrice := none
      matchSize := none
      tradeId := none
      exchangeTs := ((i64Any d "update_time").or (i64Any d "create_time")).getD now
      receiptTs := now }

/-- An element of `user.trade`: one fill. -/
def parseUserTrade (now : Int64) (d : Value F) : Option (OrderUpdate F) :=
  ((d.get "instrument_name").bind Value.asStr).map fun symbol =>
    let qty := d.strF64 "traded_quantity"
    let price := d.strF64 "traded_price"
    { symbol := symbol
      exchange := exchangeName
      orderId := idString d "order_id"
      clientOid := nonempty (d.strOr "client_oid" "")
      side := sideOf d "side" "BUY"
      orderType := ""
      status := "partialFilled"
      price := price
      size := qty
      filledSize := qty
      remainingSize := 0
      fee := strF64Any d ["fees", "fee"]
      matchPrice := some price
      matchSize := some qty
      tradeId := nonempty (idString d "trade_id")
      exchangeTs := (i64Any d "create_time").getD now
      receiptTs := now }

/-- The order updates of a frame that is JSON; acknowledgements carry no `result.data`. -/
def parseFrame (reader : Reader F) (now : Int64) (json : Value F) : List (OrderUpdate F) :=
  match json.get "result" with
  | none => []
  | some result =>
    match (result.get "data").bind Value.asArray with
    | none => []
    | some data =>
      if result.strOr "channel" "" = "user.order" then
        data.filterMap (parseUserOrder reader now)
      else if result.strOr "channel" "" = "user.trade" then data.filterMap (parseUserTrade now)
      else []

def parseMessage (reader : Reader F) (now : Int64) (raw : String) :
    Result (List (OrderUpdate F)) :=
  (reader.json raw).map (parseFrame reader now)

def responseFor (reader : Reader F) (raw : String) : Option String :=
  Cryptocom.respondHeartbeat reader.json raw

end CryptocomUser

end ExchangeApiws.Native
