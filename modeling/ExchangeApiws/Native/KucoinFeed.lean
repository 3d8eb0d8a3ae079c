import ExchangeApiws.Native.BookPrices
import ExchangeApiws.Native.KucoinWs

/-!
# KuCoin feed

Translation of the subscription builders and of `parse_message` with its parsers from
`src/ws/feed.rs`, with the envelope of `src/ws/types.rs` and the private-feed variants of
`DataMessage` from `src/actors.rs`. A frame is given as its JSON value. `now` is the reading of
the receipt clock and `uuid` the fresh id of a frame.
-/

namespace ExchangeApiws.Native

/-! ## Messages -/

/-- A change to an open position. -/
structure PositionChange (F : Type) where
  symbol : String
  exchange : String
  currentQty : F
  avgEntryPrice : F
  unrealisedPnl : F
  realisedPnl : F
  changeReason : String
  exchangeTs : Int64
  receiptTs : Int64
  deriving DecidableEq, Repr

/-- A wallet or margin balance change. -/
structure BalanceUpdate (F : Type) where
  exchange : String
  currency : String
  availableBalance : F
  holdBalance : F
  event : String
  exchangeTs : Int64
  receiptTs : Int64
  deriving DecidableEq, Repr

/-- An index price, mark price or premium index event. -/
structure InstrumentEvent (F : Type) where
  symbol : String
  exchange : String
  subject : String
  markPrice : Option F
  indexPrice : Option F
  fundingRate : Option F
  predictedFundingRate : Option F
  premiumIndex : Option F
  exchangeTs : Int64
  receiptTs : Int64
  deriving DecidableEq, Repr

/-- A stop or trigger order event. -/
structure AdvancedOrderUpdate (F : Type) where
  symbol : String
  exchange : String
  orderId : String
  clientOid : Option String
  status : String
  side : TradeSide
  orderType : String
  stop : Option String
  stopPrice : Option F
  price : Option F
  size : F
  exchangeTs : Int64
  receiptTs : Int64
  deriving DecidableEq, Repr

/-- `DataMessage` with its private-feed variants. -/
inductive FeedMessage (F : Type) where
  | market (message : DataMessage F)
  | orderUpdate (data : OrderUpdate F)
  | positionChange (data : PositionChange F)
  | balanceUpdate (data : BalanceUpdate F)
  | instrumentEvent (data : InstrumentEvent F)
  | advancedOrderUpdate (data : AdvancedOrderUpdate F)
  deriving DecidableEq

/-- The order update of a message, if it is one. -/
def FeedMessage.asOrderUpdate {F : Type} : FeedMessage F → Option (OrderUpdate F)
  | .orderUpdate data => some data
  | _ => none

/-- The order-book message of a message, if it is one. -/
def FeedMessage.asOrderBook {F : Type} : FeedMessage F → Option (OrderBookData F F)
  | .market message => message.asOrderBook
  | _ => none

/-- The whole KuCoin envelope. -/
structure Envelope (F : Type) extends WsMessage F where
  id : String
  subject : Option String
  privateChannel : Option Bool
  response : Option Bool

/-- The JSON of an envelope; what is absent is left out. -/
def Envelope.toValue {F : Type} (msg : Envelope F) : Value F :=
  .object <|
    (nonempty msg.id |>.map fun id => ("id", Value.string id)).toList ++
    [("type", .string msg.msgType)] ++
    (msg.topic.map fun topic => ("topic", Value.string topic)).toList ++
    (msg.subject.map fun subject => ("subject", Value.string subject)).toList ++
    (msg.data.map fun data => ("data", data)).toList ++
    (msg.privateChannel.map fun b => ("privateChannel", Value.bool b)).toList ++
    (msg.response.map fun b => ("response", Value.bool b)).toList

/-! ## Subscriptions -/

namespace KucoinWs.KucoinConnector

variable {F : Type}

def buildSub (uuid topic : String) (privateChannel : Bool) : Option (Value F) :=
  let msg : Envelope F := {
    id := uuid
    msgType := "subscribe"
    topic := some topic
    subject := none
    data := none
    privateChannel := some privateChannel
    response := some true }
  some msg.toValue

/-- Subscribe to live trade executions. -/
def tradeSubscription (uuid : String) (self : KucoinConnector) (symbol : String) :
    Option (Value F) :=
  let topic := match self.env with
    | .liveFutures => "/contractMarket/execution:" ++ symbol
    | _ => "/market/match:" ++ symbol
  buildSub uuid topic false

/-- Subscribe to best-bid/ask ticker updates. -/
def tickerSubscription (uuid : String) (self : KucoinConnector) (symbol : String) :
    Option (Value F) :=
  let topic := match self.env with
    | .liveFutures => "/contractMarket/tickerV2:" ++ symbol
    | _ => "/market/ticker:" ++ symbol
  buildSub uuid topic false

/-- Subscribe to full order book depth snapshots of 5 or 50 levels. -/
def orderbookDepthSubscription (uuid : String) (self : KucoinConnector) (symbol : String)
    (depth : UInt8) : Option (Value F) :=
  let d : UInt8 := if depth ≤ 5 then 5 else 50
  let topic := match self.env with
    | .liveFutures => "/contractMarket/level2Depth" ++ toString d ++ ":" ++ symbol
    | _ => "/spotMarket/level2Depth" ++ toString d ++ ":" ++ symbol
  buildSub uuid topic false

/-- Subscribe to full Level 2 incremental order book updates. -/
def orderbookL2Subscription (uuid : String) (self : KucoinConnector) (symbol : String) :
    Option (Value F) :=
  let topic := match self.env with
    | .liveFutures => "/contractMarket/level2:" ++ symbol
    | _ => "/market/level2:" ++ symbol
  buildSub uuid topic false

/-- Subscribe to private order fill and status-change events. -/
def orderUpdatesSubscription (uuid : String) (_self : KucoinConnector) : Option (Value F) :=
  buildSub uuid "/contractMarket/tradeOrders" true

/-- Subscribe to position changes. -/
def positionSubscription (uuid : String) (_self : KucoinConnector) (symbol : String) :
    Option (Value F) :=
  buildSub uuid ("/contract/position:" ++ symbol) true

/-- Subscribe to wallet/balance updates. -/
def balanceSubscription (uuid : String) (_self : KucoinConnector) : Option (Value F) :=
  buildSub uuid "/contractAccount/wallet" true

/-- Subscribe to index price, mark price and funding rate events. -/
def instrumentSubscription (uuid : String) (_self : KucoinConnector) (symbol : String) :
    Option (Value F) :=
  buildSub uuid ("/contract/instrument:" ++ symbol) false

/-- Subscribe to private stop/trigger order events. -/
def stopOrdersSubscription (uuid : String) (_self : KucoinConnector) : Option (Value F) :=
  buildSub uuid "/contractMarket/advancedOrders" true

end KucoinWs.KucoinConnector

/-! ## Parsers -/

namespace KucoinFeed

/-- Extract the symbol from a topic (`/prefix:{symbol}`). -/
def extractSymbol (topic : String) : String :=
  ((topic.toList.splitOn ':').getLast?.map String.ofList).getD "UNKNOWN"

section

variable {F : Type} [F64Arith F]

/-- The first of several fields that is not zero. -/
def firstF64 (data : Value F) : List String → F
  | [] => 0
  | key :: keys =>
    let v := strF64 data key
    if v == 0 then firstF64 data keys else v

/-- A field that is left out where it is zero. -/
def nonzeroF64 (data : Value F) (key : String) : Option F :=
  let v := strF64 data key
  if v == 0 then none else some v

/-- Futures `ts` is in nanoseconds; spot `time` is a millisecond string. -/
def parseTrade (now : Int64) (symbol exchange : String) (data : Value F) : List (DataMessage F) :=
  [.trade {
    symbol := symbol
    exchange := exchange
    side := sideOf data "side" "buy"
    price := strF64 data "price"
    amount := strF64 data "size"
    exchangeTs := (((data.index "ts").asI64.map (· / 1000000)).or
      ((data.index "time").asStr.bind parseI64)).getD now
    receiptTs := now
    tradeId := ((data.index "tradeId").asStr.or (data.index "makerOrderId").asStr).getD "" }]

/-- A coordinate of a price level, which is a numeric string or a number. -/
def depthCoord (row : Value F) (i : ℕ) : Option F :=
  (row.getIdx i).bind fun v => (v.asStr.bind F64.parse).or v.asF64

def depthLevel (row : Value F) : Option (F × F) := do
  let price ← depthCoord row 0
  let qty ← depthCoord row 1
  return (price, qty)

def parseOrderbookDepth (now : Int64) (symbol exchange : String) (data : Value F) :
    List (DataMessage F) :=
  let parseLevels (arr : Value F) := (arr.asArray.map (·.filterMap depthLevel)).getD []
  [.orderBook {
    symbol := symbol
    exchange := exchange
    asks := parseLevels (data.index "asks")
    bids := parseLevels (data.index "bids")
    exchangeTs := ((data.index "ts").asI64.or (data.index "timestamp").asI64).getD now
    receiptTs := now
    isSnapshot := true
    -- level2Depth frames are self-contained snapshots with no sequence.
    firstUpdateId := none
    lastUpdateId := none }]

def parsePositionChange (now : Int64) (symbol exchange : String) (data : Value F) :
    List (FeedMessage F) :=
  [.positionChange {
    symbol := symbol
    exchange := exchange
    currentQty := (data.index "currentQty").asF64.getD 0
    avgEntryPrice := strF64 data "avgEntryPrice"
    unrealisedPnl := strF64 data "unrealisedPnl"
    realisedPnl := strF64 data "realisedPnl"
    changeReason := data.strOr "changeReason" "unknown"
    exchangeTs := (data.index "currentTimestamp").asI64.getD now
    receiptTs := now }]

def parseBalanceUpdate (now : Int64) (exchange : String) (data : Value F) :
    List (FeedMessage F) :=
  [.balanceUpdate {
    exchange := exchange
    currency := data.strOr "currency" ""
    availableBalance := strF64 data "availableBalance"
    holdBalance := strF64 data "holdBalance"
    event := data.strOr "event" "unknown"
    exchangeTs := (data.index "timestamp").asI64.getD now
    receiptTs := now }]

def parseInstrumentEvent (now : Int64) (symbol exchange subject : String) (data : Value F) :
    List (FeedMessage F) :=
  [.instrumentEvent {
    symbol := symbol
    exchange := exchange
    subject := subject
    markPrice := nonzeroF64 data "markPrice"
    indexPrice := nonzeroF64 data "indexPrice"
    fundingRate := nonzeroF64 data "fundingRate"
    predictedFundingRate := nonzeroF64 data "predictedValue"
    premiumIndex := nonzeroF64 data "premiumIndex"
    exchangeTs := ((data.index "timestamp").asI64.or (data.index "ts").asI64).getD now
    receiptTs := now }]

/-- `ts` is in nanoseconds and `updatedAt` in milliseconds. -/
def parseAdvancedOrderUpdate (now : Int64) (exchange : String) (data : Value F) :
    List (FeedMessage F) :=
  [.advancedOrderUpdate {
    symbol := data.strOr "symbol" ""
    exchange := exchange
    orderId := data.strOr "orderId" ""
    clientOid := (data.index "clientOid").asStr
    status := data.strOr "status" ""
    side := sideOf data "side" "buy"
    orderType := data.strOr "type" "market"
    stop := (data.index "stop").asStr
    stopPrice := nonzeroF64 data "stopPrice"
    price := nonzeroF64 data "price"
    size := strF64 data "size"
    exchangeTs := (((data.index "ts").asI64.map (· / 1000000)).or
      (data.index "updatedAt").asI64).getD now
    receiptTs := now }]

end

section

variable {F : Type} [F64Ops F]

def parseTicker (now : Int64) (symbol exchange : String) (data : Value F) :
    List (DataMessage F) :=
  -- Futures tickerV2: bestBidPrice / bestAskPrice; spot: bestBid / bestAsk.
  let bestBid : F := firstF64 data ["bestBidPrice", "bestBid"]
  let bestAsk : F := firstF64 data ["bestAskPrice", "bestAsk"]
  let last : F := strF64 data "price"
  -- tickerV2 carries no `price` field: fall back to the bid/ask mid
  let price :=
    if F64Arith.gt last 0 then last
    else if F64Arith.gt bestBid 0 && F64Arith.gt bestAsk 0 then F64Ops.midpoint bestBid bestAsk
    else last
  [.ticker {
    symbol := symbol
    exchange := exchange
    price := price
    bestBid := bestBid
    bestAsk := bestAsk
    -- Nanosecond timestamps are much larger than millisecond ones.
    exchangeTs := (((data.index "ts").asI64.map fun ts =>
      if ts > 1700000000000 * 1000000 then ts / 1000000 else ts).or
        (data.index "time").asI64).getD now
    receiptTs := now }]

/-- The parser of a route. -/
def parseRoute (now : Int64) (symbol subject : String) (data : Value F) :
    Route → List (FeedMessage F)
  | .trade => (parseTrade now symbol exchangeName data).map .market
  | .ticker => (parseTicker now symbol exchangeName data).map .market
  | .depth => (parseOrderbookDepth now symbol exchangeName data).map .market
  | .level2 => (KucoinWs.parseLevel2Delta now symbol exchangeName data).map .market
  | .orderUpdate => (parseOrderUpdate exchangeName now data).map .orderUpdate
  | .position => parsePositionChange now symbol exchangeName data
  | .balance => parseBalanceUpdate now exchangeName data
  | .instrument => parseInstrumentEvent now symbol exchangeName subject data
  | .advancedOrder => parseAdvancedOrderUpdate now exchangeName data

/-- The messages of a frame that deserializes. -/
def parseEnvelope (now : Int64) (msg : Envelope F) : List (FeedMessage F) :=
  if msg.msgType = "message" then
    let topic := msg.topic.getD ""
    match msg.data with
    | none => []
    | some data =>
      let symbol := extractSymbol topic
      match routeOf topic with
      | some route => parseRoute now symbol (msg.subject.getD "unknown") data route
      | none => []
  -- Protocol / control frames — the runner handles these.
  else []

end

end KucoinFeed

end ExchangeApiws.Native
