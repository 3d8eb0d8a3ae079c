import ExchangeApiws.Native.Actors
import ExchangeApiws.Native.Error

/-!
# Binance public connector

Translation of `parse_message` and its parsers from `src/binance/ws.rs`. `fromStr` is
`serde_json::from_str` and `now` the reading of the receipt clock.
-/

namespace ExchangeApiws.Native.Binance

variable {F : Type} [F64 F]

/-- Price levels: `[price, qty]` rows of strings; rows that do not parse are left out. -/
def parseLevels (v : Value F) : List (F × F) := v.levels

def parseAggTrade (exchange : String) (now : Int64) (data : Value F) : List (DataMessage F) :=
  -- `m` says that the buyer was the maker, so the taker sold
  let side := if ((data.index "m").asBool).getD false then TradeSide.sell else TradeSide.buy
  [.trade {
    symbol := data.strOr "s" ""
    exchange := exchange
    side := side
    price := data.strF64 "p"
    amount := data.strF64 "q"
    exchangeTs := data.i64Or "T" 0
    receiptTs := now
    tradeId := toString (((data.index "a").asU64).getD 0).toNat }]

def parseKline (exchange : String) (now : Int64) (data : Value F) : List (DataMessage F) :=
  match data.get "k" with
  | none => []
  | some k => [.candle {
      symbol := k.strOr "s" ""
      exchange := exchange
      interval := k.strOr "i" ""
      openTs := k.i64Or "t" 0
      «open» := k.strF64 "o"
      high := k.strF64 "h"
      low := k.strF64 "l"
      close := k.strF64 "c"
      volume := k.strF64 "v"
      isClosed := ((k.index "x").asBool).getD false
      receiptTs := now }]

def parseMarkPrice (exchange : String) (now : Int64) (data : Value F) : List (DataMessage F) :=
  [.fundingRate {
    symbol := data.strOr "s" ""
    exchange := exchange
    fundingRate := data.strF64 "r"
    nextFundingTime := data.i64Or "T" 0
    markPrice := data.optStrF64 "p"
    indexPrice := data.optStrF64 "i"
    exchangeTs := data.i64Or "E" 0
    receiptTs := now }]

/-- The delta of one `depthUpdate` event. -/
def depthUpdate (exchange : String) (now : Int64) (data : Value F) : OrderBookData F F where
  symbol := data.strOr "s" ""
  exchange := exchange
  asks := parseLevels (data.index "a")
  bids := parseLevels (data.index "b")
  exchangeTs := data.i64Or "E" 0
  receiptTs := now
  isSnapshot := false
  firstUpdateId := (data.index "U").asU64
  lastUpdateId := (data.index "u").asU64

def parseDepthUpdate (exchange : String) (now : Int64) (data : Value F) :
    List (DataMessage F) :=
  [.orderBook (depthUpdate exchange now data)]

def parseBookTicker (exchange : String) (now : Int64) (data : Value F) : List (DataMessage F) :=
  [.ticker {
    symbol := data.strOr "s" ""
    exchange := exchange
    price := 0
    bestBid := data.strF64 "b"
    bestAsk := data.strF64 "a"
    exchangeTs := now
    receiptTs := now }]

/-- The snapshot of one partial-depth frame; its id is both the first and the last. -/
def depthSnapshot (exchange symbol : String) (now : Int64) (data : Value F) :
    OrderBookData F F where
  symbol := symbol
  exchange := exchange
  asks := parseLevels (data.index "asks")
  bids := parseLevels (data.index "bids")
  exchangeTs := now
  receiptTs := now
  isSnapshot := true
  firstUpdateId := (data.index "lastUpdateId").asU64
  lastUpdateId := (data.index "lastUpdateId").asU64

def parseDepthSnapshot (exchange symbol : String) (now : Int64) (data : Value F) :
    List (DataMessage F) :=
  [.orderBook (depthSnapshot exchange symbol now data)]

/-- The event of a frame: a combined-stream frame wraps it as `data` next to the stream name. -/
def unwrapStream (json : Value F) : Option String × Value F :=
  match (json.get "stream").bind Value.asStr with
  | some stream => (some stream, json.index "data")
  | none => (none, json)

/-- The symbol of a partial-depth frame: the stream name up to its first `@`, upper-cased. -/
def streamSymbol (F : Type) [F64 F] (stream : Option String) : String :=
  F64.toUppercase F (String.ofList ((stream.getD "").toList.takeWhile (· != '@')))

/-- What `parse_message` makes of a frame that is JSON. -/
def parseEvent (exchange : String) (now : Int64) (json : Value F) : List (DataMessage F) :=
  let (streamName, inner) := unwrapStream json
  let eventType := inner.strOr "e" ""
  if eventType = "aggTrade" then parseAggTrade exchange now inner
  else if eventType = "kline" then parseKline exchange now inner
  else if eventType = "markPriceUpdate" then parseMarkPrice exchange now inner
  else if eventType = "depthUpdate" then parseDepthUpdate exchange now inner
  else if eventType = "" then
    -- `bookTicker` and the partial-depth snapshot have no `e`
    if (inner.get "u").isSome && (inner.get "s").isSome && (inner.get "b").isSome then
      parseBookTicker exchange now inner
    else if (inner.get "lastUpdateId").isSome then
      parseDepthSnapshot exchange (streamSymbol F streamName) now inner
    else []
  else []

def parseMessage (fromStr : String → Result (Value F)) (exchange : String) (now : Int64)
    (raw : String) : Result (List (DataMessage F)) :=
  (fromStr raw).map (parseEvent exchange now)

end ExchangeApiws.Native.Binance
