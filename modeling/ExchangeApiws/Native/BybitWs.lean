import ExchangeApiws.Native.Actors
import ExchangeApiws.Native.Error

/-!
# Bybit public connector

Translation of `parse_message` and its parsers from `src/bybit/ws.rs`. `fromStr` is
`serde_json::from_str` and `now` the reading of the receipt clock.
-/

namespace ExchangeApiws.Native.Bybit

variable {F : Type} [F64 F]

def exchangeName : String := "bybit"

/-- Price levels: `[price, qty]` rows of strings; rows that do not parse are left out. -/
def parseLevels (v : Value F) : List (F × F) := v.levels

/-- `publicTrade.<sym>` data is an array of trade objects. -/
def parseTradeBatch (now : Int64) (data : Value F) : List (DataMessage F) :=
  (data.asArray.getD []).map fun t => .trade {
    symbol := t.strOr "s" ""
    exchange := exchangeName
    side := if eqIgnoreAsciiCase (t.strOr "S" "Buy") "Sell" then .sell else .buy
    price := t.strF64 "p"
    amount := t.strF64 "v"
    exchangeTs := t.i64Or "T" 0
    receiptTs := now
    tradeId := t.strOr "i" "" }

/-- `tickers.<sym>` data is a single object. -/
def parseTicker (now : Int64) (data : Value F) : List (DataMessage F) :=
  [.ticker {
    symbol := data.strOr "symbol" ""
    exchange := exchangeName
    price := data.strF64 "lastPrice"
    bestBid := (data.optStrF64 "bid1Price").getD 0
    bestAsk := (data.optStrF64 "ask1Price").getD 0
    exchangeTs := now
    receiptTs := now }]

/-- `kline.<interval>.<sym>` data is an array of bars, which do not carry the symbol. -/
def parseKlineBatch (now : Int64) (data : Value F) : List (DataMessage F) :=
  (data.asArray.getD []).map fun k => .candle {
    symbol := ""
    exchange := exchangeName
    interval := k.strOr "interval" ""
    openTs := k.i64Or "start" 0
    «open» := k.strF64 "open"
    high := k.strF64 "high"
    low := k.strF64 "low"
    close := k.strF64 "close"
    volume := k.strF64 "volume"
    isClosed := ((k.index "confirm").asBool).getD false
    receiptTs := now }

/-- The book message of one `orderbook` frame; one update id stands for first and last. -/
def orderbook (now : Int64) (data : Value F) (isSnapshot : Bool) : OrderBookData F F where
  symbol := data.strOr "s" ""
  exchange := exchangeName
  asks := parseLevels (data.index "a")
  bids := parseLevels (data.index "b")
  exchangeTs := now
  receiptTs := now
  isSnapshot := isSnapshot
  firstUpdateId := (data.index "u").asU64
  lastUpdateId := (data.index "u").asU64

def parseOrderbook (now : Int64) (data : Value F) (isSnapshot : Bool) : List (DataMessage F) :=
  [.orderBook (orderbook now data isSnapshot)]

/-- What `parse_message` makes of a frame that is JSON. -/
def parseFrame (now : Int64) (json : Value F) : List (DataMessage F) :=
  if (json.get "op").isSome then []
  else
    let topic := json.strOr "topic" ""
    match json.get "data" with
    | none => []
    | some data =>
      let isSnapshot := json.strOr "type" "snapshot" == "snapshot"
      if startsWith topic "publicTrade." then parseTradeBatch now data
      else if startsWith topic "tickers." then parseTicker now data
      else if startsWith topic "kline." then parseKlineBatch now data
      else if startsWith topic "orderbook." then parseOrderbook now data isSnapshot
      else []

def parseMessage (fromStr : String → Result (Value F)) (now : Int64) (raw : String) :
    Result (List (DataMessage F)) :=
  (fromStr raw).map (parseFrame now)

end ExchangeApiws.Native.Bybit
