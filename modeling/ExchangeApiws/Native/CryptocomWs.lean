import ExchangeApiws.Native.Actors
import ExchangeApiws.Native.Error

/-!
# Crypto.com public connector

Translation of `response_for`, `parse_message` and its parsers from `src/cryptocom/ws.rs`.
`fromStr` is `serde_json::from_str` and `now` the reading of the receipt clock.
-/

namespace ExchangeApiws.Native.Cryptocom

variable {F : Type} [F64 F]

def exchangeName : String := "cryptocom"

/-- A numeric field that is a JSON string or a JSON number; `0.0` where it is neither. -/
def flexibleF64 (v : Value F) (key : String) : F :=
  match v.get key with
  | some (.string s) => (F64.parse s).getD 0
  | some (.number n) => ((Value.number n).asF64).getD 0
  | _ => 0

/-- Price levels: `[price, qty, orders]` rows of strings; rows that do not parse are left
    out. -/
def parseLevels (v : Option (Value F)) : List (F × F) := (v.map Value.levels).getD []

def parseTrades (now : Int64) (data : List (Value F)) (instrumentFallback : String) :
    List (DataMessage F) :=
  data.map fun t => .trade {
    symbol := t.strOr "i" instrumentFallback
    exchange := exchangeName
    side := if eqIgnoreAsciiCase (t.strOr "s" "buy") "sell" then .sell else .buy
    price := flexibleF64 t "p"
    amount := flexibleF64 t "q"
    exchangeTs := t.i64Or "t" 0
    receiptTs := now
    tradeId := t.strOr "d" "" }

/-- `a` is the latest trade price and `k` the best ask. -/
def parseTickers (now : Int64) (data : List (Value F)) (instrumentFallback : String) :
    List (DataMessage F) :=
  data.map fun t => .ticker {
    symbol := t.strOr "i" instrumentFallback
    exchange := exchangeName
    price := flexibleF64 t "a"
    bestBid := flexibleF64 t "b"
    bestAsk := flexibleF64 t "k"
    exchangeTs := t.i64Or "t" now
    receiptTs := now }

def parseCandles (now : Int64) (data : List (Value F)) (instrumentFallback : String) :
    List (DataMessage F) :=
  data.map fun c => .candle {
    symbol := c.strOr "i" instrumentFallback
    exchange := exchangeName
    interval := c.strOr "interval" ""
    openTs := c.i64Or "t" now
    «open» := flexibleF64 c "o"
    high := flexibleF64 c "h"
    low := flexibleF64 c "l"
    close := flexibleF64 c "c"
    volume := flexibleF64 c "v"
    isClosed := false
    receiptTs := now }

/-- The book message of one `book` entry. `u` and `pu` (the previous `u`) come with delta
    subscriptions; the first update covered is `pu + 1`, a `u64` sum. -/
def book (now : Int64) (b : Value F) (instrumentFallback : String) (isSnapshot : Bool) :
    OrderBookData F F :=
  let lastUpdateId := (b.get "u").bind Value.asU64
  let firstUpdateId := (((b.get "pu").bind Value.asU64).map (· + 1)).or lastUpdateId
  { symbol := instrumentFallback
    exchange := exchangeName
    asks := parseLevels (b.get "asks")
    bids := parseLevels (b.get "bids")
    exchangeTs := b.i64Or "t" now
    receiptTs := now
    isSnapshot := isSnapshot
    firstUpdateId := firstUpdateId
    lastUpdateId := lastUpdateId }

def parseBooks (now : Int64) (data : List (Value F)) (instrumentFallback : String)
    (isSnapshot : Bool) : List (DataMessage F) :=
  data.map fun b => .orderBook (book now b instrumentFallback isSnapshot)

/-- What `parse_message` makes of a frame that is JSON. -/
def parseFrame (now : Int64) (json : Value F) : List (DataMessage F) :=
  if (json.get "method").bind Value.asStr = some "public/heartbeat" then []
  else match json.get "result" with
    | none => []
    | some result =>
      let channel := result.strOr "channel" ""
      match (result.get "data").bind Value.asArray with
      | none => []
      | some data =>
        let instrument := result.strOr "instrument_name" ""
        let isSnapshot := result.strOr "type" "update" == "snapshot"
        if channel = "trade" then parseTrades now data instrument
        else if channel = "ticker" then parseTickers now data instrument
        else if channel = "candlestick" then parseCandles now data instrument
        else if channel = "book" then parseBooks now data instrument isSnapshot
        else []

def parseMessage (fromStr : String → Result (Value F)) (now : Int64) (raw : String) :
    Result (List (DataMessage F)) :=
  (fromStr raw).map (parseFrame now)

/-- The `public/respond-heartbeat` frame that echoes `id`. -/
def heartbeatResponse (id : ℤ) : String :=
  "\x7b\"id\":" ++ toString id ++ ",\"method\":\"public/respond-heartbeat\"\x7d"

/-- The body of `response_for`, in both connectors. -/
def respondHeartbeat (fromStr : String → Result (Value F)) (raw : String) : Option String :=
  if contains raw "public/heartbeat" then do
    let json ← (fromStr raw).toOption
    let method ← (json.get "method").bind Value.asStr
    if method ≠ "public/heartbeat" then none
    else
      let id ← (json.get "id").bind Value.asI64
      return heartbeatResponse id.toInt
  else none

def responseFor (fromStr : String → Result (Value F)) (raw : String) : Option String :=
  respondHeartbeat fromStr raw

end ExchangeApiws.Native.Cryptocom
