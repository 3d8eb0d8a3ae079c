import ExchangeApiws.Native.Actors
import ExchangeApiws.Native.Error

/-!
# OKX public connector

Translation of `parse_message` and its parsers from `src/okx/ws.rs`. `fromStr` is
`serde_json::from_str` and `now` the reading of the receipt clock.
-/

namespace ExchangeApiws.Native.Okx

variable {F : Type} [F64 F]

def exchangeName : String := "okx"

def parseTrade (now : Int64) (t : Value F) : Option (DataMessage F) := do
  let symbol ← (← t.get "instId").asStr
  return .trade {
    symbol := symbol
    exchange := exchangeName
    side := if eqIgnoreAsciiCase (t.strOr "side" "buy") "sell" then .sell else .buy
    price := t.strF64 "px"
    amount := t.strF64 "sz"
    exchangeTs := t.strI64 "ts"
    receiptTs := now
    tradeId := t.strOr "tradeId" "" }

def parseTicker (now : Int64) (t : Value F) : Option (DataMessage F) := do
  let symbol ← (← t.get "instId").asStr
  return .ticker {
    symbol := symbol
    exchange := exchangeName
    price := t.strF64 "last"
    bestBid := t.strF64 "bidPx"
    bestAsk := t.strF64 "askPx"
    exchangeTs := t.strI64 "ts"
    receiptTs := now }

/-- The book message of one `books` entry. Levels are `[price, size, _, _]` rows. Messages
    are numbered by `seqId` and chained by `prevSeqId` (`-1` on snapshots), so the first
    update that this one covers is `prevSeqId + 1`; that sum is an `i64`. -/
def book (now : Int64) (d : Value F) (isSnapshot : Bool) : OrderBookData F F :=
  let levels := fun key => ((d.get key).map Value.levels).getD []
  let lastUpdateId := (((d.get "seqId").bind Value.asI64)).bind tryFromI64
  let firstUpdateId :=
    (((d.get "prevSeqId").bind Value.asI64).bind fun p => tryFromI64 (p + 1)).or lastUpdateId
  { symbol := d.strOr "instId" ""
    exchange := exchangeName
    asks := levels "asks"
    bids := levels "bids"
    exchangeTs := d.strI64 "ts"
    receiptTs := now
    isSnapshot := isSnapshot
    firstUpdateId := firstUpdateId
    lastUpdateId := lastUpdateId }

def parseBook (now : Int64) (d : Value F) (isSnapshot : Bool) : DataMessage F :=
  .orderBook (book now d isSnapshot)

/-- What `parse_message` makes of a frame that is JSON. -/
def parseFrame (now : Int64) (json : Value F) : List (DataMessage F) :=
  if (json.get "event").isSome then []
  else
    let channel := (((json.get "arg").bind (·.get "channel")).bind Value.asStr).getD ""
    match (json.get "data").bind Value.asArray with
    | none => []
    | some data =>
      if channel = "trades" then data.filterMap (parseTrade now)
      else if channel = "tickers" then data.filterMap (parseTicker now)
      else if channel = "books" then
        let isSnapshot := json.strOr "action" "snapshot" == "snapshot"
        data.map fun d => parseBook now d isSnapshot
      else []

def parseMessage (fromStr : String → Result (Value F)) (now : Int64) (raw : String) :
    Result (List (DataMessage F)) :=
  -- the heartbeat reply is the literal text "pong"
  if raw = "pong" then .ok [] else (fromStr raw).map (parseFrame now)

end ExchangeApiws.Native.Okx
