import ExchangeApiws.Native.Actors
import ExchangeApiws.Native.Error

/-!
# Coinbase public connector

Translation of `parse_message` and its parsers from `src/coinbase/ws.rs`. `fromStr` is
`serde_json::from_str`, `rfc3339` the milliseconds of an RFC 3339 timestamp and `now` the
reading of the receipt clock.
-/

namespace ExchangeApiws.Native.Coinbase

variable {F : Type} [F64 F]

def exchangeName : String := "coinbase"

/-- An RFC 3339 timestamp in epoch milliseconds (0 on failure). -/
def rfc3339Ms (rfc3339 : String → Option Int64) (v : Value F) (key : String) : Int64 :=
  (((v.get key).bind Value.asStr).bind rfc3339).getD 0

def parseTicker (now : Int64) (t : Value F) : Option (DataMessage F) := do
  let symbol ← (← t.get "product_id").asStr
  return .ticker {
    symbol := symbol
    exchange := exchangeName
    price := t.strF64 "price"
    bestBid := t.strF64 "best_bid"
    bestAsk := t.strF64 "best_ask"
    exchangeTs := now
    receiptTs := now }

def parseTrade (rfc3339 : String → Option Int64) (now : Int64) (t : Value F) :
    Option (DataMessage F) := do
  let symbol ← (← t.get "product_id").asStr
  return .trade {
    symbol := symbol
    exchange := exchangeName
    side := if eqIgnoreAsciiCase (t.strOr "side" "BUY") "SELL" then .sell else .buy
    price := t.strF64 "price"
    amount := t.strF64 "size"
    exchangeTs := rfc3339Ms rfc3339 t "time"
    receiptTs := now
    tradeId := t.strOr "trade_id" "" }

/-- A `{side, price_level, new_quantity}` row: whether it is a bid, and its level. -/
def l2Update (u : Value F) : Option (Bool × F × F) := do
  let px ← F64.parse (← (← u.get "price_level").asStr)
  let qty ← F64.parse (← (← u.get "new_quantity").asStr)
  let side := u.strOr "side" ""
  return (eqIgnoreAsciiCase side "bid" || eqIgnoreAsciiCase side "buy", px, qty)

/-- A `level2` event. It is dropped when one of its rows does not parse. -/
def l2 (now : Int64) (ev : Value F) : Option (OrderBookData F F) := do
  let symbol ← (ev.get "product_id").bind Value.asStr
  let isSnapshot := ev.strOr "type" "update" == "snapshot"
  let updates ← (ev.get "updates").bind Value.asArray
  let rows ← updates.mapM l2Update
  return {
    symbol := symbol
    exchange := exchangeName
    asks := (rows.filter (!·.1)).map (·.2)
    bids := (rows.filter (·.1)).map (·.2)
    exchangeTs := now
    receiptTs := now
    isSnapshot := isSnapshot
    -- Coinbase's `sequence_num` is per-connection, not per-book.
    firstUpdateId := none
    lastUpdateId := none }

def parseL2 (now : Int64) (ev : Value F) : Option (DataMessage F) :=
  (l2 now ev).map .orderBook

/-- What `parse_message` makes of a frame that is JSON. -/
def parseFrame (rfc3339 : String → Option Int64) (now : Int64) (json : Value F) :
    List (DataMessage F) :=
  let channel := json.strOr "channel" ""
  -- subscribe acks arrive on the `subscriptions` channel
  if channel = "subscriptions" ∨ channel.isEmpty then []
  else match (json.get "events").bind Value.asArray with
    | none => []
    | some events => events.flatMap fun ev =>
      if channel = "ticker" then
        (((ev.get "tickers").bind Value.asArray).getD []).filterMap (parseTicker now)
      else if channel = "market_trades" then
        (((ev.get "trades").bind Value.asArray).getD []).filterMap (parseTrade rfc3339 now)
      else if channel = "l2_data" ∨ channel = "level2" then (parseL2 now ev).toList
      else []

def parseMessage (fromStr : String → Result (Value F)) (rfc3339 : String → Option Int64)
    (now : Int64) (raw : String) : Result (List (DataMessage F)) :=
  (fromStr raw).map (parseFrame rfc3339 now)

end ExchangeApiws.Native.Coinbase
