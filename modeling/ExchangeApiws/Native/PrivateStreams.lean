import ExchangeApiws.Native.KucoinFeed

/-!
# The whole streams of Binance user data, Kraken, Bybit private and Crypto.com user

Translation of `parse_message`, with the parsers of every channel, from
`src/binance/private_ws.rs`, `src/kraken/ws.rs`, `src/bybit/private_ws.rs` and
`src/cryptocom/private_ws.rs`. The parsers of orders and fills are those of the private order
streams; here `parseStream` is the whole `parse_message`. `now` is the reading of the receipt
clock.
-/

namespace ExchangeApiws.Native

/-! ## Binance -/

namespace BinanceUserData

variable {F : Type} [F64Arith F]

/-- An `outboundAccountPosition` snapshot: one update per asset of the `B` array. -/
def parseAccountPosition (now : Int64) (d : Value F) : List (FeedMessage F) :=
  match (d.get "B").bind Value.asArray with
  | none => []
  | some balances =>
    balances.filterMap fun b =>
      (nonempty (b.strOr "a" "")).map fun currency =>
        .balanceUpdate {
          exchange := exchangeName
          currency := currency
          availableBalance := b.strF64 "f"
          holdBalance := b.strF64 "l"
          event := "outboundAccountPosition"
          exchangeTs := (i64Num d "E").getD now
          receiptTs := now }

/-- The messages of a frame that is JSON. -/
def parseStreamFrame (reader : Reader F) (now : Int64) (json : Value F) : List (FeedMessage F) :=
  match (json.get "e").bind Value.asStr with
  | some "executionReport" => ((parseExecutionReport reader now json).map .orderUpdate).toList
  | some "outboundAccountPosition" => parseAccountPosition now json
  | _ => []

def parseStream (reader : Reader F) (now : Int64) (raw : String) :
    Result (List (FeedMessage F)) :=
  (reader.json raw).map (parseStreamFrame reader now)

end BinanceUserData

/-! ## Kraken -/

namespace KrakenWs

variable {F : Type} [F64Arith F]

/-- A field that is an RFC 3339 text; the receipt time where it is missing or malformed. -/
def isoField (reader : Reader F) (now : Int64) (v : Value F) (key : String) : Int64 :=
  (((v.get key).bind Value.asStr).bind reader.rfc3339).getD now

/-- A JSON integer as text. -/
def u64Text (v : Value F) (key : String) : String :=
  (((v.get key).bind Value.asU64).map fun n => toString n.toNat).getD ""

def parseTrades (reader : Reader F) (now : Int64) (data : List (Value F)) :
    List (DataMessage F) :=
  data.map fun t => .trade {
    symbol := t.strOr "symbol" ""
    exchange := exchangeName
    side := sideOf t "side" "buy"
    price := f64Field t "price"
    amount := f64Field t "qty"
    exchangeTs := isoField reader now t "timestamp"
    receiptTs := now
    tradeId := u64Text t "trade_id" }

/-- The ticker frame carries no timestamp. -/
def parseTickers (now : Int64) (data : List (Value F)) : List (DataMessage F) :=
  data.map fun t => .ticker {
    symbol := t.strOr "symbol" ""
    exchange := exchangeName
    price := f64Field t "last"
    bestBid := f64Field t "bid"
    bestAsk := f64Field t "ask"
    exchangeTs := now
    receiptTs := now }

/-- Kraken does not say whether a bar is closed. -/
def parseKlines (reader : Reader F) (now : Int64) (data : List (Value F)) :
    List (DataMessage F) :=
  data.map fun c => .candle {
    symbol := c.strOr "symbol" ""
    exchange := exchangeName
    interval := u64Text c "interval"
    openTs := isoField reader now c "interval_begin"
    «open» := f64Field c "open"
    high := f64Field c "high"
    low := f64Field c "low"
    close := f64Field c "close"
    volume := f64Field c "volume"
    isClosed := false
    receiptTs := now }

/-- A `{price, qty}` record; `none` where one of the two is not a number. -/
def levelObject (lvl : Value F) : Option (F × F) := do
  let p ← (← lvl.get "price").asF64
  let q ← (← lvl.get "qty").asF64
  return (p, q)

/-- Convert an array of `{price, qty}` records; those that do not parse are left out. -/
def parseLevelObjects (v : Option (Value F)) : List (F × F) :=
  ((v.bind Value.asArray).map (·.filterMap levelObject)).getD []

/-- The book message of one `book` element. Kraken books carry a checksum, not a sequence. -/
def book (now : Int64) (b : Value F) (isSnapshot : Bool) : OrderBookData F F where
  symbol := b.strOr "symbol" ""
  exchange := exchangeName
  asks := parseLevelObjects (b.get "asks")
  bids := parseLevelObjects (b.get "bids")
  exchangeTs := now
  receiptTs := now
  isSnapshot := isSnapshot
  firstUpdateId := none
  lastUpdateId := none

def parseBooks (now : Int64) (data : List (Value F)) (isSnapshot : Bool) :
    List (DataMessage F) :=
  data.map fun b => .orderBook (book now b isSnapshot)

def parseExecutions (reader : Reader F) (now : Int64) (data : List (Value F)) :
    List (FeedMessage F) :=
  (data.filterMap (parseExecution reader now)).map .orderUpdate

/-- The `balances` channel has no split between available and held. -/
def parseBalances (now : Int64) (data : List (Value F)) : List (FeedMessage F) :=
  data.filterMap fun b =>
    (nonempty (b.strOr "asset" "")).map fun currency =>
      .balanceUpdate {
        exchange := exchangeName
        currency := currency
        availableBalance := f64Field b "balance"
        holdBalance := 0
        event := "balances"
        exchangeTs := now
        receiptTs := now }

/-- The messages of a frame that is JSON. -/
def parseStreamFrame (reader : Reader F) (now : Int64) (json : Value F) : List (FeedMessage F) :=
  if (json.get "method").isSome then []
  else match (json.get "data").bind Value.asArray with
    | none => []
    | some data =>
      let isSnapshot := json.strOr "type" "update" == "snapshot"
      match json.strOr "channel" "" with
      | "trade" => (parseTrades reader now data).map .market
      | "ticker" => (parseTickers now data).map .market
      | "ohlc" => (parseKlines reader now data).map .market
      | "book" => (parseBooks now data isSnapshot).map .market
      | "executions" => parseExecutions reader now data
      | "balances" => parseBalances now data
      | _ => []

def parseStream (reader : Reader F) (now : Int64) (raw : String) :
    Result (List (FeedMessage F)) :=
  (reader.json raw).map (parseStreamFrame reader now)

end KrakenWs

/-! ## Bybit -/

namespace BybitPrivate

variable {F : Type} [F64Arith F] [Neg F]

/-- An integer field that is a number or a numeric string. -/
def i64Any (d : Value F) (key : String) : Option Int64 := CryptocomUser.i64Any d key

/-- An element of the `position` topic; `size` is unsigned, and `side` gives its sign. -/
def parsePosition (now : Int64) (d : Value F) : Option (PositionChange F) :=
  ((d.get "symbol").bind Value.asStr).map fun symbol =>
    let magnitude := d.strF64 "size"
    let side := d.strOr "side" ""
    { symbol := symbol
      exchange := exchangeName
      currentQty :=
        if eqIgnoreAsciiCase side "sell" then -magnitude
        else if eqIgnoreAsciiCase side "buy" then magnitude
        else 0
      avgEntryPrice := d.strF64 "entryPrice"
      unrealisedPnl := d.strF64 "unrealisedPnl"
      realisedPnl := d.strF64 "cumRealisedPnl"
      changeReason := (nonempty (d.strOr "positionStatus" "")).getD "positionChange"
      exchangeTs := (strI64 d "updatedTime").getD now
      receiptTs := now }

omit [Neg F] in
/-- An account of the `wallet` topic: one update per coin. -/
def parseWallet (now : Int64) (acct : Value F) (creationTs : Option Int64) :
    List (BalanceUpdate F) :=
  match (acct.get "coin").bind Value.asArray with
  | none => []
  | some coins =>
    coins.filterMap fun c =>
      (nonempty (c.strOr "coin" "")).map fun currency =>
        { exchange := exchangeName
          currency := currency
          availableBalance := c.strF64 "availableToWithdraw"
          holdBalance := c.strF64 "locked"
          event := (nonempty (acct.strOr "accountType" "")).getD "wallet"
          exchangeTs := creationTs.getD now
          receiptTs := now }

/-- The messages of a frame that is JSON; op responses carry none. -/
def parseStreamFrame (reader : Reader F) (now : Int64) (json : Value F) : List (FeedMessage F) :=
  if (json.get "op").isSome then []
  else match (json.get "data").bind Value.asArray with
    | none => []
    | some data =>
      let creationTs := i64Any json "creationTime"
      match json.strOr "topic" "" with
      | "order" => (data.filterMap (parseOrder reader now)).map .orderUpdate
      | "execution" => (data.filterMap (parseExecution reader now)).map .orderUpdate
      | "position" => (data.filterMap (parsePosition now)).map .positionChange
      | "wallet" => (data.flatMap fun acct => parseWallet now acct creationTs).map .balanceUpdate
      | _ => []

def parseStream (reader : Reader F) (now : Int64) (raw : String) :
    Result (List (FeedMessage F)) :=
  (reader.json raw).map (parseStreamFrame reader now)

end BybitPrivate

/-! ## Crypto.com -/

namespace CryptocomUser

variable {F : Type} [F64Arith F]

/-- A `user.balance` snapshot: one update per position balance, stamped with the receipt time. -/
def parseUserBalance (now : Int64) (d : Value F) : List (BalanceUpdate F) :=
  match (d.get "position_balances").bind Value.asArray with
  | none => []
  | some positions =>
    positions.filterMap fun p =>
      (nonempty (p.strOr "instrument_name" "")).map fun currency =>
        { exchange := exchangeName
          currency := currency
          availableBalance := strF64Any p ["max_withdrawal_balance", "quantity"]
          holdBalance := p.strF64 "reserved_qty"
          event := "user.balance"
          exchangeTs := now
          receiptTs := now }

/-- The messages of a frame that is JSON; acknowledgements carry no `result.data`. -/
def parseStreamFrame (reader : Reader F) (now : Int64) (json : Value F) : List (FeedMessage F) :=
  match json.get "result" with
  | none => []
  | some result =>
    match (result.get "data").bind Value.asArray with
    | none => []
    | some data =>
      match result.strOr "channel" "" with
      | "user.order" => (data.filterMap (parseUserOrder reader now)).map .orderUpdate
      | "user.trade" => (data.filterMap (parseUserTrade now)).map .orderUpdate
      | "user.balance" => (data.flatMap (parseUserBalance now)).map .balanceUpdate
      | _ => []

def parseStream (reader : Reader F) (now : Int64) (raw : String) :
    Result (List (FeedMessage F)) :=
  (reader.json raw).map (parseStreamFrame reader now)

end CryptocomUser

end ExchangeApiws.Native
