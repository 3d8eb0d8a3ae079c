import ExchangeApiws.Native.Error

/-!
# Public REST responses

Translation of `unwrap_bybit_envelope` from `src/bybit/rest.rs`, and of `split_pair_keyed` and
the responses that rest on it from `src/kraken/rest.rs`. Decoding a value into a type is
serde's work: `decode` stands for it in an envelope, and `invalid` is the text of its error for
a value of an unexpected shape.
-/

namespace ExchangeApiws.Native

variable {F T : Type}

/-- Unwrap `{"retCode": 0, "retMsg": ..., "result": ...}`. -/
def Bybit.unwrapBybitEnvelope (decode : Value F → Except String T) (raw : Value F) : Result T :=
  let retCode := ((raw.get "retCode").bind Value.asI64).getD (-1)
  if retCode ≠ 0 then
    .error (.api (toString retCode) (((raw.get "retMsg").bind Value.asStr).getD "no message"))
  else (decode ((raw.get "result").getD .null)).mapError .json

namespace Kraken

/-! ## Pair-keyed maps -/

section

variable {V Row Cursor : Type}

/-- The state of the loop of `split_pair_keyed`. -/
structure PairKeyed (Row Cursor : Type) where
  pair : Option String
  rows : Option (List Row)
  last : Option Cursor

variable (decodeRows : V → Except String (List Row)) (decodeCursor : V → Except String Cursor)

/-- An iteration of the loop. -/
def splitEntry (state : PairKeyed Row Cursor) (entry : String × V) :
    Except String (PairKeyed Row Cursor) :=
  if entry.1 = "last" then do
    let last ← decodeCursor entry.2
    return { state with last := some last }
  else do
    -- The only non-`last` key is the pair Kraken echoes back.
    let rows ← decodeRows entry.2
    return { state with rows := some rows, pair := some entry.1 }

/-- What is left to do after the loop. -/
def finishSplit (state : PairKeyed Row Cursor) : Except String (String × List Row × Cursor) :=
  match state.pair with
  | none => .error "kraken response missing pair entry"
  | some pair =>
    match state.last with
    | none => .error "missing field `last`"
    | some last => .ok (pair, state.rows.getD [], last)

/-- Split the entries of a `{ "<PAIR>": [rows...], "last": <cursor> }` map. -/
def splitPairKeyed (entries : List (String × V)) : Except String (String × List Row × Cursor) := do
  let state ← entries.foldlM (splitEntry decodeRows decodeCursor) ⟨none, none, none⟩
  finishSplit state

end

/-! ## Rows -/

section

variable (invalid : Value F → String)

def readAs (read : Value F → Option T) (v : Value F) : Except String T :=
  match read v with
  | some t => .ok t
  | none => .error (invalid v)

/-- `Vec::deserialize`. -/
def readVec (readRow : Value F → Except String T) (v : Value F) : Except String (List T) :=
  match v with
  | .array rows => rows.mapM readRow
  | _ => .error (invalid v)

/-- One OHLC candle; prices keep their wire shape. -/
structure KrakenCandle where
  time : Int64
  «open» : String
  high : String
  low : String
  close : String
  vwap : String
  volume : String
  count : UInt64
  deriving DecidableEq, Repr

/-- `[time, open, high, low, close, vwap, volume, count]`. -/
def KrakenCandle.deserialize (v : Value F) : Except String KrakenCandle :=
  match v with
  | .array [time, «open», high, low, close, vwap, volume, count] => do
    let time ← readAs invalid Value.asI64 time
    let «open» ← readAs invalid Value.asStr «open»
    let high ← readAs invalid Value.asStr high
    let low ← readAs invalid Value.asStr low
    let close ← readAs invalid Value.asStr close
    let vwap ← readAs invalid Value.asStr vwap
    let volume ← readAs invalid Value.asStr volume
    let count ← readAs invalid Value.asU64 count
    return ⟨time, «open», high, low, close, vwap, volume, count⟩
  | _ => .error (invalid v)

/-- One trade. -/
structure KrakenTrade (F : Type) where
  price : String
  volume : String
  time : F
  side : String
  orderType : String
  misc : String
  tradeId : Option UInt64
  deriving DecidableEq, Repr

/-- `[price, volume, time, side, type, misc, id?]`; any further fields are ignored. -/
def KrakenTrade.deserialize [F64 F] (v : Value F) : Except String (KrakenTrade F) :=
  match v with
  | .array (price :: volume :: time :: side :: orderType :: misc :: more) => do
    let price ← readAs invalid Value.asStr price
    let volume ← readAs invalid Value.asStr volume
    let time ← readAs invalid Value.asF64 time
    let side ← readAs invalid Value.asStr side
    let orderType ← readAs invalid Value.asStr orderType
    let misc ← readAs invalid Value.asStr misc
    -- The trade id is present only on newer responses.
    let tradeId ← more.head?.mapM (readAs invalid Value.asU64)
    return ⟨price, volume, time, side, orderType, misc, tradeId⟩
  | _ => .error (invalid v)

/-- One spread tick. -/
structure KrakenSpreadTick where
  time : Int64
  bid : String
  ask : String
  deriving DecidableEq, Repr

/-- `[time, bid, ask]`. -/
def KrakenSpreadTick.deserialize (v : Value F) : Except String KrakenSpreadTick :=
  match v with
  | .array [time, bid, ask] => do
    let time ← readAs invalid Value.asI64 time
    let bid ← readAs invalid Value.asStr bid
    let ask ← readAs invalid Value.asStr ask
    return ⟨time, bid, ask⟩
  | _ => .error (invalid v)

/-! ## Responses -/

/-- A map with the rows of one pair and a cursor. -/
def deserializePairKeyed {Row Cursor : Type} (readRow : Value F → Except String Row)
    (readCursor : Value F → Except String Cursor) (v : Value F) :
    Except String (String × List Row × Cursor) :=
  match v with
  | .object fields => splitPairKeyed (readVec invalid readRow) readCursor fields
  | _ => .error (invalid v)

/-- Response from `GET /0/public/OHLC`. -/
structure KrakenOhlc where
  pair : String
  candles : List KrakenCandle
  last : Int64
  deriving DecidableEq, Repr

def KrakenOhlc.deserialize (v : Value F) : Except String KrakenOhlc := do
  let (pair, candles, last) ← deserializePairKeyed invalid (KrakenCandle.deserialize invalid)
    (readAs invalid Value.asI64) v
  return ⟨pair, candles, last⟩

/-- Response from `GET /0/public/Trades`. The cursor is in nanoseconds, kept as a string. -/
structure KrakenRecentTrades (F : Type) where
  pair : String
  trades : List (KrakenTrade F)
  last : String
  deriving DecidableEq, Repr

def KrakenRecentTrades.deserialize [F64 F] (v : Value F) :
    Except String (KrakenRecentTrades F) := do
  let (pair, trades, last) ← deserializePairKeyed invalid (KrakenTrade.deserialize invalid)
    (readAs invalid Value.asStr) v
  return ⟨pair, trades, last⟩

/-- Response from `GET /0/public/Spread`. -/
structure KrakenSpread where
  pair : String
  spreads : List KrakenSpreadTick
  last : Int64
  deriving DecidableEq, Repr

def KrakenSpread.deserialize (v : Value F) : Except String KrakenSpread := do
  let (pair, spreads, last) ← deserializePairKeyed invalid (KrakenSpreadTick.deserialize invalid)
    (readAs invalid Value.asI64) v
  return ⟨pair, spreads, last⟩

end

end Kraken

end ExchangeApiws.Native
