import ExchangeApiws.ForStd.RecordFormat
import ExchangeApiws.Native.Connectors

/-!
# Records as JSON

The normalized records of `src/actors.rs`: the fields of each under their names, with the
attributes of their `Serialize` and `Deserialize` derives. What serde and `serde_json` do with
them is not in the repository: `SerdeJson` has what is documented of the types of the fields, and
`Derives` what is documented of a record. A record is written to a `serde_json::Value` and read
from one; the text of a value is not modelled, and a float need not survive it.
-/

namespace ExchangeApiws.Native

variable {F : Type}

/-! ## Values -/

/-- `serde_json::to_value` and `from_value` at the types of the fields. Strings, booleans and
    integers are the JSON value of their kind, a float that is not finite is `null`, and an array
    or a `Vec` is an array. -/
class SerdeJson (F : Type) where
  /-- `f64::is_finite`. -/
  isFinite : F → Bool
  string : ValueFormat (Value F) String
  bool : ValueFormat (Value F) Bool
  i64 : ValueFormat (Value F) Int64
  u64 : ValueFormat (Value F) UInt64
  f64 : ValueFormat (Value F) F
  /-- `[f64; 2]`. -/
  pair : ValueFormat (Value F) (F × F)
  /-- `Vec<[f64; 2]>`. -/
  levels : ValueFormat (Value F) (List (F × F))
  /-- `TradeSide`, with its names in lower case. -/
  tradeSide : ValueFormat (Value F) TradeSide
  string_write : ∀ s, string.write s = .string s
  string_read : ∀ s, string.read (.string s) = some s
  bool_write : ∀ b, bool.write b = .bool b
  bool_read : ∀ b, bool.read (.bool b) = some b
  i64_write : ∀ i, i64.write i = .number (.ofInt64 i)
  i64_read : ∀ i, i64.read (.number (.ofInt64 i)) = some i
  u64_write : ∀ n, u64.write n = .number (.posInt n)
  u64_read : ∀ n, u64.read (.number (.posInt n)) = some n
  f64_write : ∀ x, f64.write x = if isFinite x then .number (.float x) else .null
  f64_read : ∀ x, f64.read (.number (.float x)) = some x
  f64_read_null : f64.read .null = none
  pair_write : ∀ x y, pair.write (x, y) = .array [f64.write x, f64.write y]
  pair_read : ∀ v w, pair.read (.array [v, w]) =
    (f64.read v).bind fun x => (f64.read w).map fun y => (x, y)
  levels_write : ∀ ls, levels.write ls = .array (ls.map pair.write)
  levels_read : ∀ vs, levels.read (.array vs) = vs.mapM pair.read
  tradeSide_write : tradeSide.write .buy = .string "buy" ∧ tradeSide.write .sell = .string "sell"
  tradeSide_read : tradeSide.read (.string "buy") = some .buy ∧
    tradeSide.read (.string "sell") = some .sell

/-- An `i64` is read as the number that it is written as. -/
theorem Value.asI64_ofInt64 (i : Int64) :
    (Value.number (.ofInt64 i) : Value F).asI64 = some i := by
  by_cases hi : i < 0
  · simp only [Number.ofInt64, if_pos hi, Value.asI64]
  · have hlt : i.toUInt64.toNat < 2 ^ 63 := by
      rw [Int64.toNat_toUInt64_of_le (Int64.not_lt.mp hi)]
      exact i.toNatClampNeg_lt
    simp only [Number.ofInt64, if_neg hi, Value.asI64, if_pos hlt, Int64.toInt64_toUInt64]

instance : NullValue (Value F) where
  null := .null
  isNull
    | .null => true
    | _ => false
  isNull_null := rfl

/-! ## Records -/

/-- The fields of a record, as the entries of a JSON object. -/
abbrev SerdeFormat (F R : Type) := RecordFormat String (Value F) R R

/-- What is documented of the `Serialize` and `Deserialize` that serde derives for a record: it is
    an object with an entry for each field, and it is read from an object with its entries in any
    order, where entries that are no field are ignored. -/
structure Derives {R : Type} (format : SerdeFormat F R) (serde : ValueFormat (Value F) R) :
    Prop where
  write : ∀ r, ∃ entries, serde.write r = .object entries ∧ entries.Perm (format.write r)
  read : ∀ entries, (entries.map Prod.fst).Nodup →
    serde.read (.object entries) = format.read (entries.lookup ·)

section Records

open RecordFormat (pure)
open SerdeJson

variable [SerdeJson F]

/-- `TradeData`. -/
def TradeData.format : SerdeFormat F (TradeData F) :=
  (pure TradeData.mk)
    |>.field "symbol" string (·.symbol)
    |>.field "exchange" string (·.exchange)
    |>.field "side" tradeSide (·.side)
    |>.field "price" f64 (·.price)
    |>.field "amount" f64 (·.amount)
    |>.field "exchange_ts" i64 (·.exchangeTs)
    |>.field "receipt_ts" i64 (·.receiptTs)
    |>.field "trade_id" string (·.tradeId)

/-- `TickerData`. -/
def TickerData.format : SerdeFormat F (TickerData F) :=
  (pure TickerData.mk)
    |>.field "symbol" string (·.symbol)
    |>.field "exchange" string (·.exchange)
    |>.field "price" f64 (·.price)
    |>.field "best_bid" f64 (·.bestBid)
    |>.field "best_ask" f64 (·.bestAsk)
    |>.field "exchange_ts" i64 (·.exchangeTs)
    |>.field "receipt_ts" i64 (·.receiptTs)

/-- `OrderBookData`. -/
def OrderBookData.format : SerdeFormat F (OrderBookData F F) :=
  (pure OrderBookData.mk)
    |>.field "symbol" string (·.symbol)
    |>.field "exchange" string (·.exchange)
    |>.field "asks" levels (·.asks)
    |>.field "bids" levels (·.bids)
    |>.field "exchange_ts" i64 (·.exchangeTs)
    |>.field "receipt_ts" i64 (·.receiptTs)
    |>.field "is_snapshot" bool (·.isSnapshot)
    |>.skippable "first_update_id" u64 (·.firstUpdateId)
    |>.skippable "last_update_id" u64 (·.lastUpdateId)

/-- `CandleData`. -/
def CandleData.format : SerdeFormat F (CandleData F) :=
  (pure CandleData.mk)
    |>.field "symbol" string (·.symbol)
    |>.field "exchange" string (·.exchange)
    |>.field "interval" string (·.interval)
    |>.field "open_ts" i64 (·.openTs)
    |>.field "open" f64 (·.«open»)
    |>.field "high" f64 (·.high)
    |>.field "low" f64 (·.low)
    |>.field "close" f64 (·.close)
    |>.field "volume" f64 (·.volume)
    |>.field "is_closed" bool (·.isClosed)
    |>.field "receipt_ts" i64 (·.receiptTs)

/-- `FundingData`. -/
def FundingData.format : SerdeFormat F (FundingData F) :=
  (pure FundingData.mk)
    |>.field "symbol" string (·.symbol)
    |>.field "exchange" string (·.exchange)
    |>.field "funding_rate" f64 (·.fundingRate)
    |>.field "next_funding_time" i64 (·.nextFundingTime)
    |>.nullable "mark_price" f64 (·.markPrice)
    |>.nullable "index_price" f64 (·.indexPrice)
    |>.field "exchange_ts" i64 (·.exchangeTs)
    |>.field "receipt_ts" i64 (·.receiptTs)

/-- `OrderUpdate`. -/
def OrderUpdate.format : SerdeFormat F (OrderUpdate F) :=
  (pure OrderUpdate.mk)
    |>.field "symbol" string (·.symbol)
    |>.field "exchange" string (·.exchange)
    |>.field "order_id" string (·.orderId)
    |>.nullable "client_oid" string (·.clientOid)
    |>.field "side" tradeSide (·.side)
    |>.field "order_type" string (·.orderType)
    |>.field "status" string (·.status)
    |>.field "price" f64 (·.price)
    |>.field "size" f64 (·.size)
    |>.field "filled_size" f64 (·.filledSize)
    |>.field "remaining_size" f64 (·.remainingSize)
    |>.field "fee" f64 (·.fee)
    |>.nullable "match_price" f64 (·.matchPrice)
    |>.nullable "match_size" f64 (·.matchSize)
    |>.nullable "trade_id" string (·.tradeId)
    |>.field "exchange_ts" i64 (·.exchangeTs)
    |>.field "receipt_ts" i64 (·.receiptTs)

/-- `PositionChange`. -/
def PositionChange.format : SerdeFormat F (PositionChange F) :=
  (pure PositionChange.mk)
    |>.field "symbol" string (·.symbol)
    |>.field "exchange" string (·.exchange)
    |>.field "current_qty" f64 (·.currentQty)
    |>.field "avg_entry_price" f64 (·.avgEntryPrice)
    |>.field "unrealised_pnl" f64 (·.unrealisedPnl)
    |>.field "realised_pnl" f64 (·.realisedPnl)
    |>.field "change_reason" string (·.changeReason)
    |>.field "exchange_ts" i64 (·.exchangeTs)
    |>.field "receipt_ts" i64 (·.receiptTs)

/-- `BalanceUpdate`. -/
def BalanceUpdate.format : SerdeFormat F (BalanceUpdate F) :=
  (pure BalanceUpdate.mk)
    |>.field "exchange" string (·.exchange)
    |>.field "currency" string (·.currency)
    |>.field "available_balance" f64 (·.availableBalance)
    |>.field "hold_balance" f64 (·.holdBalance)
    |>.field "event" string (·.event)
    |>.field "exchange_ts" i64 (·.exchangeTs)
    |>.field "receipt_ts" i64 (·.receiptTs)

/-- `InstrumentEvent`. -/
def InstrumentEvent.format : SerdeFormat F (InstrumentEvent F) :=
  (pure InstrumentEvent.mk)
    |>.field "symbol" string (·.symbol)
    |>.field "exchange" string (·.exchange)
    |>.field "subject" string (·.subject)
    |>.nullable "mark_price" f64 (·.markPrice)
    |>.nullable "index_price" f64 (·.indexPrice)
    |>.nullable "funding_rate" f64 (·.fundingRate)
    |>.nullable "predicted_funding_rate" f64 (·.predictedFundingRate)
    |>.nullable "premium_index" f64 (·.premiumIndex)
    |>.field "exchange_ts" i64 (·.exchangeTs)
    |>.field "receipt_ts" i64 (·.receiptTs)

/-- `AdvancedOrderUpdate`. -/
def AdvancedOrderUpdate.format : SerdeFormat F (AdvancedOrderUpdate F) :=
  (pure AdvancedOrderUpdate.mk)
    |>.field "symbol" string (·.symbol)
    |>.field "exchange" string (·.exchange)
    |>.field "order_id" string (·.orderId)
    |>.nullable "client_oid" string (·.clientOid)
    |>.field "status" string (·.status)
    |>.field "side" tradeSide (·.side)
    |>.field "order_type" string (·.orderType)
    |>.nullable "stop" string (·.stop)
    |>.nullable "stop_price" f64 (·.stopPrice)
    |>.nullable "price" f64 (·.price)
    |>.field "size" f64 (·.size)
    |>.field "exchange_ts" i64 (·.exchangeTs)
    |>.field "receipt_ts" i64 (·.receiptTs)

end Records

namespace SampleSerde

/-- The values as `serde_json` has them, for concrete inputs: every other value is refused. -/
abbrev serdeJson [F64 F] (isFinite : F → Bool) : SerdeJson F :=
  let f64 : ValueFormat (Value F) F :=
    ⟨fun x => if isFinite x then .number (.float x) else .null, Value.asF64⟩
  let pair : ValueFormat (Value F) (F × F) :=
    ⟨fun p => .array [f64.write p.1, f64.write p.2], fun
      | .array [v, w] => (f64.read v).bind fun x => (f64.read w).map fun y => (x, y)
      | _ => none⟩
  { isFinite := isFinite
    string := ⟨.string, Value.asStr⟩
    bool := ⟨.bool, Value.asBool⟩
    i64 := ⟨fun i => .number (.ofInt64 i), Value.asI64⟩
    u64 := ⟨fun n => .number (.posInt n), Value.asU64⟩
    f64 := f64
    pair := pair
    levels := ⟨fun ls => .array (ls.map pair.write), fun
      | .array vs => vs.mapM pair.read
      | _ => none⟩
    tradeSide := ⟨fun
      | .buy => .string "buy"
      | .sell => .string "sell", fun
      | .string "buy" => some .buy
      | .string "sell" => some .sell
      | _ => none⟩
    string_write := fun _ => rfl
    string_read := fun _ => rfl
    bool_write := fun _ => rfl
    bool_read := fun _ => rfl
    i64_write := fun _ => rfl
    i64_read := Value.asI64_ofInt64
    u64_write := fun _ => rfl
    u64_read := fun _ => rfl
    f64_write := fun _ => rfl
    f64_read := fun _ => rfl
    f64_read_null := rfl
    pair_write := fun _ _ => rfl
    pair_read := fun _ _ => rfl
    levels_write := fun _ => rfl
    levels_read := fun _ => rfl
    tradeSide_write := ⟨rfl, rfl⟩
    tradeSide_read := ⟨rfl, rfl⟩ }

/-- Numbers from `1000` on stand for those that are not finite. -/
scoped instance serdeJsonInt : SerdeJson ℤ := serdeJson fun x => decide (x < 1000)

/-- A record as its derives write and read it, for concrete inputs. -/
def record {R : Type} (format : SerdeFormat F R) : ValueFormat (Value F) R where
  write r := .object (format.write r)
  read
    | .object entries => format.read (entries.lookup ·)
    | _ => none

/-- The sample is written and read as documented. -/
theorem derives_record {R : Type} (format : SerdeFormat F R) : Derives format (record format) :=
  ⟨fun r => ⟨format.write r, rfl, .refl _⟩, fun _ _ => rfl⟩

end SampleSerde

end ExchangeApiws.Native
