import ExchangeApiws.Native.Records

/-!
# Records through JSON values

What comes back when a normalized record is written to a `serde_json::Value` and read again,
whatever the order of the object's entries and whatever else it holds. The derived
implementations and the values of the fields are as serde and `serde_json` document them.

## Key results

- `f64_exact`, `levels_exact`: a float comes back exactly if it is finite
- `record_round_trip`: exactly the records whose floats are all finite come back as themselves
-/

namespace ExchangeApiws.Spec

open Native RecordFormat SerdeJson

variable {F : Type} [SerdeJson F]

/-! ## Values -/

/-- A string comes back. -/
@[simp] theorem string_read_write (s : String) :
    (string (F := F)).read (string.write s) = some s := by
  rw [string_write, string_read]

/-- A boolean comes back. -/
@[simp] theorem bool_read_write (b : Bool) :
    (SerdeJson.bool (F := F)).read (SerdeJson.bool.write b) = some b := by
  rw [bool_write, bool_read]

/-- A `u64` comes back. -/
@[simp] theorem u64_read_write (n : UInt64) : (u64 (F := F)).read (u64.write n) = some n := by
  rw [u64_write, u64_read]

/-- An `i64` comes back, of either sign. -/
@[simp] theorem i64_read_write (i : Int64) : (i64 (F := F)).read (i64.write i) = some i := by
  rw [i64_write, i64_read]

/-- A side comes back from its name. -/
@[simp] theorem tradeSide_read_write (side : TradeSide) :
    (tradeSide (F := F)).read (tradeSide.write side) = some side := by
  cases side with
  | buy => rw [tradeSide_write.1, tradeSide_read.1]
  | sell => rw [tradeSide_write.2, tradeSide_read.2]

/-- No string is written as a null, so an optional one comes back. -/
@[simp] theorem readBackOption_string (s : Option String) :
    readBackOption (string (F := F)) s = some s := by
  cases s with
  | none => rfl
  | some s => simp [readBackOption, string_write, string_read, NullValue.isNull]

/-- No integer is written as a null, so an optional one comes back. -/
@[simp] theorem readBackOption_u64 (n : Option UInt64) :
    readBackOption (u64 (F := F)) n = some n := by
  cases n with
  | none => rfl
  | some n => simp [readBackOption, u64_write, u64_read, NullValue.isNull]

/-- A float comes back exactly if it is finite: otherwise a null was written. -/
theorem f64_exact : (f64 (F := F)).Exact fun x => isFinite x = true := by
  intro x
  constructor
  · intro hx
    rw [f64_write, if_pos hx, f64_read]
  · intro hx
    rw [f64_write, if_neg hx, f64_read_null]

/-- A level comes back exactly if both its floats are finite. -/
theorem pair_exact :
    (pair (F := F)).Exact fun p => isFinite p.1 = true ∧ isFinite p.2 = true := by
  rintro ⟨x, y⟩
  have hread : (pair (F := F)).read (pair.write (x, y)) =
      (f64.read (f64.write x)).bind fun x' =>
        (f64.read (f64.write y)).map fun y' => (x', y') := by
    rw [pair_write, pair_read]
  rw [hread, f64_exact.read_eq_ite, f64_exact.read_eq_ite]
  by_cases hx : isFinite x = true <;> by_cases hy : isFinite y = true <;> simp [hx, hy]

/-- The levels of a book come back exactly if all their floats are finite. -/
theorem levels_exact : (SerdeJson.levels (F := F)).Exact fun ls =>
    ∀ level ∈ ls, isFinite level.1 = true ∧ isFinite level.2 = true := by
  have hread : ∀ ls, (SerdeJson.levels (F := F)).read (SerdeJson.levels.write ls) =
      pair.list.read (pair.list.write ls) := fun ls => by
    rw [levels_write, levels_read]
    rfl
  intro ls
  rw [hread]
  exact pair_exact.list ls

/-- What comes back of the levels of a book. -/
@[simp] theorem levels_read_write (ls : List (F × F)) :
    SerdeJson.levels.read (SerdeJson.levels.write ls) =
      if ∀ level ∈ ls, isFinite level.1 = true ∧ isFinite level.2 = true then some ls else none :=
  levels_exact.read_eq_ite ls

/-- What comes back of a float. -/
@[simp] theorem f64_read_write (x : F) :
    f64.read (f64.write x) = if isFinite x then some x else none :=
  f64_exact.read_eq_ite x

/-- A float that is not finite is written as `null` and comes back as `None`. -/
@[simp] theorem readBackOption_f64 (x : Option F) :
    readBackOption f64 x = some (x.filter isFinite) := by
  cases x with
  | none => rfl
  | some x =>
    by_cases hx : isFinite x = true
    · simp [readBackOption, f64_write, hx, NullValue.isNull, f64_read, Option.filter]
    · simp [readBackOption, f64_write, hx, NullValue.isNull, Option.filter]

/-! ## Records -/

/-- The normalized records of `src/actors.rs`. -/
inductive RecordKind where
  | trade
  | ticker
  | orderBook
  | candle
  | funding
  | orderUpdate
  | positionChange
  | balanceUpdate
  | instrumentEvent
  | advancedOrderUpdate
  deriving DecidableEq, Repr

namespace RecordKind

/-- The type of the records of a kind. -/
abbrev Record (F : Type) : RecordKind → Type
  | trade => TradeData F
  | ticker => TickerData F
  | orderBook => OrderBookData F F
  | candle => CandleData F
  | funding => FundingData F
  | orderUpdate => OrderUpdate F
  | positionChange => PositionChange F
  | balanceUpdate => BalanceUpdate F
  | instrumentEvent => InstrumentEvent F
  | advancedOrderUpdate => AdvancedOrderUpdate F

/-- The fields of a kind. -/
def format : (kind : RecordKind) → SerdeFormat F (kind.Record F)
  | trade => TradeData.format
  | ticker => TickerData.format
  | orderBook => OrderBookData.format
  | candle => CandleData.format
  | funding => FundingData.format
  | orderUpdate => OrderUpdate.format
  | positionChange => PositionChange.format
  | balanceUpdate => BalanceUpdate.format
  | instrumentEvent => InstrumentEvent.format
  | advancedOrderUpdate => AdvancedOrderUpdate.format

/-- The floats of a record that are always there. -/
def required {F : Type} : (kind : RecordKind) → kind.Record F → List F
  | trade, (r : TradeData F) => [r.price, r.amount]
  | ticker, (r : TickerData F) => [r.price, r.bestBid, r.bestAsk]
  | orderBook, (r : OrderBookData F F) => (r.asks ++ r.bids).flatMap fun level => [level.1, level.2]
  | candle, (r : CandleData F) => [r.open, r.high, r.low, r.close, r.volume]
  | funding, (r : FundingData F) => [r.fundingRate]
  | orderUpdate, (r : OrderUpdate F) =>
    [r.price, r.size, r.filledSize, r.remainingSize, r.fee]
  | positionChange, (r : PositionChange F) =>
    [r.currentQty, r.avgEntryPrice, r.unrealisedPnl, r.realisedPnl]
  | balanceUpdate, (r : BalanceUpdate F) => [r.availableBalance, r.holdBalance]
  | instrumentEvent, _ => []
  | advancedOrderUpdate, (r : AdvancedOrderUpdate F) => [r.size]

/-- A record without the floats among its optional fields that are not finite. -/
def keepFinite : (kind : RecordKind) → kind.Record F → kind.Record F
  | trade, r => r
  | ticker, r => r
  | orderBook, r => r
  | candle, r => r
  | funding, (r : FundingData F) =>
    { r with markPrice := r.markPrice.filter isFinite, indexPrice := r.indexPrice.filter isFinite }
  | orderUpdate, (r : OrderUpdate F) =>
    { r with matchPrice := r.matchPrice.filter isFinite, matchSize := r.matchSize.filter isFinite }
  | positionChange, r => r
  | balanceUpdate, r => r
  | instrumentEvent, (r : InstrumentEvent F) =>
    { r with
      markPrice := r.markPrice.filter isFinite
      indexPrice := r.indexPrice.filter isFinite
      fundingRate := r.fundingRate.filter isFinite
      predictedFundingRate := r.predictedFundingRate.filter isFinite
      premiumIndex := r.premiumIndex.filter isFinite }
  | advancedOrderUpdate, (r : AdvancedOrderUpdate F) =>
    { r with stopPrice := r.stopPrice.filter isFinite, price := r.price.filter isFinite }

end RecordKind

/-! ## Reading a record back -/

section

variable {A B : Type}

@[simp] theorem bind_guard (p : Prop) [Decidable p] (a : A) (f : A → Option B) :
    (if p then some a else none).bind f = if p then f a else none := by
  split <;> rfl

/-- Two conditions in a row are their conjunction. -/
theorem guard_guard (p q : Prop) [Decidable p] [Decidable q] (o : Option A) :
    (if p then if q then o else none else none) = if p ∧ q then o else none :=
  (ite_and ..).symm

end

/-- The floats of a book are those of its levels. -/
theorem forall_levels (ls : List (F × F)) :
    (∀ x ∈ ls.flatMap fun level => [level.1, level.2], isFinite x = true) ↔
      ∀ level ∈ ls, isFinite level.1 = true ∧ isFinite level.2 = true := by
  simp only [List.mem_flatMap, List.mem_cons, List.not_mem_nil, or_false]
  constructor
  · intro h level hlevel
    exact ⟨h _ ⟨level, hlevel, .inl rfl⟩, h _ ⟨level, hlevel, .inr rfl⟩⟩
  · rintro h x ⟨level, hlevel, rfl | rfl⟩
    · exact (h level hlevel).1
    · exact (h level hlevel).2

/-- What comes back: everything, if the required floats are finite, but for the optional floats
    that are not. -/
theorem readBack_format (kind : RecordKind) (r : kind.Record F) :
    kind.format.readBack r =
      if ∀ x ∈ kind.required r, isFinite x = true then some (kind.keepFinite r) else none := by
  cases kind with
  | trade =>
    simp [RecordKind.format, TradeData.format, RecordKind.required,
      RecordKind.keepFinite, guard_guard]
  | ticker =>
    simp [RecordKind.format, TickerData.format, RecordKind.required,
      RecordKind.keepFinite, guard_guard, and_assoc]
  | orderBook =>
    -- the levels are pairs of floats, all of them required
    simp only [RecordKind.format, RecordKind.required, RecordKind.keepFinite, List.flatMap_append,
      List.forall_mem_append, forall_levels]
    simp [OrderBookData.format, guard_guard]
  | candle =>
    simp [RecordKind.format, CandleData.format, RecordKind.required,
      RecordKind.keepFinite, guard_guard, and_assoc]
  | funding =>
    simp [RecordKind.format, FundingData.format, RecordKind.required, RecordKind.keepFinite]
  | orderUpdate =>
    simp [RecordKind.format, OrderUpdate.format, RecordKind.required,
      RecordKind.keepFinite, guard_guard, and_assoc]
  | positionChange =>
    simp [RecordKind.format, PositionChange.format, RecordKind.required,
      RecordKind.keepFinite, guard_guard, and_assoc]
  | balanceUpdate =>
    simp [RecordKind.format, BalanceUpdate.format, RecordKind.required,
      RecordKind.keepFinite, guard_guard]
  | instrumentEvent =>
    simp [RecordKind.format, InstrumentEvent.format, RecordKind.required, RecordKind.keepFinite]
  | advancedOrderUpdate =>
    simp [RecordKind.format, AdvancedOrderUpdate.format, RecordKind.required, RecordKind.keepFinite]

/-- A record written to a JSON value and read from an object with its entries in any order, and
    any others between them, comes back as itself, but for optional floats that are not finite:
    these come back as `None`. Reading fails exactly if a required float is not finite. -/
theorem record_round_trip (kind : RecordKind) {serde : ValueFormat (Value F) (kind.Record F)}
    (hserde : Derives kind.format serde) (r : kind.Record F)
    {written entries others : List (String × Value F)} (hwritten : serde.write r = .object written)
    (hperm : entries.Perm (written ++ others)) (hnodup : (entries.map Prod.fst).Nodup)
    (hothers : ∀ entry ∈ others, entry.1 ∉ (kind.format (F := F)).keys) :
    serde.read (.object entries) =
      if ∀ x ∈ kind.required r, isFinite x = true then some (kind.keepFinite r) else none := by
  -- what is written are the fields of the format, in some order
  obtain ⟨fields, hobject, hfields⟩ := hserde.write r
  obtain rfl : written = fields := Value.object.inj (hwritten.symm.trans hobject)
  have hformat : entries.Perm (kind.format.write r ++ others) :=
    hperm.trans (hfields.append_right others)
  rw [hserde.read entries hnodup, read_of_perm _ hformat hnodup hothers, readBack_format]

open scoped SampleSerde

/-- A funding event with its entries the other way round after an unknown one, and with a mark
    price that is not finite. -/
theorem record_round_trip_funding :
    (SampleSerde.record (RecordKind.funding.format (F := ℤ))).read
        (.object [("interval", .string "8h"), ("receipt_ts", .number (.posInt 71)),
          ("exchange_ts", .number (.posInt 70)), ("index_price", .number (.float 96)),
          ("mark_price", .null), ("next_funding_time", .number (.posInt 80)),
          ("funding_rate", .number (.float 5)), ("exchange", .string "bybit"),
          ("symbol", .string "BTCUSDT")]) =
      some { symbol := "BTCUSDT", exchange := "bybit", fundingRate := 5, nextFundingTime := 80,
             markPrice := none, indexPrice := some 96, exchangeTs := 70, receiptTs := 71 } := by
  let r : FundingData ℤ :=
    { symbol := "BTCUSDT", exchange := "bybit", fundingRate := 5, nextFundingTime := 80,
      markPrice := some 2000, indexPrice := some 96, exchangeTs := 70, receiptTs := 71 }
  let format : SerdeFormat ℤ (FundingData ℤ) := RecordKind.funding.format
  let others : List (String × Value ℤ) := [("interval", .string "8h")]
  have hnodup : (((format.write r ++ others).reverse).map Prod.fst).Nodup := by decide
  have hothers : ∀ entry ∈ others, entry.1 ∉ format.keys := by decide
  exact record_round_trip .funding (SampleSerde.derives_record format) r rfl
    (List.reverse_perm (format.write r ++ others)) hnodup hothers

end ExchangeApiws.Spec
