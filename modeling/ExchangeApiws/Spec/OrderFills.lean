import ExchangeApiws.ForStd.List
import ExchangeApiws.ForStd.UInt64
import ExchangeApiws.Native.PrivateWs

/-!
# Fills on the private order streams

The five order parsers fill the match price, the match size and the trade id of an
`OrderUpdate` from three keys of a frame, each with a gate and an encoding of its own. This
file says which frames give all three with the values they carry, or none, and when the
documented accumulator counts every fill of a sequence of frames exactly once.

## Key results

- `isSome_matchPrice_iff`: the updates with a match price come from the elements with a fill
- `consistent_iff_complete`: all or none, exactly on the elements that are `Complete`
- `counted_eq_keepFirst`: the accumulator counts the first update of every trade id
- `fills_counted_iff`: every fill once, exactly when all elements are complete and no two
  fills share an id
-/

namespace ExchangeApiws.Spec

open Native

/-! ## What a field carries -/

section Fields

variable {F : Type} [F64Arith F] {d : Value F} {key : String}

/-- The number a field carries: a JSON number, or a string that is a numeral. -/
def carriedNumber (d : Value F) (key : String) : Option F :=
  match d.get key with
  | some (.string s) => F64.parse s
  | some (.number n) => (Value.number n).asF64
  | _ => none

/-- The id a field carries: a string, or the text of a number. -/
def carriedId (d : Value F) (key : String) : Option String :=
  match d.get key with
  | some (.string s) => some s
  | some (.number n) => some n.text
  | _ => none

/-- A numeric string, or the number `0`: what reading strings only gets right. -/
def StringField (d : Value F) (key : String) : Prop :=
  (∃ s x, d.get key = some (.string s) ∧ F64.parse s = some (x : F)) ∨
    ∃ n, d.get key = some (.number n) ∧ (Value.number n).asF64 = some 0

/-- A number, or a string that is a numeral of `0`: what reading numbers only gets right. -/
def NumberField (d : Value F) (key : String) : Prop :=
  (∃ n, d.get key = some (.number n)) ∨
    ∃ s, d.get key = some (.string s) ∧ F64.parse s = some (0 : F)

/-- A field that is a string. -/
def TextField (d : Value F) (key : String) : Prop := ∃ s, d.get key = some (.string s)

/-- A field that is a nonempty string. -/
def NonemptyText (d : Value F) (key : String) : Prop :=
  ∃ s, d.get key = some (.string s) ∧ s ≠ ""

omit [F64Arith F] in
/-- A text that is kept is not empty. -/
theorem nonempty_eq_some {s id : String} : nonempty s = some id ↔ s = id ∧ id ≠ "" := by
  unfold nonempty
  by_cases hs : s = ""
  · subst hs
    constructor
    · intro h
      cases h
    · rintro ⟨rfl, hne⟩
      exact absurd rfl hne
  · have hempty : s.isEmpty = false := by simpa using hs
    simp only [hempty, Bool.false_eq_true, if_false, Option.some_inj]
    constructor
    · rintro rfl
      exact ⟨rfl, hs⟩
    · exact And.left

omit [F64Arith F] in
/-- A field read as a string is a string. -/
theorem bind_asStr_eq_some {s : String} :
    (d.get key).bind Value.asStr = some s ↔ d.get key = some (.string s) := by
  cases hget : d.get key with
  | none => simp
  | some v => cases v <;> simp [Value.asStr]

/-- Reading a field as a string gives the number it carries on a `StringField` only. -/
theorem carriedNumber_eq_strF64 :
    carriedNumber d key = some (d.strF64 key) ↔ StringField d key := by
  unfold carriedNumber StringField Value.strF64 Value.optStrF64
  cases hget : d.get key with
  | none => simp
  | some v =>
    cases v with
    | string s => cases hparse : (F64.parse s : Option F) <;> simp [Value.asStr, hparse]
    | number n => simp [Value.asStr]
    | null | bool b | array xs | object fields => simp [Value.asStr]

/-- Reading a field as a number gives the number it carries on a `NumberField` only. -/
theorem carriedNumber_eq_f64Field :
    carriedNumber d key = some (KrakenWs.f64Field d key) ↔ NumberField d key := by
  unfold carriedNumber NumberField KrakenWs.f64Field
  cases hget : d.get key with
  | none => simp
  | some v =>
    cases v with
    | string s => simp [Value.asF64]
    | number n => cases n <;> simp [Value.asF64]
    | null | bool b | array xs | object fields => simp [Value.asF64]

/-- The KuCoin reader accepts both encodings. -/
theorem strF64Opt_eq_carriedNumber (d : Value F) (key : String) :
    KucoinFeed.strF64Opt d key = carriedNumber d key := by
  unfold KucoinFeed.strF64Opt carriedNumber
  cases hget : d.get key with
  | none => rfl
  | some v => cases v <;> rfl

/-- A text field gives the id it carries exactly if it is a nonempty string. -/
theorem nonempty_strOr_eq_carriedId :
    (∃ id, carriedId d key = some id ∧ nonempty (d.strOr key "") = some id) ↔
      NonemptyText d key := by
  unfold carriedId NonemptyText Value.strOr
  simp only [nonempty_eq_some]
  cases hget : d.get key with
  | none => simp
  | some v =>
    cases v with
    | string s => simp [Value.asStr]
    | number n => simp [Value.asStr]
    | null | bool b | array xs | object fields => simp [Value.asStr]

/-- An id field of Crypto.com gives the id it carries exactly if that is not empty. -/
theorem nonempty_idString_eq_carriedId :
    (∃ id, carriedId d key = some id ∧ nonempty (CryptocomUser.idString d key) = some id) ↔
      ∃ id, carriedId d key = some id ∧ id ≠ "" := by
  unfold carriedId CryptocomUser.idString
  simp only [nonempty_eq_some]
  cases hget : d.get key with
  | none => simp
  | some v => cases v <;> simp

/-- The text of a number that is an `i64`. -/
theorem carriedId_of_asI64 {t : Int64} (h : (d.get key).bind Value.asI64 = some t) :
    carriedId d key = some (toString t.toInt) := by
  unfold carriedId
  cases hget : d.get key with
  | none => simp [hget] at h
  | some v =>
    rw [hget, Option.bind_some] at h
    cases v with
    | number n =>
      cases n with
      | posInt n =>
        simp only [Value.asI64] at h
        split at h
        -- an unsigned number that fits an `i64` has the same text as that `i64`
        · next hlt =>
          cases h
          simp only [Number.text, UInt64.toInt_toInt64_of_lt hlt]
          rfl
        · cases h
      | negInt i =>
        cases h
        rfl
      | float x => cases h
    | null | bool b | string s | array xs | object fields => cases h

end Fields

/-! ## Elements of the order streams -/

/-- The streams that carry order updates. -/
inductive OrderStream where
  | tradeOrders
  | executionReport
  | executions
  | order
  | execution
  | userOrder
  | userTrade
  deriving DecidableEq, Repr

/-- One element of an order stream, as the frame has it. -/
structure Element (F : Type) where
  stream : OrderStream
  value : Value F

namespace OrderStream

/-- The key of the fill price of a stream. -/
def priceKey : OrderStream → String
  | tradeOrders => "matchPrice"
  | executionReport => "L"
  | executions => "last_price"
  | order | execution => "execPrice"
  | userOrder | userTrade => "traded_price"

/-- The key of the fill size of a stream. -/
def sizeKey : OrderStream → String
  | tradeOrders => "matchSize"
  | executionReport => "l"
  | executions => "last_qty"
  | order | execution => "execQty"
  | userOrder | userTrade => "traded_quantity"

/-- The key of the trade id of a stream. -/
def idKey : OrderStream → String
  | tradeOrders => "tradeId"
  | executionReport => "t"
  | executions => "exec_id"
  | order | execution => "execId"
  | userOrder | userTrade => "trade_id"

end OrderStream

namespace Element

variable {F : Type} [F64Arith F]

/-- The order updates a connector's parser yields for an element. -/
def updates (reader : Reader F) (now : Int64) (e : Element F) : List (OrderUpdate F) :=
  match e.stream with
  | .tradeOrders => KucoinFeed.parseOrderUpdate KucoinFeed.exchangeName now e.value
  | .executionReport => (BinanceUserData.parseExecutionReport reader now e.value).toList
  | .executions => (KrakenWs.parseExecution reader now e.value).toList
  | .order => (BybitPrivate.parseOrder reader now e.value).toList
  | .execution => (BybitPrivate.parseExecution reader now e.value).toList
  | .userOrder => (CryptocomUser.parseUserOrder reader now e.value).toList
  | .userTrade => (CryptocomUser.parseUserTrade now e.value).toList

/-- The element has the symbol without which a parser drops it; KuCoin's requires none. -/
def Accepted (e : Element F) : Prop :=
  match e.stream with
  | .tradeOrders => True
  | .executionReport => TextField e.value "s"
  | .executions | .order | .execution => TextField e.value "symbol"
  | .userOrder | .userTrade => TextField e.value "instrument_name"

/-- A string field with a given text. -/
def HasTag (e : Element F) (key text : String) : Prop := e.value.get key = some (.string text)

/-- The element reports a fill. -/
def CarriesFill (e : Element F) : Prop :=
  match e.stream with
  | .tradeOrders => (carriedNumber e.value "matchPrice").isSome
  | .executionReport => e.HasTag "x" "TRADE"
  | .executions => e.HasTag "exec_type" "trade"
  | .execution | .userTrade => True
  | .order | .userOrder => False

/-- The trade id an element carries. -/
def tradeId (e : Element F) : Option String := carriedId e.value e.stream.idKey

/-- The fields of a fill are there, in the encoding its parser reads, and those of an element
    without a fill are not. -/
def Complete (e : Element F) : Prop :=
  match e.stream with
  | .tradeOrders =>
    (carriedNumber e.value "matchPrice").isSome ∧ (carriedNumber e.value "matchSize").isSome ∧
        TextField e.value "tradeId" ∨
      carriedNumber e.value "matchPrice" = none ∧ carriedNumber e.value "matchSize" = none ∧
        ¬ TextField e.value "tradeId"
  | .executionReport =>
    (e.HasTag "x" "TRADE" → StringField e.value "L" ∧ StringField e.value "l" ∧
        ∃ t, (e.value.get "t").bind Value.asI64 = some t ∧ 0 ≤ t) ∧
      (¬ e.HasTag "x" "TRADE" → ∀ t, (e.value.get "t").bind Value.asI64 = some t → t < 0)
  | .executions =>
    e.HasTag "exec_type" "trade" → NumberField e.value "last_price" ∧
      NumberField e.value "last_qty" ∧ NonemptyText e.value "exec_id"
  | .execution =>
    StringField e.value "execPrice" ∧ StringField e.value "execQty" ∧
      NonemptyText e.value "execId"
  | .userTrade =>
    StringField e.value "traded_price" ∧ StringField e.value "traded_quantity" ∧
      ∃ id, carriedId e.value "trade_id" = some id ∧ id ≠ ""
  | .order | .userOrder => True

end Element

/-- An order update together with the element it was parsed from. -/
structure Report (F : Type) where
  element : Element F
  update : OrderUpdate F

namespace Report

variable {F : Type} [F64Arith F]

/-- The three fill fields are all `none`, or all `some` with what the element carries. -/
def Consistent (r : Report F) : Prop :=
  r.update.matchPrice = none ∧ r.update.matchSize = none ∧ r.update.tradeId = none ∨
    ∃ px sz id,
      carriedNumber r.element.value r.element.stream.priceKey = some px ∧
      carriedNumber r.element.value r.element.stream.sizeKey = some sz ∧
      carriedId r.element.value r.element.stream.idKey = some id ∧
      r.update.matchPrice = some px ∧ r.update.matchSize = some sz ∧ r.update.tradeId = some id

/-- An update without a fill is consistent exactly when it has no trade id. -/
theorem consistent_iff_of_none {r : Report F} (hpx : r.update.matchPrice = none)
    (hsz : r.update.matchSize = none) : r.Consistent ↔ r.update.tradeId = none := by
  constructor
  · rintro (⟨_, _, hid⟩ | ⟨px, _, _, _, _, _, hsome, _⟩)
    · exact hid
    · rw [hpx] at hsome
      cases hsome
  · intro hid
    exact Or.inl ⟨hpx, hsz, hid⟩

/-- An update with a fill is consistent exactly when price, size and id are those carried. -/
theorem consistent_iff_of_some {r : Report F} {px sz : F} (hpx : r.update.matchPrice = some px)
    (hsz : r.update.matchSize = some sz) :
    r.Consistent ↔ carriedNumber r.element.value r.element.stream.priceKey = some px ∧
      carriedNumber r.element.value r.element.stream.sizeKey = some sz ∧
      ∃ id, carriedId r.element.value r.element.stream.idKey = some id ∧
        r.update.tradeId = some id := by
  constructor
  · rintro (⟨hnone, _, _⟩ | ⟨px', sz', id, hcpx, hcsz, hcid, hpx', hsz', hid⟩)
    · rw [hpx] at hnone
      cases hnone
    · rw [hpx', Option.some_inj] at hpx
      rw [hsz', Option.some_inj] at hsz
      subst hpx
      subst hsz
      exact ⟨hcpx, hcsz, id, hcid, hid⟩
  · rintro ⟨hcpx, hcsz, id, hcid, hid⟩
    exact Or.inr ⟨px, sz, id, hcpx, hcsz, hcid, hpx, hsz, hid⟩

end Report

/-! ## All or none -/

section Streams

variable {F : Type} [F64Arith F] {reader : Reader F} {now : Int64} {d : Value F}
  {u : OrderUpdate F}

/-- For KuCoin, the fields of an update agree exactly if the element is complete. -/
theorem consistent_tradeOrders (hu : u ∈ (Element.mk .tradeOrders d).updates reader now) :
    (Report.mk ⟨.tradeOrders, d⟩ u).Consistent ↔ (Element.mk .tradeOrders d).Complete := by
  have hu := List.mem_singleton.mp hu
  have hpx : u.matchPrice = carriedNumber d "matchPrice" := by
    rw [hu, ← strF64Opt_eq_carriedNumber]
  have hsz : u.matchSize = carriedNumber d "matchSize" := by
    rw [hu, ← strF64Opt_eq_carriedNumber]
  have hid : u.tradeId = (d.get "tradeId").bind Value.asStr := by
    rw [hu]
    cases hget : d.get "tradeId" <;> simp [Value.index, hget, Value.asStr]
  have hidNone : u.tradeId = none ↔ ¬ TextField d "tradeId" := by
    rw [hid, Option.eq_none_iff_forall_ne_some]
    simp only [ne_eq, bind_asStr_eq_some, TextField, not_exists]
  have hidSome : (∃ id, carriedId d "tradeId" = some id ∧ u.tradeId = some id) ↔
      TextField d "tradeId" := by
    simp only [hid, bind_asStr_eq_some, TextField]
    constructor
    · rintro ⟨id, _, h⟩
      exact ⟨id, h⟩
    · rintro ⟨id, h⟩
      exact ⟨id, by simp only [carriedId, h], h⟩
  unfold Report.Consistent Element.Complete
  simp only [OrderStream.priceKey, OrderStream.sizeKey, OrderStream.idKey, hpx, hsz, hidNone]
  -- both sides have the case without a fill; what is left is the case with one
  rw [or_comm]
  refine or_congr ?_ Iff.rfl
  rw [← hidSome, Option.isSome_iff_exists, Option.isSome_iff_exists]
  constructor
  · rintro ⟨px, sz, id, hcpx, hcsz, hcid, _, _, h⟩
    exact ⟨⟨px, hcpx⟩, ⟨sz, hcsz⟩, id, hcid, h⟩
  · rintro ⟨⟨px, hcpx⟩, ⟨sz, hcsz⟩, id, hcid, h⟩
    exact ⟨px, sz, id, hcpx, hcsz, hcid, hcpx, hcsz, h⟩

/-- For Binance, the fields of an update agree exactly if the element is complete. -/
theorem consistent_executionReport
    (hu : u ∈ (Element.mk .executionReport d).updates reader now) :
    (Report.mk ⟨.executionReport, d⟩ u).Consistent ↔
      (Element.mk .executionReport d).Complete := by
  obtain ⟨symbol, _, rfl⟩ := Option.map_eq_some_iff.mp (Option.mem_toList.mp hu)
  -- `t` becomes a trade id when it is an `i64` that is not negative, whatever `x` is
  have hfilter : ∀ id : String,
      (((d.get "t").bind Value.asI64).filter fun t => decide (0 ≤ t)).map
        (fun t => toString t.toInt) = some id ↔
      ∃ t, (d.get "t").bind Value.asI64 = some t ∧ 0 ≤ t ∧ toString t.toInt = id := by
    intro id
    simp [Option.map_eq_some_iff, Option.filter_eq_some_iff, and_assoc]
  by_cases htrade : (d.get "x").bind Value.asStr = some "TRADE"
  · have htag : (Element.mk .executionReport d).HasTag "x" "TRADE" :=
      bind_asStr_eq_some.mp htrade
    rw [Report.consistent_iff_of_some (if_pos (by simp [htrade])) (if_pos (by simp [htrade]))]
    simp only [Element.Complete, htag, not_true_eq_false, true_imp_iff, false_imp_iff, and_true]
    refine and_congr carriedNumber_eq_strF64 (and_congr carriedNumber_eq_strF64 ?_)
    simp only [BinanceUserData.i64Num, hfilter, OrderStream.idKey]
    constructor
    · rintro ⟨id, _, t, ht, hnonneg, _⟩
      exact ⟨t, ht, hnonneg⟩
    · rintro ⟨t, ht, hnonneg⟩
      exact ⟨toString t.toInt, carriedId_of_asI64 ht, t, ht, hnonneg, rfl⟩
  · have htag : ¬ (Element.mk .executionReport d).HasTag "x" "TRADE" := fun h =>
      htrade (bind_asStr_eq_some.mpr h)
    rw [Report.consistent_iff_of_none (if_neg (by simp [htrade])) (if_neg (by simp [htrade]))]
    simp only [Element.Complete, htag, not_false_eq_true, true_imp_iff, false_imp_iff, true_and]
    rw [Option.eq_none_iff_forall_ne_some]
    simp only [ne_eq, BinanceUserData.i64Num, hfilter, not_exists, not_and]
    constructor
    -- a `t` that is not negative would give an id to a report without a fill
    · intro h t ht
      by_contra hnonneg
      exact h _ t ht (Int64.not_lt.mp hnonneg) rfl
    · intro h id t ht hnonneg
      exact absurd (h t ht) (Int64.not_lt.mpr hnonneg)

/-- For Kraken, the fields of an update agree exactly if the element is complete. -/
theorem consistent_executions (hu : u ∈ (Element.mk .executions d).updates reader now) :
    (Report.mk ⟨.executions, d⟩ u).Consistent ↔ (Element.mk .executions d).Complete := by
  obtain ⟨symbol, _, rfl⟩ := Option.map_eq_some_iff.mp (Option.mem_toList.mp hu)
  by_cases htrade : (d.get "exec_type").bind Value.asStr = some "trade"
  · have htag : (Element.mk .executions d).HasTag "exec_type" "trade" :=
      bind_asStr_eq_some.mp htrade
    rw [Report.consistent_iff_of_some (if_pos (by simp [htrade])) (if_pos (by simp [htrade]))]
    simp only [Element.Complete, htag, true_imp_iff]
    refine and_congr carriedNumber_eq_f64Field (and_congr carriedNumber_eq_f64Field ?_)
    simp only [htrade, beq_self_eq_true, if_true, OrderStream.idKey]
    exact nonempty_strOr_eq_carriedId
  · have htag : ¬ (Element.mk .executions d).HasTag "exec_type" "trade" := fun h =>
      htrade (bind_asStr_eq_some.mpr h)
    rw [Report.consistent_iff_of_none (if_neg (by simp [htrade])) (if_neg (by simp [htrade]))]
    simp only [Element.Complete, htag, false_imp_iff, iff_true]
    exact if_neg (by simp [htrade])

/-- For the fills of Bybit, the fields of an update agree exactly if the element is complete. -/
theorem consistent_execution (hu : u ∈ (Element.mk .execution d).updates reader now) :
    (Report.mk ⟨.execution, d⟩ u).Consistent ↔ (Element.mk .execution d).Complete := by
  obtain ⟨symbol, _, rfl⟩ := Option.map_eq_some_iff.mp (Option.mem_toList.mp hu)
  rw [Report.consistent_iff_of_some rfl rfl]
  exact and_congr carriedNumber_eq_strF64
    (and_congr carriedNumber_eq_strF64 nonempty_strOr_eq_carriedId)

/-- For the fills of Crypto.com, the fields of an update agree exactly if the element is complete.
    -/
theorem consistent_userTrade (hu : u ∈ (Element.mk .userTrade d).updates reader now) :
    (Report.mk ⟨.userTrade, d⟩ u).Consistent ↔ (Element.mk .userTrade d).Complete := by
  obtain ⟨symbol, _, rfl⟩ := Option.map_eq_some_iff.mp (Option.mem_toList.mp hu)
  rw [Report.consistent_iff_of_some rfl rfl]
  exact and_congr carriedNumber_eq_strF64
    (and_congr carriedNumber_eq_strF64 nonempty_idString_eq_carriedId)

/-- The order states of Bybit carry no fill. -/
theorem consistent_order (hu : u ∈ (Element.mk .order d).updates reader now) :
    (Report.mk ⟨.order, d⟩ u).Consistent := by
  obtain ⟨symbol, _, rfl⟩ := Option.map_eq_some_iff.mp (Option.mem_toList.mp hu)
  exact Or.inl ⟨rfl, rfl, rfl⟩

/-- The order states of Crypto.com carry no fill. -/
theorem consistent_userOrder (hu : u ∈ (Element.mk .userOrder d).updates reader now) :
    (Report.mk ⟨.userOrder, d⟩ u).Consistent := by
  obtain ⟨symbol, _, rfl⟩ := Option.map_eq_some_iff.mp (Option.mem_toList.mp hu)
  exact Or.inl ⟨rfl, rfl, rfl⟩

/-- An update has all three fields as carried, or none, exactly when its element is
    complete. -/
theorem consistent_iff_complete {e : Element F} (hu : u ∈ e.updates reader now) :
    (Report.mk e u).Consistent ↔ e.Complete := by
  obtain ⟨stream, d⟩ := e
  cases stream with
  | tradeOrders => exact consistent_tradeOrders hu
  | executionReport => exact consistent_executionReport hu
  | executions => exact consistent_executions hu
  | order => exact iff_of_true (consistent_order hu) trivial
  | execution => exact consistent_execution hu
  | userOrder => exact iff_of_true (consistent_userOrder hu) trivial
  | userTrade => exact consistent_userTrade hu

/-- An update has a match price exactly when its element reports a fill. -/
theorem isSome_matchPrice_iff {e : Element F} (hu : u ∈ e.updates reader now) :
    u.matchPrice.isSome ↔ e.CarriesFill := by
  obtain ⟨stream, d⟩ := e
  cases stream with
  | tradeOrders =>
    have hu := List.mem_singleton.mp hu
    rw [hu]
    simp only [Element.CarriesFill, strF64Opt_eq_carriedNumber]
  | executionReport | executions =>
    obtain ⟨symbol, _, rfl⟩ := Option.map_eq_some_iff.mp (Option.mem_toList.mp hu)
    simp only [Element.CarriesFill, Element.HasTag, ← bind_asStr_eq_some]
    simp [beq_iff_eq, Option.isSome_ite]
  | order | userOrder =>
    obtain ⟨symbol, _, rfl⟩ := Option.map_eq_some_iff.mp (Option.mem_toList.mp hu)
    simp [Element.CarriesFill]
  | execution | userTrade =>
    obtain ⟨symbol, _, rfl⟩ := Option.map_eq_some_iff.mp (Option.mem_toList.mp hu)
    simp [Element.CarriesFill]

/-- An element yields an update exactly when it is accepted, and then one. -/
theorem exists_mem_updates_iff (reader : Reader F) (now : Int64) (e : Element F) :
    (∃ u, u ∈ e.updates reader now) ↔ e.Accepted := by
  obtain ⟨stream, d⟩ := e
  cases stream with
  | tradeOrders => simp [Element.updates, Element.Accepted, KucoinFeed.parseOrderUpdate]
  | executionReport | executions | order | execution | userOrder | userTrade =>
    simp only [Element.updates, Element.Accepted, TextField, Option.mem_toList,
      BinanceUserData.parseExecutionReport, KrakenWs.parseExecution, BybitPrivate.parseOrder,
      BybitPrivate.parseExecution, CryptocomUser.parseUserOrder, CryptocomUser.parseUserTrade,
      Option.map_eq_some_iff, bind_asStr_eq_some]
    exact ⟨fun ⟨_, symbol, hsymbol, _⟩ => ⟨symbol, hsymbol⟩,
      fun ⟨symbol, hsymbol⟩ => ⟨_, symbol, hsymbol, rfl⟩⟩

end Streams

/-! ## Frames -/

/-- The connectors with a private order feed. -/
inductive OrderConnector where
  | kucoin
  | binance
  | kraken
  | bybit
  | cryptocom
  deriving DecidableEq, Repr

/-- A text frame that a connector receives when the receipt clock reads `now`. -/
structure OrderFrame where
  connector : OrderConnector
  now : Int64
  raw : String

namespace OrderConnector

variable {F : Type}

/-- The order elements of a KuCoin frame. -/
def elementsOfMessage (msg : WsMessage F) : List (Element F) :=
  if msg.msgType = "message" ∧ KucoinFeed.routeOf (msg.topic.getD "") = some .orderUpdate then
    (msg.data.map (Element.mk .tradeOrders)).toList
  else []

/-- The elements of an array, on one stream. -/
def elementsOfArray (stream : OrderStream) (data : Option (Value F)) : List (Element F) :=
  ((data.bind Value.asArray).getD []).map (Element.mk stream)

/-- The order elements of a frame that is JSON, by the channel it is on. -/
def elementsOfJson (c : OrderConnector) (json : Value F) : List (Element F) :=
  match c with
  | .kucoin => []
  | .binance =>
    if (json.get "e").bind Value.asStr = some "executionReport" then
      [⟨.executionReport, json⟩]
    else []
  | .kraken =>
    if (json.get "method").isNone ∧ json.strOr "channel" "" = "executions" then
      elementsOfArray .executions (json.get "data")
    else []
  | .bybit =>
    if (json.get "op").isSome then []
    else if json.strOr "topic" "" = "order" then elementsOfArray .order (json.get "data")
    else if json.strOr "topic" "" = "execution" then
      elementsOfArray .execution (json.get "data")
    else []
  | .cryptocom =>
    let result := json.index "result"
    if result.strOr "channel" "" = "user.order" then
      elementsOfArray .userOrder (result.get "data")
    else if result.strOr "channel" "" = "user.trade" then
      elementsOfArray .userTrade (result.get "data")
    else []

end OrderConnector

namespace OrderFrame

variable {F : Type} [F64Arith F]

/-- What `parse_message` of the connector makes of the frame. -/
def parseMessage (reader : Reader F) (f : OrderFrame) : Result (List (OrderUpdate F)) :=
  match f.connector with
  | .kucoin => KucoinFeed.parseMessage reader f.now f.raw
  | .binance => BinanceUserData.parseMessage reader f.now f.raw
  | .kraken => KrakenWs.parseMessage reader f.now f.raw
  | .bybit => BybitPrivate.parseMessage reader f.now f.raw
  | .cryptocom => CryptocomUser.parseMessage reader f.now f.raw

/-- The order updates of a frame; none from a frame that is not accepted. -/
def updates (reader : Reader F) (f : OrderFrame) : List (OrderUpdate F) :=
  match f.parseMessage reader with
  | .ok us => us
  | .error _ => []

/-- The order elements of a frame; none from a frame that is not accepted. -/
def elements (reader : Reader F) (f : OrderFrame) : List (Element F) :=
  match f.connector with
  | .kucoin =>
    match reader.wsMessage f.raw with
    | .ok msg => OrderConnector.elementsOfMessage msg
    | .error _ => []
  | c =>
    match reader.json f.raw with
    | .ok json => c.elementsOfJson json
    | .error _ => []

/-- The updates of a frame, each with its element. -/
def reports (reader : Reader F) (f : OrderFrame) : List (Report F) :=
  (f.elements reader).flatMap fun e => (e.updates reader f.now).map (Report.mk e)

/-- A report is an element of the frame with one of its updates. -/
theorem mem_reports {reader : Reader F} {f : OrderFrame} {r : Report F} :
    r ∈ f.reports reader ↔
      r.element ∈ f.elements reader ∧ r.update ∈ r.element.updates reader f.now := by
  simp only [reports, List.mem_flatMap, List.mem_map]
  constructor
  · rintro ⟨e, he, u, hu, rfl⟩
    exact ⟨he, hu⟩
  · rintro ⟨he, hu⟩
    exact ⟨r.element, he, r.update, hu, rfl⟩

/-- The updates of a frame, element by element. -/
theorem map_update_reports (reader : Reader F) (f : OrderFrame) :
    (f.reports reader).map Report.update =
      (f.elements reader).flatMap fun e => e.updates reader f.now := by
  simp only [reports, List.map_flatMap, List.map_map]
  exact congrArg (List.flatMap · _) (funext fun e => List.map_id _)

/-- The updates of the elements of an array, for the parser of their stream. -/
theorem flatMap_elementsOfArray {reader : Reader F} {now : Int64} {stream : OrderStream}
    {parse : Value F → Option (OrderUpdate F)}
    (hparse : ∀ d, (Element.mk stream d).updates reader now = (parse d).toList)
    (data : Option (Value F)) :
    (OrderConnector.elementsOfArray stream data).flatMap (fun e => e.updates reader now) =
      match data.bind Value.asArray with
      | none => []
      | some data => data.filterMap parse := by
  rw [OrderConnector.elementsOfArray, List.flatMap_map]
  simp only [hparse]
  cases data.bind Value.asArray with
  | none => rfl
  | some data => exact (List.filterMap_eq_flatMap_toList parse data).symm

/-- KuCoin's parser goes through the elements of a frame. -/
theorem kucoin_parseFrame (reader : Reader F) (now : Int64) (msg : WsMessage F) :
    KucoinFeed.parseFrame now msg =
      (OrderConnector.elementsOfMessage msg).flatMap fun e => e.updates reader now := by
  unfold KucoinFeed.parseFrame OrderConnector.elementsOfMessage
  by_cases htype : msg.msgType = "message"
  · by_cases hroute : KucoinFeed.routeOf (msg.topic.getD "") = some .orderUpdate
    · rw [if_pos htype, if_pos ⟨htype, hroute⟩]
      cases msg.data with
      | none => rfl
      | some data => simp [hroute, Element.updates]
    · rw [if_pos htype, if_neg (fun h => hroute h.2)]
      cases msg.data with
      | none => rfl
      | some data =>
        cases hr : KucoinFeed.routeOf (msg.topic.getD "") with
        | none => simp
        | some route => cases route <;> simp_all
  · rw [if_neg htype, if_neg (fun h => htype h.1)]
    rfl

/-- Binance's parser goes through the elements of a frame. -/
theorem binance_parseFrame (reader : Reader F) (now : Int64) (json : Value F) :
    BinanceUserData.parseFrame reader now json =
      (OrderConnector.binance.elementsOfJson json).flatMap fun e => e.updates reader now := by
  unfold BinanceUserData.parseFrame OrderConnector.elementsOfJson
  split
  · simp [Element.updates]
  · rfl

/-- Kraken's parser goes through the elements of a frame. -/
theorem kraken_parseFrame (reader : Reader F) (now : Int64) (json : Value F) :
    KrakenWs.parseFrame reader now json =
      (OrderConnector.kraken.elementsOfJson json).flatMap fun e => e.updates reader now := by
  unfold KrakenWs.parseFrame OrderConnector.elementsOfJson
  cases hmethod : json.get "method" with
  | some v => simp
  | none =>
    by_cases hchannel : json.strOr "channel" "" = "executions"
    · simp only [hchannel, Option.isNone_none, and_self, if_true]
      exact (flatMap_elementsOfArray (fun d => rfl) (json.get "data")).symm
    · cases (json.get "data").bind Value.asArray <;> simp [hchannel]

/-- Bybit's parser goes through the elements of a frame. -/
theorem bybit_parseFrame (reader : Reader F) (now : Int64) (json : Value F) :
    BybitPrivate.parseFrame reader now json =
      (OrderConnector.bybit.elementsOfJson json).flatMap fun e => e.updates reader now := by
  unfold BybitPrivate.parseFrame OrderConnector.elementsOfJson
  by_cases hop : (json.get "op").isSome
  · simp [hop]
  · simp only [if_neg hop]
    by_cases horder : json.strOr "topic" "" = "order"
    · simp only [if_pos horder]
      exact (flatMap_elementsOfArray (fun d => rfl) (json.get "data")).symm
    · simp only [if_neg horder]
      by_cases hexecution : json.strOr "topic" "" = "execution"
      · simp only [if_pos hexecution]
        exact (flatMap_elementsOfArray (fun d => rfl) (json.get "data")).symm
      · simp only [if_neg hexecution]
        cases (json.get "data").bind Value.asArray <;> rfl

/-- Crypto.com's parser goes through the elements of a frame. -/
theorem cryptocom_parseFrame (reader : Reader F) (now : Int64) (json : Value F) :
    CryptocomUser.parseFrame reader now json =
      (OrderConnector.cryptocom.elementsOfJson json).flatMap fun e => e.updates reader now := by
  unfold CryptocomUser.parseFrame OrderConnector.elementsOfJson
  cases hresult : json.get "result" with
  | none =>
    have hindex : json.index "result" = .null := by simp [Value.index, hresult]
    have hchannel : (Value.null : Value F).strOr "channel" "" = "" := rfl
    simp only [hindex, hchannel]
    rfl
  | some result =>
    have hindex : json.index "result" = result := by simp [Value.index, hresult]
    simp only [hindex]
    by_cases horder : result.strOr "channel" "" = "user.order"
    · simp only [if_pos horder]
      exact (flatMap_elementsOfArray (fun d => rfl) (result.get "data")).symm
    · simp only [if_neg horder]
      by_cases htrade : result.strOr "channel" "" = "user.trade"
      · simp only [if_pos htrade]
        exact (flatMap_elementsOfArray (fun d => rfl) (result.get "data")).symm
      · simp only [if_neg htrade]
        cases (result.get "data").bind Value.asArray <;> rfl

/-- The updates of a frame of a connector that reads JSON, element by element. -/
theorem updates_of_json {reader : Reader F} {f : OrderFrame}
    {parse : Value F → List (OrderUpdate F)}
    (hmessage : f.parseMessage reader = (reader.json f.raw).map parse)
    (helements : f.elements reader =
      match reader.json f.raw with
      | .ok json => f.connector.elementsOfJson json
      | .error _ => [])
    (hparse : ∀ json, parse json =
      (f.connector.elementsOfJson json).flatMap fun e => e.updates reader f.now) :
    f.updates reader = (f.elements reader).flatMap fun e => e.updates reader f.now := by
  rw [updates, hmessage, helements]
  cases reader.json f.raw with
  | error e => rfl
  | ok json => exact hparse json

/-- A frame's updates are those of its elements, in order. -/
theorem updates_eq_reports (reader : Reader F) (f : OrderFrame) :
    f.updates reader = (f.reports reader).map Report.update := by
  rw [map_update_reports]
  obtain ⟨c, now, raw⟩ := f
  cases c with
  | kucoin =>
    cases hmsg : reader.wsMessage raw with
    | error e => simp [updates, parseMessage, KucoinFeed.parseMessage, elements, hmsg, Except.map]
    | ok msg =>
      simp only [updates, parseMessage, KucoinFeed.parseMessage, elements, hmsg, Except.map]
      exact kucoin_parseFrame reader now msg
  | binance => exact updates_of_json rfl rfl (binance_parseFrame reader now)
  | kraken => exact updates_of_json rfl rfl (kraken_parseFrame reader now)
  | bybit => exact updates_of_json rfl rfl (bybit_parseFrame reader now)
  | cryptocom => exact updates_of_json rfl rfl (cryptocom_parseFrame reader now)

end OrderFrame

/-! ## Counting -/

section Counting

variable {F : Type} [F64Arith F]

/-- The updates of a sequence of frames. -/
def orderUpdates (reader : Reader F) (frames : List OrderFrame) : List (OrderUpdate F) :=
  frames.flatMap (OrderFrame.updates reader)

/-- The updates of a sequence of frames, each with its element. -/
def orderReports (reader : Reader F) (frames : List OrderFrame) : List (Report F) :=
  frames.flatMap (OrderFrame.reports reader)

/-- The updates of the reports are those of the frames. -/
theorem map_update_orderReports (reader : Reader F) (frames : List OrderFrame) :
    (orderReports reader frames).map Report.update = orderUpdates reader frames := by
  rw [orderReports, orderUpdates, List.map_flatMap]
  exact congrArg (List.flatMap · frames)
    (funext fun f => (OrderFrame.updates_eq_reports reader f).symm)

/-- The accumulator before the first update. -/
def emptyAccumulator : FillAccumulator F := { seen := [], notional := 0 }

/-- The reports that the accumulator counts: those that add a trade id. -/
def counted (a : FillAccumulator F) : List (Report F) → List (Report F)
  | [] => []
  | r :: rs =>
    if (onOrderUpdate a r.update).seen = a.seen then counted (onOrderUpdate a r.update) rs
    else r :: counted (onOrderUpdate a r.update) rs

/-- The trade id under which the accumulator counts an update. -/
def countKey (r : Report F) : Option String :=
  match r.update.matchPrice, r.update.matchSize with
  | some _, some _ => r.update.tradeId
  | _, _ => none

/-- A report without a fill is not counted. -/
theorem onOrderUpdate_of_none {a : FillAccumulator F} {r : Report F} (h : countKey r = none) :
    onOrderUpdate a r.update = a := by
  unfold onOrderUpdate
  unfold countKey at h
  split
  · next hpx hsz hid =>
    simp only [hpx, hsz, hid] at h
    cases h
  · rfl

/-- A report with a fill is counted under its id, unless the id was seen. -/
theorem onOrderUpdate_of_some {a : FillAccumulator F} {r : Report F} {id : String}
    (h : countKey r = some id) :
    ∃ px sz, r.update.matchPrice = some px ∧ r.update.matchSize = some sz ∧
      r.update.tradeId = some id ∧ onOrderUpdate a r.update =
        if id ∈ a.seen then a else { seen := id :: a.seen, notional := a.notional + px * sz } := by
  unfold countKey at h
  split at h
  · next px sz hpx hsz =>
    refine ⟨px, sz, hpx, hsz, h, ?_⟩
    simp only [onOrderUpdate, hpx, hsz, h]
  · cases h

/-- A report that changes nothing is not counted. -/
theorem counted_cons_of_seen_eq {a : FillAccumulator F} {r : Report F} (rs : List (Report F))
    (h : onOrderUpdate a r.update = a) : counted a (r :: rs) = counted a rs := by
  rw [counted, h, if_pos rfl]

/-- A report with a new id is counted. -/
theorem counted_cons_of_new {a a' : FillAccumulator F} {r : Report F} (rs : List (Report F))
    {id : String} (h : onOrderUpdate a r.update = a') (hseen : a'.seen = id :: a.seen) :
    counted a (r :: rs) = r :: counted a' rs := by
  rw [counted, h, if_neg]
  rw [hseen]
  exact List.cons_ne_self id a.seen

/-- The accumulator counts the first update of every trade id. -/
theorem counted_eq_keepFirst (a : FillAccumulator F) (rs : List (Report F)) :
    counted a rs = List.keepFirst countKey a.seen rs := by
  induction rs generalizing a with
  | nil => rfl
  | cons r rs ih =>
    cases hkey : countKey r with
    | none =>
      rw [counted_cons_of_seen_eq rs (onOrderUpdate_of_none hkey),
        List.keepFirst_cons_of_none hkey, ih]
    | some id =>
      obtain ⟨px, sz, _, _, _, hnext⟩ := onOrderUpdate_of_some (a := a) hkey
      by_cases hseen : id ∈ a.seen
      · rw [if_pos hseen] at hnext
        rw [counted_cons_of_seen_eq rs hnext, List.keepFirst_cons_of_mem hkey hseen, ih]
      · rw [if_neg hseen] at hnext
        rw [counted_cons_of_new rs hnext rfl, List.keepFirst_cons_of_notMem hkey hseen, ih]

/-- The sum of the accumulator is over the updates it counts. -/
theorem notional_foldl_onOrderUpdate (a : FillAccumulator F) (rs : List (Report F)) :
    (rs.foldl (fun a r => onOrderUpdate a r.update) a).notional =
      (counted a rs).foldl (fun n r =>
        n + r.update.matchPrice.getD 0 * r.update.matchSize.getD 0) a.notional := by
  induction rs generalizing a with
  | nil => rfl
  | cons r rs ih =>
    rw [List.foldl_cons, ih]
    cases hkey : countKey r with
    | none =>
      have hnext : onOrderUpdate a r.update = a := onOrderUpdate_of_none hkey
      rw [counted_cons_of_seen_eq rs hnext, hnext]
    | some id =>
      obtain ⟨px, sz, hpx, hsz, _, hnext⟩ := onOrderUpdate_of_some (a := a) hkey
      by_cases hseen : id ∈ a.seen
      · rw [if_pos hseen] at hnext
        rw [counted_cons_of_seen_eq rs hnext, hnext]
      · rw [if_neg hseen] at hnext
        rw [counted_cons_of_new rs hnext rfl, hnext, List.foldl_cons, hpx, hsz]
        rfl

variable {σ : Type*} [DecidableEq σ]

/-- A fill: what tells fills of equal id apart, and the id under which it is reported. -/
def fillKey (source : Element F → σ) (r : Report F) : σ × Option String :=
  (source r.element, r.update.tradeId)

/-- Every update of the frames has its three fill fields as carried, or none, and the
    accumulator counts every fill that an update with a match price carries exactly once. -/
def FillsCounted (reader : Reader F) (source : Element F → σ) (frames : List OrderFrame) :
    Prop :=
  (∀ r ∈ orderReports reader frames, r.Consistent) ∧
    ∀ r ∈ orderReports reader frames, r.update.matchPrice.isSome →
      ((counted emptyAccumulator (orderReports reader frames)).map (fillKey source)).count
        (fillKey source r) = 1

/-- The accepted order elements of the frames. -/
def AcceptedIn (reader : Reader F) (frames : List OrderFrame) (e : Element F) : Prop :=
  (∃ f ∈ frames, e ∈ f.elements reader) ∧ e.Accepted

/-- Every accepted element is complete, and no two fills carry one id. -/
def FramesComplete (reader : Reader F) (source : Element F → σ) (frames : List OrderFrame) :
    Prop :=
  (∀ e, AcceptedIn reader frames e → e.Complete) ∧
    ∀ e₁ e₂, AcceptedIn reader frames e₁ → AcceptedIn reader frames e₂ →
      e₁.CarriesFill → e₂.CarriesFill → e₁.tradeId = e₂.tradeId → source e₁ = source e₂

/-- The reports are those of the elements of all frames. -/
theorem mem_orderReports {reader : Reader F} {frames : List OrderFrame} {r : Report F} :
    r ∈ orderReports reader frames ↔ ∃ f ∈ frames, r.element ∈ f.elements reader ∧
      r.update ∈ r.element.updates reader f.now := by
  simp only [orderReports, List.mem_flatMap, OrderFrame.mem_reports]

/-- Every accepted element is reported. -/
theorem exists_report_of_accepted {reader : Reader F} {frames : List OrderFrame}
    {e : Element F} (h : AcceptedIn reader frames e) :
    ∃ r ∈ orderReports reader frames, r.element = e := by
  obtain ⟨⟨f, hf, he⟩, haccepted⟩ := h
  obtain ⟨u, hu⟩ := (exists_mem_updates_iff reader f.now e).mpr haccepted
  exact ⟨⟨e, u⟩, mem_orderReports.mpr ⟨f, hf, he, hu⟩, rfl⟩

/-- What is reported was accepted. -/
theorem accepted_of_mem_orderReports {reader : Reader F} {frames : List OrderFrame}
    {r : Report F} (h : r ∈ orderReports reader frames) : AcceptedIn reader frames r.element := by
  obtain ⟨f, hf, he, hu⟩ := mem_orderReports.mp h
  exact ⟨⟨f, hf, he⟩, (exists_mem_updates_iff reader f.now r.element).mp ⟨r.update, hu⟩⟩

/-- All reports are consistent exactly when all accepted elements are complete. -/
theorem forall_consistent_iff (reader : Reader F) (frames : List OrderFrame) :
    (∀ r ∈ orderReports reader frames, r.Consistent) ↔
      ∀ e, AcceptedIn reader frames e → e.Complete := by
  constructor
  · intro h e he
    obtain ⟨r, hr, rfl⟩ := exists_report_of_accepted he
    obtain ⟨f, _, _, hu⟩ := mem_orderReports.mp hr
    exact (consistent_iff_complete hu).mp (h r hr)
  · intro h r hr
    obtain ⟨f, _, _, hu⟩ := mem_orderReports.mp hr
    exact (consistent_iff_complete hu).mpr (h r.element (accepted_of_mem_orderReports hr))

omit [DecidableEq σ] in
/-- A consistent report with a match price is counted under the id its element carries. -/
theorem Report.Consistent.countKey {r : Report F} (h : r.Consistent)
    (hfill : r.update.matchPrice.isSome) :
    ∃ id, countKey r = some id ∧ r.update.tradeId = some id ∧ r.element.tradeId = some id := by
  rcases h with ⟨hnone, _⟩ | ⟨px, sz, id, _, _, hcarried, hpx, hsz, hid⟩
  · rw [hnone] at hfill
    cases hfill
  · refine ⟨id, ?_, hid, hcarried⟩
    simp only [Spec.countKey, hpx, hsz, hid]

/-- What the accumulator counts has a match price and its trade id as the key. -/
theorem matchPrice_of_countKey {r : Report F} {id : String} (h : countKey r = some id) :
    r.update.matchPrice.isSome ∧ r.update.tradeId = some id := by
  obtain ⟨px, sz, hpx, _, hid, _⟩ := onOrderUpdate_of_some (a := emptyAccumulator) h
  exact ⟨by simp [hpx], hid⟩

/-- What the accumulator counts is a report of a fill, and no two count one id. -/
theorem counted_empty (rs : List (Report F)) :
    (∀ c ∈ counted emptyAccumulator rs, c ∈ rs ∧ c.update.matchPrice.isSome ∧
      countKey c = c.update.tradeId) ∧
      ((counted emptyAccumulator rs).map countKey).Nodup := by
  rw [counted_eq_keepFirst]
  refine ⟨?_, List.nodup_keys_keepFirst countKey _ rs⟩
  intro c hc
  obtain ⟨id, hkey, -⟩ := List.exists_key_of_mem_keepFirst hc
  obtain ⟨hfill, hid⟩ := matchPrice_of_countKey hkey
  exact ⟨(List.keepFirst_sublist countKey _ rs).subset hc, hfill, hkey.trans hid.symm⟩

/-- The count of a fill is one when ids identify fills. -/
theorem count_fillKey_eq_one {reader : Reader F} {source : Element F → σ}
    {frames : List OrderFrame} (h : FramesComplete reader source frames)
    {r : Report F} (hr : r ∈ orderReports reader frames) (hfill : r.update.matchPrice.isSome) :
    ((counted emptyAccumulator (orderReports reader frames)).map (fillKey source)).count
      (fillKey source r) = 1 := by
  obtain ⟨hcomplete, hids⟩ := h
  have hconsistent := (forall_consistent_iff reader frames).mpr hcomplete
  obtain ⟨hcounted, hnodup⟩ := counted_empty (orderReports reader frames)
  have hfills : ((counted emptyAccumulator (orderReports reader frames)).map
      (fillKey source)).Nodup := by
    -- the ids of what is counted are distinct already
    apply List.Nodup.of_map Prod.snd
    rw [List.map_map]
    have hsnd : (counted emptyAccumulator (orderReports reader frames)).map
        (Prod.snd ∘ fillKey source) =
          (counted emptyAccumulator (orderReports reader frames)).map countKey :=
      List.map_congr_left fun c hc => ((hcounted c hc).2.2).symm
    rw [hsnd]
    exact hnodup
  -- no two counted fills agree, so it is enough that one of them is this fill
  apply List.count_eq_one_of_mem hfills
  -- the report that is counted under this id reports the same fill
  obtain ⟨id, hkey, hid, hcarried⟩ := (hconsistent r hr).countKey hfill
  have hmem : some id ∈ (counted emptyAccumulator (orderReports reader frames)).map countKey := by
    rw [counted_eq_keepFirst]
    exact (List.mem_keys_keepFirst hr hkey).resolve_left List.not_mem_nil
  obtain ⟨c, hc, hckey⟩ := List.mem_map.mp hmem
  obtain ⟨hcr, hcfill, hcid⟩ := hcounted c hc
  obtain ⟨id', hkey', _, hcarried'⟩ := (hconsistent c hcr).countKey hcfill
  have hsame : id' = id := Option.some_inj.mp (hkey'.symm.trans hckey)
  have hsource : source c.element = source r.element := by
    obtain ⟨f, _, _, hu⟩ := mem_orderReports.mp hr
    obtain ⟨f', _, _, hu'⟩ := mem_orderReports.mp hcr
    refine hids c.element r.element (accepted_of_mem_orderReports hcr)
      (accepted_of_mem_orderReports hr) ((isSome_matchPrice_iff hu').mp hcfill)
      ((isSome_matchPrice_iff hu).mp hfill) ?_
    rw [hcarried', hcarried, hsame]
  refine List.mem_map.mpr ⟨c, hc, ?_⟩
  rw [fillKey, fillKey, hsource, ← hcid, hckey, hid]

/-- Where every fill is counted once, fills of one id have one source. -/
theorem source_eq_of_count {reader : Reader F} {source : Element F → σ}
    {frames : List OrderFrame} (h : FillsCounted reader source frames) {r₁ r₂ : Report F}
    (h₁ : r₁ ∈ orderReports reader frames) (h₂ : r₂ ∈ orderReports reader frames)
    (hfill₁ : r₁.update.matchPrice.isSome) (hfill₂ : r₂.update.matchPrice.isSome)
    (hid : r₁.update.tradeId = r₂.update.tradeId) :
    source r₁.element = source r₂.element := by
  obtain ⟨hcounted, hnodup⟩ := counted_empty (orderReports reader frames)
  have hcount : ∀ r ∈ orderReports reader frames, r.update.matchPrice.isSome →
      ∃ c ∈ counted emptyAccumulator (orderReports reader frames),
        fillKey source c = fillKey source r := by
    intro r hr hfill
    apply List.mem_map.mp
    apply List.count_pos_iff.mp
    rw [h.2 r hr hfill]
    exact Nat.one_pos
  -- the counted reports of the two fills have one id, so they are one report
  obtain ⟨c₁, hc₁, hkey₁⟩ := hcount r₁ h₁ hfill₁
  obtain ⟨c₂, hc₂, hkey₂⟩ := hcount r₂ h₂ hfill₂
  have hkeys : countKey c₁ = countKey c₂ := by
    rw [(hcounted c₁ hc₁).2.2, (hcounted c₂ hc₂).2.2]
    exact (congrArg Prod.snd hkey₁).trans (hid.trans (congrArg Prod.snd hkey₂).symm)
  have hsame : c₁ = c₂ := List.inj_on_of_nodup_map hnodup hc₁ hc₂ hkeys
  have hsource₁ : source c₁.element = source r₁.element := congrArg Prod.fst hkey₁
  have hsource₂ : source c₂.element = source r₂.element := congrArg Prod.fst hkey₂
  rw [← hsource₁, ← hsource₂, hsame]

/-- For every sequence of frames and whatever tells fills of equal id apart: every update has
    its fill fields as carried or none, and every fill is counted once, exactly when every
    accepted element is complete and no two fills carry one id. -/
theorem fills_counted_iff (reader : Reader F) (source : Element F → σ)
    (frames : List OrderFrame) :
    (orderReports reader frames).map Report.update = orderUpdates reader frames ∧
      (FillsCounted reader source frames ↔ FramesComplete reader source frames) := by
  refine ⟨map_update_orderReports reader frames, ?_, ?_⟩
  · intro h
    refine ⟨(forall_consistent_iff reader frames).mp h.1, ?_⟩
    intro e₁ e₂ he₁ he₂ hfill₁ hfill₂ hid
    -- both elements are reported, and consistent reports carry the ids of their elements
    obtain ⟨r₁, hr₁, rfl⟩ := exists_report_of_accepted he₁
    obtain ⟨r₂, hr₂, rfl⟩ := exists_report_of_accepted he₂
    obtain ⟨f₁, _, _, hu₁⟩ := mem_orderReports.mp hr₁
    obtain ⟨f₂, _, _, hu₂⟩ := mem_orderReports.mp hr₂
    have hsome₁ := (isSome_matchPrice_iff hu₁).mpr hfill₁
    have hsome₂ := (isSome_matchPrice_iff hu₂).mpr hfill₂
    obtain ⟨id₁, _, hu₁, hcarried₁⟩ := (h.1 r₁ hr₁).countKey hsome₁
    obtain ⟨id₂, _, hu₂, hcarried₂⟩ := (h.1 r₂ hr₂).countKey hsome₂
    refine source_eq_of_count h hr₁ hr₂ hsome₁ hsome₂ ?_
    rw [hu₁, hu₂, ← hcarried₁, ← hcarried₂, hid]
  · intro h
    exact ⟨(forall_consistent_iff reader frames).mpr h.1, fun r hr => count_fillKey_eq_one h hr⟩

end Counting

/-! ## A trade report without a trade id -/

/-- A Binance trade report of a symbol with a given `t`. -/
def tradeReport (symbol : String) (t : Number ℤ) : Value ℤ :=
  .object [("e", .string "executionReport"), ("s", .string symbol), ("x", .string "TRADE"),
    ("L", .string "30000"), ("l", .string "1"), ("t", .number t)]

/-- A reader of three frames: a report with `t` `-1`, and reports of two symbols with one
    `t`. -/
def tradeReader : Reader ℤ where
  json raw :=
    if raw = "no id" then .ok (tradeReport "BTCUSDT" (.negInt (-1)))
    else if raw = "first" then .ok (tradeReport "BTCUSDT" (.posInt 7))
    else .ok (tradeReport "ETHUSDT" (.posInt 7))
  wsMessage _ := .error (.json "expected value")
  toLowercase s := s
  rfc3339 _ := none

/-- A trade report without a usable trade id yields a price and a size but no id, so that the
    accumulator never counts its fill; and of two fills of two symbols with one trade id the
    accumulator counts one. -/
theorem not_always_fillsCounted :
    ¬ FillsCounted tradeReader (fun _ => ()) [⟨.binance, 0, "no id"⟩] ∧
      ¬ FillsCounted tradeReader (fun e => e.value.strOr "s" "")
        [⟨.binance, 0, "first"⟩, ⟨.binance, 0, "second"⟩] := by
  constructor
  · rintro ⟨_, hcount⟩
    have h := hcount _ List.mem_cons_self rfl
    revert h
    decide
  · rintro ⟨_, hcount⟩
    have h := hcount _ (List.mem_cons_of_mem _ List.mem_cons_self) rfl
    revert h
    decide

end ExchangeApiws.Spec
