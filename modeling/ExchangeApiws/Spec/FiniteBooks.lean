import ExchangeApiws.Native.BinanceWs
import ExchangeApiws.Native.BybitWs
import ExchangeApiws.Native.CoinbaseWs
import ExchangeApiws.Native.KucoinFeed
import ExchangeApiws.Native.OkxWs
import ExchangeApiws.Spec.BookViews
import ExchangeApiws.Spec.SequenceIds

/-!
# Finite books

Prices and quantities are whatever the float parser accepts, which includes NaN, the
infinities and negative numbers. The file says which frames yield finite levels, and that a
book fed from such frames stays finite.

## Key results

- `mem_levelsOf_books`: the levels of a frame's book messages are the ones read from its rows
- `finite_books_iff`: the frames whose levels are finite, and the books fed from them
-/

namespace ExchangeApiws.Spec

open Native

/-- The documented values of floating point numbers; `none` for NaN and the infinities. -/
structure FloatValues (F : Type) [F64Ops F] where
  value : F → Option ℚ
  value_zero : value 0 = some 0
  zero_beq : ((0 : F) == 0) = true
  le_of_le : ∀ {x y : F} {a b : ℚ}, value x = some a → value y = some b → x ≤ y → a ≤ b
  ge_iff : ∀ {x y : F} {a b : ℚ}, value x = some a → value y = some b →
    (F64Ops.ge x y = true ↔ b ≤ a)

/-- What the connectors take from outside the crate. -/
structure FeedReader (F : Type) where
  json : String → Result (Value F)
  envelope : String → Result (Envelope F)
  rfc3339 : String → Option Int64

variable {F : Type} [F64Ops F]

namespace FloatValues

variable (V : FloatValues F)

/-- The number is finite. -/
def Finite (x : F) : Prop := (V.value x).isSome = true

/-- The number is finite and not negative. -/
def Quantity (x : F) : Prop := ∃ r, V.value x = some r ∧ 0 ≤ r

/-- A level with a finite price and a finite quantity that is not negative. -/
def Level (level : F × F) : Prop := V.Finite level.1 ∧ V.Quantity level.2

end FloatValues

/-! ## Where levels come from -/

/-- Where a level of a frame is read from: the price and the quantity of a row, or the text of
    a change. -/
inductive LevelSource (F : Type) where
  | row (price qty : Value F)
  | change (text : String)

/-- A coordinate of a row: a numeric string or a number. -/
def readCoord (v : Value F) : Option F := (v.asStr.bind F64.parse).or v.asF64

/-- The texts of the price and the quantity of a change. -/
def changeTexts (text : String) : Option String × Option String :=
  let parts := KucoinWs.splitn 3 ',' text
  (parts[0]?, parts[2]?)

/-- The level that is read from the source, if it is kept. A change without a price is dropped,
    and one without a quantity has none. -/
def LevelSource.read : LevelSource F → Option (F × F)
  | .row price qty => do
    let p ← readCoord price
    let q ← readCoord qty
    return (p, q)
  | .change text =>
    let price : F := ((changeTexts text).1.bind F64.parse).getD 0
    let qty : F := ((changeTexts text).2.bind F64.parse).getD 0
    if price == 0 then none else some (price, qty)

/-- The texts of the source read as finite numbers, the quantity as one that is not negative. It
    does not matter what is in a row with a text that is no number, or in a change without a
    price. -/
def LevelSource.ReadsFinite (V : FloatValues F) : LevelSource F → Prop
  | .row price qty => ∀ p ∈ readCoord price, ∀ q ∈ readCoord qty, V.Finite p ∧ V.Quantity q
  | .change text => ∀ p ∈ (changeTexts text).1.bind F64.parse, (p == (0 : F)) = false →
      V.Finite p ∧ ∀ q ∈ (changeTexts text).2.bind F64.parse, V.Quantity q

/-- A row of strings. -/
def textRow (row : Value F) : Option (LevelSource F) := do
  let price ← (← row.getIdx 0).asStr
  let qty ← (← row.getIdx 1).asStr
  return .row (.string price) (.string qty)

/-- A row of strings or numbers. -/
def anyRow (row : Value F) : Option (LevelSource F) := do
  return .row (← row.getIdx 0) (← row.getIdx 1)

/-- A row with named fields. -/
def namedRow (row : Value F) : Option (LevelSource F) := do
  let price ← (← row.get "price_level").asStr
  let qty ← (← row.get "new_quantity").asStr
  return .row (.string price) (.string qty)

/-- The sources of an entry with a field for each side. -/
def entrySources (row : Value F → Option (LevelSource F)) (asks bids : String) (entry : Value F) :
    List (LevelSource F) :=
  (((entry.get asks).bind Value.asArray).getD [] ++
    ((entry.get bids).bind Value.asArray).getD []).filterMap row

/-- The sources of a Binance event; one with the three fields of a ticker is not a book. -/
def binanceSources (inner : Value F) : List (LevelSource F) :=
  if inner.strOr "e" "" = "depthUpdate" then entrySources textRow "a" "b" inner
  else if inner.strOr "e" "" = "" ∧
      ((inner.get "u").isSome && (inner.get "s").isSome && (inner.get "b").isSome) = false ∧
      (inner.get "lastUpdateId").isSome then
    entrySources textRow "asks" "bids" inner
  else []

def bybitSources (json : Value F) : List (LevelSource F) :=
  if (json.get "op").isSome ∨ startsWith (json.strOr "topic" "") "orderbook." = false then []
  else (json.get "data").toList.flatMap (entrySources textRow "a" "b")

def okxSources (json : Value F) : List (LevelSource F) :=
  (ChainedConnector.okx.bookEntries json).flatMap (entrySources textRow "asks" "bids")

def cryptocomSources (json : Value F) : List (LevelSource F) :=
  (ChainedConnector.cryptocom.bookEntries json).flatMap (entrySources textRow "asks" "bids")

/-- The sources of a Coinbase event, which is dropped as a whole when one of its rows does not
    parse. -/
def eventSources (ev : Value F) : List (LevelSource F) :=
  let updates := ((ev.get "updates").bind Value.asArray).getD []
  if ((ev.get "product_id").bind Value.asStr).isSome ∧
      (updates.mapM Coinbase.l2Update).isSome then
    updates.filterMap namedRow
  else []

def coinbaseSources (json : Value F) : List (LevelSource F) :=
  if json.strOr "channel" "" = "l2_data" ∨ json.strOr "channel" "" = "level2" then
    (((json.get "events").bind Value.asArray).getD []).flatMap eventSources
  else []

/-- The sources of a KuCoin frame that deserializes. -/
def kucoinSources (msg : Envelope F) : List (LevelSource F) :=
  if msg.msgType = "message" then
    msg.data.toList.flatMap fun data =>
      match KucoinFeed.routeOf (msg.topic.getD "") with
      | some .depth => entrySources anyRow "asks" "bids" data
      | some .level2 => [.change ((data.index "change").asStr.getD "")]
      | _ => []
  else []

/-- The connectors with an order-book feed that parses prices. -/
inductive BookConnector where
  | binance (exchange : String)
  | bybit
  | okx
  | cryptocom
  | coinbase
  | kucoin
  deriving DecidableEq, Repr

/-- A text frame that a connector receives when the receipt clock reads `now`. -/
structure BookFrame where
  connector : BookConnector
  now : Int64
  raw : String

namespace BookFrame

/-- The sources of what a frame is read as; none where it does not parse. -/
def sourcesOf {A : Type} (read : Result A) (sources : A → List (LevelSource F)) :
    List (LevelSource F) :=
  (read.toOption.map sources).getD []

/-- The level sources of the frame. -/
def sources (reader : FeedReader F) (frame : BookFrame) : List (LevelSource F) :=
  match frame.connector with
  | .binance _ =>
    sourcesOf (reader.json frame.raw) fun json => binanceSources (Binance.unwrapStream json).2
  | .bybit => sourcesOf (reader.json frame.raw) bybitSources
  | .okx =>
    -- the heartbeat reply is not read
    if frame.raw = "pong" then [] else sourcesOf (reader.json frame.raw) okxSources
  | .cryptocom => sourcesOf (reader.json frame.raw) cryptocomSources
  | .coinbase => sourcesOf (reader.json frame.raw) coinbaseSources
  | .kucoin => sourcesOf (reader.envelope frame.raw) kucoinSources

/-- The book messages among those of a connector. -/
def booksOf (messages : Result (List (DataMessage F))) : List (OrderBookData F F) :=
  (messages.toOption.getD []).filterMap DataMessage.asOrderBook

/-- The book messages of the frame. -/
def books (reader : FeedReader F) (frame : BookFrame) : List (OrderBookData F F) :=
  match frame.connector with
  | .binance exchange =>
    booksOf (Binance.parseMessage reader.json exchange frame.now frame.raw)
  | .bybit => booksOf (Bybit.parseMessage reader.json frame.now frame.raw)
  | .okx => booksOf (Okx.parseMessage reader.json frame.now frame.raw)
  | .cryptocom => booksOf (Cryptocom.parseMessage reader.json frame.now frame.raw)
  | .coinbase => booksOf (Coinbase.parseMessage reader.json reader.rfc3339 frame.now frame.raw)
  | .kucoin =>
    (((reader.envelope frame.raw).toOption.map (KucoinFeed.parseEnvelope frame.now)).getD
      []).filterMap FeedMessage.asOrderBook

end BookFrame

/-- The levels of book messages, of both sides. -/
def levelsOf (messages : List (OrderBookData F F)) : List (F × F) :=
  messages.flatMap fun msg => msg.asks ++ msg.bids

/-! ## The levels of an entry -/

/-- A coordinate that is a string is read by the float parser. -/
theorem readCoord_string (s : String) : readCoord (.string s : Value F) = F64.parse s := by
  simp [readCoord, Value.asStr, Value.asF64]

/-- A row of two texts is read coordinate by coordinate. -/
theorem level_eq_read (row : Value F) : row.level = (textRow row).bind LevelSource.read := by
  -- The row is read field by field, and a field that is missing or no string drops it.
  unfold Value.level textRow
  cases row.getIdx 0 with
  | none => rfl
  | some price =>
    cases hprice : price.asStr with
    | none => simp [hprice]
    | some s =>
      cases row.getIdx 1 with
      | none => simp
      | some qty =>
        cases hqty : qty.asStr <;> simp [hprice, hqty, LevelSource.read, readCoord_string]

/-- A row of texts or numbers is read coordinate by coordinate. -/
theorem depthLevel_eq_read (row : Value F) :
    KucoinFeed.depthLevel row = (anyRow row).bind LevelSource.read := by
  unfold KucoinFeed.depthLevel KucoinFeed.depthCoord anyRow
  cases row.getIdx 0 with
  | none => rfl
  | some price =>
    cases row.getIdx 1 with
    | none => simp
    | some qty => rfl

/-- An update with named coordinates is read coordinate by coordinate. -/
theorem l2Update_eq_read (u : Value F) :
    (Coinbase.l2Update u).map Prod.snd = (namedRow u).bind LevelSource.read := by
  unfold Coinbase.l2Update namedRow
  cases u.get "price_level" with
  | none => rfl
  | some price =>
    cases hprice : price.asStr with
    | none => simp [hprice]
    | some s =>
      cases u.get "new_quantity" with
      | none => simp
      | some qty =>
        cases hqty : qty.asStr with
        | none => simp [hqty]
        | some t =>
          simp only [hprice, hqty, Option.bind_eq_bind, Option.bind_some, Option.pure_def,
            LevelSource.read, readCoord_string]
          cases (F64.parse s : Option F) with
          | none => rfl
          | some p => cases (F64.parse t : Option F) <;> rfl

/-- The levels of an entry are those that its sources read to. -/
theorem filterMap_entrySources {row : Value F → Option (LevelSource F)}
    {level : Value F → Option (F × F)} (h : ∀ r, level r = (row r).bind LevelSource.read)
    (asks bids : String) (entry : Value F) :
    (entrySources row asks bids entry).filterMap LevelSource.read =
      (((entry.get asks).bind Value.asArray).getD []).filterMap level ++
        (((entry.get bids).bind Value.asArray).getD []).filterMap level := by
  rw [entrySources, List.filterMap_filterMap, List.filterMap_append, funext h]

/-- Entries that become book messages with the levels of their rows. -/
theorem levelsOf_map {f : Value F → OrderBookData F F} {sources : Value F → List (LevelSource F)}
    (h : ∀ entry, (f entry).asks ++ (f entry).bids = (sources entry).filterMap LevelSource.read)
    (entries : List (Value F)) :
    levelsOf (entries.map f) = (entries.flatMap sources).filterMap LevelSource.read := by
  rw [levelsOf, List.flatMap_map, List.filterMap_flatMap]
  exact List.flatMap_congr fun entry _ => h entry

/-! ## The levels of a frame -/

/-- The levels in the books of an OKX frame are those its sources read to. -/
theorem okx_levels (now : Int64) (json : Value F) :
    levelsOf ((Okx.parseFrame now json).filterMap DataMessage.asOrderBook) =
      (okxSources json).filterMap LevelSource.read := by
  rw [Okx.asOrderBook_parseFrame]
  refine levelsOf_map (fun entry => ?_) _
  rw [filterMap_entrySources level_eq_read, ← levels_get, ← levels_get]
  rfl

/-- The levels in the books of a Crypto.com frame are those its sources read to. -/
theorem cryptocom_levels (now : Int64) (json : Value F) :
    levelsOf ((Cryptocom.parseFrame now json).filterMap DataMessage.asOrderBook) =
      (cryptocomSources json).filterMap LevelSource.read := by
  rw [Cryptocom.asOrderBook_parseFrame]
  refine levelsOf_map (fun entry => ?_) _
  rw [filterMap_entrySources level_eq_read, ← levels_get, ← levels_get]
  rfl

/-- The levels in the books of a Bybit frame are those its sources read to. -/
theorem bybit_levels (now : Int64) (json : Value F) :
    levelsOf ((Bybit.parseFrame now json).filterMap DataMessage.asOrderBook) =
      (bybitSources json).filterMap LevelSource.read := by
  unfold Bybit.parseFrame bybitSources
  by_cases hop : (json.get "op").isSome = true
  · rw [if_pos hop, if_pos (.inl hop)]
    rfl
  rw [if_neg hop]
  cases htopic : startsWith (json.strOr "topic" "") "orderbook." with
  | true =>
    -- An orderbook topic is not taken for one of the topics that are tested before it.
    obtain ⟨htrade, hticker, hkline⟩ := Bybit.topic_orderbook htopic
    rw [if_neg (by simp [hop])]
    cases json.get "data" with
    | none => rfl
    | some data =>
      simp only [htrade, hticker, hkline, htopic, Bool.false_eq_true, if_false, if_true]
      refine levelsOf_map (f := fun data => Bybit.orderbook now data
        (json.strOr "type" "snapshot" == "snapshot")) (fun entry => ?_) [data]
      rw [filterMap_entrySources level_eq_read, ← levels_index, ← levels_index]
      rfl
  | false =>
    rw [if_pos (.inr rfl)]
    cases json.get "data" with
    | none => rfl
    | some data =>
      dsimp only
      split
      · exact congrArg levelsOf (map_asOrderBook_eq_nil (fun _ => rfl) _)
      split
      · rfl
      split
      · exact congrArg levelsOf (map_asOrderBook_eq_nil (fun _ => rfl) _)
      · rw [htopic]
        rfl

/-- The levels in the books of a Binance frame are those its sources read to. -/
theorem binance_levels (exchange : String) (now : Int64) (json : Value F) :
    levelsOf ((Binance.parseEvent exchange now json).filterMap DataMessage.asOrderBook) =
      (binanceSources (Binance.unwrapStream json).2).filterMap LevelSource.read := by
  unfold Binance.parseEvent binanceSources
  obtain ⟨streamName, inner⟩ := Binance.unwrapStream json
  dsimp only
  -- A book is an update or a snapshot, which has no event type and no fields of a ticker.
  by_cases hupdate : inner.strOr "e" "" = "depthUpdate"
  · simp only [hupdate, String.reduceEq, if_false, if_true]
    rw [filterMap_entrySources level_eq_read, ← levels_index, ← levels_index]
    exact List.append_nil _
  rw [if_neg hupdate]
  by_cases hempty : inner.strOr "e" "" = ""
  · simp only [hempty, String.reduceEq, if_false, if_true, true_and]
    cases (inner.get "u").isSome && (inner.get "s").isSome && (inner.get "b").isSome with
    | true => rfl
    | false =>
      cases (inner.get "lastUpdateId").isSome with
      | false => rfl
      | true =>
        simp only [Bool.false_eq_true, if_false, if_true, and_self]
        rw [filterMap_entrySources level_eq_read, ← levels_index, ← levels_index]
        exact List.append_nil _
  · -- the other events yield no books
    rw [if_neg (c := inner.strOr "e" "" = "" ∧ _) fun h => hempty h.1, if_neg hempty]
    split
    · rfl
    split
    · unfold Binance.parseKline
      split <;> rfl
    split <;> rfl

/-- The levels of an event, though not in the order of its rows. -/
theorem coinbase_event (now : Int64) (ev : Value F) (level : F × F) :
    level ∈ levelsOf (Coinbase.l2 now ev).toList ↔
      level ∈ (eventSources ev).filterMap LevelSource.read := by
  unfold Coinbase.l2 eventSources
  cases (ev.get "product_id").bind Value.asStr with
  | none => simp [levelsOf]
  | some symbol =>
    cases (ev.get "updates").bind Value.asArray with
    | none => simp [levelsOf]
    | some updates =>
      -- One row that does not parse drops the event, and `eventSources` has none then.
      cases hrows : updates.mapM Coinbase.l2Update with
      | none => simp [levelsOf, hrows]
      | some rows =>
        have hread : (updates.filterMap namedRow).filterMap LevelSource.read =
            rows.map Prod.snd := by
          rw [← List.filterMap_eq_of_mapM_eq_some hrows, List.map_filterMap,
            List.filterMap_filterMap]
          exact congrArg (List.filterMap · updates) (funext fun u => (l2Update_eq_read u).symm)
        simp [levelsOf, hrows, hread]

omit [F64Ops F] in
/-- The levels of books that are put together. -/
theorem levelsOf_flatMap {A : Type} (f : A → List (OrderBookData F F)) (xs : List A) :
    levelsOf (xs.flatMap f) = xs.flatMap fun x => levelsOf (f x) :=
  List.flatMap_assoc

/-- The levels in the books of a Coinbase frame are those its sources read to, in some order. -/
theorem coinbase_levels (rfc3339 : String → Option Int64) (now : Int64) (json : Value F)
    (level : F × F) :
    level ∈ levelsOf ((Coinbase.parseFrame rfc3339 now json).filterMap DataMessage.asOrderBook) ↔
      level ∈ (coinbaseSources json).filterMap LevelSource.read := by
  unfold Coinbase.parseFrame coinbaseSources
  by_cases hlevel2 : json.strOr "channel" "" = "l2_data" ∨ json.strOr "channel" "" = "level2"
  -- The book channels are none of the channels that are tested before them.
  · have hack : ¬ (json.strOr "channel" "" = "subscriptions" ∨
        (json.strOr "channel" "").isEmpty = true) := by
      rcases hlevel2 with h | h <;> rw [h] <;> decide
    have hother : json.strOr "channel" "" ≠ "ticker" ∧
        json.strOr "channel" "" ≠ "market_trades" := by
      rcases hlevel2 with h | h <;> rw [h] <;> decide
    simp only [if_neg hack, if_pos hlevel2, if_neg hother.1, if_neg hother.2]
    cases (json.get "events").bind Value.asArray with
    | none => rfl
    | some events =>
      have hbook : ∀ ev : Value F,
          (Coinbase.parseL2 now ev).toList.filterMap DataMessage.asOrderBook =
            (Coinbase.l2 now ev).toList := by
        intro ev
        unfold Coinbase.parseL2
        cases Coinbase.l2 now ev <;> rfl
      simp only [Option.getD_some, List.filterMap_flatMap, hbook, levelsOf_flatMap,
        List.mem_flatMap]
      exact exists_congr fun ev => and_congr_right fun _ => coinbase_event now ev level
  · -- the other channels yield no books
    rw [if_neg hlevel2]
    have hticker : ∀ t : Value F,
        (Coinbase.parseTicker now t).bind DataMessage.asOrderBook = none := by
      intro t
      unfold Coinbase.parseTicker
      cases t.get "product_id" with
      | none => rfl
      | some v => cases hv : v.asStr <;> simp [hv, DataMessage.asOrderBook]
    have htrade : ∀ t : Value F,
        (Coinbase.parseTrade rfc3339 now t).bind DataMessage.asOrderBook = none := by
      intro t
      unfold Coinbase.parseTrade
      cases t.get "product_id" with
      | none => rfl
      | some v => cases hv : v.asStr <;> simp [hv, DataMessage.asOrderBook]
    dsimp only
    split
    · rfl
    cases (json.get "events").bind Value.asArray with
    | none => rfl
    | some events =>
      rw [List.filterMap_flatMap, levelsOf_flatMap]
      refine iff_of_false (fun hmem => ?_) List.not_mem_nil
      obtain ⟨ev, -, hmem⟩ := List.mem_flatMap.mp hmem
      split at hmem
      · rw [List.filterMap_filterMap] at hmem
        simp [hticker, levelsOf] at hmem
      split at hmem
      · rw [List.filterMap_filterMap] at hmem
        simp [htrade, levelsOf] at hmem
      · cases hmem

/-- The level of a Level-2 delta is what its `change` reads to. -/
theorem level2_levels (now : Int64) (symbol exchange : String) (data : Value F) :
    levelsOf ((KucoinWs.parseLevel2Delta now symbol exchange data).filterMap
        DataMessage.asOrderBook) =
      [LevelSource.change ((data.index "change").asStr.getD "")].filterMap LevelSource.read := by
  rw [List.filterMap_cons, LevelSource.read]
  unfold KucoinWs.parseLevel2Delta changeTexts
  dsimp only
  split
  · rfl
  · -- the change is one level of either side
    cases eqIgnoreAsciiCase _ "sell" <;> rfl

/-- The levels in the books of a KuCoin frame are those its sources read to. -/
theorem kucoin_levels (now : Int64) (msg : Envelope F) :
    levelsOf ((KucoinFeed.parseEnvelope now msg).filterMap FeedMessage.asOrderBook) =
      (kucoinSources msg).filterMap LevelSource.read := by
  unfold KucoinFeed.parseEnvelope kucoinSources
  split
  · cases msg.data with
    | none => rfl
    | some data =>
      dsimp only [Option.toList_some]
      rw [List.flatMap_singleton]
      cases KucoinFeed.routeOf (msg.topic.getD "") with
      | none => rfl
      | some route =>
        cases route with
        | depth =>
          show _ = (entrySources anyRow "asks" "bids" data).filterMap LevelSource.read
          rw [filterMap_entrySources depthLevel_eq_read,
            ← rows_index KucoinFeed.depthLevel, ← rows_index KucoinFeed.depthLevel]
          exact List.append_nil _
        | level2 =>
          show levelsOf (((KucoinWs.parseLevel2Delta now _ _ data).map FeedMessage.market).filterMap
            FeedMessage.asOrderBook) = _
          rw [List.filterMap_map]
          exact level2_levels now _ _ data
        | _ => rfl
  · rfl

/-- The levels of a frame that may not be JSON. -/
theorem BookFrame.levels_booksOf {json : Result (Value F)} {parse : Value F → List (DataMessage F)}
    {sources : Value F → List (LevelSource F)} {level : F × F}
    (h : ∀ v, level ∈ levelsOf ((parse v).filterMap DataMessage.asOrderBook) ↔
      level ∈ (sources v).filterMap LevelSource.read) :
    level ∈ levelsOf (booksOf (json.map parse)) ↔
      level ∈ (sourcesOf json sources).filterMap LevelSource.read := by
  cases json with
  | error e => exact Iff.rfl
  | ok v => exact h v

/-- The levels of a frame's book messages are the ones that are read from its sources. -/
theorem mem_levelsOf_books (reader : FeedReader F) (frame : BookFrame) (level : F × F) :
    level ∈ levelsOf (frame.books reader) ↔
      ∃ source ∈ frame.sources reader, source.read = some level := by
  rw [← List.mem_filterMap]
  obtain ⟨connector, now, raw⟩ := frame
  -- OKX answers a `pong` before it parses, and KuCoin's frames are envelopes
  cases connector with
  | binance exchange =>
    exact BookFrame.levels_booksOf fun v => Iff.of_eq
      (congrArg (level ∈ ·) (binance_levels exchange now v))
  | bybit =>
    exact BookFrame.levels_booksOf fun v => Iff.of_eq (congrArg (level ∈ ·) (bybit_levels now v))
  | okx =>
    show level ∈ levelsOf (BookFrame.booksOf (Okx.parseMessage reader.json now raw)) ↔
      level ∈ List.filterMap LevelSource.read (if raw = "pong" then [] else _)
    unfold Okx.parseMessage
    split
    · exact Iff.rfl
    · exact BookFrame.levels_booksOf fun v => Iff.of_eq (congrArg (level ∈ ·) (okx_levels now v))
  | cryptocom =>
    exact BookFrame.levels_booksOf fun v => Iff.of_eq
      (congrArg (level ∈ ·) (cryptocom_levels now v))
  | coinbase =>
    exact BookFrame.levels_booksOf fun v => coinbase_levels reader.rfc3339 now v level
  | kucoin =>
    show level ∈ levelsOf ((((reader.envelope raw).toOption.map
      (KucoinFeed.parseEnvelope now)).getD []).filterMap FeedMessage.asOrderBook) ↔
      level ∈ (BookFrame.sourcesOf (reader.envelope raw) kucoinSources).filterMap LevelSource.read
    cases reader.envelope raw with
    | error e => exact Iff.rfl
    | ok msg => exact Iff.of_eq (congrArg (level ∈ ·) (kucoin_levels now msg))

/-! ## Finite levels -/

/-- Zero is a quantity. -/
theorem FloatValues.quantity_zero (V : FloatValues F) : V.Quantity 0 := ⟨0, V.value_zero, le_refl 0⟩

/-- A change without a price is dropped, and one without a quantity removes the level. -/
theorem FloatValues.change_iff (V : FloatValues F) (price qty : Option F) :
    (∀ p ∈ price, (p == (0 : F)) = false → V.Finite p ∧ ∀ q ∈ qty, V.Quantity q) ↔
      ∀ level, (if price.getD 0 == 0 then none else some (price.getD 0, qty.getD 0)) =
        some level → V.Level level := by
  cases price with
  | none => simp [V.zero_beq]
  | some p =>
    cases hp : p == (0 : F) with
    | true => simp [hp]
    | false => cases qty <;> simp [hp, FloatValues.Level, V.quantity_zero]

/-- A source reads finite exactly if every level it reads to is finite. -/
theorem LevelSource.readsFinite_iff (V : FloatValues F) (source : LevelSource F) :
    source.ReadsFinite V ↔ ∀ level, source.read = some level → V.Level level := by
  cases source with
  | row price qty =>
    show (∀ p ∈ readCoord price, ∀ q ∈ readCoord qty, V.Finite p ∧ V.Quantity q) ↔
      ∀ level, ((readCoord price).bind fun p => (readCoord qty).bind fun q => some (p, q)) =
        some level → V.Level level
    cases readCoord price <;> cases readCoord qty <;> simp [FloatValues.Level]
  | change text =>
    exact V.change_iff ((changeTexts text).1.bind F64.parse) ((changeTexts text).2.bind F64.parse)

/-! ## Books of finite levels -/

/-- All levels of the book are finite, the best ones included, and the book is crossed when the
    price of some bid is at least that of some ask. -/
structure IsFiniteBook (V : FloatValues F) (book : LocalOrderBook F F) : Prop where
  stored : StoresOnly V.Level book
  bestBid : ∀ level, book.bestBid = some level → V.Level level
  bestAsk : ∀ level, book.bestAsk = some level → V.Level level
  crossed_iff : book.isCrossedF64 = true ↔
    ∃ (p q p' q' : F) (b a : ℚ), book.bids[p]? = some q ∧ book.asks[p']? = some q' ∧
      V.value p = some b ∧ V.value p' = some a ∧ a ≤ b

/-- The prices of best levels are compared by value where they are finite. -/
theorem isCrossedF64_iff (V : FloatValues F) {book : LocalOrderBook F F}
    (hbid : ∀ level, book.bestBid = some level → V.Level level)
    (hask : ∀ level, book.bestAsk = some level → V.Level level) :
    book.isCrossedF64 = true ↔ ∃ (bid ask : F × F) (b a : ℚ), book.bestBid = some bid ∧
      book.bestAsk = some ask ∧ V.value bid.1 = some b ∧ V.value ask.1 = some a ∧ a ≤ b := by
  unfold LocalOrderBook.isCrossedF64
  cases hb : book.bestBid with
  | none => simp
  | some bid =>
    cases ha : book.bestAsk with
    | none => simp
    | some ask =>
      -- Both prices are finite, so comparing the floats is comparing their values.
      obtain ⟨b, hvb⟩ := Option.isSome_iff_exists.mp (hbid bid hb).1
      obtain ⟨a, hva⟩ := Option.isSome_iff_exists.mp (hask ask ha).1
      show F64Ops.ge bid.1 ask.1 = true ↔ _
      rw [V.ge_iff hvb hva]
      constructor
      · intro hle
        exact ⟨bid, ask, b, a, rfl, rfl, hvb, hva, hle⟩
      · rintro ⟨bid', ask', b', a', hbid', hask', hvb', hva', hle⟩
        cases hbid'
        cases hask'
        rw [hvb] at hvb'
        rw [hva] at hva'
        cases hvb'
        cases hva'
        exact hle

/-- Messages with finite levels build a finite book. -/
theorem isFiniteBook_applyAll (V : FloatValues F) {msgs : List (OrderBookData F F)}
    (hmsgs : ∀ level ∈ levelsOf msgs, V.Level level) :
    IsFiniteBook V (LocalOrderBook.new.applyAll msgs) := by
  have hstored : StoresOnly V.Level (LocalOrderBook.new.applyAll msgs) := by
    refine StoresOnly.new.applyAll fun msg hmsg => ⟨fun row hrow _ => ?_, fun row hrow _ => ?_⟩
    · exact hmsgs row (List.mem_flatMap.mpr ⟨msg, hmsg, List.mem_append_right _ hrow⟩)
    · exact hmsgs row (List.mem_flatMap.mpr ⟨msg, hmsg, List.mem_append_left _ hrow⟩)
  -- The best levels are stored, and no other level of their side is better.
  have hlevels : NoEmptyLevels (LocalOrderBook.new.applyAll msgs) := NoEmptyLevels.new.applyAll msgs
  have hbids := bids_sideView hlevels
  have hasks := asks_sideView hlevels
  have hbid : ∀ level, (LocalOrderBook.new.applyAll msgs).bestBid = some level → V.Level level :=
    fun level h => hstored.bids _ _ (hbids.stored_best h)
  have hask : ∀ level, (LocalOrderBook.new.applyAll msgs).bestAsk = some level → V.Level level :=
    fun level h => hstored.asks _ _ (hasks.stored_best h)
  refine ⟨hstored, hbid, hask, ?_⟩
  rw [isCrossedF64_iff V hbid hask]
  constructor
  · rintro ⟨bid, ask, b, a, hb, ha, hvb, hva, hle⟩
    exact ⟨_, _, _, _, b, a, hbids.stored_best hb, hasks.stored_best ha, hvb, hva, hle⟩
  · rintro ⟨p, q, p', q', b, a, hp, hp', hvp, hvp', hle⟩
    obtain ⟨bid, hb, hbetter⟩ := hbids.best_better hp
    obtain ⟨ask, ha, hbetter'⟩ := hasks.best_better hp'
    obtain ⟨vb, hvb⟩ := Option.isSome_iff_exists.mp (hbid bid hb).1
    obtain ⟨va, hva⟩ := Option.isSome_iff_exists.mp (hask ask ha).1
    -- the best bid is worth at least `b` and the best ask at most `a`
    have hup : b ≤ vb := V.le_of_le hvp hvb (hbetter.elim (fun h => h ▸ le_refl _) le_of_lt)
    have hdown : va ≤ a := V.le_of_le hva hvp' (hbetter'.elim (fun h => h ▸ le_refl _) le_of_lt)
    exact ⟨bid, ask, vb, va, hb, ha, hvb, hva, hdown.trans (hle.trans hup)⟩

/-- The levels of all frames are finite, and so is every book fed from their messages. -/
structure IsFiniteFeed (V : FloatValues F) (reader : FeedReader F) (frames : Set BookFrame) :
    Prop where
  levels : ∀ frame ∈ frames, ∀ level ∈ levelsOf (frame.books reader), V.Level level
  books : ∀ msgs : List (OrderBookData F F),
    (∀ msg ∈ msgs, ∃ frame ∈ frames, msg ∈ frame.books reader) →
      IsFiniteBook V (LocalOrderBook.new.applyAll msgs)

/-- The levels of frames and the books fed from them are finite when, and only when, the texts
    of every row that is kept read as finite numbers. -/
theorem finite_books_iff (V : FloatValues F) (reader : FeedReader F) (frames : Set BookFrame) :
    IsFiniteFeed V reader frames ↔
      ∀ frame ∈ frames, ∀ source ∈ frame.sources reader, source.ReadsFinite V := by
  constructor
  · intro hfeed frame hframe source hsource
    rw [LevelSource.readsFinite_iff]
    intro level hread
    exact hfeed.levels frame hframe level
      ((mem_levelsOf_books reader frame level).mpr ⟨source, hsource, hread⟩)
  · intro hsources
    have hlevels : ∀ frame ∈ frames, ∀ level ∈ levelsOf (frame.books reader), V.Level level := by
      intro frame hframe level hlevel
      obtain ⟨source, hsource, hread⟩ := (mem_levelsOf_books reader frame level).mp hlevel
      exact (source.readsFinite_iff V).mp (hsources frame hframe source hsource) level hread
    refine ⟨hlevels, fun msgs hmsgs => isFiniteBook_applyAll V fun level hlevel => ?_⟩
    obtain ⟨msg, hmsg, hlevel⟩ := List.mem_flatMap.mp hlevel
    obtain ⟨frame, hframe, hmem⟩ := hmsgs msg hmsg
    exact hlevels frame hframe level (List.mem_flatMap.mpr ⟨msg, hmem, hlevel⟩)

/-! ## Concrete frames -/

/-- Whole numbers with a NaN above them, for concrete inputs. -/
abbrev NanInt := WithTop ℤ

instance : F64Ops NanInt where
  parse s := if eqIgnoreAsciiCase s "nan" then some ⊤ else (parseInt s).map fun n => ↑n
  beq
    | some x, some y => x == y
    | _, _ => false
  display
    | some x => toString x
    | none => "NaN"
  ofUInt64 n := (n.toNat : ℤ)
  ofInt64 i := (i.toInt : ℤ)
  toUppercase := String.toUpper
  add := Option.map₂ (· + ·)
  sub := Option.map₂ (· - ·)
  mul := Option.map₂ (· * ·)
  fmax
    | some x, some y => some (max x y)
    | some x, none => some x
    | none, y => y
  gt
    | some x, some y => decide (y < x)
    | _, _ => false
  sum := List.foldl (Option.map₂ (· + ·)) (some 0)
  jsonText
    | some x => toString x
    | none => "null"
  midpoint := Option.map₂ fun x y => (x + y) / 2
  ge
    | some x, some y => decide (y ≤ x)
    | _, _ => false

/-- The value of a NaN is `none`. -/
def nanValues : FloatValues NanInt where
  value := Option.map Int.cast
  value_zero := congrArg some Int.cast_zero
  zero_beq := rfl
  le_of_le := by
    intro x y a b hx hy hle
    cases x with
    | none => cases hx
    | some x =>
      cases y with
      | none => cases hy
      | some y =>
        cases hx
        cases hy
        exact Int.cast_le.mpr (WithTop.coe_le_coe.mp hle)
  ge_iff := by
    intro x y a b hx hy
    cases x with
    | none => cases hx
    | some x =>
      cases y with
      | none => cases hy
      | some y =>
        cases hx
        cases hy
        exact decide_eq_true_iff.trans Int.cast_le.symm

/-- The text of a Bybit book snapshot with one bid and one ask. -/
def levelsText (bid bidQty ask askQty : String) : String :=
  "\x7b\"topic\":\"orderbook.50.BTCUSDT\",\"type\":\"snapshot\",\"data\":\x7b\"s\":\"BTCUSDT\"," ++
    "\"b\":[[\"" ++ bid ++ "\",\"" ++ bidQty ++ "\"]],\"a\":[[\"" ++ ask ++ "\",\"" ++ askQty ++
    "\"]],\"u\":1\x7d\x7d"

def levelsJson (bid bidQty ask askQty : String) : Value NanInt :=
  .object [("topic", .string "orderbook.50.BTCUSDT"), ("type", .string "snapshot"),
    ("data", .object [("s", .string "BTCUSDT"),
      ("b", .array [.array [.string bid, .string bidQty]]),
      ("a", .array [.array [.string ask, .string askQty]]), ("u", .number (.posInt 1))])]

/-- `serde_json::from_str` on the texts of two snapshots. -/
def exampleReader : FeedReader NanInt where
  json raw :=
    if raw = levelsText "101" "2" "100" "3" then .ok (levelsJson "101" "2" "100" "3")
    else if raw = levelsText "nan" "1" "100" "-2" then .ok (levelsJson "nan" "1" "100" "-2")
    else .error (.json "expected value")
  envelope _ := .error (.json "expected value")
  rfc3339 _ := none

def crossedFrame : BookFrame := ⟨.bybit, 0, levelsText "101" "2" "100" "3"⟩

def nanFrame : BookFrame := ⟨.bybit, 0, levelsText "nan" "1" "100" "-2"⟩

/-- The frame of the example reads finite, and so do all its books. -/
theorem finite_books_iff_crossedFrame :
    (∀ source ∈ crossedFrame.sources exampleReader, source.ReadsFinite nanValues) ∧
      IsFiniteFeed nanValues exampleReader {crossedFrame} := by
  have hlevel : ∀ (p q : ℤ), 0 ≤ q → nanValues.Level (p, q) :=
    fun p q hq => ⟨rfl, q, rfl, Int.cast_nonneg hq⟩
  have hsources : ∀ source ∈ crossedFrame.sources exampleReader, source.ReadsFinite nanValues := by
    intro source hsource
    rw [LevelSource.readsFinite_iff]
    intro level hread
    have hlevels : level ∈ [((100 : NanInt), (3 : NanInt)), (101, 2)] :=
      List.mem_filterMap.mpr ⟨source, hsource, hread⟩
    simp only [List.mem_cons, List.not_mem_nil, or_false] at hlevels
    cases hlevels with
    | inl h => exact h ▸ hlevel 100 3 (by decide)
    | inr h => exact h ▸ hlevel 101 2 (by decide)
  refine ⟨hsources, (finite_books_iff nanValues exampleReader {crossedFrame}).mpr ?_⟩
  intro frame hframe
  exact Set.mem_singleton_iff.mp hframe ▸ hsources

/-- The text of a price may be a NaN and that of a quantity negative. Both are stored, and the
    NaN, the highest of all prices, does not cross the book. -/
theorem nanFrame_not_finite :
    let book := LocalOrderBook.new.applyAll (nanFrame.books exampleReader)
    ¬ IsFiniteFeed nanValues exampleReader {nanFrame} ∧
      book.bestBid = some (⊤, 1) ∧ nanValues.value ⊤ = none ∧ book.bestAsk = some (100, -2) ∧
        book.isCrossed = true ∧ book.isCrossedF64 = false := by
  intro book
  have hbid : book.bestBid = some (⊤, 1) :=
    (Std.ExtTreeMap.maxEntry?_eq_getLast?_toList book.bids).trans (by decide)
  have hask : book.bestAsk = some (100, -2) :=
    (Std.ExtTreeMap.minEntry?_eq_head?_toList book.asks).trans (by decide)
  have hcrossed : book.isCrossed = true := by
    unfold LocalOrderBook.isCrossed
    rw [hbid, hask]
    decide
  have hcrossed' : book.isCrossedF64 = false := by
    unfold LocalOrderBook.isCrossedF64
    rw [hbid, hask]
    rfl
  refine ⟨fun hfeed => ?_, hbid, rfl, hask, hcrossed, hcrossed'⟩
  have hbook : IsFiniteBook nanValues book :=
    hfeed.books _ fun msg hmsg => ⟨nanFrame, rfl, hmsg⟩
  have hfinite : (none : Option ℚ).isSome = true := (hbook.bestBid _ hbid).1
  cases hfinite

end ExchangeApiws.Spec
