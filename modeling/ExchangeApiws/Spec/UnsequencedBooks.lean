import Mathlib.Data.List.ReduceOption
import ExchangeApiws.Spec.BookCorrect
import ExchangeApiws.Spec.FeedFills

/-!
# Local books without sequence ids

Kraken and Coinbase stamp no update ids on their books, so a `LocalOrderBook` applies their
deltas as they come and can detect no gap. It needs none on one connection: the runner delivers
what is received in order and whole, and the first book message of a session is a snapshot.
Over any number of sessions, with any other instruments on the same connection, the book of a
consumer is the venue's book at the last report that was delivered.

## Key results

- `BookStream`: a connector with what its frames report about books
- `StandsAt.apply`: a report takes the book from one position of the venue to the next
- `unsequenced_feed_mirrors_venue`: the book of a consumer, over whole runs
-/

namespace ExchangeApiws.Spec

open Native Native.Runner TransitionSystem

variable {F : Type} [F64Arith F]

/-! ## What a frame reports -/

/-- What a frame says about one book: level rows with their sides, `none` for a row that is
    malformed. -/
structure BookReport (F : Type) where
  symbol : String
  isSnapshot : Bool
  levels : List (Option (BookSide × F × F))

/-- A level as the assignment of its size. -/
def levelRow (level : BookSide × F × F) : (BookSide × F) × Option F :=
  ((level.1, level.2.1), levelOf level.2.2)

/-- The rows of the report that are well formed. -/
def BookReport.rows (report : BookReport F) : List ((BookSide × F) × Option F) :=
  report.levels.reduceOption.map levelRow

/-- No row of the report is malformed. -/
def BookReport.wellFormed (report : BookReport F) : Bool := report.levels.all Option.isSome

/-- The report is well formed, and takes a reader of the venue's book that stands at `prev` to
    `n`. -/
structure BookReport.TrueAt (venue : VenueHistory F F) (prev : Option ℕ) (report : BookReport F)
    (n : ℕ) : Prop where
  wellFormed : report.wellFormed = true
  continues : venue.log.Continues prev report.isSnapshot report.rows n

/-- The well-formed levels of one side. -/
def BookReport.side (report : BookReport F) (side : BookSide) : List (F × F) :=
  report.levels.reduceOption.filterMap fun level => if level.1 = side then some level.2 else none

/-- The message that a parser makes of a report. -/
def BookReport.message (exchange : String) (now : Int64) (report : BookReport F) :
    OrderBookData F F where
  symbol := report.symbol
  exchange := exchange
  asks := report.side .ask
  bids := report.side .bid
  exchangeTs := now
  receiptTs := now
  isSnapshot := report.isSnapshot
  firstUpdateId := none
  lastUpdateId := none

/-- The message has the rows of its report, sorted by side. -/
theorem BookReport.mem_rows_message (exchange : String) (now : Int64) (report : BookReport F)
    (row : (BookSide × F) × Option F) :
    row ∈ Spec.rows (report.message exchange now) ↔ row ∈ report.rows := by
  have hside : ∀ side, row ∈ sideRows side (report.side side) ↔
      ∃ level ∈ report.levels.reduceOption, level.1 = side ∧ levelRow level = row := by
    intro side
    simp only [sideRows, BookReport.side, List.map_filterMap, List.mem_filterMap]
    constructor
    · rintro ⟨level, hlevel, hrow⟩
      split at hrow
      · next h =>
        subst h
        exact ⟨level, hlevel, rfl, Option.some.inj hrow⟩
      · cases hrow
    · rintro ⟨level, hlevel, rfl, rfl⟩
      exact ⟨level, hlevel, by rw [if_pos rfl]; rfl⟩
  rw [Spec.rows, List.mem_append]
  simp only [BookReport.message]
  rw [hside, hside, BookReport.rows, List.mem_map]
  constructor
  · rintro (⟨level, hlevel, -, hrow⟩ | ⟨level, hlevel, -, hrow⟩)
    · exact ⟨level, hlevel, hrow⟩
    · exact ⟨level, hlevel, hrow⟩
  · rintro ⟨level, hlevel, hrow⟩
    cases hs : level.1 with
    | bid => exact Or.inl ⟨level, hlevel, hs, hrow⟩
    | ask => exact Or.inr ⟨level, hlevel, hs, hrow⟩

/-- A connector together with what its frames report about books. -/
structure BookStream (F M : Type) [F64Arith F] where
  connector : Connector M
  asOrderBook : M → Option (OrderBookData F F)
  reports : String → List (BookReport F)
  exchange : String
  clock : ℕ → Int64
  /-- A report with a malformed row is dropped; otherwise only the row is. -/
  dropsMalformed : Bool
  responseFor : ∀ time text, connector.responseFor time text = none
  books : ∀ time text, (connector.messages time text).filterMap asOrderBook =
    ((reports text).filter fun report => !dropsMalformed || report.wellFormed).map
      (BookReport.message exchange (clock time))

/-! ## Kraken -/

/-- The rows of a Kraken book under a key. -/
def krakenLevels (b : Value F) (key : String) (side : BookSide) :
    List (Option (BookSide × F × F)) :=
  (((b.get key).bind Value.asArray).getD []).map fun lvl =>
    (KrakenWs.levelObject lvl).map fun level => (side, level)

/-- What an element of the `book` channel reports. -/
def krakenReport (isSnapshot : Bool) (b : Value F) : BookReport F :=
  ⟨b.strOr "symbol" "", isSnapshot, krakenLevels b "bids" .bid ++ krakenLevels b "asks" .ask⟩

/-- What a Kraken frame reports: one book for each element of the `book` channel. -/
def krakenReports (json : Value F) : List (BookReport F) :=
  if (json.get "method").isNone ∧ json.strOr "channel" "" = "book" then
    (((json.get "data").bind Value.asArray).getD []).map
      (krakenReport (json.strOr "type" "update" == "snapshot"))
  else []

/-- The rows under a key belong to one side. -/
theorem sideOf_krakenLevels (b : Value F) (key : String) (side side' : BookSide) :
    (krakenLevels b key side).reduceOption.filterMap
        (fun level => if level.1 = side' then some level.2 else none) =
      if side = side' then KrakenWs.parseLevelObjects (b.get key) else [] := by
  rw [krakenLevels, KrakenWs.parseLevelObjects]
  generalize (b.get key).bind Value.asArray = levels
  cases levels with
  | none => simp
  | some levels =>
    simp only [Option.getD_some, Option.map_some, List.reduceOption, List.filterMap_map,
      List.filterMap_filterMap]
    split
    · next h =>
      congr 1
      funext lvl
      cases hl : KrakenWs.levelObject lvl <;> simp [hl, h]
    · next h =>
      rw [List.filterMap_eq_nil_iff]
      intro lvl _
      cases hl : KrakenWs.levelObject lvl <;> simp [hl, h]

/-- The message of a Kraken report is what the parser makes of the element. -/
theorem message_krakenReport (now : Int64) (isSnapshot : Bool) (b : Value F) :
    (krakenReport isSnapshot b).message KrakenWs.exchangeName now =
      KrakenWs.book now b isSnapshot := by
  simp [BookReport.message, BookReport.side, krakenReport, KrakenWs.book,
    List.reduceOption_append, List.filterMap_append, sideOf_krakenLevels]

/-- The books of a Kraken frame are the messages of its reports. -/
theorem books_kraken (reader : Reader F) (now : Int64) (json : Value F) :
    (KrakenWs.parseStreamFrame reader now json).filterMap FeedMessage.asOrderBook =
      (krakenReports json).map (BookReport.message KrakenWs.exchangeName now) := by
  have hnone : ∀ {A : Type} {wrap : A → FeedMessage F} (xs : List A),
      (∀ x, (wrap x).asOrderBook = none) →
        (xs.map wrap).filterMap FeedMessage.asOrderBook = [] := by
    intro A wrap xs h
    rw [List.filterMap_map, List.filterMap_eq_nil_iff]
    exact fun x _ => h x
  unfold KrakenWs.parseStreamFrame krakenReports
  cases hmethod : json.get "method" with
  | some method => simp
  | none =>
    simp only [Option.isSome_none, Option.isNone_none, true_and, Bool.false_eq_true, if_false]
    cases hdata : (json.get "data").bind Value.asArray with
    | none => simp
    | some data =>
      -- by channel; only `book` has books
      dsimp only
      split
      case h_4 hchannel =>
        rw [if_pos hchannel, Option.getD_some, List.map_map, KrakenWs.parseBooks, List.map_map,
          List.filterMap_map]
        simp only [Function.comp_def, message_krakenReport]
        exact congrFun List.filterMap_eq_map' data
      case h_5 hchannel =>
        rw [if_neg (by simp [hchannel]), KrakenWs.parseExecutions]
        exact hnone _ fun _ => rfl
      case h_6 hchannel =>
        rw [if_neg (by simp [hchannel]), KrakenWs.parseBalances, List.filterMap_filterMap,
          List.map_nil, List.filterMap_eq_nil_iff]
        intro balance _
        cases nonempty (balance.strOr "asset" "") <;> rfl
      case h_7 _ _ _ hchannel _ _ => rw [if_neg hchannel]; rfl
      all_goals
        next hchannel =>
          rw [if_neg (by simp [hchannel]), List.map_nil]
          first
            | rw [KrakenWs.parseTrades, List.map_map]
            | rw [KrakenWs.parseTickers, List.map_map]
            | rw [KrakenWs.parseKlines, List.map_map]
          exact hnone _ fun _ => rfl

/-! ## Coinbase -/

/-- A parsed row with its side. -/
def sidedRow (row : Bool × F × F) : BookSide × F × F := (if row.1 then .bid else .ask, row.2)

omit [F64Arith F] in
/-- The rows of one side, from rows that carry their side. -/
theorem sideOf_map_sidedRow (side : BookSide) (rows : List (Bool × F × F)) :
    (rows.map sidedRow).filterMap (fun level => if level.1 = side then some level.2 else none) =
      (rows.filter fun row => row.1 == decide (side = .bid)).map (·.2) := by
  induction rows with
  | nil => rfl
  | cons row rows ih =>
    obtain ⟨isBid, level⟩ := row
    rw [List.map_cons, List.filterMap_cons, ih]
    cases isBid <;> cases side <;> rfl

/-- The row of a `{side, price_level, new_quantity}` update. -/
def coinbaseLevel (u : Value F) : Option (BookSide × F × F) :=
  (Coinbase.l2Update u).map sidedRow

/-- What a `level2` event reports, if it names a product and has updates. -/
def coinbaseReport (ev : Value F) : Option (BookReport F) := do
  let symbol ← (ev.get "product_id").bind Value.asStr
  let updates ← (ev.get "updates").bind Value.asArray
  return ⟨symbol, ev.strOr "type" "update" == "snapshot", updates.map coinbaseLevel⟩

/-- A well-formed event yields its message, another one nothing. -/
theorem l2_eq_report (now : Int64) (ev : Value F) :
    Coinbase.l2 now ev = ((coinbaseReport ev).filter BookReport.wellFormed).map
      (BookReport.message Coinbase.exchangeName now) := by
  unfold Coinbase.l2 coinbaseReport
  cases (ev.get "product_id").bind Value.asStr with
  | none => rfl
  | some symbol =>
    cases (ev.get "updates").bind Value.asArray with
    | none => rfl
    | some updates =>
      have hall : (updates.map coinbaseLevel).all Option.isSome =
          (updates.mapM Coinbase.l2Update).isSome := by
        rw [List.isSome_mapM, List.all_map]
        simp only [Function.comp_def, coinbaseLevel, Option.isSome_map]
      cases hrows : updates.mapM Coinbase.l2Update with
      | none => simp [hrows, BookReport.wellFormed, hall, Option.filter]
      | some rows =>
        have hlevels : (updates.map coinbaseLevel).reduceOption = rows.map sidedRow := by
          rw [List.reduceOption, List.filterMap_map, ← List.filterMap_eq_of_mapM_eq_some hrows,
            List.map_filterMap]
          rfl
        simp only [Option.bind_eq_bind, Option.bind_some, hrows, Option.pure_def, Option.filter,
          BookReport.wellFormed, hall, Option.isSome_some, if_true, Option.map_some]
        congr 1
        simp only [BookReport.message, BookReport.side, hlevels, sideOf_map_sidedRow]
        simp

/-- What a Coinbase frame reports: one book for each event of the `level2` channel. -/
def coinbaseReports (json : Value F) : List (BookReport F) :=
  if json.strOr "channel" "" = "l2_data" ∨ json.strOr "channel" "" = "level2" then
    (((json.get "events").bind Value.asArray).getD []).filterMap coinbaseReport
  else []

/-- Tickers and trades are not books. -/
theorem asOrderBook_parseTicker (now : Int64) (t : Value F) :
    (Coinbase.parseTicker now t).bind DataMessage.asOrderBook = none := by
  unfold Coinbase.parseTicker
  cases t.get "product_id" with
  | none => rfl
  | some v => cases hv : v.asStr <;> simp [hv, DataMessage.asOrderBook]

/-- A trade of Coinbase is no book. -/
theorem asOrderBook_parseTrade (rfc3339 : String → Option Int64) (now : Int64) (t : Value F) :
    (Coinbase.parseTrade rfc3339 now t).bind DataMessage.asOrderBook = none := by
  unfold Coinbase.parseTrade
  cases t.get "product_id" with
  | none => rfl
  | some v => cases hv : v.asStr <;> simp [hv, DataMessage.asOrderBook]

/-- The books of a Coinbase frame are the messages of its well-formed reports. -/
theorem books_coinbase (rfc3339 : String → Option Int64) (now : Int64) (json : Value F) :
    (Coinbase.parseFrame rfc3339 now json).filterMap DataMessage.asOrderBook =
      ((coinbaseReports json).filter BookReport.wellFormed).map
        (BookReport.message Coinbase.exchangeName now) := by
  unfold Coinbase.parseFrame coinbaseReports
  by_cases hlevel2 : json.strOr "channel" "" = "l2_data" ∨ json.strOr "channel" "" = "level2"
  · -- the book channels are none of those that are tested before them
    have hack : ¬ (json.strOr "channel" "" = "subscriptions" ∨
        (json.strOr "channel" "").isEmpty = true) := by
      rcases hlevel2 with h | h <;> rw [h] <;> decide
    have hother : json.strOr "channel" "" ≠ "ticker" ∧
        json.strOr "channel" "" ≠ "market_trades" := by
      rcases hlevel2 with h | h <;> rw [h] <;> decide
    simp only [if_neg hack, if_pos hlevel2, if_neg hother.1, if_neg hother.2]
    cases (json.get "events").bind Value.asArray with
    | none => rfl
    | some events =>
      simp only [Option.getD_some]
      -- event by event: one that reports a book yields it if all its rows are well formed
      induction events with
      | nil => rfl
      | cons ev events ih =>
        rw [List.flatMap_cons, List.filterMap_append, ih, Coinbase.parseL2, l2_eq_report,
          List.filterMap_cons]
        cases hreport : coinbaseReport ev with
        | none => rfl
        | some report =>
          by_cases hwell : report.wellFormed = true
          · simp [hwell, Option.filter, DataMessage.asOrderBook]
          · simp [hwell, Option.filter]
  · -- the other channels yield no books
    rw [if_neg hlevel2]
    dsimp only
    split
    · rfl
    cases (json.get "events").bind Value.asArray with
    | none => rfl
    | some events =>
      rw [List.filterMap_flatMap, List.flatMap_eq_nil_iff.mpr]
      · rfl
      intro ev _
      rw [List.filterMap_eq_nil_iff]
      intro msg hmsg
      -- an event has tickers, trades or nothing
      split at hmsg
      · obtain ⟨t, -, ht⟩ := List.mem_filterMap.mp hmsg
        simpa [ht] using asOrderBook_parseTicker now t
      split at hmsg
      · obtain ⟨t, -, ht⟩ := List.mem_filterMap.mp hmsg
        simpa [ht] using asOrderBook_parseTrade rfc3339 now t
      · cases hmsg

/-! ## The two connectors -/

/-- The connectors whose books carry no update ids. -/
inductive UnsequencedConnector where
  | kraken
  | coinbase

/-- What the connector's `parse_message` yields. -/
def UnsequencedConnector.Message (F : Type) : UnsequencedConnector → Type
  | .kraken => FeedMessage F
  | .coinbase => DataMessage F

/-- What the frame `text` reports, if it is JSON. -/
def reportsOf (reader : Reader F) (reports : Value F → List (BookReport F)) (text : String) :
    List (BookReport F) :=
  match reader.json text with
  | .ok json => reports json
  | .error _ => []

/-- `KrakenConnector`: a malformed row is left out of its book. -/
def BookStream.kraken (reader : Reader F) (clock : ℕ → Int64) :
    BookStream F (FeedMessage F) where
  connector := KrakenWs.connector reader clock
  asOrderBook := FeedMessage.asOrderBook
  reports := reportsOf reader krakenReports
  exchange := KrakenWs.exchangeName
  clock := clock
  dropsMalformed := false
  responseFor _ _ := rfl
  books time text := by
    simp only [Connector.messages, KrakenWs.connector, KrakenWs.parseStream, reportsOf]
    cases reader.json text with
    | error e => rfl
    | ok json =>
      simp only [Bool.not_false, Bool.true_or, List.filter_true]
      exact books_kraken reader (clock time) json

/-- `CoinbaseConnector`: an event with a malformed row is dropped. -/
def BookStream.coinbase (reader : Reader F) (clock : ℕ → Int64) :
    BookStream F (DataMessage F) where
  connector := Coinbase.connector reader.json reader.rfc3339 clock
  asOrderBook := DataMessage.asOrderBook
  reports := reportsOf reader coinbaseReports
  exchange := Coinbase.exchangeName
  clock := clock
  dropsMalformed := true
  responseFor _ _ := rfl
  books time text := by
    simp only [Connector.messages, Coinbase.connector, Coinbase.parseMessage, reportsOf]
    cases reader.json text with
    | error e => rfl
    | ok json =>
      simp only [Bool.not_true, Bool.false_or]
      exact books_coinbase reader.rfc3339 (clock time) json

def UnsequencedConnector.stream (reader : Reader F) (clock : ℕ → Int64) :
    (conn : UnsequencedConnector) → BookStream F (conn.Message F)
  | .kraken => .kraken reader clock
  | .coinbase => .coinbase reader clock

/-! ## One report -/

/-- The book stands at a position of the venue: it holds the venue's levels there, and no id. -/
structure StandsAt (venue : VenueHistory F F) (book : LocalOrderBook F F) (n : ℕ) : Prop where
  synced : book.synced = true
  lastUpdateId : book.lastUpdateId = none
  levels : levels book = venue.log.after n

/-- A true report takes the book to the next position. -/
theorem StandsAt.apply {venue : VenueHistory F F} {prev : Option ℕ} {report : BookReport F}
    {n : ℕ} {book : LocalOrderBook F F} (hbook : ∀ u, prev = some u → StandsAt venue book u)
    (hreport : report.TrueAt venue prev n) (exchange : String) (now : Int64) :
    StandsAt venue (book.apply (report.message exchange now)).1 n := by
  have hcontinues := hreport.continues
  have hmem := report.mem_rows_message exchange now
  have hsnapshot : (report.message exchange now).isSnapshot = report.isSnapshot := rfl
  rw [LocalOrderBook.apply, hsnapshot]
  cases hcase : report.isSnapshot with
  | true =>
    -- whatever the book held is replaced
    rw [hcase] at hcontinues
    cases hcontinues with
    | snapshot hrows =>
      rw [if_pos rfl]
      refine ⟨LocalOrderBook.applySnapshot_synced .., ?_, ?_⟩
      · rw [LocalOrderBook.applySnapshot_lastUpdateId]
        rfl
      · rw [levels_applySnapshot]
        exact venue.log.assign_eq_after_of_snapshot (hrows.congr _ hmem)
  | false =>
    rw [hcase] at hcontinues
    cases hcontinues with
    | merge hprev hle hrows =>
      have hstands := hbook _ hprev
      have hlast : (report.message exchange now).lastUpdateId = none := rfl
      -- without ids nothing is compared
      simp only [Bool.false_eq_true, if_false, hstands.synced, Bool.not_true,
        hstands.lastUpdateId]
      refine ⟨?_, ?_, ?_⟩
      · rw [LocalOrderBook.applyDelta_synced, hstands.synced]
      · rw [LocalOrderBook.applyDelta_lastUpdateId, hlast, hstands.lastUpdateId]
        rfl
      · rw [levels_applyDelta, hstands.levels]
        exact venue.log.assign_after_of_merge (hrows.congr _ hmem) (Nat.le_refl _) hle

/-! ## The reports of a run -/

/-- The first of the reports is the first of its session, if `fresh`. -/
def markFirst {R : Type} (fresh : Bool) : List R → List (Bool × R)
  | [] => []
  | report :: reports => (fresh, report) :: reports.map (false, ·)

/-- The reports about `symbol` in the text frames received, each with whether it is the first of
    its session. -/
def BookStream.received {M : Type} (stream : BookStream F M) (symbol : String) (fresh : Bool) :
    List (Output M) → List (Bool × BookReport F)
  | [] => []
  | .connect _ :: log => stream.received symbol true log
  | .received _ (.text text) :: log =>
    let reports := (stream.reports text).filter (·.symbol = symbol)
    markFirst fresh reports ++ stream.received symbol (fresh && reports.isEmpty) log
  | _ :: log => stream.received symbol fresh log

/-- The reports are true of the venue, one after the other, and lead to these positions; the
    first one of a session depends on nothing before it, so it is a snapshot. -/
def Chained (venue : VenueHistory F F) :
    Option ℕ → List (Bool × BookReport F) → List ℕ → Prop
  | _, [], [] => True
  | prev, (fresh, report) :: reports, n :: positions =>
    report.TrueAt venue (if fresh then none else prev) n ∧
      Chained venue (some n) reports positions
  | _, _, _ => False

/-- The book messages about `symbol` among the messages. -/
def BookStream.symbolBooks {M : Type} (stream : BookStream F M) (symbol : String)
    (msgs : List M) : List (OrderBookData F F) :=
  (msgs.filterMap stream.asOrderBook).filter (·.symbol = symbol)

/-- The books of a symbol, from more messages. -/
theorem BookStream.symbolBooks_append {M : Type} (stream : BookStream F M) (symbol : String)
    (msgs msgs' : List M) : stream.symbolBooks symbol (msgs ++ msgs') =
      stream.symbolBooks symbol msgs ++ stream.symbolBooks symbol msgs' := by
  rw [symbolBooks, List.filterMap_append, List.filter_append]
  rfl

/-- The message is made of the report. -/
def IsMessageOf (exchange : String) (report : Bool × BookReport F) (msg : OrderBookData F F) :
    Prop := ∃ now, msg = report.2.message exchange now

/-- Marking the first report changes no report. -/
theorem map_snd_markFirst {R : Type} (fresh : Bool) (reports : List R) :
    (markFirst fresh reports).map Prod.snd = reports := by
  cases reports with
  | nil => rfl
  | cons report reports =>
    rw [markFirst, List.map_cons, List.map_map]
    simp [Function.comp_def]

/-- A frame whose reports about the symbol are well formed yields a message for each. -/
theorem BookStream.symbolBooks_messages {M : Type} (stream : BookStream F M) (symbol : String)
    (time : ℕ) (text : String) (fresh : Bool)
    (hwell : ∀ report ∈ (stream.reports text).filter (·.symbol = symbol),
      report.wellFormed = true) :
    List.Forall₂ (IsMessageOf stream.exchange)
      (markFirst fresh ((stream.reports text).filter (·.symbol = symbol)))
      (stream.symbolBooks symbol (stream.connector.messages time text)) := by
  have hbooks : stream.symbolBooks symbol (stream.connector.messages time text) =
      ((stream.reports text).filter (·.symbol = symbol)).map
        (BookReport.message stream.exchange (stream.clock time)) := by
    rw [symbolBooks, stream.books, List.filter_map, List.filter_filter]
    congr 1
    apply List.filter_congr
    intro report hreport
    by_cases hsymbol : report.symbol = symbol
    · -- a well-formed report is kept in either case
      have hreport := hwell report (List.mem_filter.mpr ⟨hreport, decide_eq_true hsymbol⟩)
      simp [BookReport.message, hsymbol, hreport]
    · simp [BookReport.message, hsymbol]
  rw [hbooks]
  cases (stream.reports text).filter (·.symbol = symbol) with
  | nil => exact .nil
  | cons report reports =>
    refine .cons ⟨_, rfl⟩ ?_
    rw [List.forall₂_map_left_iff, List.forall₂_map_right_iff, List.forall₂_same]
    exact fun report _ => ⟨_, rfl⟩

/-- Every well-formed report that is received has its message among those expected. -/
theorem BookStream.symbolBooks_expected {M : Type} (stream : BookStream F M) (symbol : String)
    (log : List (Output M)) (fresh : Bool)
    (hwell : ∀ report ∈ stream.received symbol fresh log, report.2.wellFormed = true) :
    List.Forall₂ (IsMessageOf stream.exchange) (stream.received symbol fresh log)
      (stream.symbolBooks symbol (stream.connector.expected log)) := by
  induction log generalizing fresh with
  | nil => exact .nil
  | cons output log ih =>
    cases output with
    | connect url => exact ih true hwell
    | received time frame =>
      cases frame with
      | text text =>
        rw [received, List.forall_mem_append] at hwell
        have hframe := stream.symbolBooks_messages symbol time text fresh fun report hreport => by
          rw [← map_snd_markFirst fresh (List.filter _ _)] at hreport
          obtain ⟨marked, hmarked, rfl⟩ := List.mem_map.mp hreport
          exact hwell.1 marked hmarked
        rw [Connector.expected, Connector.contribution, stream.responseFor, symbolBooks_append]
        exact List.rel_append hframe (ih _ hwell.2)
      | _ => exact ih fresh hwell
    | _ => exact ih fresh hwell

/-- True reports are well formed. -/
theorem Chained.wellFormed {venue : VenueHistory F F} {prev : Option ℕ}
    {reports : List (Bool × BookReport F)} {positions : List ℕ}
    (h : Chained venue prev reports positions) :
    ∀ report ∈ reports, report.2.wellFormed = true := by
  induction reports generalizing prev positions with
  | nil => exact fun report hreport => by cases hreport
  | cons report reports ih =>
    cases positions with
    | nil => cases h
    | cons n positions => exact List.forall_mem_cons.mpr ⟨h.1.wellFormed, ih h.2⟩

/-- There is a position for each report. -/
theorem Chained.length_eq {venue : VenueHistory F F} {prev : Option ℕ}
    {reports : List (Bool × BookReport F)} {positions : List ℕ}
    (h : Chained venue prev reports positions) : reports.length = positions.length := by
  induction reports generalizing prev positions with
  | nil =>
    cases positions with
    | nil => rfl
    | cons n positions => cases h
  | cons report reports ih =>
    cases positions with
    | nil => cases h
    | cons n positions => rw [List.length_cons, List.length_cons, ih h.2]

/-- A prefix of the messages takes the book to the position of the last one. -/
theorem Chained.applyAll {venue : VenueHistory F F} {prev : Option ℕ} {exchange : String}
    {reports : List (Bool × BookReport F)} {positions : List ℕ}
    (h : Chained venue prev reports positions) {msgs : List (OrderBookData F F)}
    (hmsgs : List.Forall₂ (IsMessageOf exchange) reports msgs) {book : LocalOrderBook F F}
    (hbook : ∀ u, prev = some u → StandsAt venue book u) {msg : OrderBookData F F}
    {seen : List (OrderBookData F F)} (hleading : msg :: seen <+: msgs) :
    ∃ n, positions[seen.length]? = some n ∧ StandsAt venue (book.applyAll (msg :: seen)) n := by
  induction reports generalizing prev positions msgs book msg seen with
  | nil =>
    cases hmsgs
    exact absurd hleading.length_le (by simp)
  | cons report reports ih =>
    obtain ⟨fresh, report⟩ := report
    cases positions with
    | nil => cases h
    | cons n positions =>
      cases hmsgs with
      | @cons _ first _ rest hfirst hrest =>
        -- the first message takes the book to `n`, from where the others go on
        obtain ⟨rfl, hseen⟩ := List.cons_prefix_cons.mp hleading
        obtain ⟨now, rfl⟩ := hfirst
        have hprev : ∀ u, (if fresh then none else prev) = some u → StandsAt venue book u := by
          intro u hu
          split at hu
          · cases hu
          · exact hbook u hu
        have hstands : StandsAt venue (book.apply (report.message exchange now)).1 n :=
          StandsAt.apply hprev h.1 exchange now
        cases seen with
        | nil => exact ⟨n, rfl, hstands⟩
        | cons next seen =>
          exact ih h.2 hrest (fun u hu => by cases hu; exact hstands) hseen

/-! ## The consumer -/

/-- In every run of `run_feed` with a connector whose books carry no update ids, over any
    sessions and whatever else is received: let the reports about `symbol` be true of one venue,
    a snapshot first in every session, and lead to `positions`. Then the book of a consumer of
    the symbol's messages holds the venue's levels at the position of the last report that was
    delivered; and unless the receiver is gone, all reports but those of the current frame have
    been delivered. -/
theorem unsequenced_feed_mirrors_venue (conn : UnsequencedConnector) (reader : Reader F)
    (clock : ℕ → Int64) (config : WsRunnerConfig) (endpoint : WsFeedEndpoint) (now : ℕ)
    (watch : Watch) (seen : ℕ) (moves : List (ℕ × RunAction))
    (s : FeedState (conn.Message F)) (symbol : String) (venue : VenueHistory F F)
    (positions : List ℕ)
    (hrun : run (runFeedStep config (conn.stream reader clock).connector endpoint)
      (.start now watch seen) moves = some s)
    (htrue : Chained venue none ((conn.stream reader clock).received symbol true s.log) positions) :
    let delivered := (conn.stream reader clock).symbolBooks symbol (deliveries s.log)
    (delivered ≠ [] → ∃ n, positions[delivered.length - 1]? = some n ∧
        StandsAt venue (LocalOrderBook.new.applyAll delivered) n) ∧
      (¬ ReceiverDropped s.log → delivered.length +
        ((conn.stream reader clock).symbolBooks symbol s.feed.phase.pending).length =
          positions.length) := by
  intro delivered
  have hdelivery := (FeedState.traced hrun).1
  have hexpected := (conn.stream reader clock).symbolBooks_expected symbol s.log true
    htrue.wellFormed
  constructor
  -- what is delivered is a prefix of what is expected, and all of it while the receiver lives
  · intro hsome
    have hleading : delivered <+: (conn.stream reader clock).symbolBooks symbol
        ((conn.stream reader clock).connector.expected s.log) :=
      (hdelivery.prefixed.filterMap _).filter _
    cases hbooks : delivered with
    | nil => exact absurd hbooks hsome
    | cons msg seen =>
      rw [hbooks] at hleading
      exact htrue.applyAll hexpected (fun u hu => by cases hu) hleading
  · intro hdropped
    rw [← htrue.length_eq, hexpected.length_eq, ← hdelivery.delivered hdropped,
      BookStream.symbolBooks_append, List.length_append]

/-- A frame of the `book` channel with the one bid of each of its symbols. -/
def krakenFrame (type : String) (books : List (String × UInt64)) : Value ℤ :=
  .object [("channel", .string "book"), ("type", .string type),
    ("data", .array (books.map fun (symbol, qty) => .object [("symbol", .string symbol),
      ("bids", .array [.object [("price", .number (.posInt 100)), ("qty", .number (.posInt qty))]]),
      ("asks", .array [])]))]

def krakenReader : Reader ℤ where
  json raw :=
    if raw = "first" then .ok (krakenFrame "snapshot" [("BTC/USD", 5)])
    else if raw = "update" then .ok (krakenFrame "update" [("ETH/USD", 1), ("BTC/USD", 7)])
    else .ok (krakenFrame "snapshot" [("BTC/USD", 9)])
  wsMessage _ := .error (.json "expected value")
  toLowercase s := s
  rfc3339 _ := none

/-- A venue whose one bid is set three times. -/
def krakenVenue : VenueHistory ℤ ℤ where
  updates
    | 0 => [((.bid, 100), 5)]
    | 1 => [((.bid, 100), 7)]
    | 2 => [((.bid, 100), 9)]
    | _ => []

/-- The last update of the venue falls between two sessions. -/
def krakenMoves : List (ℕ × RunAction) :=
  [(0, .feed .iterate), (1, .feed .connected), (1, .feed .written),
    (1, .feed (.receive (.text "first"))), (1, .feed .delivered),
    (1, .feed (.receive (.text "update"))), (1, .feed .delivered), (1, .feed .delivered),
    (1, .feed (.receive .endOfStream)), (0, .feed .iterate), (5000000000, .feed .wake),
    (1, .feed .connected), (1, .feed .written), (1, .feed (.receive (.text "second"))),
    (1, .feed .delivered)]

/-- A level that is no update of the venue is never set. -/
theorem krakenVenue_after {k : BookSide × ℤ} (hk : k ≠ (.bid, 100)) {n : ℕ} (hn : n ≤ 2) :
    krakenVenue.log.after n k = none := by
  have hstep : ∀ m : BookSide × ℤ → Option ℤ, ∀ q,
      AbsoluteLog.assign m [((.bid, 100), q)] k = m k := fun m q =>
    AbsoluteLog.assign_of_not_mem _ _ (by simpa using hk)
  obtain rfl | rfl | rfl : n = 0 ∨ n = 1 ∨ n = 2 := by omega
  · exact hstep _ _
  · exact (hstep _ _).trans (hstep _ _)
  · exact ((hstep _ _).trans (hstep _ _)).trans (hstep _ _)

/-- The venue's one level is a full snapshot of it. -/
theorem krakenVenue_isSnapshot {n : ℕ} (hn : n ≤ 2) (q : Option ℤ)
    (hq : krakenVenue.log.after n (.bid, 100) = q) :
    krakenVenue.log.IsSnapshot n [((.bid, 100), q)] where
  value row hrow := by
    obtain rfl := List.mem_singleton.mp hrow
    exact hq.symm
  complete k hk := by
    by_contra hmem
    exact hk (krakenVenue_after (by simpa using hmem) hn)

/-- At the end of the run, the book stands at the venue's last update. -/
theorem unsequenced_feed_mirrors_venue_kraken :
    ∃ s, run (runFeedStep .default
          (UnsequencedConnector.kraken.stream krakenReader fun _ => 0).connector
          ⟨"wss://ws.kraken.com/v2", ["subscribe"]⟩) (.start 0 ⟨false, 0⟩ 0) krakenMoves = some s ∧
      ∃ n, [0, 1, 2][2]? = some n ∧ StandsAt krakenVenue (LocalOrderBook.new.applyAll
        ((UnsequencedConnector.kraken.stream krakenReader fun _ => 0).symbolBooks "BTC/USD"
          (deliveries s.log))) n := by
  refine ⟨_, rfl, ?_⟩
  refine (unsequenced_feed_mirrors_venue .kraken krakenReader (fun _ => 0) .default
    ⟨"wss://ws.kraken.com/v2", ["subscribe"]⟩ 0 ⟨false, 0⟩ 0 krakenMoves _ "BTC/USD" krakenVenue
    [0, 1, 2] rfl ?_).1 ?_
  · refine ⟨⟨rfl, .snapshot ?_⟩, ⟨rfl, .merge rfl (by decide) ⟨?_, ?_⟩⟩, ⟨rfl, .snapshot ?_⟩,
      trivial⟩
    · exact krakenVenue_isSnapshot (by decide) _ rfl
    · intro row hrow
      obtain rfl := List.mem_singleton.mp hrow
      rfl
    · rintro k ⟨n, hle, hge, hmem⟩
      obtain rfl : n = 1 := Nat.le_antisymm hge hle
      exact hmem
    · exact krakenVenue_isSnapshot (by decide) _ rfl
  · exact List.cons_ne_nil _ _

end ExchangeApiws.Spec
