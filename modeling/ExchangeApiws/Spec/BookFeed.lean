import ExchangeApiws.Native.BinanceWs
import ExchangeApiws.Native.BybitWs
import ExchangeApiws.Native.OkxWs
import ExchangeApiws.Native.CryptocomWs
import ExchangeApiws.Spec.BookCorrect

/-!
# From the wire to the local book

The connectors that stamp sequence ids parse a delta frame into messages for one
`LocalOrderBook`. This file says what such a frame does to the book in terms of the frame
itself: the level rows it carries and the update id it carries, whether they are well
formed or not. Rows that do not parse are left out and a delta without an id is applied
unchecked, so the strict law (all rows or nothing, never without an id) holds for the
deltas whose rows all parse and whose id is usable.

## Key results

- `parseMessage_deltaEntries`: a delta frame is parsed entry by entry
- `entryLaw_apply`: the effect of one delta entry on any book
- `feedFrame_entryByEntry`: the effect of a delta frame after any run of frames
- `EntryLaw.strict`: the strict law for well-formed entries
-/

namespace ExchangeApiws.Spec

open Native

/-- The connectors whose book frames carry update ids. -/
inductive SequencedConnector where
  | binance (exchange : String)
  | bybit
  | okx
  | cryptocom
  deriving DecidableEq, Repr

variable {F : Type} [F64 F]

/-- The connector's `parse_message`. -/
def SequencedConnector.parseMessage (fromStr : String → Result (Value F)) (now : Int64)
    (raw : String) : SequencedConnector → Result (List (DataMessage F))
  | .binance exchange => Binance.parseMessage fromStr exchange now raw
  | .bybit => Bybit.parseMessage fromStr now raw
  | .okx => Okx.parseMessage fromStr now raw
  | .cryptocom => Cryptocom.parseMessage fromStr now raw

/-- Parse a frame received at `frame.1` and feed its book messages into the book; a frame
    that does not parse is skipped. -/
def feedFrame (conn : SequencedConnector) (fromStr : String → Result (Value F))
    (book : LocalOrderBook F F) (frame : Int64 × String) : LocalOrderBook F F :=
  match conn.parseMessage fromStr frame.1 frame.2 with
  | .ok msgs => book.applyAll (msgs.filterMap DataMessage.asOrderBook)
  | .error _ => book

/-- The book after a sequence of frames. -/
def feed (conn : SequencedConnector) (fromStr : String → Result (Value F))
    (frames : List (Int64 × String)) : LocalOrderBook F F :=
  frames.foldl (feedFrame conn fromStr) LocalOrderBook.new

/-! ## What a delta frame carries -/

/-- The field of an entry that holds the level rows of a side. -/
def SequencedConnector.sideKey : SequencedConnector → BookSide → String
  | .binance _, .bid => "b"
  | .binance _, .ask => "a"
  | .bybit, .bid => "b"
  | .bybit, .ask => "a"
  | .okx, .bid => "bids"
  | .okx, .ask => "asks"
  | .cryptocom, .bid => "bids"
  | .cryptocom, .ask => "asks"

/-- The level rows of an entry on one side, well formed or not. -/
def SequencedConnector.wireRows (conn : SequencedConnector) (entry : Value F)
    (side : BookSide) : List (Value F) :=
  ((entry.get (conn.sideKey side)).bind Value.asArray).getD []

/-- The update id of an entry, when the field is there and is an integer that is not
    negative. -/
def SequencedConnector.entryId (entry : Value F) : SequencedConnector → Option UInt64
  | .okx => ((entry.get "seqId").bind Value.asI64).bind tryFromI64
  | _ => (entry.get "u").bind Value.asU64

/-- The entries of a frame that carry book deltas; `none` for any other frame. -/
def SequencedConnector.deltaEntries (json : Value F) :
    SequencedConnector → Option (List (Value F))
  | .binance _ =>
    let inner := (Binance.unwrapStream json).2
    if inner.strOr "e" "" = "depthUpdate" then some [inner] else none
  | .bybit =>
    if (json.get "op").isNone ∧ startsWith (json.strOr "topic" "") "orderbook." ∧
        json.strOr "type" "snapshot" ≠ "snapshot" then
      (json.get "data").map fun data => [data]
    else none
  | .okx =>
    if (json.get "event").isNone ∧
        (((json.get "arg").bind (·.get "channel")).bind Value.asStr).getD "" = "books" ∧
        json.strOr "action" "snapshot" ≠ "snapshot" then
      (json.get "data").bind Value.asArray
    else none
  | .cryptocom =>
    if (json.get "method").bind Value.asStr ≠ some "public/heartbeat" then
      (json.get "result").bind fun result =>
        if result.strOr "channel" "" = "book" ∧ result.strOr "type" "update" ≠ "snapshot" then
          (result.get "data").bind Value.asArray
        else none
    else none

/-- The JSON value of a frame. OKX's literal `pong` is not read as JSON. -/
def SequencedConnector.frameJson (conn : SequencedConnector)
    (fromStr : String → Result (Value F)) (raw : String) : Option (Value F) :=
  if conn = .okx ∧ raw = "pong" then none else (fromStr raw).toOption

omit [F64 F] in
/-- The frame is JSON, and it is not the text that OKX does not read. -/
theorem SequencedConnector.frameJson_eq_some {conn : SequencedConnector}
    {fromStr : String → Result (Value F)} {raw : String} {json : Value F}
    (h : conn.frameJson fromStr raw = some json) :
    ¬ (conn = .okx ∧ raw = "pong") ∧ fromStr raw = .ok json := by
  unfold frameJson at h
  split at h
  · cases h
  rename_i hpong
  refine ⟨hpong, ?_⟩
  cases hr : fromStr raw with
  | error e => simp [hr, Except.toOption] at h
  | ok v =>
    rw [hr] at h
    exact congrArg Except.ok (Option.some.inj h)

/-! ## How a delta frame is parsed -/

/-- The message `msg` is the delta of `entry`: the rows that parse, and the entry's id. -/
structure IsEntryDelta (conn : SequencedConnector) (entry : Value F)
    (msg : OrderBookData F F) : Prop where
  isSnapshot : msg.isSnapshot = false
  bids : msg.bids = (conn.wireRows entry .bid).filterMap Value.level
  asks : msg.asks = (conn.wireRows entry .ask).filterMap Value.level
  lastUpdateId : msg.lastUpdateId = conn.entryId entry

omit [F64 F] in
/-- `value[key]` read as an array of rows is the optional field read as one. -/
theorem rows_index {L : Type} (level : Value F → Option L) (entry : Value F) (key : String) :
    ((entry.index key).asArray.map (·.filterMap level)).getD [] =
      (((entry.get key).bind Value.asArray).getD []).filterMap level := by
  unfold Value.index
  cases entry.get key with
  | none => rfl
  | some v =>
    simp only [Option.getD_some, Option.bind_some]
    cases v.asArray <;> rfl

/-- `value[key]` read as levels is the optional field read as levels. -/
theorem levels_index (entry : Value F) (key : String) :
    (entry.index key).levels =
      (((entry.get key).bind Value.asArray).getD []).filterMap Value.level :=
  rows_index Value.level entry key

/-- `Value.levels` of an optional field keeps the rows of the field that parse. -/
theorem levels_get (entry : Value F) (key : String) :
    ((entry.get key).map Value.levels).getD [] =
      (((entry.get key).bind Value.asArray).getD []).filterMap Value.level := by
  rw [← levels_index]
  unfold Value.index
  cases entry.get key <;> rfl

omit [F64 F] in
/-- `value[key]` read as an id is the optional field read as an id. -/
theorem asU64_index (entry : Value F) (key : String) :
    (entry.index key).asU64 = (entry.get key).bind Value.asU64 := by
  unfold Value.index
  cases entry.get key <;> rfl

/-- The message of a Binance entry is its delta. -/
theorem Binance.isEntryDelta (exchange : String) (now : Int64) (entry : Value F) :
    IsEntryDelta (.binance exchange) entry (Binance.depthUpdate exchange now entry) where
  isSnapshot := rfl
  bids := levels_index entry "b"
  asks := levels_index entry "a"
  lastUpdateId := asU64_index entry "u"

/-- The message of a Bybit entry is its delta. -/
theorem Bybit.isEntryDelta (now : Int64) (entry : Value F) :
    IsEntryDelta .bybit entry (Bybit.orderbook now entry false) where
  isSnapshot := rfl
  bids := levels_index entry "b"
  asks := levels_index entry "a"
  lastUpdateId := asU64_index entry "u"

/-- The message of an OKX entry is its delta. -/
theorem Okx.isEntryDelta (now : Int64) (entry : Value F) :
    IsEntryDelta .okx entry (Okx.book now entry false) where
  isSnapshot := rfl
  bids := levels_get entry "bids"
  asks := levels_get entry "asks"
  lastUpdateId := rfl

/-- The message of a Crypto.com entry is its delta. -/
theorem Cryptocom.isEntryDelta (now : Int64) (entry : Value F) (instrument : String) :
    IsEntryDelta .cryptocom entry (Cryptocom.book now entry instrument false) where
  isSnapshot := rfl
  bids := levels_get entry "bids"
  asks := levels_get entry "asks"
  lastUpdateId := rfl

omit [F64 F] in
/-- Entries turned into book messages one by one are the book messages of the frame. -/
theorem asOrderBook_map (f : Value F → OrderBookData F F) (entries : List (Value F)) :
    (entries.map fun entry => DataMessage.orderBook (f entry)).filterMap DataMessage.asOrderBook =
      entries.map f := by
  rw [List.filterMap_map]
  exact List.filterMap_eq_map ▸ rfl

omit [F64 F] in
/-- A list and its image are related entry by entry. -/
theorem forall₂_map {R : Value F → OrderBookData F F → Prop}
    {f : Value F → OrderBookData F F} (h : ∀ entry, R entry (f entry)) (entries : List (Value F)) :
    List.Forall₂ R entries (entries.map f) :=
  List.forall₂_map_right_iff.mpr (List.forall₂_same.mpr fun entry _ => h entry)

/-- Of two prefixes of one text, the first characters agree. -/
theorem startsWith_head {s p q : String} {a b : Char} (hp : p.toList.head? = some a)
    (hq : q.toList.head? = some b) (hsp : startsWith s p = true) (hsq : startsWith s q = true) :
    a = b := by
  have hhead : ∀ {r : String} {c : Char}, r.toList.head? = some c → startsWith s r = true →
      s.toList.head? = some c := by
    intro r c hr hs
    obtain ⟨t, ht⟩ := List.isPrefixOf_iff_prefix.mp hs
    rw [← ht, List.head?_append, hr]
    rfl
  have h := (hhead hp hsp).symm.trans (hhead hq hsq)
  exact Option.some.inj h

/-- A topic of the book family is of none of the other three. -/
theorem Bybit.topic_orderbook {topic : String} (h : startsWith topic "orderbook." = true) :
    startsWith topic "publicTrade." = false ∧ startsWith topic "tickers." = false ∧
      startsWith topic "kline." = false := by
  -- their first characters already differ from the `o` of `orderbook.`
  refine ⟨?_, ?_, ?_⟩ <;> rw [Bool.eq_false_iff] <;> intro h'
  · exact absurd (startsWith_head (a := 'o') (b := 'p') (by decide) (by decide) h h') (by decide)
  · exact absurd (startsWith_head (a := 'o') (b := 't') (by decide) (by decide) h h') (by decide)
  · exact absurd (startsWith_head (a := 'o') (b := 'k') (by decide) (by decide) h h') (by decide)

/-- A delta frame is parsed entry by entry, in order, into the deltas of its entries. -/
theorem parseMessage_deltaEntries (conn : SequencedConnector)
    (fromStr : String → Result (Value F)) (now : Int64) (raw : String) {json : Value F}
    {entries : List (Value F)} (hjson : conn.frameJson fromStr raw = some json)
    (hentries : conn.deltaEntries json = some entries) :
    ∃ msgs, conn.parseMessage fromStr now raw = .ok msgs ∧
      List.Forall₂ (IsEntryDelta conn) entries (msgs.filterMap DataMessage.asOrderBook) := by
  obtain ⟨hpong, hfrom⟩ := SequencedConnector.frameJson_eq_some hjson
  cases conn with
  | binance exchange =>
    refine ⟨_, by rw [SequencedConnector.parseMessage, Binance.parseMessage, hfrom]; rfl, ?_⟩
    simp only [SequencedConnector.deltaEntries] at hentries
    split at hentries
    · rename_i he
      obtain rfl := Option.some.inj hentries
      simp only [Binance.parseEvent, he, String.reduceEq, if_false, if_true]
      exact .cons (Binance.isEntryDelta exchange now _) .nil
    · cases hentries
  | bybit =>
    refine ⟨_, by rw [SequencedConnector.parseMessage, Bybit.parseMessage, hfrom]; rfl, ?_⟩
    simp only [SequencedConnector.deltaEntries] at hentries
    split at hentries
    · rename_i h
      obtain ⟨hop, htopic, htype⟩ := h
      obtain ⟨data, hdata, rfl⟩ := Option.map_eq_some_iff.mp hentries
      -- the topics of the other families are tried first, and none of them fits
      have hop' : (json.get "op").isSome = false := by simpa using hop
      have htype' : (json.strOr "type" "snapshot" == "snapshot") = false := by simpa using htype
      obtain ⟨htrade, hticker, hkline⟩ := Bybit.topic_orderbook htopic
      simp only [Bybit.parseFrame, hop', hdata, htype', htrade, hticker, hkline, htopic,
        Bool.false_eq_true, if_false, if_true]
      exact .cons (Bybit.isEntryDelta now data) .nil
    · cases hentries
  | okx =>
    -- the text `pong` never gets to the JSON parser
    have hraw : raw ≠ "pong" := fun h => hpong ⟨rfl, h⟩
    refine ⟨_, by
      rw [SequencedConnector.parseMessage, Okx.parseMessage, if_neg hraw, hfrom]; rfl, ?_⟩
    simp only [SequencedConnector.deltaEntries] at hentries
    split at hentries
    · rename_i h
      obtain ⟨hevent, hchannel, haction⟩ := h
      have hevent' : (json.get "event").isSome = false := by simpa using hevent
      have haction' : (json.strOr "action" "snapshot" == "snapshot") = false := by
        simpa using haction
      simp only [Okx.parseFrame, hevent', hentries, hchannel, haction', String.reduceEq,
        Bool.false_eq_true, if_false, if_true, Okx.parseBook]
      rw [asOrderBook_map]
      exact forall₂_map (Okx.isEntryDelta now) entries
    · cases hentries
  | cryptocom =>
    refine ⟨_, by rw [SequencedConnector.parseMessage, Cryptocom.parseMessage, hfrom]; rfl, ?_⟩
    simp only [SequencedConnector.deltaEntries] at hentries
    split at hentries
    · rename_i hbeat
      obtain ⟨result, hresult, hentries⟩ := Option.bind_eq_some_iff.mp hentries
      split at hentries
      · rename_i h
        obtain ⟨hchannel, htype⟩ := h
        have htype' : (result.strOr "type" "update" == "snapshot") = false := by simpa using htype
        simp only [Cryptocom.parseFrame, if_neg hbeat, hresult, hentries, hchannel, htype',
          String.reduceEq, if_false, if_true, Cryptocom.parseBooks]
        rw [asOrderBook_map]
        exact forall₂_map (fun entry => Cryptocom.isEntryDelta now entry _) entries
      · cases hentries
    · cases hentries

/-! ## What a delta frame does to the book -/

/-- The levels and the update id of two books are the same. -/
def SameBook (before after : LocalOrderBook F F) : Prop :=
  levels after = levels before ∧ after.lastUpdateId = before.lastUpdateId

/-- The rows of an entry that parse, as assignments: its bids, then its asks. -/
def SequencedConnector.parsedRows (conn : SequencedConnector) (entry : Value F) :
    List ((BookSide × F) × Option F) :=
  sideRows .bid ((conn.wireRows entry .bid).filterMap Value.level) ++
    sideRows .ask ((conn.wireRows entry .ask).filterMap Value.level)

/-- What one delta entry does to a book: nothing, or the book is synced and stays so, the
    rows that parse are assigned, and the id advances when the entry has a usable one. -/
def EntryLaw (conn : SequencedConnector) (entry : Value F) (before after : LocalOrderBook F F) :
    Prop :=
  SameBook before after ∨
    before.synced = true ∧ after.synced = true ∧
      levels after = AbsoluteLog.assign (levels before) (conn.parsedRows entry) ∧
      after.lastUpdateId = (conn.entryId entry).or before.lastUpdateId

/-- Every level row of the entry parses, and its update id is usable. -/
def SequencedConnector.IsWellFormed (conn : SequencedConnector) (entry : Value F) : Prop :=
  (∀ side, ∀ row ∈ conn.wireRows entry side, (Value.level row).isSome = true) ∧
    (conn.entryId entry).isSome = true

/-- The strict law: nothing, or a book that is not synced, or every row of the entry is
    applied and the book is at the entry's id. -/
def StrictLaw (conn : SequencedConnector) (entry : Value F) (before after : LocalOrderBook F F) :
    Prop :=
  SameBook before after ∨ after.synced = false ∨
    conn.IsWellFormed entry ∧
      levels after = AbsoluteLog.assign (levels before) (conn.parsedRows entry) ∧
      after.lastUpdateId = conn.entryId entry

/-- `law` relates the books before and after each entry, from the first entry to the last. -/
inductive EntryByEntry (law : Value F → LocalOrderBook F F → LocalOrderBook F F → Prop) :
    LocalOrderBook F F → List (Value F) → LocalOrderBook F F → Prop where
  | nil (book : LocalOrderBook F F) : EntryByEntry law book [] book
  | cons {before mid after : LocalOrderBook F F} {entry : Value F} {entries : List (Value F)}
      (hfirst : law entry before mid) (hrest : EntryByEntry law mid entries after) :
      EntryByEntry law before (entry :: entries) after

/-- A law that holds of the entries of a list under a stronger hypothesis on each. -/
theorem EntryByEntry.imp {law law' : Value F → LocalOrderBook F F → LocalOrderBook F F → Prop}
    {before after : LocalOrderBook F F} {entries : List (Value F)}
    (himp : ∀ entry ∈ entries, ∀ b a, law entry b a → law' entry b a)
    (h : EntryByEntry law before entries after) : EntryByEntry law' before entries after := by
  induction h with
  | nil book => exact .nil book
  | cons hfirst _ ih =>
    exact .cons (himp _ List.mem_cons_self _ _ hfirst)
      (ih fun entry hmem => himp entry (List.mem_cons_of_mem _ hmem))

/-- One delta entry, on any book. -/
theorem entryLaw_apply {conn : SequencedConnector} {entry : Value F} {msg : OrderBookData F F}
    (hmsg : IsEntryDelta conn entry msg) (book : LocalOrderBook F F) :
    EntryLaw conn entry book (book.apply msg).1 := by
  have hrows : rows msg = conn.parsedRows entry := by
    rw [rows, hmsg.bids, hmsg.asks, SequencedConnector.parsedRows]
  -- the two branches that apply a delta do the same to the levels and the id
  have happlied : book.synced = true → EntryLaw conn entry book (book.applyDelta msg) := by
    intro hsync
    refine Or.inr ⟨hsync, by rw [LocalOrderBook.applyDelta_synced, hsync], ?_, ?_⟩
    · rw [levels_applyDelta, hrows]
    · rw [LocalOrderBook.applyDelta_lastUpdateId, hmsg.lastUpdateId]
      cases conn.entryId entry <;> rfl
  have hout := book.apply_outcome msg
  generalize book.apply msg = r at hout
  cases hout with
  | snapshot hsnap => simp [hmsg.isSnapshot] at hsnap
  | awaiting _ _ => exact Or.inl ⟨rfl, rfl⟩
  | stale _ _ _ _ _ => exact Or.inl ⟨rfl, rfl⟩
  | gap _ _ _ _ _ _ => exact Or.inl ⟨rfl, rfl⟩
  | delta _ hsync _ _ _ _ => exact happlied hsync
  | unchecked _ hsync _ => exact happlied hsync

/-- For a well-formed entry, the law is the strict one. -/
theorem EntryLaw.strict {conn : SequencedConnector} {entry : Value F}
    {before after : LocalOrderBook F F} (hwf : conn.IsWellFormed entry)
    (h : EntryLaw conn entry before after) : StrictLaw conn entry before after := by
  obtain hsame | ⟨_, _, hlevels, hid⟩ := h
  · exact Or.inl hsame
  · -- the usable id replaces whatever id the book had
    refine Or.inr (Or.inr ⟨hwf, hlevels, ?_⟩)
    obtain ⟨id, hsome⟩ := Option.isSome_iff_exists.mp hwf.2
    rw [hid, hsome]
    rfl

/-- Messages that are the deltas of the entries act on the book entry by entry. -/
theorem entryByEntry_applyAll {conn : SequencedConnector} {entries : List (Value F)}
    {msgs : List (OrderBookData F F)} (h : List.Forall₂ (IsEntryDelta conn) entries msgs)
    (book : LocalOrderBook F F) :
    EntryByEntry (EntryLaw conn) book entries (book.applyAll msgs) := by
  induction h generalizing book with
  | nil => exact .nil book
  | cons hmsg _ ih => exact .cons (entryLaw_apply hmsg book) (ih _)

/-- A delta frame, on any book. -/
theorem feedFrame_entryByEntry (conn : SequencedConnector) (fromStr : String → Result (Value F))
    (book : LocalOrderBook F F) (frame : Int64 × String) {json : Value F}
    {entries : List (Value F)} (hjson : conn.frameJson fromStr frame.2 = some json)
    (hentries : conn.deltaEntries json = some entries) :
    EntryByEntry (EntryLaw conn) book entries (feedFrame conn fromStr book frame) := by
  obtain ⟨msgs, hparse, hmsgs⟩ :=
    parseMessage_deltaEntries conn fromStr frame.1 frame.2 hjson hentries
  rw [feedFrame, hparse]
  exact entryByEntry_applyAll hmsgs book

/-- Feed any frames, then a delta frame. Entry by entry, the levels and the update id stay
    as they are, or the rows that parse are applied to a synced book and the id becomes the
    entry's, when it has a usable one. Where the rows of all entries parse and their ids are
    usable, the strict law holds of each of them. -/
theorem delta_frame_applied (conn : SequencedConnector) (fromStr : String → Result (Value F))
    (frames : List (Int64 × String)) (frame : Int64 × String) (json : Value F)
    (entries : List (Value F)) (hjson : conn.frameJson fromStr frame.2 = some json)
    (hentries : conn.deltaEntries json = some entries) :
    EntryByEntry (EntryLaw conn) (feed conn fromStr frames) entries
        (feed conn fromStr (frames ++ [frame])) ∧
      ((∀ entry ∈ entries, conn.IsWellFormed entry) →
        EntryByEntry (StrictLaw conn) (feed conn fromStr frames) entries
          (feed conn fromStr (frames ++ [frame]))) := by
  have hfeed : feed conn fromStr (frames ++ [frame]) =
      feedFrame conn fromStr (feed conn fromStr frames) frame := by
    simp only [feed, List.foldl_append, List.foldl_cons, List.foldl_nil]
  have h := feedFrame_entryByEntry conn fromStr (feed conn fromStr frames) frame hjson hentries
  rw [← hfeed] at h
  exact ⟨h, fun hwf => h.imp fun entry hmem _ _ hlaw => hlaw.strict (hwf entry hmem)⟩

/-! ### Bybit frames -/

/-- The data object of a Bybit book frame. -/
def bybitData (bids : List (Value ℤ)) (id : List (String × Value ℤ)) : Value ℤ :=
  .object ([("s", .string "BTCUSDT"), ("b", .array bids), ("a", .array [])] ++ id)

/-- A Bybit book frame. -/
def bybitFrame (type : String) (data : Value ℤ) : Value ℤ :=
  .object [("topic", .string "orderbook.50.BTCUSDT"), ("type", .string type), ("data", data)]

def bybitSnapshot : Value ℤ :=
  bybitData [.array [.string "100", .string "5"]] [("u", .number (.posInt 1))]

/-- A delta whose only row has a price that is not a number. -/
def bybitMalformedRow : Value ℤ :=
  bybitData [.array [.string "abc", .string "1"]] [("u", .number (.posInt 2))]

def bybitDelta : Value ℤ :=
  bybitData [.array [.string "100", .string "7"]] [("u", .number (.posInt 2))]

/-- A delta without an update id. -/
def bybitNoId : Value ℤ := bybitData [.array [.string "100", .string "7"]] []

def snapshotText : String :=
  "\x7b\"topic\":\"orderbook.50.BTCUSDT\",\"type\":\"snapshot\",\"data\":\x7b\"s\":\"BTCUSDT\"," ++
    "\"b\":[[\"100\",\"5\"]],\"a\":[],\"u\":1\x7d\x7d"

def deltaText : String :=
  "\x7b\"topic\":\"orderbook.50.BTCUSDT\",\"type\":\"delta\",\"data\":\x7b\"s\":\"BTCUSDT\"," ++
    "\"b\":[[\"100\",\"7\"]],\"a\":[],\"u\":2\x7d\x7d"

def malformedRowText : String :=
  "\x7b\"topic\":\"orderbook.50.BTCUSDT\",\"type\":\"delta\",\"data\":\x7b\"s\":\"BTCUSDT\"," ++
    "\"b\":[[\"abc\",\"1\"]],\"a\":[],\"u\":2\x7d\x7d"

def noIdText : String :=
  "\x7b\"topic\":\"orderbook.50.BTCUSDT\",\"type\":\"delta\",\"data\":\x7b\"s\":\"BTCUSDT\"," ++
    "\"b\":[[\"100\",\"7\"]],\"a\":[]\x7d\x7d"

/-- `serde_json::from_str` on the four texts. -/
def bybitFromStr (raw : String) : Result (Value ℤ) :=
  if raw = snapshotText then .ok (bybitFrame "snapshot" bybitSnapshot)
  else if raw = deltaText then .ok (bybitFrame "delta" bybitDelta)
  else if raw = malformedRowText then .ok (bybitFrame "delta" bybitMalformedRow)
  else if raw = noIdText then .ok (bybitFrame "delta" bybitNoId)
  else .error (.json "expected value")

/-- The book after the snapshot and one more frame. -/
def bybitBook (text : String) : LocalOrderBook ℤ ℤ :=
  feed .bybit bybitFromStr [(0, snapshotText), (1, text)]

/-- A delta whose row does not parse advances the id of a synced book, and a delta without
    an id changes the levels of a synced book that has one. -/
theorem not_strictLaw_bybit :
    ((SequencedConnector.bybit.frameJson bybitFromStr malformedRowText).bind
        SequencedConnector.bybit.deltaEntries = some [bybitMalformedRow] ∧
      ¬ StrictLaw .bybit bybitMalformedRow (feed .bybit bybitFromStr [(0, snapshotText)])
        (bybitBook malformedRowText)) ∧
    ((SequencedConnector.bybit.frameJson bybitFromStr noIdText).bind
        SequencedConnector.bybit.deltaEntries = some [bybitNoId] ∧
      SequencedConnector.bybit.entryId bybitNoId = none ∧
      (feed .bybit bybitFromStr [(0, snapshotText)]).lastUpdateId = some 1 ∧
      levels (feed .bybit bybitFromStr [(0, snapshotText)]) (.bid, 100) = some 5 ∧
      levels (bybitBook noIdText) (.bid, 100) = some 7 ∧
      (bybitBook noIdText).isSynced = true) := by
  refine ⟨⟨rfl, ?_⟩, rfl, rfl, by decide, by decide, by decide, by decide⟩
  -- the id has moved on, the book is synced, and the row does not parse
  rintro (⟨_, hid⟩ | hsync | ⟨⟨hrows, _⟩, _⟩)
  · exact absurd hid (by decide)
  · exact absurd hsync (by decide)
  · have h := hrows .bid (.array [.string "abc", .string "1"]) List.mem_cons_self
    exact absurd h (by decide)

/-- The delta frame of the example is applied as its rows say. -/
theorem delta_frame_applied_bybitDelta :
    EntryByEntry (StrictLaw .bybit) (feed .bybit bybitFromStr [(0, snapshotText)]) [bybitDelta]
      (bybitBook deltaText) := by
  refine (delta_frame_applied .bybit bybitFromStr [(0, snapshotText)] (1, deltaText)
    (bybitFrame "delta" bybitDelta) [bybitDelta] rfl rfl).2 ?_
  intro entry hmem
  obtain rfl := List.mem_singleton.mp hmem
  refine ⟨fun side row hrow => ?_, rfl⟩
  cases side with
  | bid =>
    obtain rfl := List.mem_singleton.mp hrow
    decide
  | ask => cases hrow

end ExchangeApiws.Spec
