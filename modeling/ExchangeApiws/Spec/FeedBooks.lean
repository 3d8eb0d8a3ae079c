import ExchangeApiws.Native.Connectors
import ExchangeApiws.Spec.FeedTrace
import ExchangeApiws.Spec.Heartbeat
import ExchangeApiws.Spec.SequenceIds

/-!
# The local book at the end of a feed

A consumer applies the order-book messages that `run_feed` delivers to one `LocalOrderBook`.
Over any number of sessions, its book is the one that the frames received build, in order, up
to the messages of the current frame. Where the book frames tell the truth about one venue,
whatever else is received and whatever is lost between sessions, a synced book is the venue's
book at the id it is at.

## Key results

- `SequencedConnector.bookEntries`: what a frame says about the book, snapshots included
- `parseMessage_bookEntries`: every frame is parsed entry by entry
- `Mirrors.applyEntry`: a true entry keeps the correspondence with the venue's book
- `feed_mirrors_venue`: the book of the consumer, over whole runs
-/

namespace ExchangeApiws.Native.LocalOrderBook

/-- Messages are applied in order. -/
theorem applyAll_append {P Q : Type*} [LinearOrder P] [Zero Q] [BEq Q] (book : LocalOrderBook P Q)
    (xs ys : List (OrderBookData P Q)) :
    book.applyAll (xs ++ ys) = (book.applyAll xs).applyAll ys := List.foldl_append

end ExchangeApiws.Native.LocalOrderBook

namespace ExchangeApiws.Spec

open Native Native.Runner TransitionSystem

variable {F : Type} [F64 F]

/-- The connector, as the runner sees it. -/
def SequencedConnector.connector (conn : SequencedConnector) (fromStr : String → Result (Value F))
    (clock : ℕ → Int64) : Connector (DataMessage F) :=
  match conn with
  | .binance exchange => Binance.connector fromStr clock exchange
  | .bybit => Bybit.connector fromStr clock
  | .okx => Okx.connector fromStr clock
  | .cryptocom => Cryptocom.connector fromStr clock

/-! ## What a frame says about the book -/

/-- What one entry of a book frame says, before it is parsed: level rows and update ids. -/
structure BookEntry (F : Type) where
  isSnapshot : Bool
  bids : List (Value F)
  asks : List (Value F)
  firstUpdateId : Option UInt64
  lastUpdateId : Option UInt64

/-- The rows under a key. -/
def rowsAt (entry : Value F) (key : String) : List (Value F) :=
  ((entry.get key).bind Value.asArray).getD []

/-- An unsigned integer under a key. -/
def idAt (entry : Value F) (key : String) : Option UInt64 := (entry.get key).bind Value.asU64

/-- The entry of a Binance event: a depth update, or a partial-depth snapshot, which has no `e`
    and is not a book ticker. -/
def binanceEntries (json : Value F) : List (BookEntry F) :=
  let inner := (Binance.unwrapStream json).2
  if inner.strOr "e" "" = "depthUpdate" then
    [⟨false, rowsAt inner "b", rowsAt inner "a", idAt inner "U", idAt inner "u"⟩]
  else if inner.strOr "e" "" = "" ∧
      ¬ ((inner.get "u").isSome ∧ (inner.get "s").isSome ∧ (inner.get "b").isSome) ∧
      (inner.get "lastUpdateId").isSome then
    [⟨true, rowsAt inner "bids", rowsAt inner "asks", idAt inner "lastUpdateId",
      idAt inner "lastUpdateId"⟩]
  else []

/-- The entry of a Bybit frame of the `orderbook.` family; its ids count up one by one. -/
def bybitEntries (json : Value F) : List (BookEntry F) :=
  if (json.get "op").isNone ∧ startsWith (json.strOr "topic" "") "orderbook." then
    ((json.get "data").map fun data =>
      ⟨json.strOr "type" "snapshot" == "snapshot", rowsAt data "b", rowsAt data "a",
        idAt data "u", idAt data "u"⟩).toList
  else []

/-- The entries of an OKX or Crypto.com frame, each chained to the one before. -/
def ChainedConnector.entries (json : Value F) (conn : ChainedConnector) : List (BookEntry F) :=
  (conn.bookEntries json).map fun entry =>
    ⟨conn.isSnapshot json, rowsAt entry "bids", rowsAt entry "asks", conn.firstId entry,
      conn.sequenced.entryId entry⟩

/-- What a frame says about the book, entry by entry. -/
def SequencedConnector.bookEntries (json : Value F) : SequencedConnector → List (BookEntry F)
  | .binance _ => binanceEntries json
  | .bybit => bybitEntries json
  | .okx => ChainedConnector.okx.entries json
  | .cryptocom => ChainedConnector.cryptocom.entries json

/-- The message `msg` is what the parser makes of `entry`. -/
structure IsEntryMessage (entry : BookEntry F) (msg : OrderBookData F F) : Prop where
  isSnapshot : msg.isSnapshot = entry.isSnapshot
  bids : msg.bids = entry.bids.filterMap Value.level
  asks : msg.asks = entry.asks.filterMap Value.level
  firstUpdateId : msg.firstUpdateId = entry.firstUpdateId
  lastUpdateId : msg.lastUpdateId = entry.lastUpdateId

/-! ## How a frame is parsed -/

/-- A depth update of Binance is made of its entry. -/
theorem Binance.isEntryMessage_update (exchange : String) (now : Int64) (entry : Value F) :
    IsEntryMessage
      ⟨false, rowsAt entry "b", rowsAt entry "a", idAt entry "U", idAt entry "u"⟩
      (Binance.depthUpdate exchange now entry) where
  isSnapshot := rfl
  bids := levels_index entry "b"
  asks := levels_index entry "a"
  firstUpdateId := asU64_index entry "U"
  lastUpdateId := asU64_index entry "u"

/-- A depth snapshot of Binance is made of its entry. -/
theorem Binance.isEntryMessage_snapshot (exchange symbol : String) (now : Int64)
    (entry : Value F) :
    IsEntryMessage
      ⟨true, rowsAt entry "bids", rowsAt entry "asks", idAt entry "lastUpdateId",
        idAt entry "lastUpdateId"⟩
      (Binance.depthSnapshot exchange symbol now entry) where
  isSnapshot := rfl
  bids := levels_index entry "bids"
  asks := levels_index entry "asks"
  firstUpdateId := asU64_index entry "lastUpdateId"
  lastUpdateId := asU64_index entry "lastUpdateId"

/-- A book of Bybit is made of its entry. -/
theorem Bybit.isEntryMessage (now : Int64) (entry : Value F) (isSnapshot : Bool) :
    IsEntryMessage
      ⟨isSnapshot, rowsAt entry "b", rowsAt entry "a", idAt entry "u", idAt entry "u"⟩
      (Bybit.orderbook now entry isSnapshot) where
  isSnapshot := rfl
  bids := levels_index entry "b"
  asks := levels_index entry "a"
  firstUpdateId := asU64_index entry "u"
  lastUpdateId := asU64_index entry "u"

/-- A book of OKX is made of its entry. -/
theorem Okx.isEntryMessage (now : Int64) (entry : Value F) (isSnapshot : Bool) :
    IsEntryMessage
      ⟨isSnapshot, rowsAt entry "bids", rowsAt entry "asks", ChainedConnector.okx.firstId entry,
        SequencedConnector.okx.entryId entry⟩
      (Okx.book now entry isSnapshot) where
  isSnapshot := rfl
  bids := levels_get entry "bids"
  asks := levels_get entry "asks"
  firstUpdateId := rfl
  lastUpdateId := rfl

/-- A book of Crypto.com is made of its entry. -/
theorem Cryptocom.isEntryMessage (now : Int64) (entry : Value F) (instrument : String)
    (isSnapshot : Bool) :
    IsEntryMessage
      ⟨isSnapshot, rowsAt entry "bids", rowsAt entry "asks",
        ChainedConnector.cryptocom.firstId entry, SequencedConnector.cryptocom.entryId entry⟩
      (Cryptocom.book now entry instrument isSnapshot) where
  isSnapshot := rfl
  bids := levels_get entry "bids"
  asks := levels_get entry "asks"
  firstUpdateId := rfl
  lastUpdateId := rfl

/-- A Binance frame has a book message for each of its entries. -/
theorem Binance.books_parseEvent (exchange : String) (now : Int64) (json : Value F) :
    List.Forall₂ IsEntryMessage (binanceEntries json)
      ((Binance.parseEvent exchange now json).filterMap DataMessage.asOrderBook) := by
  unfold Binance.parseEvent binanceEntries
  obtain ⟨streamName, inner⟩ := Binance.unwrapStream json
  dsimp only
  by_cases hupdate : inner.strOr "e" "" = "depthUpdate"
  · simp only [hupdate, String.reduceEq, if_false, if_true]
    exact .cons (Binance.isEntryMessage_update exchange now inner) .nil
  rw [if_neg hupdate]
  by_cases hempty : inner.strOr "e" "" = ""
  · simp only [hempty, String.reduceEq, if_false, if_true, true_and]
    -- a frame without `e` is a book ticker, a partial depth, or nothing
    by_cases hticker : (inner.get "u").isSome = true ∧ (inner.get "s").isSome = true ∧
        (inner.get "b").isSome = true
    · rw [if_neg fun h => h.1 hticker, if_pos (by simp [hticker])]
      exact .nil
    · rw [if_neg (c := ((_ && _ && _) = true)) (by simpa [and_assoc] using hticker)]
      by_cases hdepth : (inner.get "lastUpdateId").isSome = true
      · rw [if_pos ⟨hticker, hdepth⟩, if_pos hdepth]
        exact .cons (Binance.isEntryMessage_snapshot exchange _ now inner) .nil
      · rw [if_neg fun h => hdepth h.2, if_neg hdepth]
        exact .nil
  · -- the other events yield no books
    rw [if_neg (c := inner.strOr "e" "" = "" ∧ _) fun h => hempty h.1, if_neg hupdate,
      if_neg hempty]
    split
    · exact .nil
    split
    · unfold Binance.parseKline
      split <;> exact .nil
    split <;> exact .nil

/-- A Bybit frame has a book message for each of its entries. -/
theorem Bybit.books_parseFrame (now : Int64) (json : Value F) :
    List.Forall₂ IsEntryMessage (bybitEntries json)
      ((Bybit.parseFrame now json).filterMap DataMessage.asOrderBook) := by
  unfold Bybit.parseFrame bybitEntries
  by_cases hop : (json.get "op").isSome = true
  · rw [if_pos hop, if_neg (by simp [Option.isSome_iff_ne_none.mp hop])]
    exact .nil
  rw [if_neg hop]
  have hop' : (json.get "op").isNone = true := by simpa using hop
  cases hdata : json.get "data" with
  | none =>
    simp only [Option.map_none, Option.toList_none, ite_self]
    exact .nil
  | some data =>
    cases htopic : startsWith (json.strOr "topic" "") "orderbook." with
    | true =>
      -- the topics of the other families are tried first, and none of them fits
      obtain ⟨htrade, hticker, hkline⟩ := Bybit.topic_orderbook htopic
      rw [if_pos ⟨hop', rfl⟩]
      simp only [htrade, hticker, hkline, htopic, Bool.false_eq_true, if_false, if_true]
      exact .cons (Bybit.isEntryMessage now data _) .nil
    | false =>
      rw [if_neg (by simp)]
      dsimp only
      split
      · rw [Bybit.parseTradeBatch, map_asOrderBook_eq_nil fun _ => rfl]
        exact .nil
      split
      · exact .nil
      split
      · rw [Bybit.parseKlineBatch, map_asOrderBook_eq_nil fun _ => rfl]
        exact .nil
      · rw [htopic]
        exact .nil

/-- The runner's connector parses with the venue's parser, and the receipt time is that of the
    call. -/
theorem SequencedConnector.parseMessage_connector (conn : SequencedConnector)
    (fromStr : String → Result (Value F)) (clock : ℕ → Int64) (time : ℕ) (raw : String) :
    (conn.connector fromStr clock).parseMessage time raw =
      conn.parseMessage fromStr (clock time) raw := by
  cases conn <;> rfl

/-- A text that is not JSON, or the `pong` of OKX, yields nothing. -/
theorem SequencedConnector.parseMessage_of_not_json (conn : SequencedConnector)
    {fromStr : String → Result (Value F)} {now : Int64} {raw : String}
    {msgs : List (DataMessage F)} (hjson : conn.frameJson fromStr raw = none)
    (hparse : conn.parseMessage fromStr now raw = .ok msgs) : msgs = [] := by
  unfold SequencedConnector.frameJson at hjson
  split at hjson
  · rename_i hpong
    rw [hpong.1, parseMessage, Okx.parseMessage, if_pos hpong.2] at hparse
    cases hparse
    rfl
  · rename_i hpong
    -- no connector reads a text that does not parse
    cases hread : fromStr raw with
    | ok json => simp [hread, Except.toOption] at hjson
    | error e =>
      cases conn with
      | binance exchange =>
        rw [parseMessage, Binance.parseMessage, hread] at hparse
        cases hparse
      | bybit =>
        rw [parseMessage, Bybit.parseMessage, hread] at hparse
        cases hparse
      | okx =>
        rw [parseMessage, Okx.parseMessage, if_neg fun h => hpong ⟨rfl, h⟩, hread] at hparse
        cases hparse
      | cryptocom =>
        rw [parseMessage, Cryptocom.parseMessage, hread] at hparse
        cases hparse

/-- Every frame is parsed entry by entry, in order; a frame that is not JSON is skipped. -/
theorem books_connector (conn : SequencedConnector) (fromStr : String → Result (Value F))
    (clock : ℕ → Int64) (time : ℕ) (raw : String) :
    List.Forall₂ IsEntryMessage (((conn.frameJson fromStr raw).map conn.bookEntries).getD [])
      (((conn.connector fromStr clock).messages time raw).filterMap DataMessage.asOrderBook) := by
  rw [Connector.messages, conn.parseMessage_connector]
  cases hjson : conn.frameJson fromStr raw with
  | some json =>
    obtain ⟨hpong, hfrom⟩ := SequencedConnector.frameJson_eq_some hjson
    -- by venue; the two that chain their ids have the entries of the chained connectors
    cases conn with
    | binance exchange =>
      rw [SequencedConnector.parseMessage, Binance.parseMessage, hfrom]
      exact Binance.books_parseEvent exchange (clock time) json
    | bybit =>
      rw [SequencedConnector.parseMessage, Bybit.parseMessage, hfrom]
      exact Bybit.books_parseFrame (clock time) json
    | okx =>
      rw [SequencedConnector.parseMessage, Okx.parseMessage, if_neg fun h => hpong ⟨rfl, h⟩, hfrom]
      change List.Forall₂ IsEntryMessage (ChainedConnector.okx.entries json)
        ((Okx.parseFrame (clock time) json).filterMap DataMessage.asOrderBook)
      rw [Okx.asOrderBook_parseFrame, ChainedConnector.entries, List.forall₂_map_left_iff]
      exact forall₂_map (fun entry => Okx.isEntryMessage _ entry _) _
    | cryptocom =>
      rw [SequencedConnector.parseMessage, Cryptocom.parseMessage, hfrom]
      change List.Forall₂ IsEntryMessage (ChainedConnector.cryptocom.entries json)
        ((Cryptocom.parseFrame (clock time) json).filterMap DataMessage.asOrderBook)
      rw [Cryptocom.asOrderBook_parseFrame, ChainedConnector.entries, List.forall₂_map_left_iff]
      exact forall₂_map (fun entry => Cryptocom.isEntryMessage _ entry _ _) _
  | none =>
    cases hparse : conn.parseMessage fromStr (clock time) raw with
    | error e => exact .nil
    | ok msgs =>
      rw [conn.parseMessage_of_not_json hjson hparse]
      exact .nil

/-! ## What a true frame does to a book -/

/-- The rows of an entry that parse, as assignments: its bids, then its asks. -/
def BookEntry.rows (entry : BookEntry F) : List ((BookSide × F) × Option F) :=
  sideRows .bid (entry.bids.filterMap Value.level) ++
    sideRows .ask (entry.asks.filterMap Value.level)

/-- What the entry says is true of the venue: its rows are a full snapshot at the id it carries,
    or the merged updates of the ids `f … l` it carries. -/
structure BookEntry.IsTrue (venue : VenueHistory F F) (entry : BookEntry F) : Prop where
  snapshot : entry.isSnapshot = true → ∃ s, entry.lastUpdateId = some s ∧
    venue.log.IsSnapshot s.toNat entry.rows
  delta : entry.isSnapshot = false → ∃ f l, entry.firstUpdateId = some f ∧
    entry.lastUpdateId = some l ∧ venue.log.IsMerge f.toNat l.toNat entry.rows

/-- Whatever the frame says about the book is true of the venue. -/
def SequencedConnector.TellsTruth (conn : SequencedConnector) (venue : VenueHistory F F)
    (fromStr : String → Result (Value F)) (raw : String) : Prop :=
  ∀ json, conn.frameJson fromStr raw = some json → ∀ entry ∈ conn.bookEntries json,
    entry.IsTrue venue

/-- A true entry keeps the correspondence with the venue's book. -/
theorem Mirrors.applyEntry {venue : VenueHistory F F} {book : LocalOrderBook F F}
    {entry : BookEntry F} {msg : OrderBookData F F} (hbook : Mirrors venue book)
    (hentry : entry.IsTrue venue) (hmsg : IsEntryMessage entry msg) :
    Mirrors venue (book.apply msg).1 := by
  have hrows : rows msg = entry.rows := by rw [rows, hmsg.bids, hmsg.asks, BookEntry.rows]
  cases hsnap : entry.isSnapshot with
  | true =>
    obtain ⟨s, hs, hvenue⟩ := hentry.snapshot hsnap
    exact hbook.apply (.inl ⟨hmsg.isSnapshot.trans hsnap, s, hmsg.lastUpdateId.trans hs,
      hrows ▸ hvenue⟩)
  | false =>
    obtain ⟨f, l, hf, hl, hvenue⟩ := hentry.delta hsnap
    have hdelta := hmsg.isSnapshot.trans hsnap
    have hfirst := hmsg.firstUpdateId.trans hf
    have hlast := hmsg.lastUpdateId.trans hl
    by_cases hle : f ≤ l
    · exact hbook.apply (.inr ⟨hdelta, f, l, hle, hfirst, hlast, hrows ▸ hvenue⟩)
    · -- a delta over no id at all is stale, or it is not applied
      have hout := book.apply_outcome msg
      generalize book.apply msg = r at hout
      cases hout with
      | snapshot htrue => rw [hdelta] at htrue; cases htrue
      | awaiting | stale => exact hbook
      | gap => exact fun h => by cases h
      | delta _ _ hprev hlast' hlt hnogap =>
        rename_i prev last
        obtain rfl : last = l := Option.eq_some_unique hlast' hlast
        rw [hfirst, Option.getD_some, UInt64.le_iff_toNat_le,
          LocalOrderBook.toNat_prev_add_one hlt] at hnogap
        rw [UInt64.le_iff_toNat_le] at hle
        have hlt' := UInt64.lt_iff_toNat_lt.mp hlt
        omega
      | unchecked _ hsync hnone =>
        rcases hnone with hnone | hnone
        · intro hsync'
          obtain ⟨u, hu, -⟩ := hbook hsync
          rw [hnone] at hu
          cases hu
        · rw [hlast] at hnone
          cases hnone

/-- The messages of true entries keep the correspondence. -/
theorem Mirrors.applyMessages {venue : VenueHistory F F} {msgs : List (OrderBookData F F)}
    (hmsgs : ∀ msg ∈ msgs, ∃ entry : BookEntry F, entry.IsTrue venue ∧ IsEntryMessage entry msg)
    {book : LocalOrderBook F F} (hbook : Mirrors venue book) :
    Mirrors venue (book.applyAll msgs) := by
  induction msgs generalizing book with
  | nil => exact hbook
  | cons msg msgs ih =>
    obtain ⟨entry, hentry, hmsg⟩ := hmsgs msg List.mem_cons_self
    exact ih (fun m hm => hmsgs m (List.mem_cons_of_mem _ hm)) (hbook.applyEntry hentry hmsg)

/-! ## The consumer -/

/-- The book of a consumer that applies every book message it gets. -/
def consumerBook (log : List (Output (DataMessage F))) : LocalOrderBook F F :=
  LocalOrderBook.new.applyAll ((deliveries log).filterMap DataMessage.asOrderBook)

/-- The text frames that came in over all sessions, each with the time it came in. -/
def receivedTexts (log : List (Output (DataMessage F))) : List (ℕ × String) :=
  log.filterMap fun
    | .received time (.text raw) => some (time, raw)
    | _ => none

/-- The text frames that came in over all sessions, with the receipt times. -/
def receivedFrames (clock : ℕ → Int64) (log : List (Output (DataMessage F))) :
    List (Int64 × String) :=
  (receivedTexts log).map fun frame => (clock frame.1, frame.2)

omit [F64 F] in
/-- The texts are those of the received frames. -/
theorem mem_receivedTexts {log : List (Output (DataMessage F))} {frame : ℕ × String} :
    frame ∈ receivedTexts log ↔ .received frame.1 (.text frame.2) ∈ log := by
  constructor
  · intro hmem
    obtain ⟨output, houtput, hframe⟩ := List.mem_filterMap.mp hmem
    split at hframe
    · cases hframe
      exact houtput
    · cases hframe
  · exact fun hmem => List.mem_filterMap.mpr ⟨_, hmem, rfl⟩

/-- A frame that is answered has no messages of its own, whenever it is parsed. -/
theorem messages_of_responseFor {conn : SequencedConnector} {fromStr : String → Result (Value F)}
    {clock : ℕ → Int64} {time : ℕ} {raw response : String}
    (h : (conn.connector fromStr clock).responseFor time raw = some response) (parsed : ℕ) :
    (conn.connector fromStr clock).messages parsed raw = [] := by
  cases conn with
  | cryptocom =>
    -- only heartbeats are answered, and they are not read as data
    obtain ⟨-, id, hid, -⟩ := respondHeartbeat_eq_some.mp h
    obtain ⟨json, hjson, hid⟩ := Option.bind_eq_some_iff.mp hid
    split at hid
    · rename_i hmethod
      have hread : fromStr raw = .ok json := by
        cases hr : fromStr raw with
        | error e => simp [hr, Except.toOption] at hjson
        | ok v => simpa [hr, Except.toOption] using hjson
      rw [Connector.messages, SequencedConnector.parseMessage_connector,
        SequencedConnector.parseMessage, Cryptocom.parseMessage, hread]
      exact if_pos hmethod
    · cases hid
  | binance | bybit | okx => cases h

/-- All that is expected is what the received frames parse to. -/
theorem expected_connector (conn : SequencedConnector) (fromStr : String → Result (Value F))
    (clock : ℕ → Int64) (log : List (Output (DataMessage F))) :
    (conn.connector fromStr clock).expected log =
      (receivedTexts log).flatMap fun frame =>
        (conn.connector fromStr clock).messages frame.1 frame.2 := by
  have hcontribution : ∀ time text next,
      (conn.connector fromStr clock).contribution time text next =
        (conn.connector fromStr clock).messages time text := by
    intro time text next
    unfold Connector.contribution
    split
    · rfl
    · -- an answered frame is empty before and after the reply
      rename_i response hresponse
      rw [messages_of_responseFor hresponse]
      split
      · split
        · exact messages_of_responseFor hresponse _
        · rfl
      · rfl
  induction log with
  | nil => rfl
  | cons output log ih =>
    cases output with
    | received time frame =>
      cases frame with
      | text text =>
        rw [Connector.expected, hcontribution, ih]
        rfl
      | _ => exact ih
    | _ => exact ih

/-- Feeding frames one by one applies all their book messages. -/
theorem foldl_feedFrame (conn : SequencedConnector) (fromStr : String → Result (Value F))
    (clock : ℕ → Int64) (log : List (Output (DataMessage F))) :
    feed conn fromStr (receivedFrames clock log) =
      LocalOrderBook.new.applyAll
        (((conn.connector fromStr clock).expected log).filterMap DataMessage.asOrderBook) := by
  rw [expected_connector, feed, receivedFrames]
  generalize receivedTexts log = frames
  generalize (LocalOrderBook.new : LocalOrderBook F F) = book
  induction frames generalizing book with
  | nil => rfl
  | cons frame frames ih =>
    rw [List.map_cons, List.foldl_cons, ih, List.flatMap_cons, List.filterMap_append,
      LocalOrderBook.applyAll_append]
    congr 1
    rw [feedFrame, Connector.messages, SequencedConnector.parseMessage_connector]
    cases conn.parseMessage fromStr (clock frame.1) frame.2 with
    | ok msgs => rfl
    | error e => rfl

/-- In every run of `run_feed` with a connector whose book frames carry update ids, over any
    sessions: the book that a consumer builds from the deliveries is the one that the frames
    received build, up to the messages of the current frame; and where every frame received
    tells the truth about one venue, a synced book is the venue's book at its id. -/
theorem feed_mirrors_venue (conn : SequencedConnector) (fromStr : String → Result (Value F))
    (clock : ℕ → Int64) (config : WsRunnerConfig) (endpoint : WsFeedEndpoint) (now : ℕ)
    (watch : Watch) (seen : ℕ) (moves : List (ℕ × RunAction)) (s : FeedState (DataMessage F))
    (venue : VenueHistory F F)
    (hrun : run (runFeedStep config (conn.connector fromStr clock) endpoint)
      (.start now watch seen) moves = some s) :
    (¬ ReceiverDropped s.log →
      (consumerBook s.log).applyAll (s.feed.phase.pending.filterMap DataMessage.asOrderBook) =
        feed conn fromStr (receivedFrames clock s.log)) ∧
      ((∀ time raw, .received time (.text raw) ∈ s.log → conn.TellsTruth venue fromStr raw) →
        (consumerBook s.log).synced = true →
        ∃ u, (consumerBook s.log).lastUpdateId = some u ∧
          levels (consumerBook s.log) = venue.bookAfter u) := by
  have hdelivery := (FeedState.traced hrun).1
  constructor
  · intro hdropped
    rw [foldl_feedFrame, ← hdelivery.delivered hdropped, List.filterMap_append,
      LocalOrderBook.applyAll_append]
    rfl
  · intro htrue
    -- every delivered message is one of a received frame
    refine Mirrors.applyMessages (fun msg hmem => ?_) (Mirrors.new venue)
    have hexpected := (hdelivery.prefixed.sublist.filterMap DataMessage.asOrderBook).subset hmem
    rw [expected_connector, List.filterMap_flatMap, List.mem_flatMap] at hexpected
    obtain ⟨frame, hframe, hmsg⟩ := hexpected
    obtain ⟨entry, hentry, his⟩ :=
      (books_connector conn fromStr clock frame.1 frame.2).exists_left hmsg
    refine ⟨entry, ?_, his⟩
    cases hjson : conn.frameJson fromStr frame.2 with
    | none =>
      rw [hjson] at hentry
      cases hentry
    | some json =>
      rw [hjson] at hentry
      exact htrue _ _ (mem_receivedTexts.mp hframe) json hjson entry hentry

/-- A venue whose one bid is set twice. -/
def bybitVenue : VenueHistory ℤ ℤ where
  updates
    | 1 => [((.bid, 100), 5)]
    | 2 => [((.bid, 100), 7)]
    | _ => []

/-- The snapshot comes in, the connection breaks, and the delta comes in on the next one. -/
def bybitMoves : List (ℕ × RunAction) :=
  [(0, .feed .iterate), (1, .feed .connected), (1, .feed .written),
    (1, .feed (.receive (.text snapshotText))), (1, .feed .delivered),
    (1, .feed (.receive .endOfStream)), (0, .feed .iterate), (5000000000, .feed .wake),
    (1, .feed .connected), (1, .feed .written), (1, .feed (.receive (.text deltaText))),
    (1, .feed .delivered)]

/-- Both frames of the example are true of its venue. -/
theorem bybitVenue_tellsTruth {raw : String} (h : raw = snapshotText ∨ raw = deltaText) :
    SequencedConnector.bybit.TellsTruth bybitVenue bybitFromStr raw := by
  intro json hjson entry hentry
  rcases h with rfl | rfl
  · obtain rfl : bybitFrame "snapshot" bybitSnapshot = json := Option.some.inj hjson
    obtain rfl : entry = ⟨true, [.array [.string "100", .string "5"]], [], some 1, some 1⟩ :=
      List.mem_singleton.mp hentry
    refine ⟨fun _ => ⟨1, rfl, by decide, fun k hk => ?_⟩, nofun⟩
    -- a level that the rows change is one of the rows
    by_contra hmem
    exact hk (AbsoluteLog.assign_of_not_mem _ _ hmem)
  · obtain rfl : bybitFrame "delta" bybitDelta = json := Option.some.inj hjson
    obtain rfl : entry = ⟨false, [.array [.string "100", .string "7"]], [], some 2, some 2⟩ :=
      List.mem_singleton.mp hentry
    refine ⟨nofun, fun _ => ⟨2, 2, rfl, rfl, by decide, ?_⟩⟩
    rintro k ⟨n, hle, hge, hmem⟩
    obtain rfl : n = 2 := Nat.le_antisymm hge hle
    exact hmem

/-- Across the reconnect, the consumer's book ends at id `2` with the venue's levels. -/
theorem feed_mirrors_venue_bybit :
    ∃ s, run (runFeedStep .default (SequencedConnector.bybit.connector bybitFromStr fun _ => 0)
          ⟨"wss://stream.bybit.com", ["subscribe"]⟩) (.start 0 ⟨false, 0⟩ 0) bybitMoves = some s ∧
      (consumerBook s.log).lastUpdateId = some 2 ∧
      ∃ u, (consumerBook s.log).lastUpdateId = some u ∧
        levels (consumerBook s.log) = bybitVenue.bookAfter u := by
  refine ⟨_, rfl, by decide, ?_⟩
  refine (feed_mirrors_venue .bybit bybitFromStr (fun _ => 0) .default
    ⟨"wss://stream.bybit.com", ["subscribe"]⟩ 0 ⟨false, 0⟩ 0 bybitMoves _ bybitVenue rfl).2 ?_ ?_
  · intro time raw hmem
    apply bybitVenue_tellsTruth
    have hframe : (time, raw) ∈ [(3, snapshotText), (5000000008, deltaText)] :=
      (@mem_receivedTexts ℤ _ (time, raw)).mpr hmem
    simp only [List.mem_cons, List.not_mem_nil, or_false, Prod.mk.injEq] at hframe
    exact hframe.imp And.right And.right
  · decide

end ExchangeApiws.Spec
