import ExchangeApiws.Native.Connectors
import ExchangeApiws.Spec.FeedTrace
import ExchangeApiws.Spec.OrderFills

/-!
# Fills over a private feed

A consumer of `run_feed` folds the documented fill accumulator over the order updates that are
delivered to it. The private connectors yield the order updates of every frame, the runner
delivers them in order over all sessions, and a fill that is replayed after a reconnect has a
trade id that is in the accumulator already.

## Key results

- `Tallies.onOrderUpdate`: one update keeps the accumulator at the sum of the fills it has seen
- `OrderFeed`: a private connector with the order frames it reads
- `feed_tallies_fills`: what the accumulator holds after any run of `run_feed`
-/

namespace ExchangeApiws.Spec

open Native Native.Runner TransitionSystem

/-! ## The accumulator -/

section Tally

variable {F : Type} [F64Arith F]

/-- What a venue has executed: price and size by trade id. -/
abbrev VenueFills (F : Type) := String → Option (F × F)

/-- The notional of a trade id. -/
def VenueFills.notional (fills : VenueFills F) (id : String) : F :=
  ((fills id).map fun fill => fill.1 * fill.2).getD 0

/-- The trade id of an update that has all three fill fields. -/
def fillId (u : OrderUpdate F) : Option String :=
  match u.matchPrice, u.matchSize with
  | some _, some _ => u.tradeId
  | _, _ => none

/-- The fill fields of an update, if it has them, are those of the venue's fill. -/
def UpdateIsTrue (fills : VenueFills F) (u : OrderUpdate F) : Prop :=
  ∀ id, fillId u = some id →
    ∃ px sz, u.matchPrice = some px ∧ u.matchSize = some sz ∧ fills id = some (px, sz)

/-- The accumulator holds every trade id once, and the sum over them. -/
structure Tallies (fills : VenueFills F) (a : FillAccumulator F) : Prop where
  nodup : a.seen.Nodup
  notional : a.notional = a.seen.foldr (fun id sum => sum + fills.notional id) 0

/-- An update without a fill is not counted. -/
theorem onOrderUpdate_of_fillId_none {a : FillAccumulator F} {u : OrderUpdate F}
    (h : fillId u = none) : onOrderUpdate a u = a :=
  onOrderUpdate_of_none (r := ⟨⟨.order, .null⟩, u⟩) h

/-- An update with a fill is counted under its id. -/
theorem onOrderUpdate_of_fillId_some {u : OrderUpdate F} {id : String} (a : FillAccumulator F)
    (h : fillId u = some id) :
    ∃ px sz, u.matchPrice = some px ∧ u.matchSize = some sz ∧ u.tradeId = some id ∧
      onOrderUpdate a u =
        if id ∈ a.seen then a else ⟨id :: a.seen, a.notional + px * sz⟩ :=
  onOrderUpdate_of_some (r := ⟨⟨.order, .null⟩, u⟩) h

/-- The accumulator sees the fills of an update and what it saw before. -/
theorem mem_seen_onOrderUpdate {a : FillAccumulator F} {u : OrderUpdate F} {id : String} :
    id ∈ (onOrderUpdate a u).seen ↔ id ∈ a.seen ∨ fillId u = some id := by
  cases hfill : fillId u with
  | none => simp [onOrderUpdate_of_fillId_none hfill]
  | some id' =>
    obtain ⟨px, sz, -, -, -, hnext⟩ := onOrderUpdate_of_fillId_some a hfill
    rw [hnext]
    split
    · next hmem =>
      -- a replay: the id is there already
      constructor
      · exact Or.inl
      · rintro (h | h)
        · exact h
        · cases h
          exact hmem
    · simp only [List.mem_cons, Option.some.injEq]
      rw [or_comm, eq_comm]

/-- The accumulator sees the fills of all updates and what it saw before. -/
theorem mem_seen_foldl {a : FillAccumulator F} {us : List (OrderUpdate F)} {id : String} :
    id ∈ (us.foldl onOrderUpdate a).seen ↔ id ∈ a.seen ∨ ∃ u ∈ us, fillId u = some id := by
  induction us generalizing a with
  | nil => simp
  | cons u us ih =>
    rw [List.foldl_cons, ih, mem_seen_onOrderUpdate, List.exists_mem_cons_iff, or_assoc]

/-- One update keeps the accumulator at the sum of the fills it has seen. -/
theorem Tallies.onOrderUpdate {fills : VenueFills F} {a : FillAccumulator F} {u : OrderUpdate F}
    (h : Tallies fills a) (hu : UpdateIsTrue fills u) :
    Tallies fills (onOrderUpdate a u) := by
  cases hfill : fillId u with
  | none =>
    rw [onOrderUpdate_of_fillId_none hfill]
    exact h
  | some id =>
    obtain ⟨px, sz, hpx, hsz, -, hnext⟩ := onOrderUpdate_of_fillId_some a hfill
    rw [hnext]
    split
    · exact h
    · next hnew =>
      -- a new id comes in front, with the notional of the venue's fill
      obtain ⟨px', sz', hpx', hsz', hvenue⟩ := hu id hfill
      obtain rfl : px = px' := Option.some.inj (hpx.symm.trans hpx')
      obtain rfl : sz = sz' := Option.some.inj (hsz.symm.trans hsz')
      refine ⟨List.nodup_cons.mpr ⟨hnew, h.nodup⟩, ?_⟩
      rw [List.foldr_cons, ← h.notional, VenueFills.notional, hvenue]
      rfl

/-- True updates keep a new accumulator at the sum of the fills it has seen. -/
theorem Tallies.foldl {fills : VenueFills F} {us : List (OrderUpdate F)}
    (hus : ∀ u ∈ us, UpdateIsTrue fills u) :
    Tallies fills (us.foldl Native.onOrderUpdate emptyAccumulator) := by
  have hstep : ∀ (us : List (OrderUpdate F)) (a : FillAccumulator F), Tallies fills a →
      (∀ u ∈ us, UpdateIsTrue fills u) → Tallies fills (us.foldl Native.onOrderUpdate a) := by
    intro us
    induction us with
    | nil => exact fun a h _ => h
    | cons u us ih =>
      intro a h hus
      obtain ⟨hu, hrest⟩ := List.forall_mem_cons.mp hus
      exact ih _ (h.onOrderUpdate hu) hrest
  exact hstep us emptyAccumulator ⟨List.nodup_nil, rfl⟩ hus

/-! ## Truthful frames -/

/-- A frame tells the truth about the venue's fills: every element that the parser accepts is
    complete, and one that reports a fill reports that of its trade id. -/
def OrderFrame.TellsTruth (reader : Reader F) (fills : VenueFills F) (f : OrderFrame) : Prop :=
  ∀ e ∈ f.elements reader, e.Accepted → e.Complete ∧ (e.CarriesFill →
    ∃ id px sz, e.tradeId = some id ∧ carriedNumber e.value e.stream.priceKey = some px ∧
      carriedNumber e.value e.stream.sizeKey = some sz ∧ fills id = some (px, sz))

/-- A frame reports the fill with a trade id. -/
def OrderFrame.ReportsFill (reader : Reader F) (f : OrderFrame) (id : String) : Prop :=
  ∃ e ∈ f.elements reader, e.Accepted ∧ e.CarriesFill ∧ e.tradeId = some id

/-- The updates of a frame are those of its elements. -/
theorem OrderFrame.mem_updates {reader : Reader F} {f : OrderFrame} {u : OrderUpdate F} :
    u ∈ f.updates reader ↔ ∃ e ∈ f.elements reader, u ∈ e.updates reader f.now := by
  rw [updates_eq_reports, map_update_reports, List.mem_flatMap]

/-- The updates of a truthful frame are true. -/
theorem OrderFrame.TellsTruth.update {reader : Reader F} {fills : VenueFills F} {f : OrderFrame}
    (h : f.TellsTruth reader fills) {u : OrderUpdate F} (hu : u ∈ f.updates reader) :
    UpdateIsTrue fills u ∧ ∀ id, fillId u = some id → f.ReportsFill reader id := by
  obtain ⟨e, he, hmem⟩ := OrderFrame.mem_updates.mp hu
  have haccepted : e.Accepted := (exists_mem_updates_iff reader f.now e).mp ⟨u, hmem⟩
  obtain ⟨hcomplete, hfill⟩ := h e he haccepted
  -- the fill fields are those the element carries
  have hcarried : ∀ id, fillId u = some id → e.CarriesFill ∧
      ∃ px sz, u.matchPrice = some px ∧ u.matchSize = some sz ∧ e.tradeId = some id ∧
        carriedNumber e.value e.stream.priceKey = some px ∧
        carriedNumber e.value e.stream.sizeKey = some sz := by
    intro id hid
    obtain ⟨px, sz, hpx, hsz, hid, -⟩ := onOrderUpdate_of_fillId_some emptyAccumulator hid
    have hcarries : e.CarriesFill := (isSome_matchPrice_iff hmem).mp (by simp [hpx])
    obtain ⟨hcpx, hcsz, id', hcid, hid'⟩ :=
      (Report.consistent_iff_of_some (r := ⟨e, u⟩) hpx hsz).mp
        ((consistent_iff_complete hmem).mpr hcomplete)
    obtain rfl : id = id' := Option.some.inj (hid.symm.trans hid')
    exact ⟨hcarries, px, sz, hpx, hsz, hcid, hcpx, hcsz⟩
  constructor
  · intro id hid
    obtain ⟨hcarries, px, sz, hpx, hsz, hcid, hcpx, hcsz⟩ := hcarried id hid
    obtain ⟨id', px', sz', hid', hpx', hsz', hvenue⟩ := hfill hcarries
    obtain rfl : id = id' := Option.some.inj (hcid.symm.trans hid')
    obtain rfl : px = px' := Option.some.inj (hcpx.symm.trans hpx')
    obtain rfl : sz = sz' := Option.some.inj (hcsz.symm.trans hsz')
    exact ⟨px, sz, hpx, hsz, hvenue⟩
  · intro id hid
    obtain ⟨hcarries, px, sz, -, -, hcid, -⟩ := hcarried id hid
    exact ⟨e, he, haccepted, hcarries, hcid⟩

/-- A truthful frame that reports a fill has an update of that fill. -/
theorem OrderFrame.TellsTruth.reported {reader : Reader F} {fills : VenueFills F}
    {f : OrderFrame} (h : f.TellsTruth reader fills) {id : String}
    (hid : f.ReportsFill reader id) : ∃ u ∈ f.updates reader, fillId u = some id := by
  obtain ⟨e, he, haccepted, hcarries, hcid⟩ := hid
  obtain ⟨u, hu⟩ := (exists_mem_updates_iff reader f.now e).mpr haccepted
  refine ⟨u, OrderFrame.mem_updates.mpr ⟨e, he, hu⟩, ?_⟩
  have hsome : u.matchPrice.isSome := (isSome_matchPrice_iff hu).mpr hcarries
  rcases (consistent_iff_complete hu).mpr (h e he haccepted).1 with
    ⟨hnone, -⟩ | ⟨px, sz, id', -, -, hcarried, hpx, hsz, hid'⟩
  · rw [hnone] at hsome
    cases hsome
  · obtain rfl : id = id' := Option.some.inj (hcid.symm.trans hcarried)
    have hpx : u.matchPrice = some px := hpx
    have hsz : u.matchSize = some sz := hsz
    simp only [fillId, hpx, hsz]
    exact hid'

end Tally

/-! ## The private connectors -/

section Feeds

variable {F : Type} [F64Arith F]

/-- A private connector together with the order frames that it reads. -/
structure OrderFeed (F : Type) [F64Arith F] where
  connector : Connector (FeedMessage F)
  venue : OrderConnector
  reader : Reader F
  clock : ℕ → Int64
  /-- The order updates among its messages are those of the frame. -/
  orderUpdates : ∀ time raw, (connector.messages time raw).filterMap FeedMessage.asOrderUpdate =
    (OrderFrame.mk venue (clock time) raw).updates reader

/-- The order frame of a text that is parsed at `time`. -/
def OrderFeed.frame (feed : OrderFeed F) (time : ℕ) (raw : String) : OrderFrame :=
  ⟨feed.venue, feed.clock time, raw⟩

omit [F64Arith F] in
/-- Wrapped order updates are read back. -/
theorem asOrderUpdate_map_orderUpdate (us : List (OrderUpdate F)) :
    (us.map FeedMessage.orderUpdate).filterMap FeedMessage.asOrderUpdate = us := by
  rw [List.filterMap_map]
  exact List.filterMap_some

omit [F64Arith F] in
/-- Messages of the other kinds are not order updates. -/
theorem asOrderUpdate_map_of_none {A : Type} {wrap : A → FeedMessage F}
    (h : ∀ x, (wrap x).asOrderUpdate = none) (xs : List A) :
    (xs.map wrap).filterMap FeedMessage.asOrderUpdate = [] := by
  rw [List.filterMap_map, List.filterMap_eq_nil_iff]
  exact fun x _ => h x

/-- The order updates of a Binance frame are those of the order parser. -/
theorem asOrderUpdate_binance (reader : Reader F) (now : Int64) (json : Value F) :
    (BinanceUserData.parseStreamFrame reader now json).filterMap FeedMessage.asOrderUpdate =
      BinanceUserData.parseFrame reader now json := by
  unfold BinanceUserData.parseStreamFrame BinanceUserData.parseFrame
  split
  · next he =>
    rw [if_pos he]
    cases BinanceUserData.parseExecutionReport reader now json <;> rfl
  · next he =>
    rw [if_neg (by simp [he]), BinanceUserData.parseAccountPosition]
    split
    · rfl
    · rw [List.filterMap_filterMap, List.filterMap_eq_nil_iff]
      intro balance _
      cases nonempty (balance.strOr "a" "") <;> rfl
  · next hreport _ =>
    rw [if_neg hreport]
    rfl

/-- The order updates of a Kraken frame are those of the order parser. -/
theorem asOrderUpdate_kraken (reader : Reader F) (now : Int64) (json : Value F) :
    (KrakenWs.parseStreamFrame reader now json).filterMap FeedMessage.asOrderUpdate =
      KrakenWs.parseFrame reader now json := by
  unfold KrakenWs.parseStreamFrame KrakenWs.parseFrame
  split
  · rfl
  · cases (json.get "data").bind Value.asArray with
    | none => rfl
    | some data =>
      -- by channel; only `executions` has order updates
      dsimp only
      split
      case h_5 hchannel =>
        rw [if_pos hchannel]
        exact asOrderUpdate_map_orderUpdate _
      case h_6 hchannel =>
        rw [if_neg (by simp [hchannel]), KrakenWs.parseBalances, List.filterMap_filterMap,
          List.filterMap_eq_nil_iff]
        intro balance _
        cases nonempty (balance.strOr "asset" "") <;> rfl
      case h_7 hchannel _ => rw [if_neg hchannel]; rfl
      all_goals
        next hchannel =>
          rw [if_neg (by simp [hchannel])]
          exact asOrderUpdate_map_of_none (fun _ => rfl) _

/-- The order updates of a Bybit frame are those of the order parser. -/
theorem asOrderUpdate_bybit [Neg F] (reader : Reader F) (now : Int64) (json : Value F) :
    (BybitPrivate.parseStreamFrame reader now json).filterMap FeedMessage.asOrderUpdate =
      BybitPrivate.parseFrame reader now json := by
  unfold BybitPrivate.parseStreamFrame BybitPrivate.parseFrame
  split
  · rfl
  · cases (json.get "data").bind Value.asArray with
    | none => rfl
    | some data =>
      dsimp only
      split
      case h_1 htopic =>
        rw [if_pos htopic]
        exact asOrderUpdate_map_orderUpdate _
      case h_2 htopic =>
        rw [if_neg (by simp [htopic]), if_pos htopic]
        exact asOrderUpdate_map_orderUpdate _
      case h_5 horder hexecution _ _ => rw [if_neg horder, if_neg hexecution]; rfl
      all_goals
        next htopic =>
          rw [if_neg (by simp [htopic]), if_neg (by simp [htopic])]
          exact asOrderUpdate_map_of_none (fun _ => rfl) _

/-- The order updates of a Crypto.com frame are those of the order parser. -/
theorem asOrderUpdate_cryptocom (reader : Reader F) (now : Int64) (json : Value F) :
    (CryptocomUser.parseStreamFrame reader now json).filterMap FeedMessage.asOrderUpdate =
      CryptocomUser.parseFrame reader now json := by
  unfold CryptocomUser.parseStreamFrame CryptocomUser.parseFrame
  cases json.get "result" with
  | none => rfl
  | some result =>
    dsimp only
    cases (result.get "data").bind Value.asArray with
    | none => rfl
    | some data =>
      dsimp only
      split
      case h_1 hchannel =>
        rw [if_pos hchannel]
        exact asOrderUpdate_map_orderUpdate _
      case h_2 hchannel =>
        rw [if_neg (by simp [hchannel]), if_pos hchannel]
        exact asOrderUpdate_map_orderUpdate _
      case h_3 hchannel =>
        rw [if_neg (by simp [hchannel]), if_neg (by simp [hchannel])]
        exact asOrderUpdate_map_of_none (fun _ => rfl) _
      case h_4 horder htrade _ => rw [if_neg horder, if_neg htrade]; rfl

omit [F64Arith F] in
/-- The order updates of a connector that parses the value of a text, against those of a parser
    of the same value. -/
theorem orderUpdates_of_map {A : Type} {connector : Connector (FeedMessage F)}
    {read : String → Result A} {stream : ℕ → A → List (FeedMessage F)}
    {parse : ℕ → A → List (OrderUpdate F)}
    (hmessage : ∀ time raw, connector.parseMessage time raw = (read raw).map (stream time))
    (hparse : ∀ time x, (stream time x).filterMap FeedMessage.asOrderUpdate = parse time x)
    (time : ℕ) (raw : String) :
    (connector.messages time raw).filterMap FeedMessage.asOrderUpdate =
      match (read raw).map (parse time) with
      | .ok us => us
      | .error _ => [] := by
  rw [Connector.messages, hmessage]
  cases read raw with
  | error e => rfl
  | ok x => exact hparse time x

/-- `BinanceUserDataConnector`. -/
def OrderFeed.binance (reader : Reader F) (clock : ℕ → Int64) : OrderFeed F where
  connector := BinanceUserData.connector reader clock
  venue := .binance
  reader := reader
  clock := clock
  orderUpdates := orderUpdates_of_map (fun _ _ => rfl) fun time =>
    asOrderUpdate_binance reader (clock time)

/-- `KrakenConnector`. -/
def OrderFeed.kraken (reader : Reader F) (clock : ℕ → Int64) : OrderFeed F where
  connector := KrakenWs.connector reader clock
  venue := .kraken
  reader := reader
  clock := clock
  orderUpdates := orderUpdates_of_map (fun _ _ => rfl) fun time =>
    asOrderUpdate_kraken reader (clock time)

/-- `BybitPrivateConnector`. -/
def OrderFeed.bybit [Neg F] (reader : Reader F) (toText : Value F → String)
    (hmac : List UInt8 → List UInt8 → List UInt8) (credentials : Bybit.Credentials)
    (nowMs : ℕ → Int64) (clock : ℕ → Int64) : OrderFeed F where
  connector := BybitPrivate.connector reader toText hmac credentials nowMs clock
  venue := .bybit
  reader := reader
  clock := clock
  orderUpdates := orderUpdates_of_map (fun _ _ => rfl) fun time =>
    asOrderUpdate_bybit reader (clock time)

/-- `CryptocomUserConnector`. -/
def OrderFeed.cryptocom (reader : Reader F) (toText : Value F → String)
    (newFromSlice : List UInt8 → Except String (List UInt8 → List UInt8))
    (credentials : Cryptocom.Credentials) (nowMs : ℕ → Int64) (clock : ℕ → Int64) :
    OrderFeed F where
  connector := CryptocomUser.connector reader toText newFromSlice credentials nowMs clock
  venue := .cryptocom
  reader := reader
  clock := clock
  orderUpdates := orderUpdates_of_map (fun _ _ => rfl) fun time =>
    asOrderUpdate_cryptocom reader (clock time)

end Feeds

/-- The reader of a KuCoin frame: an envelope without what only other messages use. -/
def kucoinReader {F : Type} (fromStr : String → Result (Envelope F)) : Reader F where
  json raw := (fromStr raw).map Envelope.toValue
  wsMessage raw := (fromStr raw).map Envelope.toWsMessage
  toLowercase s := s
  rfc3339 _ := none

/-- The order updates of a KuCoin frame are those of the order parser. -/
theorem asOrderUpdate_kucoin {F : Type} [F64Ops F] (now : Int64) (msg : Envelope F) :
    (KucoinFeed.parseEnvelope now msg).filterMap FeedMessage.asOrderUpdate =
      KucoinFeed.parseFrame now msg.toWsMessage := by
  unfold KucoinFeed.parseEnvelope KucoinFeed.parseFrame
  split
  · cases msg.data with
    | none => rfl
    | some data =>
      dsimp only
      cases KucoinFeed.routeOf (msg.topic.getD "") with
      | none => rfl
      | some route =>
        -- only the private order topic has order updates
        cases route with
        | orderUpdate => exact asOrderUpdate_map_orderUpdate _
        | trade | ticker | depth | level2 =>
          exact asOrderUpdate_map_of_none (fun _ => rfl) _
        | position => rfl
        | balance => rfl
        | instrument => rfl
        | advancedOrder => rfl
  · rfl

/-- `KucoinConnector`. -/
def OrderFeed.kucoin {F : Type} [F64Ops F] (fromStr : String → Result (Envelope F))
    (clock : ℕ → Int64) : OrderFeed F where
  connector := KucoinFeed.connector fromStr clock
  venue := .kucoin
  reader := kucoinReader fromStr
  clock := clock
  orderUpdates time raw := by
    rw [orderUpdates_of_map (fun _ _ => rfl) (fun time => asOrderUpdate_kucoin (clock time))
      time raw]
    simp only [OrderFrame.updates, OrderFrame.parseMessage, KucoinFeed.parseMessage, kucoinReader]
    cases fromStr raw <;> rfl

/-! ## Runs -/

section Runs

variable {F : Type} [F64Arith F]

/-- The accumulator of a consumer that counts every order update it receives. -/
def consumerFills (log : List (Output (FeedMessage F))) : FillAccumulator F :=
  ((deliveries log).filterMap FeedMessage.asOrderUpdate).foldl onOrderUpdate emptyAccumulator

/-- What a run is expected to deliver comes from the text frames received, parsed on receipt
    or after the reply. -/
theorem mem_expected {M : Type} {connector : Connector M} {log : List (Output M)} {msg : M}
    (h : msg ∈ connector.expected log) :
    ∃ time raw parsed, .received time (.text raw) ∈ log ∧
      msg ∈ connector.messages parsed raw := by
  induction log with
  | nil => cases h
  | cons output log ih =>
    have hlater : msg ∈ connector.expected log →
        ∃ time raw parsed, .received time (.text raw) ∈ output :: log ∧
          msg ∈ connector.messages parsed raw := by
      intro hmem
      obtain ⟨time, raw, parsed, hraw, hmsg⟩ := ih hmem
      exact ⟨time, raw, parsed, List.mem_cons_of_mem _ hraw, hmsg⟩
    cases output with
    | received time frame =>
      cases frame with
      | text raw =>
        rcases List.mem_append.mp h with hnow | hrest
        · -- a contribution is all the messages of the frame, or nothing
          unfold Connector.contribution at hnow
          split at hnow
          · exact ⟨time, raw, time, List.mem_cons_self, hnow⟩
          · split at hnow
            · next replied _ _ =>
              split at hnow
              · exact ⟨time, raw, replied, List.mem_cons_self, hnow⟩
              · cases hnow
            · cases hnow
        · exact hlater hrest
      | _ => exact hlater h
    | _ => exact hlater h

/-- All messages of a frame that is not answered are expected. -/
theorem mem_expected_of_received {M : Type} {connector : Connector M} {log : List (Output M)}
    {time : ℕ} {raw : String} (hraw : .received time (.text raw) ∈ log)
    (hresponse : connector.responseFor time raw = none) {msg : M}
    (hmsg : msg ∈ connector.messages time raw) : msg ∈ connector.expected log := by
  induction log with
  | nil => cases hraw
  | cons output log ih =>
    rcases List.mem_cons.mp hraw with rfl | hrest
    · simp only [Connector.expected, Connector.contribution, hresponse]
      exact List.mem_append_left _ hmsg
    · cases output with
      | received _ frame =>
        cases frame with
        | text _ => exact List.mem_append_right _ (ih hrest)
        | _ => exact ih hrest
      | _ => exact ih hrest

/-- In every run of `run_feed` with a private connector, over any reconnects and replays, whose
    frames tell the truth about the venue's fills: the accumulator of the consumer holds every
    trade id at most once, only ids that a received frame reports, and the sum of their
    notionals; and unless the receiver is gone or a frame is being delivered, all of them. -/
theorem feed_tallies_fills (feed : OrderFeed F) (config : WsRunnerConfig)
    (endpoint : WsFeedEndpoint) (now : ℕ) (watch : Watch) (seen : ℕ)
    (moves : List (ℕ × RunAction)) (s : FeedState (FeedMessage F)) (fills : VenueFills F)
    (hrun : run (runFeedStep config feed.connector endpoint) (.start now watch seen) moves =
      some s)
    (htrue : ∀ time raw, .received time (.text raw) ∈ s.log →
      (feed.frame time raw).TellsTruth feed.reader fills) :
    Tallies fills (consumerFills s.log) ∧
      (∀ id ∈ (consumerFills s.log).seen, ∃ time raw, .received time (.text raw) ∈ s.log ∧
        (feed.frame time raw).ReportsFill feed.reader id) ∧
      (¬ ReceiverDropped s.log → s.feed.phase.pending = [] →
        ∀ time raw id, .received time (.text raw) ∈ s.log →
          feed.connector.responseFor time raw = none →
          (feed.frame time raw).ReportsFill feed.reader id → id ∈ (consumerFills s.log).seen) := by
  have hdelivery := (FeedState.traced hrun).1
  -- every update that is delivered is one of a received frame
  have hsource : ∀ u ∈ (deliveries s.log).filterMap FeedMessage.asOrderUpdate,
      ∃ time raw parsed, .received time (.text raw) ∈ s.log ∧
        u ∈ (feed.frame parsed raw).updates feed.reader := by
    intro u hu
    obtain ⟨msg, hmsg, hupdate⟩ := List.mem_filterMap.mp hu
    obtain ⟨time, raw, parsed, hraw, hmem⟩ := mem_expected (hdelivery.prefixed.subset hmsg)
    refine ⟨time, raw, parsed, hraw, ?_⟩
    rw [OrderFeed.frame, ← feed.orderUpdates parsed raw]
    exact List.mem_filterMap.mpr ⟨msg, hmem, hupdate⟩
  -- what a frame reports does not depend on when it is parsed
  have htruth : ∀ time raw parsed, .received time (.text raw) ∈ s.log →
      (feed.frame parsed raw).TellsTruth feed.reader fills := fun time raw _ => htrue time raw
  refine ⟨Tallies.foldl fun u hu => ?_, fun id hid => ?_, ?_⟩
  · obtain ⟨time, raw, parsed, hraw, hmem⟩ := hsource u hu
    exact ((htruth time raw parsed hraw).update hmem).1
  · rcases mem_seen_foldl.mp hid with hnil | ⟨u, hu, hfill⟩
    · cases hnil
    · obtain ⟨time, raw, parsed, hraw, hmem⟩ := hsource u hu
      exact ⟨time, raw, hraw, ((htruth time raw parsed hraw).update hmem).2 id hfill⟩
  · intro hdropped hpending time raw id hraw hresponse hreports
    have hall := hdelivery.delivered hdropped
    rw [hpending, List.append_nil] at hall
    obtain ⟨u, hu, hfill⟩ := (htrue time raw hraw).reported hreports
    rw [OrderFeed.frame, ← feed.orderUpdates time raw] at hu
    obtain ⟨msg, hmsg, hupdate⟩ := List.mem_filterMap.mp hu
    refine mem_seen_foldl.mpr (Or.inr ⟨u, List.mem_filterMap.mpr ⟨msg, ?_, hupdate⟩, hfill⟩)
    rw [hall]
    exact mem_expected_of_received hraw hresponse hmsg

end Runs

/-- A reader of a frame with one trade report. -/
def replayReader : Reader ℤ where
  json raw := if raw = "fill" then .ok (tradeReport "BTCUSDT" (.posInt 7)) else .ok .null
  wsMessage _ := .error (.json "expected value")
  toLowercase s := s
  rfc3339 _ := none

/-- The report comes in, the connection breaks, and the report is replayed. -/
def replayMoves : List (ℕ × RunAction) :=
  [(0, .feed .iterate), (1, .feed .connected), (1, .feed (.receive (.text "fill"))),
    (1, .feed .delivered), (1, .feed (.receive .endOfStream)), (0, .feed .iterate),
    (5000000000, .feed .wake), (1, .feed .connected), (1, .feed (.receive (.text "fill"))),
    (1, .feed .delivered)]

/-- One fill, under the id `7`. -/
def replayFills : VenueFills ℤ := fun id => if id = "7" then some (30000, 1) else none

/-- Every frame of the example tells the truth about its one fill. -/
theorem replayFills_tellsTruth (raw : String) :
    (OrderFrame.mk .binance 0 raw).TellsTruth replayReader replayFills := by
  intro e he _
  by_cases hraw : raw = "fill"
  · subst hraw
    obtain rfl : e = ⟨.executionReport, tradeReport "BTCUSDT" (.posInt 7)⟩ :=
      List.mem_singleton.mp he
    exact ⟨⟨fun _ => ⟨Or.inl ⟨"30000", 30000, rfl, by decide⟩, Or.inl ⟨"1", 1, rfl, by decide⟩,
      7, rfl, by decide⟩, fun h => absurd rfl h⟩,
      fun _ => ⟨"7", 30000, 1, by decide, by decide, by decide, by decide⟩⟩
  · simp [OrderFrame.elements, replayReader, hraw, OrderConnector.elementsOfJson, Value.get] at he

/-- The replayed fill is counted once. -/
theorem feed_tallies_fills_replayed :
    ∃ s, run (runFeedStep .default (OrderFeed.binance replayReader fun _ => 0).connector
          ⟨"wss://stream.binance.com", []⟩) (.start 0 ⟨false, 0⟩ 0) replayMoves = some s ∧
      (deliveries s.log).length = 2 ∧ (consumerFills s.log).seen = ["7"] ∧
      Tallies replayFills (consumerFills s.log) :=
  ⟨_, rfl, rfl, by decide, (feed_tallies_fills (.binance replayReader fun _ => 0) .default
    ⟨"wss://stream.binance.com", []⟩ 0 ⟨false, 0⟩ 0 replayMoves _ replayFills rfl
    fun _ raw _ => replayFills_tellsTruth raw).1⟩

end ExchangeApiws.Spec
