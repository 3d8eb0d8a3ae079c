import ExchangeApiws.ForStd.List
import ExchangeApiws.Native.KucoinFeed

/-!
# Topics of the KuCoin feed

A subscription names a topic, and the frames of the feed come back under it. The connector
finds the parser of a frame by looking for a pattern anywhere in its topic, which also holds
the symbol. The file shows that each subscription gets its own parser, at its own symbol.

## Key results

- `contains_topic`: a pattern is never found in the symbol
- `topic_routes`: the frames of a subscription reach its parser
-/

namespace ExchangeApiws.Spec

open Native KucoinWs KucoinFeed

/-- A symbol as KuCoin writes them. -/
structure IsSymbol (s : String) : Prop where
  colon : ':' ∉ s.toList
  slash : '/' ∉ s.toList
  upper : s.toList.any Char.isLower = false

/-- A subscription that the connector can build. -/
inductive Subscription where
  | trade (symbol : String)
  | ticker (symbol : String)
  | depth (symbol : String) (levels : UInt8)
  | level2 (symbol : String)
  | orderUpdates
  | position (symbol : String)
  | balance
  | instrument (symbol : String)
  | stopOrders
  deriving DecidableEq, Repr

namespace Subscription

/-- The frame that subscribes. -/
def frame (F : Type) (uuid : String) (connector : KucoinConnector) :
    Subscription → Option (Value F)
  | .trade symbol => connector.tradeSubscription uuid symbol
  | .ticker symbol => connector.tickerSubscription uuid symbol
  | .depth symbol levels => connector.orderbookDepthSubscription uuid symbol levels
  | .level2 symbol => connector.orderbookL2Subscription uuid symbol
  | .orderUpdates => connector.orderUpdatesSubscription uuid
  | .position symbol => connector.positionSubscription uuid symbol
  | .balance => connector.balanceSubscription uuid
  | .instrument symbol => connector.instrumentSubscription uuid symbol
  | .stopOrders => connector.stopOrdersSubscription uuid

/-- The symbol that the topic carries, if it carries one. -/
def symbol : Subscription → Option String
  | .trade symbol | .ticker symbol | .depth symbol _ | .level2 symbol | .position symbol
  | .instrument symbol => some symbol
  | .orderUpdates | .balance | .stopOrders => none

/-- What the subscription's data is parsed with. -/
def parse {F : Type} [F64Ops F] (now : Int64) (subject : String) (data : Value F) :
    Subscription → List (FeedMessage F)
  | .trade symbol => (parseTrade now symbol exchangeName data).map .market
  | .ticker symbol => (parseTicker now symbol exchangeName data).map .market
  | .depth symbol _ => (parseOrderbookDepth now symbol exchangeName data).map .market
  | .level2 symbol => (parseLevel2Delta now symbol exchangeName data).map .market
  | .orderUpdates => (parseOrderUpdate exchangeName now data).map .orderUpdate
  | .position symbol => parsePositionChange now symbol exchangeName data
  | .balance => parseBalanceUpdate now exchangeName data
  | .instrument symbol => parseInstrumentEvent now symbol exchangeName subject data
  | .stopOrders => parseAdvancedOrderUpdate now exchangeName data

/-- The route of the subscription's data. -/
def route : Subscription → Route
  | .trade _ => .trade
  | .ticker _ => .ticker
  | .depth _ _ => .depth
  | .level2 _ => .level2
  | .orderUpdates => .orderUpdate
  | .position _ => .position
  | .balance => .balance
  | .instrument _ => .instrument
  | .stopOrders => .advancedOrder

/-- The topic without its symbol. -/
def channel (env : KucoinEnv) : Subscription → String
  | .trade _ => if env = .liveFutures then "/contractMarket/execution" else "/market/match"
  | .ticker _ => if env = .liveFutures then "/contractMarket/tickerV2" else "/market/ticker"
  | .depth _ levels =>
    (if env = .liveFutures then "/contractMarket/level2Depth" else "/spotMarket/level2Depth") ++
      (if levels ≤ 5 then "5" else "50")
  | .level2 _ => if env = .liveFutures then "/contractMarket/level2" else "/market/level2"
  | .orderUpdates => "/contractMarket/tradeOrders"
  | .position _ => "/contract/position"
  | .balance => "/contractAccount/wallet"
  | .instrument _ => "/contract/instrument"
  | .stopOrders => "/contractMarket/advancedOrders"

def topic (env : KucoinEnv) (sub : Subscription) : String :=
  match sub.symbol with
  | none => sub.channel env
  | some s => sub.channel env ++ ":" ++ s

/-! ## The frame -/

/-- The topic of a subscription frame is the one it was built for. -/
theorem topic_buildSub {F : Type} (uuid topic : String) (privateChannel : Bool) :
    ((KucoinConnector.buildSub uuid topic privateChannel : Option (Value F)).bind
      (·.get "topic")) = some (.string topic) := by
  cases hid : uuid.isEmpty <;>
    simp [KucoinConnector.buildSub, Envelope.toValue, nonempty, hid, Value.get, List.lookup]

/-- The frame of a subscription names its topic. -/
theorem topic_frame {F : Type} (uuid : String) (connector : KucoinConnector)
    (sub : Subscription) :
    ((sub.frame F uuid connector).bind (·.get "topic")) =
      some (.string (sub.topic connector.env)) := by
  obtain ⟨url, interval, env⟩ := connector
  cases sub with
  | trade symbol => cases env <;> exact topic_buildSub uuid _ false
  | ticker symbol => cases env <;> exact topic_buildSub uuid _ false
  | depth symbol levels =>
    have hlevels : toString (if levels ≤ 5 then (5 : UInt8) else 50) =
        if levels ≤ 5 then "5" else "50" := by
      split <;> rfl
    cases env <;>
      simp [frame, KucoinConnector.orderbookDepthSubscription, topic_buildSub, hlevels, topic,
        channel, Subscription.symbol]
  | level2 symbol => cases env <;> exact topic_buildSub uuid _ false
  | orderUpdates => exact topic_buildSub uuid _ true
  | position symbol => exact topic_buildSub uuid _ true
  | balance => exact topic_buildSub uuid _ true
  | instrument symbol => exact topic_buildSub uuid _ false
  | stopOrders => exact topic_buildSub uuid _ true

end Subscription

/-! ## Patterns in a topic -/

/-- A text contains another exactly if that is an infix of it. -/
theorem contains_iff {s p : String} : contains s p = true ↔ p.toList <:+: s.toList := by
  rw [contains, List.any_eq_true, List.infix_iff_prefix_suffix]
  simp only [List.mem_tails, List.isPrefixOf_iff_prefix]
  exact exists_congr fun t => and_comm

/-- A pattern with a slash or a lower-case letter is found in a topic if and only if it is found
    in front of the symbol. -/
theorem contains_topic {s pattern : String} (hs : IsSymbol s) (channel : String)
    (hcolon : pattern.toList.contains ':' = false)
    (hpattern : pattern.toList.any (fun c => c == '/' || c.isLower) = true) :
    contains (channel ++ ":" ++ s) pattern = contains channel pattern := by
  -- A symbol has neither slashes nor lower-case letters, and every pattern has one of them.
  have hnot : ¬pattern.toList <:+: s.toList := by
    intro hpart
    obtain ⟨c, hc, hslash⟩ := List.any_eq_true.mp hpattern
    have hmem := hpart.subset hc
    rcases Bool.or_eq_true_iff.mp hslash with h | h
    · exact hs.slash (beq_iff_eq.mp h ▸ hmem)
    · exact List.any_eq_false.mp hs.upper c hmem h
  have htopic : (channel ++ ":" ++ s).toList = channel.toList ++ ':' :: s.toList := by simp
  have hsep : ':' ∉ pattern.toList := by simpa using hcolon
  rw [Bool.eq_iff_iff, contains_iff, contains_iff, htopic, List.infix_append_cons_iff hsep,
    or_iff_left hnot]

/-- The symbol has no part in the routing. -/
theorem routeOf_topic {s : String} (hs : IsSymbol s) (channel : String) :
    routeOf (channel ++ ":" ++ s) = routeOf channel := by
  have hpattern : ∀ pattern : String, pattern.toList.contains ':' = false →
      pattern.toList.any (fun c => c == '/' || c.isLower) = true →
      contains (channel ++ ":" ++ s) pattern = contains channel pattern :=
    fun _ => contains_topic hs channel
  unfold routeOf
  rw [hpattern "/contractMarket/execution" (by decide) (by decide),
    hpattern "/market/match" (by decide) (by decide),
    hpattern "/contractMarket/tickerV2" (by decide) (by decide),
    hpattern "/contractMarket/ticker" (by decide) (by decide),
    hpattern "/market/ticker" (by decide) (by decide),
    hpattern "level2Depth" (by decide) (by decide), hpattern "level2" (by decide) (by decide),
    hpattern "/contractMarket/tradeOrders" (by decide) (by decide),
    hpattern "/contract/position" (by decide) (by decide),
    hpattern "/contractAccount/wallet" (by decide) (by decide),
    hpattern "/contract/instrument" (by decide) (by decide),
    hpattern "/contractMarket/advancedOrders" (by decide) (by decide)]

/-- The symbol behind the last colon of a topic. -/
theorem extractSymbol_topic {s : String} (hs : IsSymbol s) (channel : String) :
    extractSymbol (channel ++ ":" ++ s) = s := by
  have htopic : (channel ++ ":" ++ s).toList = channel.toList ++ ':' :: s.toList := by simp
  rw [extractSymbol, htopic, List.splitOn_append_cons_self, List.splitOn_eq_singleton hs.colon]
  simp

namespace Subscription

/-- Each channel has its own route. -/
theorem routeOf_channel (env : KucoinEnv) (sub : Subscription) :
    routeOf (sub.channel env) = some sub.route := by
  cases sub with
  | depth symbol levels =>
    -- The number of levels is in the topic, as one of two texts.
    have hboth : ∀ d ∈ ["5", "50"],
        routeOf ("/contractMarket/level2Depth" ++ d) = some .depth ∧
          routeOf ("/spotMarket/level2Depth" ++ d) = some .depth := by decide
    have hd : (if levels ≤ 5 then "5" else "50") ∈ ["5", "50"] := by split <;> simp
    obtain ⟨hfutures, hspot⟩ := hboth _ hd
    cases env with
    | liveFutures => exact hfutures
    | liveSpot => exact hspot
    | unified => exact hspot
  | _ => cases env <;> simp only [channel, route, reduceCtorEq, if_true, if_false] <;> decide

/-- The topic is routed to the parser of the subscription's data. -/
theorem routeOf_topic (env : KucoinEnv) {sub : Subscription}
    (hsymbol : ∀ s ∈ sub.symbol, IsSymbol s) : routeOf (sub.topic env) = some sub.route := by
  rw [← routeOf_channel env sub, topic]
  cases h : sub.symbol with
  -- Account topics carry no symbol.
  | none => rfl
  | some s => exact Spec.routeOf_topic (hsymbol s h) _

theorem extractSymbol_topic (env : KucoinEnv) {sub : Subscription}
    (hsymbol : ∀ s ∈ sub.symbol, IsSymbol s) :
    ∀ s ∈ sub.symbol, extractSymbol (sub.topic env) = s := by
  intro s hs
  rw [topic, Option.mem_def.mp hs]
  exact Spec.extractSymbol_topic (hsymbol s hs) _

/-- A frame under the topic is parsed with the parser of the subscription. -/
theorem parseEnvelope_topic {F : Type} [F64Ops F] {env : KucoinEnv} {sub : Subscription}
    (hsymbol : ∀ s ∈ sub.symbol, IsSymbol s) (now : Int64) {msg : Envelope F} {data : Value F}
    (htype : msg.msgType = "message") (htopic : msg.topic = some (sub.topic env))
    (hdata : msg.data = some data) :
    parseEnvelope now msg = sub.parse now (msg.subject.getD "unknown") data := by
  have hroute := routeOf_topic env hsymbol
  unfold parseEnvelope
  rw [if_pos htype, hdata, htopic, Option.getD_some]
  simp only [hroute]
  have hextract := extractSymbol_topic env hsymbol
  cases sub with
  | orderUpdates | balance | stopOrders => rfl
  | trade s | ticker s | level2 s | position s | instrument s =>
    simp only [route, parseRoute, hextract s rfl, Subscription.parse]
  | depth s levels => simp only [route, parseRoute, hextract s rfl, Subscription.parse]

end Subscription

/-- The frames under the topic of a subscription reach the subscription's parser, and the symbol
    is the one that was subscribed to. -/
theorem topic_routes {F : Type} [F64Ops F] (uuid : String) (connector : KucoinConnector)
    (sub : Subscription) (hsymbol : ∀ s ∈ sub.symbol, IsSymbol s) :
    ∃ frame topic, sub.frame F uuid connector = some frame ∧
      frame.get "topic" = some (.string topic) ∧
      routeOf topic = some sub.route ∧
      (∀ s ∈ sub.symbol, extractSymbol topic = s) ∧
      ∀ (now : Int64) (msg : Envelope F) (data : Value F),
        msg.msgType = "message" → msg.topic = some topic → msg.data = some data →
          parseEnvelope now msg = sub.parse now (msg.subject.getD "unknown") data := by
  obtain ⟨frame, hframe, htopic⟩ := Option.bind_eq_some_iff.mp (sub.topic_frame uuid connector)
  exact ⟨frame, sub.topic connector.env, hframe, htopic, Subscription.routeOf_topic _ hsymbol,
    fun s hs => Subscription.extractSymbol_topic _ hsymbol s hs,
    fun now _ _ => Subscription.parseEnvelope_topic hsymbol now⟩

/-- A trade subscription on the futures venue. -/
theorem topic_routes_trade : ∃ frame topic,
    (Subscription.trade "XBTUSDTM").frame ℤ "1" ⟨"wss://ws", 18, .liveFutures⟩ = some frame ∧
      frame.get "topic" = some (.string topic) ∧ extractSymbol topic = "XBTUSDTM" := by
  have hsymbol : ∀ s ∈ (Subscription.trade "XBTUSDTM").symbol, IsSymbol s := by
    intro s hs
    obtain rfl := Option.some.inj hs
    exact ⟨by decide, by decide, by decide⟩
  obtain ⟨frame, topic, hframe, htopic, -, hextract, -⟩ :=
    @topic_routes ℤ _ "1" ⟨"wss://ws", 18, .liveFutures⟩ (.trade "XBTUSDTM") hsymbol
  exact ⟨frame, topic, hframe, htopic, hextract _ rfl⟩

end ExchangeApiws.Spec
