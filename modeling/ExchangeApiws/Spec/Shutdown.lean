import ExchangeApiws.Native.Connectors
import ExchangeApiws.Spec.FeedStep

/-!
# The shutdown signal

The caller sends `true` on the shutdown watch. `run_feed` looks at the watch in its recv loop
only, `run_feed_supervised` also before and during the refresh delay. A signal that comes
while a session is in progress, or between the end of an inner cycle and the end of the
refresh delay, is seen if no failure ends the session first.

## Key results

- `connectors_steady`: a frame has a bounded number of messages, whenever it is parsed
- `Feed.step_winding`: what one step of a session can do after the signal
- `shutdown_observed`: runs of both functions after the signal
-/

namespace ExchangeApiws.Native.Runner

variable {M : Type} {config : WsRunnerConfig} {connector : Connector M}
  {endpoint : WsFeedEndpoint}

/-! ## Sessions in progress -/

/-- A connection attempt has begun and the session has not ended. -/
def Phase.inSession : Phase M → Bool
  | .loopTop | .backoff _ | .returned _ | .panicked => false
  | _ => true

/-- The await of a connection or of a write ends with an error or a timeout. -/
def FeedAction.isFailure : FeedAction → Bool
  | .connectFailed | .connectTimedOut | .writeFailed => true
  | _ => false

/-- The output starts a connection attempt or a call of the refresh closure. -/
def Output.isStart : Output M → Bool
  | .connect _ | .refresh => true
  | _ => false

/-- A frame has no more than so many messages, whenever it is parsed. -/
def Connector.Steady (connector : Connector M) : Prop :=
  ∀ text, ∃ limit, ∀ time, (connector.messages time text).length ≤ limit

/-- A connector that reads the time off a clock with finitely many values is steady. -/
theorem Connector.Steady.of_clock {α : Type} [Finite α] (clock : ℕ → α)
    (parse : α → String → Result (List M))
    (h : ∀ time, connector.parseMessage time = parse (clock time)) : connector.Steady := by
  intro text
  let count : α → ℕ := fun now => ((parse now text).toOption.getD []).length
  obtain ⟨limit, hlimit⟩ := (Set.finite_range count).bddAbove
  refine ⟨limit, fun time => ?_⟩
  have hcount : (connector.messages time text).length = count (clock time) := by
    simp only [Connector.messages, h, count]
    cases parse (clock time) text with
    | ok msgs => rfl
    | error e => rfl
  exact hcount ▸ hlimit (Set.mem_range_self (clock time))

/-- The connectors of the crate read the time as an `i64`, so all of them are steady. -/
theorem connectors_steady {F : Type} (clock nowMs : ℕ → Int64) (toText : Value F → String)
    (hmac : List UInt8 → List UInt8 → List UInt8)
    (newFromSlice : List UInt8 → Except String (List UInt8 → List UInt8)) :
    (∀ [F64 F] (fromStr : String → Result (Value F)) (rfc3339 : String → Option Int64)
        (exchange : String),
      (Binance.connector fromStr clock exchange).Steady ∧ (Bybit.connector fromStr clock).Steady ∧
        (Okx.connector fromStr clock).Steady ∧ (Cryptocom.connector fromStr clock).Steady ∧
        (Coinbase.connector fromStr rfc3339 clock).Steady) ∧
      (∀ [F64Ops F] (fromStr : String → Result (Envelope F)),
        (KucoinFeed.connector fromStr clock).Steady) ∧
      ∀ [F64Arith F] [Neg F] (reader : Reader F) (bybit : Bybit.Credentials)
          (cryptocom : Cryptocom.Credentials),
        (KrakenWs.connector reader clock).Steady ∧
          (BinanceUserData.connector reader clock).Steady ∧
          (BybitPrivate.connector reader toText hmac bybit nowMs clock).Steady ∧
          (CryptocomUser.connector reader toText newFromSlice cryptocom nowMs clock).Steady :=
  ⟨fun fromStr rfc3339 exchange =>
      ⟨.of_clock clock (Binance.parseMessage fromStr exchange) fun _ => rfl,
      .of_clock clock (Bybit.parseMessage fromStr) fun _ => rfl,
      .of_clock clock (Okx.parseMessage fromStr) fun _ => rfl,
      .of_clock clock (Cryptocom.parseMessage fromStr) fun _ => rfl,
      .of_clock clock (Coinbase.parseMessage fromStr rfc3339) fun _ => rfl⟩,
    fun fromStr => .of_clock clock (fun now raw => (fromStr raw).map (KucoinFeed.parseEnvelope now))
      fun _ => rfl,
    fun reader _ _ => ⟨.of_clock clock (KrakenWs.parseStream reader) fun _ => rfl,
      .of_clock clock (BinanceUserData.parseStream reader) fun _ => rfl,
      .of_clock clock (BybitPrivate.parseStream reader) fun _ => rfl,
      .of_clock clock (CryptocomUser.parseStream reader) fun _ => rfl⟩⟩

/-- The most messages that a frame can have, over all the times at which it may be parsed. -/
noncomputable def Connector.mostMessages (connector : Connector M) (text : String) : ℕ∞ :=
  ⨆ time, ((connector.messages time text).length : ℕ∞)

/-- The messages of a frame are bounded for a steady connector. -/
theorem Connector.Steady.mostMessages_ne_top {connector : Connector M} (h : connector.Steady)
    (text : String) : connector.mostMessages text ≠ ⊤ := by
  obtain ⟨limit, hlimit⟩ := h text
  have hle : connector.mostMessages text ≤ limit :=
    iSup_le fun time => ENat.natCast_le_natCast.mpr (hlimit time)
  exact ne_top_of_le_ne_top (ENat.natCast_ne_top limit) hle

/-- The messages of a frame are at most the most it can have. -/
theorem Connector.length_messages_le (connector : Connector M) (time : ℕ) (text : String) :
    ((connector.messages time text).length : ℕ∞) ≤ connector.mostMessages text :=
  le_iSup (fun time => ((connector.messages time text).length : ℕ∞)) time

/-- A bound on the steps that a session makes after the signal. A reply may take any time, and
    only then the number of messages of its frame is known. -/
noncomputable def Phase.remaining (connector : Connector M) (endpoint : WsFeedEndpoint) :
    Phase M → ℕ∞
  | .connecting => (endpoint.subscriptions.length + 5 : ℕ)
  | .authenticating _ => (endpoint.subscriptions.length + 4 : ℕ)
  | .subscribing _ rest => (rest.length + 3 : ℕ)
  | .responding text _ => connector.mostMessages text + 3
  | .delivering _ rest => (rest.length + 3 : ℕ)
  | .ponging | .pinging _ => 3
  | .selecting => 2
  | .closing => 1
  | .loopTop | .backoff _ | .returned _ | .panicked => 0

/-- Only the messages of a frame that is still to be parsed can leave the bound open. -/
theorem Connector.Steady.remaining_ne_top {connector : Connector M} (h : connector.Steady)
    (endpoint : WsFeedEndpoint) (phase : Phase M) : phase.remaining connector endpoint ≠ ⊤ := by
  cases phase with
  | responding text response =>
    exact WithTop.add_ne_top.mpr ⟨h.mostMessages_ne_top text, ENat.natCast_ne_top 3⟩
  | _ => exact ENat.natCast_ne_top _

/-- The session will see the signal at its next look at the watch, or has seen it. -/
structure Feed.Winding (watch : Watch) (feed : Feed M) : Prop where
  inSession : feed.phase.inSession = true
  value : watch.value = true
  unseen : feed.phase = .closing ∨ watch.version ≠ feed.seen

/-- The feed goes on to another phase of the session, or has returned. -/
structure Feed.WindsDown (connector : Connector M) (endpoint : WsFeedEndpoint) (watch : Watch)
    (feed : Feed M) (after : Feed M × List (Output M)) : Prop where
  quiet : ∀ output ∈ after.2, output.isStart = false
  phase : after.1.phase = .returned (.ok ()) ∨
    after.1.Winding watch ∧
      after.1.phase.remaining connector endpoint < feed.phase.remaining connector endpoint

/-- Sending the subscriptions takes a step each, then the recv loop looks at the watch. -/
theorem Feed.subscribe_winding (hping : config.pingIntervalSecs ≠ 0) {watch : Watch}
    {feed : Feed M} (hvalue : watch.value = true) (hunseen : watch.version ≠ feed.seen)
    (now : ℕ) (subs : List String) :
    (feed.subscribe config now subs).Winding watch ∧
      (feed.subscribe config now subs).phase.remaining connector endpoint ≤
        (subs.length + 2 : ℕ) := by
  cases subs with
  | nil =>
    simp only [Feed.subscribe, Feed.enterLoop, if_neg hping]
    exact ⟨⟨rfl, hvalue, Or.inr hunseen⟩, le_rfl⟩
  | cons sub rest => exact ⟨⟨rfl, hvalue, Or.inr hunseen⟩, le_rfl⟩

/-- Delivering messages takes a step each, then the recv loop looks at the watch. -/
theorem Feed.deliver_winding {watch : Watch} {feed : Feed M} (hvalue : watch.value = true)
    (hunseen : watch.version ≠ feed.seen) (msgs : List M) :
    (feed.deliver msgs).Winding watch ∧
      (feed.deliver msgs).phase.remaining connector endpoint ≤ (msgs.length + 2 : ℕ) := by
  cases msgs with
  | nil => exact ⟨⟨rfl, hvalue, Or.inr hunseen⟩, le_rfl⟩
  | cons msg rest => exact ⟨⟨rfl, hvalue, Or.inr hunseen⟩, le_rfl⟩

/-- A frame that is parsed has its messages to deliver. -/
theorem Feed.parse_winding {watch : Watch} {feed : Feed M} (hvalue : watch.value = true)
    (hunseen : watch.version ≠ feed.seen) (now : ℕ) (text : String) :
    (feed.parse connector now text).Winding watch ∧
      (feed.parse connector now text).phase.remaining connector endpoint ≤
        ((connector.messages now text).length + 2 : ℕ) := by
  cases hparse : connector.parseMessage now text with
  | ok msgs =>
    simp only [Feed.parse, Connector.messages, hparse]
    exact Feed.deliver_winding hvalue hunseen msgs
  | error error =>
    simp only [Feed.parse, Connector.messages, hparse]
    exact ⟨⟨rfl, hvalue, Or.inr hunseen⟩, le_rfl⟩

/-- What ends the recv loop with the shutdown, or with the receiver gone, returns `Ok(())`. -/
theorem Feed.endSession_ok (config : WsRunnerConfig) (url : String) (now : ℕ) (feed : Feed M)
    {outcome : SessionOutcome} (h : outcome ≠ .disconnected) :
    (feed.endSession config url now outcome).1.phase = .returned (.ok ()) ∧
      ∀ output ∈ (feed.endSession config url now outcome).2, output.isStart = false := by
  cases outcome with
  | disconnected => exact absurd rfl h
  | shutdownRequested | receiverDropped =>
    simp [Feed.endSession, afterSession, Output.isStart]

/-- A feed that goes on with fewer steps than before. -/
theorem Feed.WindsDown.of_winding {watch : Watch} {feed feed' : Feed M} {outputs : List (Output M)}
    {n : ℕ} (hquiet : ∀ output ∈ outputs, output.isStart = false)
    (h : feed'.Winding watch ∧ feed'.phase.remaining connector endpoint ≤ n)
    (hn : n < feed.phase.remaining connector endpoint) :
    feed.WindsDown connector endpoint watch (feed', outputs) :=
  ⟨hquiet, Or.inr ⟨h.1, h.2.trans_lt hn⟩⟩

/-- A write that succeeds after the signal. -/
theorem Feed.written_winding (hping : config.pingIntervalSecs ≠ 0) {watch : Watch} {feed : Feed M}
    (h : feed.Winding watch) {now : ℕ} {after : Feed M × List (Output M)}
    (hstep : feed.written config connector endpoint now = some after) :
    feed.WindsDown connector endpoint watch after := by
  have hunseen : feed.phase ≠ .closing → watch.version ≠ feed.seen := h.unseen.resolve_left
  simp only [Feed.written] at hstep
  split at hstep
  · -- the subscriptions are still to come
    rename_i auth hphase
    cases hstep
    apply Feed.WindsDown.of_winding (by simp [Output.isStart])
      (Feed.subscribe_winding hping h.value (hunseen (by simp [hphase])) now _)
    rw [hphase]
    exact ENat.natCast_lt_natCast.mpr (by omega)
  · rename_i sub rest hphase
    cases hstep
    apply Feed.WindsDown.of_winding (by simp [Output.isStart])
      (Feed.subscribe_winding hping h.value (hunseen (by simp [hphase])) now _)
    rw [hphase]
    exact ENat.natCast_lt_natCast.mpr (Nat.lt_succ_self _)
  · -- the frame that was responded to is parsed now
    rename_i text response hphase
    cases hstep
    apply Feed.WindsDown.of_winding (by simp [Output.isStart])
      (Feed.parse_winding h.value (hunseen (by simp [hphase])) now text)
    rw [hphase]
    calc (((connector.messages now text).length + 2 : ℕ) : ℕ∞)
        < ((connector.messages now text).length + 3 : ℕ) :=
          ENat.natCast_lt_natCast.mpr (Nat.lt_succ_self _)
      _ ≤ connector.mostMessages text + 3 := by
          rw [Nat.cast_add]
          exact add_le_add_left (connector.length_messages_le now text) _
  · rename_i hphase
    cases hstep
    apply Feed.WindsDown.of_winding (by simp [Output.isStart])
      (Feed.deliver_winding h.value (hunseen (by simp [hphase])) [])
    rw [hphase]
    exact ENat.natCast_lt_natCast.mpr (Nat.lt_succ_self 2)
  · rename_i ping hphase
    cases hstep
    apply Feed.WindsDown.of_winding (by simp [Output.isStart])
      (Feed.deliver_winding h.value (hunseen (by simp [hphase])) [])
    rw [hphase]
    exact ENat.natCast_lt_natCast.mpr (Nat.lt_succ_self 2)
  · -- the close frame is out, and the session ends
    cases hstep
    obtain ⟨hphase, hquiet⟩ := feed.endSession_ok config endpoint.url now
      (by simp : SessionOutcome.shutdownRequested ≠ .disconnected)
    exact ⟨by simpa [Output.isStart] using hquiet, Or.inl hphase⟩
  · cases hstep

/-- After the signal a step of the session that is not a failure starts nothing, and either
    returns `Ok(())` or comes closer to the look at the watch. -/
theorem Feed.step_winding (hping : config.pingIntervalSecs ≠ 0) {watch : Watch} {feed : Feed M}
    (h : feed.Winding watch) {now : ℕ} {action : FeedAction}
    (hok : action.isFailure = true → feed.phase = .closing)
    {after : Feed M × List (Output M)}
    (hstep : feed.step config connector endpoint now watch action = some after) :
    feed.WindsDown connector endpoint watch after := by
  have hunseen : feed.phase ≠ .closing → watch.version ≠ feed.seen := h.unseen.resolve_left
  have hin := h.inSession
  cases action with
  | iterate =>
    simp only [Feed.step] at hstep
    split at hstep
    · rename_i hphase; simp [hphase, Phase.inSession] at hin
    · cases hstep
  | wake =>
    simp only [Feed.step] at hstep
    split at hstep
    · rename_i hphase; simp [hphase, Phase.inSession] at hin
    · cases hstep
  | connected =>
    simp only [Feed.step] at hstep
    split at hstep
    · rename_i hphase
      have hversion := hunseen (by simp [hphase])
      split at hstep
      · rename_i auth hauth
        cases hstep
        refine ⟨by simp, Or.inr ⟨⟨rfl, h.value, Or.inr hversion⟩, ?_⟩⟩
        rw [hphase]
        exact ENat.natCast_lt_natCast.mpr (Nat.lt_succ_self _)
      · cases hstep
        apply Feed.WindsDown.of_winding (by simp)
          (Feed.subscribe_winding hping h.value hversion now _)
        rw [hphase]
        exact ENat.natCast_lt_natCast.mpr (by omega)
    · cases hstep
  | connectFailed =>
    -- a failure that is allowed comes in `closing`, where no connection is being made
    have hclosing := hok rfl
    simp only [Feed.step, hclosing] at hstep
    cases hstep
  | connectTimedOut =>
    have hclosing := hok rfl
    simp only [Feed.step, hclosing] at hstep
    cases hstep
  | written => exact Feed.written_winding hping h hstep
  | writeFailed =>
    have hclosing := hok rfl
    simp only [Feed.step, Feed.writeFailed, hclosing] at hstep
    cases hstep
    obtain ⟨hphase, hquiet⟩ := feed.endSession_ok config endpoint.url now
      (by simp : SessionOutcome.shutdownRequested ≠ .disconnected)
    exact ⟨hquiet, Or.inl hphase⟩
  | observe =>
    simp only [Feed.step] at hstep
    split at hstep
    · rename_i hphase
      split at hstep
      · -- this is the look at the watch
        cases hstep
        rw [h.value]
        refine ⟨by simp, Or.inr ⟨⟨rfl, h.value, Or.inl rfl⟩, ?_⟩⟩
        rw [hphase]
        exact ENat.natCast_lt_natCast.mpr (Nat.lt_succ_self 1)
      · cases hstep
    · cases hstep
  | receive frame =>
    -- the changed watch comes before any frame
    simp only [Feed.step] at hstep
    split at hstep
    · rename_i hphase
      rw [if_neg (hunseen (by simp [hphase]))] at hstep
      cases hstep
    · cases hstep
  | pingTick =>
    simp only [Feed.step] at hstep
    split at hstep
    · rename_i hphase
      rw [if_neg (fun hc => hunseen (by simp [hphase]) hc.1)] at hstep
      cases hstep
    · cases hstep
  | delivered =>
    simp only [Feed.step] at hstep
    split at hstep
    · rename_i msg rest hphase
      cases hstep
      apply Feed.WindsDown.of_winding (by simp [Output.isStart])
        (Feed.deliver_winding h.value (hunseen (by simp [hphase])) rest)
      rw [hphase]
      exact ENat.natCast_lt_natCast.mpr (Nat.lt_succ_self _)
    · cases hstep
  | receiverDropped =>
    simp only [Feed.step] at hstep
    split at hstep
    · cases hstep
      obtain ⟨hphase, hquiet⟩ := feed.endSession_ok config endpoint.url now
        (by simp : SessionOutcome.receiverDropped ≠ .disconnected)
      exact ⟨hquiet, Or.inl hphase⟩
    · cases hstep

/-- A session in progress has a step to make. -/
theorem Phase.remaining_pos (connector : Connector M) (endpoint : WsFeedEndpoint)
    {phase : Phase M} (h : phase.inSession = true) :
    0 < phase.remaining connector endpoint := by
  cases phase with
  | loopTop | backoff | returned | panicked => cases h
  | responding text response => exact pos_of_ne_zero (by simp [Phase.remaining])
  | _ => exact ENat.natCast_lt_natCast.mpr (Nat.succ_pos _)

/-- A session that has not ended has a step to take that is not a failure. -/
theorem Feed.Winding.progress {watch : Watch} {feed : Feed M} (h : feed.Winding watch)
    (config : WsRunnerConfig) (connector : Connector M) (endpoint : WsFeedEndpoint) (now : ℕ) :
    ∃ action after, feed.step config connector endpoint now watch action = some after ∧
      action.isFailure = false := by
  have hunseen : feed.phase ≠ .closing → watch.version ≠ feed.seen := h.unseen.resolve_left
  have hin := h.inSession
  cases hphase : feed.phase with
  | loopTop | backoff | returned | panicked => simp [hphase, Phase.inSession] at hin
  | connecting =>
    refine ⟨.connected, ?_⟩
    simp only [Feed.step, hphase]
    split
    · exact ⟨_, rfl, rfl⟩
    · exact ⟨_, rfl, rfl⟩
  | selecting =>
    have hversion := hunseen (by simp [hphase])
    exact ⟨.observe, _, by simp only [Feed.step, hphase, if_pos hversion]; rfl, rfl⟩
  | delivering => exact ⟨.delivered, _, by simp only [Feed.step, hphase]; rfl, rfl⟩
  | authenticating | subscribing | closing | responding | ponging | pinging =>
    exact ⟨.written, _, by simp only [Feed.step, Feed.written, hphase]; rfl, rfl⟩

/-! ## What it means to observe the signal -/

/-- The runs from `s` whose steps meet `ok` start nothing and end in `Ok(())`. -/
structure ObservesShutdown {S A : Type} (connector : Connector M) (step : S → A → Option S)
    (ok : S → A → Prop) (log : S → List (Output M)) (result : S → Option (Result Unit))
    (s : S) : Prop where
  /-- At every point nothing has been started, and the run has returned `Ok(())` or can go on. -/
  run : ∀ (moves : List A) (s' : S), TransitionSystem.run step s moves = some s' →
    TransitionSystem.StepsMeet step ok s moves →
      (∃ outputs, log s' = log s ++ outputs ∧ ∀ output ∈ outputs, output.isStart = false) ∧
      (result s' = some (.ok ()) ∨
        result s' = none ∧ ∃ move s'', ok s' move ∧ step s' move = some s'')
  /-- No run goes on for ever. -/
  ends : Acc (TransitionSystem.Next step ok) s
  /-- Where the connector is steady, the runs have at most a fixed number of steps. -/
  bounded : connector.Steady → ∃ bound : ℕ, ∀ (moves : List A) (s' : S),
    TransitionSystem.run step s moves = some s' → TransitionSystem.StepsMeet step ok s moves →
      moves.length ≤ bound

/-- It is enough that each step keeps an invariant and decreases a measure. -/
theorem ObservesShutdown.of_measure {S A : Type} {connector : Connector M}
    {step : S → A → Option S} {ok : S → A → Prop} {log : S → List (Output M)}
    {result : S → Option (Result Unit)} {I : S → Prop} {μ : S → ℕ∞}
    (hstep : ∀ s move s', I s → ok s move → step s move = some s' →
      (I s' ∧ ∃ outputs, log s' = log s ++ outputs ∧ ∀ output ∈ outputs, output.isStart = false) ∧
        μ s' < μ s)
    (hend : ∀ s, I s → result s = some (.ok ()) ∨
      result s = none ∧ ∃ move s', ok s move ∧ step s move = some s')
    (hsteady : connector.Steady → ∀ s, μ s ≠ ⊤) {s : S} (hs : I s) :
    ObservesShutdown connector step ok log result s := by
  have hmeasure : ∀ t move t', I t → ok t move → step t move = some t' → I t' ∧ μ t' < μ t :=
    fun t move t' ht hmove ht' => (hstep t move t' ht hmove ht').imp_left And.left
  constructor
  case run =>
    -- what has been logged is collected on the way
    intro moves s' hrun hok
    obtain ⟨hI, hlog⟩ := TransitionSystem.run_invariant_of_stepsMeet
      (I := fun t => I t ∧ ∃ outputs, log t = log s ++ outputs ∧
        ∀ output ∈ outputs, output.isStart = false) step
      (by
        intro t move t' ht hmove ht'
        obtain ⟨hIt, outputs, houtputs, hquiet⟩ := ht
        obtain ⟨⟨hIt', more, hmore, hquiet'⟩, -⟩ := hstep t move t' hIt hmove ht'
        refine ⟨hIt', outputs ++ more, by rw [hmore, houtputs, List.append_assoc], ?_⟩
        intro output houtput
        cases List.mem_append.mp houtput with
        | inl hold => exact hquiet output hold
        | inr hnew => exact hquiet' output hnew)
      hok hrun ⟨hs, [], (List.append_nil _).symm, by simp⟩
    exact ⟨hlog, hend s' hI⟩
  case ends => exact TransitionSystem.acc_next_of_measure step hmeasure hs
  case bounded =>
    -- the measure is finite, and it bounds the length
    intro h
    obtain ⟨bound, hbound⟩ := ENat.ne_top_iff_exists.mp (hsteady h s)
    refine ⟨bound, fun moves s' hrun hok => ?_⟩
    have hlength := (TransitionSystem.run_measure_of_stepsMeet step hmeasure hok hrun hs).2
    rw [← hbound] at hlength
    exact ENat.natCast_le_natCast.mp (le_self_add.trans hlength)

/-! ## run_feed after the signal -/

def FeedState.result (s : FeedState M) : Option (Result Unit) :=
  match s.feed.phase with
  | .returned result => some result
  | _ => none

/-- The signal comes while a session is in progress, and the ping interval is one with which
    a session can run. -/
structure FeedState.SignalInTime (config : WsRunnerConfig) (s : FeedState M) : Prop where
  inSession : s.feed.phase.inSession = true
  interval : config.pingIntervalSecs ≠ 0

/-- The caller sends nothing more, and no failure ends the session. -/
structure FeedState.Undisturbed (s : FeedState M) (move : ℕ × RunAction) : Prop where
  quiet : ∀ value, move.2 ≠ .send value
  noFailure : ∀ action, move.2 = .feed action → action.isFailure = true → s.feed.phase = .closing

/-- From a winding session on, `run_feed` observes the signal. -/
theorem FeedState.observesShutdown (hinterval : config.pingIntervalSecs ≠ 0) {s : FeedState M}
    (h : s.feed.Winding s.watch) :
    ObservesShutdown connector (runFeedStep config connector endpoint) FeedState.Undisturbed
      FeedState.log FeedState.result s := by
  apply ObservesShutdown.of_measure
    (I := fun t : FeedState M => t.feed.phase = .returned (.ok ()) ∨ t.feed.Winding t.watch)
    (μ := fun t => t.feed.phase.remaining connector endpoint)
  · intro t move t' ht hmove hstep
    obtain ⟨dt, action⟩ := move
    cases action with
    | send value => exact absurd rfl (hmove.quiet value)
    | feed action =>
      obtain ⟨after, hafter, rfl⟩ := Option.map_eq_some_iff.mp hstep
      cases ht with
      | inl hreturned =>
        -- a call that has returned makes no further step
        simp [Feed.step_over (Or.inl ⟨_, hreturned⟩)] at hafter
      | inr hwinding =>
        have hdown := Feed.step_winding hinterval hwinding (hmove.noFailure action rfl) hafter
        refine ⟨⟨hdown.phase.imp_right And.left, after.2, rfl, hdown.quiet⟩, ?_⟩
        cases hdown.phase with
        | inl hreturned =>
          show after.1.phase.remaining connector endpoint < _
          rw [hreturned]
          exact Phase.remaining_pos connector endpoint hwinding.inSession
        | inr hcloser => exact hcloser.2
  · intro t ht
    cases ht with
    | inl hreturned => exact Or.inl (by rw [FeedState.result, hreturned])
    | inr hwinding =>
      obtain ⟨action, after, hafter, hfailure⟩ := hwinding.progress config connector
        endpoint (t.now + 0)
      have hstep : runFeedStep config connector endpoint t (0, .feed action) = some
          { t with now := t.now + 0, feed := after.1, log := t.log ++ after.2 } := by
        simp only [runFeedStep, hafter, Option.map_some]
      refine Or.inr ⟨?_, (0, .feed action), _, ⟨by simp, ?_⟩, hstep⟩
      · have hin := hwinding.inSession
        rw [FeedState.result]
        split
        · rename_i hphase; simp [hphase, Phase.inSession] at hin
        · rfl
      · intro action' haction hfailure'
        cases haction
        simp [hfailure] at hfailure'
  · exact fun hsteady t => hsteady.remaining_ne_top endpoint t.feed.phase
  · exact Or.inr h

/-! ## run_feed_supervised after the signal -/

/-- A failure at time `now` uses up the reconnect budget of the cycle. -/
structure Feed.Exhausts (config : WsRunnerConfig) (now : ℕ) (feed : Feed M) : Prop where
  short : elapsedSecs feed.sessionStart now < STABLE_SESSION_SECS
  spent : config.maxReconnectAttempts ≤ feed.attempts
  noOverflow : feed.attempts ≠ u32Max

/-- A failure ends the session, unless it only fails to send the close frame. -/
theorem Feed.step_failure {feed : Feed M} {watch : Watch} {now : ℕ} {action : FeedAction}
    (hfailure : action.isFailure = true) (hclosing : feed.phase ≠ .closing)
    {after : Feed M × List (Output M)}
    (hstep : feed.step config connector endpoint now watch action = some after) :
    after = feed.endSession config endpoint.url now .disconnected := by
  cases action with
  | connectFailed =>
    simp only [Feed.step] at hstep
    split at hstep
    · cases hstep; rfl
    · cases hstep
  | connectTimedOut =>
    simp only [Feed.step] at hstep
    split at hstep
    · split at hstep
      · cases hstep; rfl
      · cases hstep
    · cases hstep
  | writeFailed =>
    simp only [Feed.step, Feed.writeFailed] at hstep
    split at hstep
    case h_6 hphase => exact absurd hphase hclosing
    all_goals first
      | (cases hstep; rfl)
      | cases hstep
  | _ => cases hfailure

/-- A failure that uses up the budget returns the error and starts nothing. -/
theorem Feed.endSession_exhausted {feed : Feed M} {now : ℕ} (h : feed.Exhausts config now)
    (url : String) :
    (feed.endSession config url now .disconnected).1.phase =
        .returned (.error (.wsDisconnected url (feed.attempts + 1))) ∧
      ∀ output ∈ (feed.endSession config url now .disconnected).2, output.isStart = false := by
  have hspent : config.maxReconnectAttempts < feed.attempts + 1 := by
    rw [UInt32.lt_iff_toNat_lt, toNat_add_one h.noOverflow]
    exact Nat.lt_succ_of_le (UInt32.le_iff_toNat_le.mp h.spent)
  have hstable : ¬ STABLE_SESSION_SECS ≤ elapsedSecs feed.sessionStart now :=
    UInt64.not_le.mpr h.short
  simp [Feed.endSession, afterSession, hstable, h.noOverflow, hspent, Output.isStart]

def SupervisedState.result (s : SupervisedState M) : Option (Result Unit) :=
  match s.phase with
  | .returned result => some result
  | _ => none

/-- The signal comes while the inner `run_feed` has a session in progress, or between the end
    of a cycle that is within the refresh budget and the end of the refresh delay. -/
def SupervisedState.SignalInTime (config : SupervisedConfig) (s : SupervisedState M) : Prop :=
  match s.phase with
  | .feeding _ feed => feed.phase.inSession = true ∧ config.runner.pingIntervalSecs ≠ 0
  | .exhausted _ _ => s.cycle.toNat < config.maxRefreshCycles.toNat
  | .delaying _ => True
  | _ => False

/-- The caller sends nothing more, and no failure ends the session, unless it uses up the
    reconnect budget of the cycle while the refresh budget is left. -/
structure SupervisedState.Undisturbed (config : SupervisedConfig) (s : SupervisedState M)
    (move : ℕ × SupervisedAction) : Prop where
  quiet : ∀ value, move.2 ≠ .send value
  noFailure : ∀ action endpoint feed, move.2 = .feed action → s.phase = .feeding endpoint feed →
    action.isFailure = true → feed.phase = .closing ∨
      feed.Exhausts config.runner (s.now + move.1) ∧ s.cycle.toNat < config.maxRefreshCycles.toNat

/-- The supervisor will see the signal at its next look at the watch, or has returned. -/
def SupervisedState.Winding (config : SupervisedConfig) (s : SupervisedState M) : Prop :=
  s.watch.value = true ∧
    match s.phase with
    | .feeding _ feed => feed.Winding s.watch ∧ config.runner.pingIntervalSecs ≠ 0
    | .exhausted _ _ => s.cycle.toNat < config.maxRefreshCycles.toNat
    | .delaying _ => s.watch.version ≠ s.seen
    | .returned result => result = .ok ()
    | _ => False

noncomputable def SupervisedPhase.remaining (connector : Connector M) : SupervisedPhase M → ℕ∞
  | .feeding endpoint feed => feed.phase.remaining connector endpoint + 1
  | .exhausted _ _ | .delaying _ => 1
  | _ => 0

/-- The same for the supervisor. -/
theorem Connector.Steady.supervised_ne_top {connector : Connector M} (h : connector.Steady)
    (phase : SupervisedPhase M) : phase.remaining connector ≠ ⊤ := by
  cases phase with
  | feeding endpoint feed =>
    exact WithTop.add_ne_top.mpr ⟨h.remaining_ne_top endpoint feed.phase, ENat.natCast_ne_top 1⟩
  | _ => exact ENat.natCast_ne_top _

/-- A session in progress goes on inside the supervisor. -/
theorem supervisedPhase_inSession {feed : Feed M} (h : feed.phase.inSession = true)
    (endpoint : WsFeedEndpoint) : supervisedPhase endpoint feed = .feeding endpoint feed := by
  cases hphase : feed.phase with
  | loopTop | backoff | returned | panicked => simp [hphase, Phase.inSession] at h
  | _ => simp only [supervisedPhase, hphase]

/-- A step of the inner `run_feed` after the signal. -/
theorem SupervisedState.feed_winding {config : SupervisedConfig} {s : SupervisedState M}
    {feed : Feed M} (hfeed : feed.Winding s.watch)
    (hinterval : config.runner.pingIntervalSecs ≠ 0) {now : ℕ} {action : FeedAction}
    (hok : action.isFailure = true → feed.phase = .closing ∨
      feed.Exhausts config.runner now ∧ s.cycle.toNat < config.maxRefreshCycles.toNat)
    {after : Feed M × List (Output M)}
    (hstep : feed.step config.runner connector endpoint now s.watch action = some after) :
    SupervisedState.Winding config { s with phase := supervisedPhase endpoint after.1 } ∧
      (∀ output ∈ after.2, output.isStart = false) ∧
      (supervisedPhase endpoint after.1).remaining connector <
        (SupervisedPhase.feeding endpoint feed).remaining connector := by
  have hpos := Phase.remaining_pos connector endpoint hfeed.inSession
  by_cases hsoft : action.isFailure = true → feed.phase = .closing
  · have hdown := Feed.step_winding hinterval hfeed hsoft hstep
    cases hdown.phase with
    | inl hreturned =>
      have hphase : supervisedPhase endpoint after.1 = .returned (.ok ()) := by
        simp only [supervisedPhase, hreturned]
      rw [hphase]
      exact ⟨⟨hfeed.value, rfl⟩, hdown.quiet, by simp [SupervisedPhase.remaining]⟩
    | inr hcloser =>
      rw [supervisedPhase_inSession hcloser.1.inSession]
      exact ⟨⟨hfeed.value, hcloser.1, hinterval⟩, hdown.quiet,
        (ENat.add_lt_add_iff_right ENat.one_ne_top).mpr hcloser.2⟩
  · -- the failure that uses up the reconnect budget
    have hfailure : action.isFailure = true := by
      by_contra hno
      exact hsoft (fun h => absurd h hno)
    have hclosing : feed.phase ≠ .closing := fun h => hsoft (fun _ => h)
    obtain ⟨hexhausts, hcycle⟩ := (hok hfailure).resolve_left hclosing
    obtain ⟨hphase, hquiet⟩ := Feed.endSession_exhausted hexhausts endpoint.url
    rw [← Feed.step_failure hfailure hclosing hstep] at hphase hquiet
    have hexhausted : supervisedPhase endpoint after.1 =
        .exhausted endpoint.url (feed.attempts + 1) := by
      simp only [supervisedPhase, hphase]
    rw [hexhausted]
    refine ⟨⟨hfeed.value, hcycle⟩, hquiet, ?_⟩
    calc (1 : ℕ∞) = 0 + 1 := (zero_add 1).symm
      _ < feed.phase.remaining connector endpoint + 1 :=
        (ENat.add_lt_add_iff_right ENat.one_ne_top).mpr hpos

/-- While a refresh is left, the cycle count neither overflows nor exceeds the maximum. -/
theorem refresh_budget {config : SupervisedConfig} {cycle : UInt32}
    (h : cycle.toNat < config.maxRefreshCycles.toNat) :
    cycle ≠ u32Max ∧ ¬ config.maxRefreshCycles < cycle + 1 := by
  have hlt := config.maxRefreshCycles.toNat_lt
  have hne : cycle ≠ u32Max := by
    intro heq
    rw [heq] at h
    have hmax : u32Max.toNat = 2 ^ 32 - 1 := rfl
    omega
  refine ⟨hne, ?_⟩
  rw [UInt32.lt_iff_toNat_lt, toNat_add_one hne]
  omega

/-- After the signal a step of the supervisor starts nothing and comes closer to its return. -/
theorem SupervisedState.step_winding {config : SupervisedConfig} {s s' : SupervisedState M}
    {move : ℕ × SupervisedAction} (h : s.Winding config) (hmove : s.Undisturbed config move)
    (hstep : supervisedStep config connector s move = some s') :
    (s'.Winding config ∧
        ∃ outputs, s'.log = s.log ++ outputs ∧ ∀ output ∈ outputs, output.isStart = false) ∧
      s'.phase.remaining connector < s.phase.remaining connector := by
  rw [supervisedStep_act hmove.quiet] at hstep
  obtain ⟨after, hafter, rfl⟩ := Option.map_eq_some_iff.mp hstep
  obtain ⟨hvalue, hphase⟩ := h
  obtain ⟨dt, action⟩ := move
  cases hs : s.phase with
  | entry | bootstrapping | refreshDue | refreshing | panicked =>
    rw [hs] at hphase; exact hphase.elim
  | returned result =>
    cases action <;> simp only [SupervisedState.act, hs] at hafter <;> cases hafter
  | feeding endpoint feed =>
    rw [hs] at hphase
    cases action with
    | feed action =>
      simp only [SupervisedState.act, hs] at hafter
      obtain ⟨inner, hinner, rfl⟩ := Option.map_eq_some_iff.mp hafter
      obtain ⟨hwinding, hquiet, hlt⟩ := SupervisedState.feed_winding ⟨hphase.1.inSession, hvalue,
        hphase.1.unseen⟩ hphase.2 (hmove.noFailure action endpoint feed rfl hs) hinner
      exact ⟨⟨hwinding, inner.2, rfl, hquiet⟩, hlt⟩
    | _ =>
      simp only [SupervisedState.act, hs] at hafter
      cases hafter
  | exhausted url attempts =>
    rw [hs] at hphase
    cases action with
    | decide =>
      -- the budget is left and the watch holds `true`
      obtain ⟨hne, hle⟩ := refresh_budget hphase
      simp only [SupervisedState.act, hs, if_neg hne, if_neg hle, hvalue, if_true] at hafter
      cases hafter
      exact ⟨⟨⟨hvalue, rfl⟩, [], rfl, by simp⟩, zero_lt_one⟩
    | _ =>
      simp only [SupervisedState.act, hs] at hafter
      cases hafter
  | delaying deadline =>
    rw [hs] at hphase
    cases action with
    | observe =>
      -- the version is one that the receiver has not seen, and the watch holds `true`
      simp only [SupervisedState.act, hs, if_pos hphase, hvalue, if_true] at hafter
      cases hafter
      exact ⟨⟨⟨hvalue, rfl⟩, [], rfl, by simp⟩, zero_lt_one⟩
    | delayOver =>
      -- the select is biased towards the watch
      simp only [SupervisedState.act, hs] at hafter
      rw [if_neg (fun hc => hphase hc.1)] at hafter
      cases hafter
    | _ =>
      simp only [SupervisedState.act, hs] at hafter
      cases hafter

/-- A supervisor that has not returned has a step to take that is not a failure. -/
theorem SupervisedState.Winding.progress {config : SupervisedConfig} {s : SupervisedState M}
    (h : s.Winding config) : s.result = some (.ok ()) ∨ s.result = none ∧
      ∃ move s', s.Undisturbed config move ∧ supervisedStep config connector s move = some s' := by
  obtain ⟨hvalue, hphase⟩ := h
  cases hs : s.phase with
  | entry | bootstrapping | refreshDue | refreshing | panicked =>
    rw [hs] at hphase; exact hphase.elim
  | returned result =>
    rw [hs] at hphase
    exact Or.inl (by rw [SupervisedState.result, hs]; exact congrArg some hphase)
  | feeding endpoint feed =>
    -- the inner call has a step to take
    rw [hs] at hphase
    obtain ⟨action, after, hafter, hfailure⟩ := hphase.1.progress config.runner
      connector endpoint (s.now + 0)
    have hact : s.act config connector (s.now + 0) (.feed action) =
        some (supervisedPhase endpoint after.1, s.cycle, after.2) := by
      simp only [SupervisedState.act, hs, hafter, Option.map_some]
    obtain ⟨s', hstep⟩ := supervisedStep_of_act (0, .feed action) (by simp) hact
    refine Or.inr ⟨by rw [SupervisedState.result, hs], (0, .feed action), s', ⟨by simp, ?_⟩, hstep⟩
    intro action' endpoint' feed' haction _ hfailure'
    cases haction
    simp [hfailure] at hfailure'
  | exhausted url attempts =>
    -- the watch is at `true`, so the supervisor returns where it would refresh
    rw [hs] at hphase
    obtain ⟨hne, hle⟩ := refresh_budget hphase
    have hact : s.act config connector (s.now + 0) .decide =
        some (.returned (.ok ()), s.cycle + 1, []) := by
      simp only [SupervisedState.act, hs, if_neg hne, if_neg hle, hvalue, if_true]
    obtain ⟨s', hstep⟩ := supervisedStep_of_act (0, .decide) (by simp) hact
    exact Or.inr ⟨by rw [SupervisedState.result, hs], (0, .decide), s',
      ⟨by simp, fun _ _ _ haction => by cases haction⟩, hstep⟩
  | delaying deadline =>
    rw [hs] at hphase
    have hact : s.act config connector (s.now + 0) .observe =
        some (.returned (.ok ()), s.cycle, []) := by
      simp only [SupervisedState.act, hs, if_pos hphase, hvalue, if_true]
    obtain ⟨s', hstep⟩ := supervisedStep_of_act (0, .observe) (by simp) hact
    exact Or.inr ⟨by rw [SupervisedState.result, hs], (0, .observe), s',
      ⟨by simp, fun _ _ _ haction => by cases haction⟩, hstep⟩

/-- From a winding state on, `run_feed_supervised` observes the signal. -/
theorem SupervisedState.observesShutdown {config : SupervisedConfig} {s : SupervisedState M}
    (h : s.Winding config) :
    ObservesShutdown connector (supervisedStep config connector)
      (SupervisedState.Undisturbed config) SupervisedState.log SupervisedState.result s :=
  ObservesShutdown.of_measure
    (I := SupervisedState.Winding config) (μ := fun t => t.phase.remaining connector)
    (fun _ _ _ ht hmove hstep => SupervisedState.step_winding ht hmove hstep)
    (fun _ ht => ht.progress) (fun hsteady t => hsteady.supervised_ne_top t.phase) h

end ExchangeApiws.Native.Runner

namespace ExchangeApiws.Spec

open Native.Runner TransitionSystem

variable {M : Type}

/-- A signal that comes in time is observed by `run_feed` and by `run_feed_supervised`: after it
    nothing starts, and the call returns `Ok(())`, in every run in which the caller sends
    nothing more and no failure ends the session. -/
theorem shutdown_observed (connector : Connector M) :
    (∀ (config : WsRunnerConfig) (endpoint : WsFeedEndpoint) (now : ℕ) (watch : Watch) (seen : ℕ)
        (before : List (ℕ × RunAction)) (s t : FeedState M) (dt : ℕ), seen ≤ watch.version →
      run (runFeedStep config connector endpoint) (.start now watch seen) before = some s →
      s.SignalInTime config →
      runFeedStep config connector endpoint s (dt, .send true) = some t →
      ObservesShutdown connector (runFeedStep config connector endpoint) FeedState.Undisturbed
        FeedState.log FeedState.result t) ∧
    ∀ (config : SupervisedConfig) (now : ℕ) (watch : Watch) (seen : ℕ)
        (before : List (ℕ × SupervisedAction)) (s t : SupervisedState M) (dt : ℕ),
      seen ≤ watch.version →
      run (supervisedStep config connector) (.start now watch seen) before = some s →
      s.SignalInTime config →
      supervisedStep config connector s (dt, .send true) = some t →
      ObservesShutdown connector (supervisedStep config connector)
        (SupervisedState.Undisturbed config) SupervisedState.log SupervisedState.result t := by
  constructor
  · -- the new version is above every version that has been seen
    intro config endpoint now watch seen before s t dt hseen hrun htime hsend
    have hle : s.feed.seen ≤ s.watch.version := FeedState.seen_le hrun hseen
    cases hsend
    exact FeedState.observesShutdown htime.interval
      ⟨htime.inSession, rfl, Or.inr (by show s.watch.version + 1 ≠ s.feed.seen; omega)⟩
  · intro config now watch seen before s t dt hseen hrun htime hsend
    have hle : s.SeenLe := SupervisedState.seen_le hrun ⟨hseen, by simp [SupervisedState.start]⟩
    cases hsend
    apply SupervisedState.observesShutdown
    refine ⟨rfl, ?_⟩
    simp only [SupervisedState.SignalInTime] at htime
    cases hs : s.phase with
    | feeding endpoint feed =>
      rw [hs] at htime
      have hinner := hle.inner endpoint feed hs
      exact ⟨⟨htime.1, rfl, Or.inr (by show s.watch.version + 1 ≠ feed.seen; omega)⟩, htime.2⟩
    | exhausted url attempts => rw [hs] at htime; exact htime
    | delaying deadline =>
      have houter := hle.outer
      show s.watch.version + 1 ≠ s.seen
      omega
    | entry | bootstrapping | refreshDue | refreshing | returned | panicked =>
      rw [hs] at htime; exact htime.elim

/-- A connector of a public stream whose server drives the heartbeats. -/
def quietConnector : Connector Unit where
  authMessage := fun _ => none
  pingMessage := fun _ => none
  responseFor := fun _ _ => none
  parseMessage := fun _ _ => .ok []

def exampleEndpoint : WsFeedEndpoint := ⟨"wss://feed", ["subscribe"]⟩

/-- The signal comes while the first connection is being made. -/
theorem shutdown_observed_connecting :
    (∃ t : FeedState Unit,
      run (runFeedStep .default quietConnector exampleEndpoint) (.start 0 ⟨false, 0⟩ 0)
        [(0, .feed .iterate), (0, .send true)] = some t ∧
      ObservesShutdown quietConnector (runFeedStep .default quietConnector exampleEndpoint)
        FeedState.Undisturbed FeedState.log FeedState.result t) ∧
    ∃ t : SupervisedState Unit,
      run (supervisedStep .default quietConnector) (.start 0 ⟨false, 0⟩ 0)
        [(0, .refresh), (0, .refreshed exampleEndpoint), (0, .feed .iterate), (0, .send true)] =
          some t ∧
      ObservesShutdown quietConnector (supervisedStep .default quietConnector)
        (SupervisedState.Undisturbed .default) SupervisedState.log SupervisedState.result t :=
  ⟨⟨_, rfl, (shutdown_observed quietConnector).1 .default exampleEndpoint 0 ⟨false, 0⟩ 0
      [(0, .feed .iterate)] _ _ 0 (Nat.le_refl 0) rfl ⟨rfl, by decide⟩ rfl⟩,
    ⟨_, rfl, (shutdown_observed quietConnector).2 .default 0 ⟨false, 0⟩ 0
      [(0, .refresh), (0, .refreshed exampleEndpoint), (0, .feed .iterate)] _ _ 0 (Nat.le_refl 0)
      rfl ⟨rfl, by decide⟩ rfl⟩⟩

/-- The signal comes during the sleep after a failed connection. -/
theorem not_observed_backoff :
    ¬ ∀ (before after : List (ℕ × RunAction)) (s t s' : FeedState Unit),
      run (runFeedStep .default quietConnector exampleEndpoint) (.start 0 ⟨false, 0⟩ 0) before =
        some s →
      runFeedStep .default quietConnector exampleEndpoint s (0, .send true) = some t →
      run (runFeedStep .default quietConnector exampleEndpoint) t after = some s' →
      (∀ move ∈ after, ∀ value, move.2 ≠ .send value) →
      ∃ outputs, s'.log = t.log ++ outputs ∧ ∀ output ∈ outputs, output.isStart = false := by
  intro h
  -- the first attempt fails, the signal comes in the back-off, which then ends
  obtain ⟨outputs, hlog, hquiet⟩ := h
    [(0, .feed .iterate), (0, .feed .connectFailed), (0, .feed .iterate)]
    [(5000000000, .feed .wake)] _ _ _ rfl rfl rfl (by decide)
  have hconnect : outputs = [.connect "wss://feed"] := (List.append_cancel_left hlog).symm
  rw [hconnect] at hquiet
  exact absurd (hquiet _ (List.mem_singleton.mpr rfl)) (by decide)

end ExchangeApiws.Spec
