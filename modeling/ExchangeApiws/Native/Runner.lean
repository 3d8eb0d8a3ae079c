import ExchangeApiws.Native.Error

/-!
# WebSocket feed runner

Translation of `src/ws/runner.rs`: `run_feed` with its sessions, and `run_feed_supervised`
around it. A state machine takes one step at each await point: what runs between two awaits
is one step, except that a step reads the shutdown watch at most once and that every place
where another task can send on the watch with a different effect lies between two steps.
The environment decides how each await ends and how long it takes. The clock counts
nanoseconds. The rate-limit guard only delays a write, so its wait is part of the write.
-/

namespace ExchangeApiws.Native.Runner

/-- Notable transitions emitted by the runner. -/
inductive RunnerEvent where
  | sessionEnded (attempt : UInt32) (uptimeSecs : UInt64) (cascadeStart : Bool)
  | reconnectsExhausted (attempts : UInt32)
  | tokenRefresh (cycle : UInt32)
  | refreshExhausted (cycles : UInt32)
  deriving DecidableEq, Repr

/-! ## Configuration -/

/-- Tuning parameters for the WS runner. -/
structure WsRunnerConfig where
  pingIntervalSecs : UInt64
  reconnectDelaySecs : UInt64
  maxReconnectDelaySecs : UInt64
  maxReconnectAttempts : UInt32
  connectTimeoutSecs : UInt64
  idleTimeoutSecs : UInt64
  deriving DecidableEq, Repr

def WsRunnerConfig.default : WsRunnerConfig where
  pingIntervalSecs := 20
  reconnectDelaySecs := 5
  maxReconnectDelaySecs := 30
  maxReconnectAttempts := 5
  connectTimeoutSecs := 10
  idleTimeoutSecs := 60

def WsRunnerConfig.fromPingInterval (pingIntervalSecs : UInt64) : WsRunnerConfig :=
  { WsRunnerConfig.default with pingIntervalSecs := pingIntervalSecs }

/-- Tuning parameters for `run_feed_supervised`. -/
structure SupervisedConfig where
  runner : WsRunnerConfig
  maxRefreshCycles : UInt32
  refreshDelaySecs : UInt64
  deriving DecidableEq, Repr

/-- `u32::MAX`. -/
def u32Max : UInt32 := 4294967295

def SupervisedConfig.default : SupervisedConfig where
  runner := { WsRunnerConfig.default with maxReconnectAttempts := 3 }
  maxRefreshCycles := u32Max
  refreshDelaySecs := 5

def SupervisedConfig.fromRunner (runner : WsRunnerConfig) : SupervisedConfig where
  runner :=
    if runner.maxReconnectAttempts = WsRunnerConfig.default.maxReconnectAttempts then
      { runner with maxReconnectAttempts := 3 }
    else runner
  maxRefreshCycles := u32Max
  refreshDelaySecs := 5

/-! ## After a session -/

inductive SessionOutcome where
  | shutdownRequested
  | receiverDropped
  | disconnected
  deriving DecidableEq, Repr

/-- A session that ran at least this long is considered stable. -/
def STABLE_SESSION_SECS : UInt64 := 60

/-- A session that ended within this many seconds is treated as a cascade indicator. -/
def CASCADE_DETECT_SECS : UInt64 := 5

def isCascadeStart (attempt : UInt32) (uptimeSecs : UInt64) : Bool :=
  attempt = 0 && uptimeSecs < CASCADE_DETECT_SECS

/-- `u64::saturating_mul`. -/
def saturatingMul (a b : UInt64) : UInt64 :=
  UInt64.ofNat (min (a.toNat * b.toNat) (2 ^ 64 - 1))

/-- The sleep before the next attempt; `attempts` is positive. -/
def backoffDelay (config : WsRunnerConfig) (attempts : UInt32) : UInt64 :=
  let exp := min (attempts - 1) 63
  min (saturatingMul config.reconnectDelaySecs (1 <<< (min exp 4).toUInt64))
    config.maxReconnectDelaySecs

/-- A session that has ended: how, and its whole seconds since the connection attempt began. -/
structure Session where
  outcome : SessionOutcome
  uptimeSecs : UInt64
  deriving DecidableEq, Repr

/-- How `run_feed` goes on after a session. -/
inductive AfterSession where
  | again (attempts : UInt32)
  | returned (result : Result Unit)
  /-- `attempts += 1` overflows. -/
  | overflow
  deriving DecidableEq

/-- The `match outcome` of `run_feed`: the events it emits and how it goes on. -/
def afterSession (config : WsRunnerConfig) (url : String) (attempts : UInt32) (session : Session) :
    List RunnerEvent × AfterSession :=
  match session.outcome with
  | .shutdownRequested => ([], .returned (.ok ()))
  | .receiverDropped => ([], .returned (.ok ()))
  | .disconnected =>
    let ended := RunnerEvent.sessionEnded attempts session.uptimeSecs
      (isCascadeStart attempts session.uptimeSecs)
    if STABLE_SESSION_SECS ≤ session.uptimeSecs then ([ended], .again 0)
    else if attempts = u32Max then ([ended], .overflow)
    else if config.maxReconnectAttempts < attempts + 1 then
      ([ended, .reconnectsExhausted (attempts + 1)],
        .returned (.error (.wsDisconnected url (attempts + 1))))
    else ([ended], .again (attempts + 1))

/-- What `run_feed` has done over a list of sessions. -/
structure FeedRun where
  events : List RunnerEvent
  /-- The sessions that have run. -/
  sessions : List Session
  /-- `none` when it goes on after the last session of the list. -/
  ending : Option AfterSession
  deriving DecidableEq

/-- The loop of `run_feed`, given what its sessions come to. -/
def runSessions (config : WsRunnerConfig) (url : String) (attempts : UInt32) :
    List Session → FeedRun
  | [] => ⟨[], [], none⟩
  | session :: rest =>
    match afterSession config url attempts session with
    | (events, .again attempts) =>
      let later := runSessions config url attempts rest
      ⟨events ++ later.events, session :: later.sessions, later.ending⟩
    | (events, ending) => ⟨events, [session], some ending⟩

/-! ## What the runner works with -/

/-- What the runner calls of a connector. Every call may read the clock, so what it gives
    depends on the time of the call. -/
structure Connector (M : Type) where
  authMessage : ℕ → Option String
  pingMessage : ℕ → Option String
  responseFor : ℕ → String → Option String
  parseMessage : ℕ → String → Result (List M)

structure WsFeedEndpoint where
  url : String
  subscriptions : List String
  deriving DecidableEq, Repr

/-- What the read half of the socket yields. -/
inductive WsFrame where
  | text (text : String)
  | ping
  | close
  | binary
  | other
  | error
  | endOfStream
  deriving DecidableEq, Repr

/-- What a run does, as seen from outside. Frames come in and texts go out at a time. -/
inductive Output (M : Type) where
  | sleep (secs : UInt64)
  /-- A connection attempt begins. -/
  | connect (url : String)
  | wrote (time : ℕ) (text : String)
  | wrotePong
  | wroteClose
  | received (time : ℕ) (frame : WsFrame)
  | delivered (msg : M)
  | sessionEnd (session : Session)
  | event (event : RunnerEvent)
  /-- A call of the refresh closure begins. -/
  | refresh
  deriving DecidableEq

/-- The shutdown watch. -/
structure Watch where
  value : Bool
  version : ℕ
  deriving DecidableEq, Repr

def Watch.send (watch : Watch) (value : Bool) : Watch := ⟨value, watch.version + 1⟩

/-- Whole seconds from `since` to `now`. -/
def elapsedSecs (since now : ℕ) : UInt64 := UInt64.ofNat ((now - since) / 1000000000)

/-- `Duration::from_secs`, in nanoseconds. -/
def nanos (secs : UInt64) : ℕ := 1000000000 * secs.toNat

/-! ## run_feed -/

/-- Where `run_feed` stands. -/
inductive Phase (M : Type) where
  /-- At the head of the loop. -/
  | loopTop
  /-- In the sleep before a reconnect. -/
  | backoff (deadline : ℕ)
  | connecting
  | authenticating (auth : String)
  | subscribing (sub : String) (rest : List String)
  /-- In the `select!` of the recv loop. -/
  | selecting
  /-- Writing the close frame after the shutdown signal. -/
  | closing
  | responding (text response : String)
  | delivering (msg : M) (rest : List M)
  | ponging
  | pinging (ping : String)
  | returned (result : Result Unit)
  | panicked

structure Feed (M : Type) where
  phase : Phase M
  attempts : UInt32
  /-- The version of the watch that the receiver has seen. -/
  seen : ℕ
  sessionStart : ℕ
  subscribedAt : ℕ
  lastFrameAt : ℕ
  nextPing : ℕ

variable {M : Type}

/-- A call of `run_feed` with a receiver that has seen version `seen`. -/
def Feed.start (seen : ℕ) : Feed M where
  phase := .loopTop
  attempts := 0
  seen := seen
  sessionStart := 0
  subscribedAt := 0
  lastFrameAt := 0
  nextPing := 0

/-- `single_session` returns, and `run_feed` goes on from there. -/
def Feed.endSession (config : WsRunnerConfig) (url : String) (now : ℕ) (outcome : SessionOutcome)
    (feed : Feed M) : Feed M × List (Output M) :=
  let session : Session := ⟨outcome, elapsedSecs feed.sessionStart now⟩
  let after := afterSession config url feed.attempts session
  let feed := match after.2 with
    | .again attempts => { feed with attempts := attempts, phase := .loopTop }
    | .returned result => { feed with phase := .returned result }
    | .overflow => { feed with phase := .panicked }
  (feed, .sessionEnd session :: after.1.map .event)

/-- All subscriptions are out; `interval` panics on a zero period. -/
def Feed.enterLoop (config : WsRunnerConfig) (now : ℕ) (feed : Feed M) : Feed M :=
  if config.pingIntervalSecs = 0 then { feed with phase := .panicked }
  else { feed with
    phase := .selecting
    subscribedAt := now
    lastFrameAt := now
    -- the first tick is immediate and discarded
    nextPing := now + nanos config.pingIntervalSecs }

def Feed.subscribe (config : WsRunnerConfig) (now : ℕ) (subs : List String) (feed : Feed M) :
    Feed M :=
  match subs with
  | [] => feed.enterLoop config now
  | sub :: rest => { feed with phase := .subscribing sub rest }

/-- Deliver messages one by one, then go back to the `select!`. -/
def Feed.deliver (msgs : List M) (feed : Feed M) : Feed M :=
  match msgs with
  | [] => { feed with phase := .selecting }
  | msg :: rest => { feed with phase := .delivering msg rest }

/-- A frame that does not parse is skipped. -/
def Feed.parse (connector : Connector M) (now : ℕ) (text : String) (feed : Feed M) : Feed M :=
  match connector.parseMessage now text with
  | .ok msgs => feed.deliver msgs
  | .error _ => { feed with phase := .selecting }

inductive FeedAction where
  /-- Run the head of the loop. -/
  | iterate
  /-- The back-off sleep is over. -/
  | wake
  | connected
  | connectFailed
  | connectTimedOut
  | written
  | writeFailed
  /-- The shutdown watch has changed. -/
  | observe
  | receive (frame : WsFrame)
  | pingTick
  | delivered
  | receiverDropped
  deriving DecidableEq, Repr

/-- A connection attempt begins. -/
def Feed.connect (now : ℕ) (url : String) (feed : Feed M) : Feed M × List (Output M) :=
  ({ feed with phase := .connecting, sessionStart := now }, [.connect url])

/-- The write of the current phase has succeeded. -/
def Feed.written (config : WsRunnerConfig) (connector : Connector M) (endpoint : WsFeedEndpoint)
    (now : ℕ) (feed : Feed M) : Option (Feed M × List (Output M)) :=
  match feed.phase with
  | .authenticating auth =>
    some (feed.subscribe config now endpoint.subscriptions, [.wrote now auth])
  | .subscribing sub rest => some (feed.subscribe config now rest, [.wrote now sub])
  -- a frame with a reply is parsed once the reply is out
  | .responding text response => some (feed.parse connector now text, [.wrote now response])
  | .ponging => some ({ feed with phase := .selecting }, [.wrotePong])
  | .pinging ping => some ({ feed with phase := .selecting }, [.wrote now ping])
  | .closing =>
    let ended := feed.endSession config endpoint.url now .shutdownRequested
    some (ended.1, .wroteClose :: ended.2)
  | _ => none

/-- The write of the current phase has failed. -/
def Feed.writeFailed (config : WsRunnerConfig) (endpoint : WsFeedEndpoint) (now : ℕ)
    (feed : Feed M) : Option (Feed M × List (Output M)) :=
  match feed.phase with
  | .authenticating _ | .subscribing _ _ | .responding _ _ | .ponging | .pinging _ =>
    some (feed.endSession config endpoint.url now .disconnected)
  -- the result of the close frame is ignored
  | .closing => some (feed.endSession config endpoint.url now .shutdownRequested)
  | _ => none

/-- A frame has come in. -/
def Feed.receive (config : WsRunnerConfig) (connector : Connector M) (endpoint : WsFeedEndpoint)
    (now : ℕ) (frame : WsFrame) (feed : Feed M) : Feed M × List (Output M) :=
  match frame with
  | .text text =>
    let feed := { feed with lastFrameAt := now }
    match connector.responseFor now text with
    | some response => ({ feed with phase := .responding text response }, [.received now frame])
    | none => (feed.parse connector now text, [.received now frame])
  | .ping => ({ feed with lastFrameAt := now, phase := .ponging }, [.received now frame])
  | .binary | .other => ({ feed with lastFrameAt := now }, [.received now frame])
  | .close | .error | .endOfStream =>
    let ended := feed.endSession config endpoint.url now .disconnected
    (ended.1, .received now frame :: ended.2)

/-- The ping timer has ticked. -/
def Feed.pingTick (config : WsRunnerConfig) (connector : Connector M) (endpoint : WsFeedEndpoint)
    (now : ℕ) (feed : Feed M) : Feed M × List (Output M) :=
  if 0 < config.idleTimeoutSecs ∧ nanos config.idleTimeoutSecs ≤ now - feed.lastFrameAt then
    feed.endSession config endpoint.url now .disconnected
  else
    let nextPing := feed.nextPing + nanos config.pingIntervalSecs
    match connector.pingMessage now with
    | some ping => ({ feed with phase := .pinging ping, nextPing := nextPing }, [])
    | none => ({ feed with nextPing := nextPing }, [])

/-- One step of `run_feed` at time `now`; `none` when the action is not enabled. -/
def Feed.step (config : WsRunnerConfig) (connector : Connector M) (endpoint : WsFeedEndpoint)
    (now : ℕ) (watch : Watch) (feed : Feed M) : FeedAction → Option (Feed M × List (Output M))
  | .iterate =>
    match feed.phase with
    | .loopTop =>
      if 0 < feed.attempts then
        let delay := backoffDelay config feed.attempts
        some ({ feed with phase := .backoff (now + nanos delay) }, [.sleep delay])
      else some (feed.connect now endpoint.url)
    | _ => none
  | .wake =>
    match feed.phase with
    | .backoff deadline => if deadline ≤ now then some (feed.connect now endpoint.url) else none
    | _ => none
  | .connected =>
    match feed.phase with
    | .connecting =>
      match connector.authMessage now with
      | some auth => some ({ feed with phase := .authenticating auth }, [])
      | none => some (feed.subscribe config now endpoint.subscriptions, [])
    | _ => none
  | .connectFailed =>
    match feed.phase with
    | .connecting => some (feed.endSession config endpoint.url now .disconnected)
    | _ => none
  | .connectTimedOut =>
    match feed.phase with
    | .connecting =>
      if feed.sessionStart + nanos config.connectTimeoutSecs ≤ now then
        some (feed.endSession config endpoint.url now .disconnected)
      else none
    | _ => none
  | .written => feed.written config connector endpoint now
  | .writeFailed => feed.writeFailed config endpoint now
  | .observe =>
    match feed.phase with
    | .selecting =>
      if watch.version ≠ feed.seen then
        some ({ feed with
          seen := watch.version
          phase := if watch.value then .closing else .selecting }, [])
      else none
    | _ => none
  | .receive frame =>
    match feed.phase with
    | .selecting =>
      -- the select is biased: a changed watch comes first
      if watch.version = feed.seen then some (feed.receive config connector endpoint now frame)
      else none
    | _ => none
  | .pingTick =>
    match feed.phase with
    | .selecting =>
      if watch.version = feed.seen ∧ feed.nextPing ≤ now then
        some (feed.pingTick config connector endpoint now)
      else none
    | _ => none
  | .delivered =>
    match feed.phase with
    | .delivering msg rest => some (feed.deliver rest, [.delivered msg])
    | _ => none
  | .receiverDropped =>
    match feed.phase with
    | .delivering _ _ => some (feed.endSession config endpoint.url now .receiverDropped)
    | _ => none

/-- A run of `run_feed`: the clock, the watch, the task and what it has done. -/
structure FeedState (M : Type) where
  now : ℕ
  watch : Watch
  feed : Feed M
  log : List (Output M)

/-- `run_feed` is called with a receiver that has seen version `seen`. -/
def FeedState.start (now : ℕ) (watch : Watch) (seen : ℕ) : FeedState M :=
  ⟨now, watch, .start seen, []⟩

inductive RunAction where
  /-- The caller sends on the shutdown watch. -/
  | send (value : Bool)
  | feed (action : FeedAction)
  deriving DecidableEq, Repr

/-- A step, some time after the one before. -/
def runFeedStep (config : WsRunnerConfig) (connector : Connector M) (endpoint : WsFeedEndpoint)
    (s : FeedState M) (move : ℕ × RunAction) : Option (FeedState M) :=
  let now := s.now + move.1
  match move.2 with
  | .send value => some { s with now := now, watch := s.watch.send value }
  | .feed action => (s.feed.step config connector endpoint now s.watch action).map fun after =>
    { s with now := now, feed := after.1, log := s.log ++ after.2 }

/-! ## run_feed_supervised -/

/-- Where `run_feed_supervised` stands. -/
inductive SupervisedPhase (M : Type) where
  | entry
  /-- In the first call of the refresh closure. -/
  | bootstrapping
  /-- In the inner `run_feed`. -/
  | feeding (endpoint : WsFeedEndpoint) (feed : Feed M)
  /-- The inner `run_feed` has returned `WsDisconnected`. -/
  | exhausted (url : String) (attempts : UInt32)
  /-- In the `select!` between the shutdown watch and the refresh delay. -/
  | delaying (deadline : ℕ)
  | refreshDue
  | refreshing
  | returned (result : Result Unit)
  | panicked

structure SupervisedState (M : Type) where
  now : ℕ
  watch : Watch
  /-- The version that the receiver passed to the call has seen; only its clones move on. -/
  seen : ℕ
  cycle : UInt32
  phase : SupervisedPhase M
  log : List (Output M)

def SupervisedState.start (now : ℕ) (watch : Watch) (seen : ℕ) : SupervisedState M :=
  ⟨now, watch, seen, 0, .entry, []⟩

inductive SupervisedAction where
  | send (value : Bool)
  | feed (action : FeedAction)
  /-- Count the exhausted cycle and look at the watch. -/
  | decide
  /-- The shutdown watch has changed during the refresh delay. -/
  | observe
  | delayOver
  | refresh
  | refreshed (endpoint : WsFeedEndpoint)
  | refreshFailed (error : ExchangeError)

/-- What the supervisor does when the inner `run_feed` has moved. -/
def supervisedPhase (endpoint : WsFeedEndpoint) (feed : Feed M) : SupervisedPhase M :=
  match feed.phase with
  | .returned (.ok ()) => .returned (.ok ())
  | .returned (.error (.wsDisconnected url attempts)) => .exhausted url attempts
  | .returned (.error error) => .returned (.error error)
  | .panicked => .panicked
  | _ => .feeding endpoint feed

/-- One step of `run_feed_supervised` at time `now`: the phase, the cycle and what is done. -/
def SupervisedState.act (config : SupervisedConfig) (connector : Connector M)
    (s : SupervisedState M) (now : ℕ) :
    SupervisedAction → Option (SupervisedPhase M × UInt32 × List (Output M))
  | .send _ => none
  | .feed action =>
    match s.phase with
    | .feeding endpoint feed =>
      (feed.step config.runner connector endpoint now s.watch action).map fun after =>
        (supervisedPhase endpoint after.1, s.cycle, after.2)
    | _ => none
  | .decide =>
    match s.phase with
    | .exhausted url attempts =>
      if s.cycle = u32Max then some (.panicked, s.cycle, [])
      else if config.maxRefreshCycles < s.cycle + 1 then
        some (.returned (.error (.wsDisconnected url attempts)), s.cycle + 1,
          [.event (.refreshExhausted (s.cycle + 1))])
      else if s.watch.value then some (.returned (.ok ()), s.cycle + 1, [])
      else some (.delaying (now + nanos config.refreshDelaySecs), s.cycle + 1, [])
    | _ => none
  | .observe =>
    match s.phase with
    | .delaying _ =>
      if s.watch.version ≠ s.seen then
        -- a notification ends the delay, whatever its value
        some (if s.watch.value then .returned (.ok ()) else .refreshDue, s.cycle, [])
      else none
    | _ => none
  | .delayOver =>
    match s.phase with
    | .delaying deadline =>
      if s.watch.version = s.seen ∧ deadline ≤ now then some (.refreshDue, s.cycle, []) else none
    | _ => none
  | .refresh =>
    match s.phase with
    | .entry => some (.bootstrapping, s.cycle, [.refresh])
    | .refreshDue => some (.refreshing, s.cycle, [.event (.tokenRefresh s.cycle), .refresh])
    | _ => none
  | .refreshed endpoint =>
    match s.phase with
    | .bootstrapping | .refreshing => some (.feeding endpoint (.start s.seen), s.cycle, [])
    | _ => none
  | .refreshFailed error =>
    match s.phase with
    | .bootstrapping | .refreshing => some (.returned (.error error), s.cycle, [])
    | _ => none

/-- A step, some time after the one before. -/
def supervisedStep (config : SupervisedConfig) (connector : Connector M) (s : SupervisedState M)
    (move : ℕ × SupervisedAction) : Option (SupervisedState M) :=
  let now := s.now + move.1
  match move.2 with
  | .send value => some { s with now := now, watch := s.watch.send value }
  | action => (s.act config connector now action).map fun after =>
    { s with now := now, phase := after.1, cycle := after.2.1, log := s.log ++ after.2.2 }

end ExchangeApiws.Native.Runner
