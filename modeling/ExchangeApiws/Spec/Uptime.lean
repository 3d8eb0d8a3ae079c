import ExchangeApiws.Spec.FeedTrace

/-!
# Uptime of a session

A session has two clocks: `run_feed` reads one before the connection is made, and the recv loop
reads one after all subscriptions are out. The `SessionEnded` event and the reset of the
reconnect counter go by the first, the close log lines by the second. This file says which
sessions end with the same whole seconds on both.

## Key results

- `SessionTimes.uptime_eq_iff`: when the two clocks agree
- `sessionEndedEvents_eq`: the events of a run, from the times of its sessions
- `reports_recvLoop_iff`: every event and every reset of a run goes by the recv loop, exactly
  when the clocks agree at every end of a session
-/

namespace ExchangeApiws.Native.Runner

variable {M : Type} {config : WsRunnerConfig} {connector : Connector M}
  {endpoint : WsFeedEndpoint}

/-! ## The times of a session -/

/-- `Duration::as_secs` of a number of nanoseconds. -/
def wholeSecs (time : ℕ) : UInt64 := UInt64.ofNat (time / 1000000000)

/-- A session that has ended: when it began to connect, when it entered its recv loop, if it
    did, and when it ended. -/
structure SessionTimes where
  outcome : SessionOutcome
  /-- The reconnect counter that it ran under. -/
  attempt : UInt32
  connectAt : ℕ
  loopAt : Option ℕ
  endAt : ℕ
  /-- `run_feed` goes on with the counter at zero. -/
  resets : Bool
  deriving DecidableEq, Repr

namespace SessionTimes

/-- The whole seconds that the recv loop was active. -/
def recvSecs (session : SessionTimes) : UInt64 :=
  match session.loopAt with
  | none => 0
  | some loopAt => elapsedSecs loopAt session.endAt

/-- The time before the recv loop, and what the recv loop was active beyond whole seconds. -/
def lead (session : SessionTimes) : ℕ :=
  match session.loopAt with
  | none => session.endAt - session.connectAt
  | some loopAt => (loopAt - session.connectAt) + (session.endAt - loopAt) % 1000000000

/-- The event and the close log line that go by the recv loop. -/
def recvEvent (session : SessionTimes) : RunnerEvent :=
  .sessionEnded session.attempt session.recvSecs
    (decide (session.attempt = 0 ∧ session.recvSecs < 5))

/-- The whole seconds since the connection attempt began. -/
def uptimeSecs (session : SessionTimes) : UInt64 := elapsedSecs session.connectAt session.endAt

/-- The event that `run_feed` emits. -/
def event (session : SessionTimes) : RunnerEvent :=
  .sessionEnded session.attempt session.uptimeSecs
    (isCascadeStart session.attempt session.uptimeSecs)

/-- The times of a session come one after the other. -/
structure Ordered (session : SessionTimes) : Prop where
  connectAt_le : ∀ loopAt, session.loopAt = some loopAt → session.connectAt ≤ loopAt
  loopAt_le : ∀ loopAt, session.loopAt = some loopAt → loopAt ≤ session.endAt

end SessionTimes

/-- A sum wraps to its first part exactly if the second part wraps to zero. -/
theorem ofNat_add_eq_left_iff (b c : ℕ) :
    UInt64.ofNat (b + c) = UInt64.ofNat b ↔ UInt64.ofNat c = 0 := by
  rw [← UInt64.toNat_inj, ← UInt64.toNat_inj, UInt64.toNat_ofNat', UInt64.toNat_ofNat',
    UInt64.toNat_ofNat', UInt64.toNat_zero]
  omega

/-- The two clocks give the same whole seconds exactly when the lead is under a second. -/
theorem SessionTimes.uptime_eq_iff {session : SessionTimes} (h : session.Ordered) :
    session.uptimeSecs = session.recvSecs ↔ wholeSecs session.lead = 0 := by
  unfold uptimeSecs recvSecs lead wholeSecs elapsedSecs
  cases hloop : session.loopAt with
  | none => exact Iff.rfl
  | some loopAt =>
    have hconnect := h.connectAt_le loopAt hloop
    have hend := h.loopAt_le loopAt hloop
    -- the whole time is the loop's whole seconds, and the lead with the loop's fraction
    have hsplit : (session.endAt - session.connectAt) / 1000000000 =
        (session.endAt - loopAt) / 1000000000 +
          ((loopAt - session.connectAt) + (session.endAt - loopAt) % 1000000000) / 1000000000 := by
      omega
    simp only
    rw [hsplit]
    exact ofNat_add_eq_left_iff _ _

/-- A cascade starts with a first session of less than five seconds. -/
theorem isCascadeStart_eq (attempt : UInt32) (uptimeSecs : UInt64) :
    isCascadeStart attempt uptimeSecs = decide (attempt = 0 ∧ uptimeSecs < 5) := by
  rw [Bool.decide_and]
  rfl

/-- The event goes by the recv loop exactly when the clocks agree. -/
theorem SessionTimes.event_eq_iff {session : SessionTimes} (h : session.Ordered) :
    session.event = session.recvEvent ↔ wholeSecs session.lead = 0 := by
  rw [← uptime_eq_iff h]
  constructor
  · intro heq
    exact (RunnerEvent.sessionEnded.inj heq).2.1
  · intro heq
    rw [event, recvEvent, heq, isCascadeStart_eq]

/-! ## The sessions of a run -/

/-- The session that a step of a run ends, if it ends one. -/
def endedSession (s t : FeedState M) : Option SessionTimes :=
  ((t.log.drop s.log.length).findSome? fun
    | .sessionEnd session => some session.outcome
    | _ => none).map fun outcome =>
    { outcome := outcome
      attempt := s.feed.attempts
      connectAt := s.feed.sessionStart
      loopAt := if s.feed.phase.inLoop then some s.feed.subscribedAt else none
      endAt := t.now
      resets :=
        match t.feed.phase with
        | .loopTop => t.feed.attempts = 0
        | _ => false }

/-- The sessions that a run ends, in order. -/
def sessionTimes (config : WsRunnerConfig) (connector : Connector M) (endpoint : WsFeedEndpoint) :
    FeedState M → List (ℕ × RunAction) → List SessionTimes
  | _, [] => []
  | s, move :: moves =>
    match runFeedStep config connector endpoint s move with
    | none => []
    | some t => (endedSession s t).toList ++ sessionTimes config connector endpoint t moves

/-- The sessions that end as `Disconnected`. -/
def disconnects (sessions : List SessionTimes) : List SessionTimes :=
  sessions.filter fun session => session.outcome = .disconnected

/-- The `SessionEnded` events, in order. -/
def sessionEndedEvents (log : List (Output M)) : List RunnerEvent :=
  log.filterMap fun
    | .event (.sessionEnded attempt uptimeSecs cascadeStart) =>
      some (.sessionEnded attempt uptimeSecs cascadeStart)
    | _ => none

/-- The events of a longer log. -/
theorem sessionEndedEvents_append (log outputs : List (Output M)) :
    sessionEndedEvents (log ++ outputs) =
      sessionEndedEvents log ++ sessionEndedEvents outputs := List.filterMap_append

/-- Plain outputs are no events. -/
theorem sessionEndedEvents_plain {outputs : List (Output M)}
    (h : ∀ output ∈ outputs, output.isPlain = true) : sessionEndedEvents outputs = [] := by
  rw [sessionEndedEvents, List.filterMap_eq_nil_iff]
  intro output hmem
  have hplain := h output hmem
  -- an event is not plain, and nothing else counts
  cases output with
  | event event => simp [Output.isPlain] at hplain
  | _ => rfl

/-- The outcome of a session among plain outputs. -/
theorem findSome?_outcome {outputs : List (Output M)} (session : Session)
    (events : List (Output M)) (h : ∀ output ∈ outputs, output.isPlain = true) :
    (outputs ++ .sessionEnd session :: events).findSome? (fun
      | .sessionEnd session => some session.outcome
      | _ => none) = some session.outcome := by
  induction outputs with
  | nil => rfl
  | cons output outputs ih =>
    have hplain := h output List.mem_cons_self
    have hrest := ih fun o ho => h o (List.mem_cons_of_mem output ho)
    cases output with
    | sessionEnd session => simp [Output.isPlain] at hplain
    | _ => exact hrest

/-- No session ends in plain outputs. -/
theorem findSome?_plain {outputs : List (Output M)}
    (h : ∀ output ∈ outputs, output.isPlain = true) :
    outputs.findSome? (fun
      | .sessionEnd session => some session.outcome
      | _ => none) = none := by
  rw [List.findSome?_eq_none_iff]
  intro output hmem
  have hplain := h output hmem
  cases output with
  | sessionEnd session => simp [Output.isPlain] at hplain
  | _ => rfl

/-- What the end of a `Disconnected` session is reported as, and when it resets the counter. -/
theorem Feed.endSession_disconnected (config : WsRunnerConfig) (url : String) (now : ℕ)
    (feed : Feed M) :
    sessionEndedEvents (feed.endSession config url now .disconnected).2 =
        [.sessionEnded feed.attempts (elapsedSecs feed.sessionStart now)
          (isCascadeStart feed.attempts (elapsedSecs feed.sessionStart now))] ∧
      (((feed.endSession config url now .disconnected).1.phase = .loopTop ∧
          (feed.endSession config url now .disconnected).1.attempts = 0) ↔
        60 ≤ elapsedSecs feed.sessionStart now) := by
  have hstable : STABLE_SESSION_SECS = 60 := rfl
  unfold Feed.endSession afterSession
  simp only [hstable]
  by_cases hlong : 60 ≤ elapsedSecs feed.sessionStart now
  · simp [hlong, sessionEndedEvents]
  · by_cases hmax : feed.attempts = u32Max
    · simp [hlong, hmax, sessionEndedEvents]
    · -- the counter goes up, and not to zero
      have hne : feed.attempts + 1 ≠ 0 := by
        intro heq
        have hsucc := toNat_add_one hmax
        rw [heq] at hsucc
        simp at hsucc
      by_cases hover : config.maxReconnectAttempts < feed.attempts + 1
      · simp [hlong, hmax, hover, sessionEndedEvents]
      · simp [hlong, hmax, hover, sessionEndedEvents, hne]

/-- A session that ends otherwise has no such event. -/
theorem Feed.endSession_other (config : WsRunnerConfig) (url : String) (now : ℕ)
    (feed : Feed M) {outcome : SessionOutcome} (h : outcome ≠ .disconnected) :
    sessionEndedEvents (feed.endSession config url now outcome).2 = [] := by
  cases outcome with
  | disconnected => exact absurd rfl h
  | shutdownRequested | receiverDropped => rfl

/-- What a step reports of the session it ends. -/
theorem runFeedStep_ended {s t : FeedState M} {move : ℕ × RunAction}
    (hstep : runFeedStep config connector endpoint s move = some t) :
    sessionEndedEvents t.log = sessionEndedEvents s.log ++
        (disconnects (endedSession s t).toList).map SessionTimes.event ∧
      ∀ session ∈ disconnects (endedSession s t).toList,
        session.resets = true ↔ 60 ≤ session.uptimeSecs := by
  obtain ⟨dt, action⟩ := move
  cases action with
  | send value =>
    cases hstep
    have hnone : endedSession s { s with now := s.now + dt, watch := s.watch.send value } =
        none := by
      simp [endedSession]
    rw [hnone]
    exact ⟨(List.append_nil _).symm, by simp [disconnects]⟩
  | feed action =>
    obtain ⟨after, hafter, rfl⟩ := Option.map_eq_some_iff.mp hstep
    cases Feed.step_cases hafter with
    | moved hmoved hplain =>
      simp only [endedSession, List.drop_left, findSome?_plain hplain, sessionEndedEvents_append,
        sessionEndedEvents_plain hplain, Option.map_none]
      exact ⟨rfl, by simp [disconnects]⟩
    | @ended outcome outputs hplain =>
      -- the outputs before the end are plain, so the first session end is this one
      have houtcome := findSome?_outcome
        ⟨outcome, elapsedSecs s.feed.sessionStart (s.now + dt)⟩
        ((afterSession config endpoint.url s.feed.attempts
          ⟨outcome, elapsedSecs s.feed.sessionStart (s.now + dt)⟩).1.map .event) hplain
      rw [← Feed.endSession_outputs] at houtcome
      simp only [endedSession, List.drop_left, houtcome, sessionEndedEvents_append,
        sessionEndedEvents_plain hplain, Option.map_some, Option.toList_some, List.nil_append]
      -- only a disconnect is reported
      by_cases hdisconnected : outcome = .disconnected
      · subst hdisconnected
        obtain ⟨hevents, hresets⟩ := s.feed.endSession_disconnected config endpoint.url (s.now + dt)
        refine ⟨by rw [hevents]; rfl, ?_⟩
        intro session hmem
        obtain rfl := List.mem_singleton.mp (List.mem_of_mem_filter hmem)
        show _ ↔ 60 ≤ elapsedSecs s.feed.sessionStart (s.now + dt)
        rw [← hresets]
        cases (s.feed.endSession config endpoint.url (s.now + dt) .disconnected).1.phase <;> simp
      · rw [Feed.endSession_other config endpoint.url (s.now + dt) s.feed hdisconnected]
        have hnil : ∀ session : SessionTimes, session.outcome = outcome →
            disconnects [session] = [] := by
          rintro session rfl
          simp [disconnects, hdisconnected]
        rw [hnil _ rfl]
        exact ⟨rfl, by simp⟩

/-! ## Order of the times -/

/-- The clock of a session runs forward. -/
structure Feed.Timed (feed : Feed M) (now : ℕ) : Prop where
  inLoop : feed.phase.inLoop = true →
    feed.sessionStart ≤ feed.subscribedAt ∧ feed.subscribedAt ≤ now
  beforeLoop : feed.phase.beforeLoop = true → feed.sessionStart ≤ now

namespace Feed.Timed

variable {feed : Feed M} {now : ℕ}

/-- Outside a session there is nothing to time. -/
theorem idle (hin : feed.phase.inLoop = false) (hbefore : feed.phase.beforeLoop = false) :
    feed.Timed now := by
  constructor
  · intro h
    rw [hin] at h
    cases h
  · intro h
    rw [hbefore] at h
    cases h

/-- Before the recv loop only the start counts. -/
theorem of_beforeLoop (hin : feed.phase.inLoop = false) (h : feed.sessionStart ≤ now) :
    feed.Timed now := by
  refine ⟨fun hloop => ?_, fun _ => h⟩
  rw [hin] at hloop
  cases hloop

/-- In the recv loop the start and the subscription count. -/
theorem of_inLoop (hbefore : feed.phase.beforeLoop = false)
    (h : feed.sessionStart ≤ feed.subscribedAt ∧ feed.subscribedAt ≤ now) : feed.Timed now := by
  refine ⟨fun _ => h, fun hphase => ?_⟩
  rw [hbefore] at hphase
  cases hphase

/-- The times stay in order while time goes on. -/
theorem later (h : feed.Timed now) (dt : ℕ) : feed.Timed (now + dt) :=
  ⟨fun hin => ⟨(h.inLoop hin).1, Nat.le_add_right_of_le (h.inLoop hin).2⟩,
    fun hbefore => Nat.le_add_right_of_le (h.beforeLoop hbefore)⟩

end Feed.Timed

/-- Parsing a frame leaves the times of the session alone. -/
theorem Feed.parse_timed {feed : Feed M} {now : ℕ} (connector : Connector M) (text : String)
    (h : feed.sessionStart ≤ feed.subscribedAt ∧ feed.subscribedAt ≤ now) :
    (feed.parse connector now text).Timed now := by
  unfold Feed.parse
  cases connector.parseMessage now text with
  | error e => exact .of_inLoop rfl h
  | ok msgs => cases msgs <;> exact .of_inLoop rfl h

/-- The recv loop is entered at the time of the step that writes the last subscription. -/
theorem Feed.subscribe_timed {feed : Feed M} {now : ℕ} (subs : List String)
    (h : feed.sessionStart ≤ now) : (feed.subscribe config now subs).Timed now := by
  cases subs with
  -- a ping interval of zero panics, and otherwise the loop is entered
  | nil =>
    simp only [Feed.subscribe, Feed.enterLoop]
    split
    · exact .idle rfl rfl
    -- the recv loop begins at this step
    · exact .of_inLoop rfl ⟨h, Nat.le_refl now⟩
  | cons sub rest => exact .of_beforeLoop rfl h

/-- Every move keeps the times of the session in order. -/
theorem Feed.Move.timed {feed : Feed M} {watch : Watch} {now : ℕ}
    {after : Feed M × List (Output M)} (h : feed.Timed now)
    (hmove : feed.Move config connector endpoint now watch after) : after.1.Timed now := by
  cases hmove with
  -- up to the loop only the connect has its time, and from the loop on both are set
  | slept => exact .idle rfl rfl
  | connect => exact .of_beforeLoop rfl (Nat.le_refl now)
  | authenticate hphase => exact .of_beforeLoop rfl (h.beforeLoop (by rw [hphase]; rfl))
  | connected hphase => exact Feed.subscribe_timed _ (h.beforeLoop (by rw [hphase]; rfl))
  | authenticated hphase | subscribed hphase =>
    exact Feed.subscribe_timed _ (h.beforeLoop (by rw [hphase]; rfl))
  | observed phase hphase hnext | frame phase hphase _ hnext =>
    have hin := h.inLoop (by rw [hphase]; rfl)
    rcases hnext with rfl | rfl
    · exact .of_inLoop rfl hin
    · exact .of_inLoop rfl hin
  | pingDue nextPing phase hphase hnext =>
    have hin := h.inLoop (by rw [hphase]; rfl)
    rcases hnext with rfl | ⟨ping, rfl⟩
    · exact .of_inLoop rfl hin
    · exact .of_inLoop rfl hin
  | text hphase =>
    have hin := h.inLoop (by rw [hphase]; rfl)
    exact Feed.parse_timed connector _ hin
  | replied hphase => exact Feed.parse_timed connector _ (h.inLoop (by rw [hphase]; rfl))
  | textToAnswer hphase => exact .of_inLoop rfl (h.inLoop (by rw [hphase]; rfl))
  | ponged hphase | pinged hphase => exact .of_inLoop rfl (h.inLoop (by rw [hphase]; rfl))
  | @delivered msg rest hphase =>
    have hin := h.inLoop (by rw [hphase]; rfl)
    cases rest with
    | nil => exact .of_inLoop rfl hin
    | cons msg rest => exact .of_inLoop rfl hin
  | @ended outcome outputs hends =>
    rcases feed.endSession_phase config endpoint.url now outcome with hidle | ⟨_, hidle⟩ | hidle
    all_goals exact .idle (by rw [hidle]; rfl) (by rw [hidle]; rfl)

/-- Every step of `run_feed` does, and time does not run back. -/
theorem runFeedStep_timed {s t : FeedState M} {move : ℕ × RunAction} (h : s.feed.Timed s.now)
    (hstep : runFeedStep config connector endpoint s move = some t) :
    t.feed.Timed t.now ∧ s.now ≤ t.now := by
  obtain ⟨dt, action⟩ := move
  cases action with
  | send value =>
    cases hstep
    exact ⟨h.later dt, Nat.le_add_right _ _⟩
  | feed action =>
    obtain ⟨after, hafter, rfl⟩ := Option.map_eq_some_iff.mp hstep
    exact ⟨(Feed.step_move hafter).timed (h.later dt), Nat.le_add_right _ _⟩

/-- The times of a session that a step ends are in order. -/
theorem endedSession_ordered {s t : FeedState M} (h : s.feed.Timed s.now) (hnow : s.now ≤ t.now)
    {session : SessionTimes} (hended : endedSession s t = some session) : session.Ordered := by
  obtain ⟨outcome, _, rfl⟩ := Option.map_eq_some_iff.mp hended
  by_cases hloop : s.feed.phase.inLoop = true
  · obtain ⟨hstart, hend⟩ := h.inLoop hloop
    constructor
    · rintro loopAt heq
      simp only [hloop, if_true, Option.some_inj] at heq
      exact heq ▸ hstart
    · rintro loopAt heq
      simp only [hloop, if_true, Option.some_inj] at heq
      exact heq ▸ Nat.le_trans hend hnow
  · constructor <;> intro loopAt heq <;> simp [hloop] at heq

/-! ## Runs -/

/-- Over a run: the events, the resets and the order of the times of the sessions it ends. -/
theorem sessionEndedEvents_eq {s s' : FeedState M} {moves : List (ℕ × RunAction)}
    (hrun : TransitionSystem.run (runFeedStep config connector endpoint) s moves = some s')
    (h : s.feed.Timed s.now) :
    sessionEndedEvents s'.log = sessionEndedEvents s.log ++
        (disconnects (sessionTimes config connector endpoint s moves)).map SessionTimes.event ∧
      (∀ session ∈ disconnects (sessionTimes config connector endpoint s moves),
        session.resets = true ↔ 60 ≤ session.uptimeSecs) ∧
      ∀ session ∈ sessionTimes config connector endpoint s moves, session.Ordered := by
  induction moves generalizing s with
  | nil =>
    cases hrun
    exact ⟨(List.append_nil _).symm, by simp [sessionTimes, disconnects], by simp [sessionTimes]⟩
  | cons move moves ih =>
    obtain ⟨t, ht, hrest⟩ := (TransitionSystem.run_cons_eq_some _).mp hrun
    obtain ⟨htimed, hnow⟩ := runFeedStep_timed h ht
    obtain ⟨hevents, hresets, hordered⟩ := ih hrest htimed
    obtain ⟨hevents', hresets'⟩ := runFeedStep_ended ht
    -- the session that the first step ends, if any, comes before those of the other steps
    have hsessions : sessionTimes config connector endpoint s (move :: moves) =
        (endedSession s t).toList ++ sessionTimes config connector endpoint t moves := by
      simp only [sessionTimes, ht]
    have hdisconnects : disconnects (sessionTimes config connector endpoint s (move :: moves)) =
        disconnects (endedSession s t).toList ++
          disconnects (sessionTimes config connector endpoint t moves) := by
      rw [hsessions, disconnects, List.filter_append]
      rfl
    refine ⟨?_, ?_, ?_⟩
    · rw [hevents, hevents', hdisconnects, List.map_append, List.append_assoc]
    · intro session hmem
      rw [hdisconnects, List.mem_append] at hmem
      rcases hmem with hmem | hmem
      · exact hresets' session hmem
      · exact hresets session hmem
    · intro session hmem
      rw [hsessions, List.mem_append, Option.mem_toList] at hmem
      rcases hmem with hmem | hmem
      · exact endedSession_ordered h hnow hmem
      · exact hordered session hmem

end ExchangeApiws.Native.Runner

namespace ExchangeApiws.Spec

open Native Native.Runner TransitionSystem

/-- For every run of `run_feed` and all durations of its sessions: the `SessionEnded` events
    report the whole seconds of the recv loops, and the counter is reset only after a recv loop
    of a minute, exactly when at every disconnect the time before the recv loop, with what the
    loop was active beyond whole seconds, is under a second. -/
theorem reports_recvLoop_iff {M : Type} (config : WsRunnerConfig) (connector : Connector M)
    (endpoint : WsFeedEndpoint) (now : ℕ) (watch : Watch) (seen : ℕ)
    (moves : List (ℕ × RunAction)) (s : FeedState M)
    (hrun : run (runFeedStep config connector endpoint) (.start now watch seen) moves = some s) :
    (sessionEndedEvents s.log =
        (disconnects (sessionTimes config connector endpoint (.start now watch seen) moves)).map
          SessionTimes.recvEvent ∧
      ∀ session ∈
          disconnects (sessionTimes config connector endpoint (.start now watch seen) moves),
        session.resets = true → 60 ≤ session.recvSecs) ↔
      ∀ session ∈
          disconnects (sessionTimes config connector endpoint (.start now watch seen) moves),
        wholeSecs session.lead = 0 := by
  have htimed : (Feed.start (M := M) seen).Timed now := .idle rfl rfl
  obtain ⟨hevents, hresets, hordered⟩ := sessionEndedEvents_eq hrun htimed
  have hordered : ∀ session ∈
      disconnects (sessionTimes config connector endpoint (.start now watch seen) moves),
      session.Ordered := fun session hmem => hordered session (List.mem_of_mem_filter hmem)
  have hstart : sessionEndedEvents (FeedState.start (M := M) now watch seen).log = [] := rfl
  rw [hevents, hstart, List.nil_append, List.map_inj_left]
  constructor
  -- the events alone force the clocks to agree
  · rintro ⟨hreport, _⟩ session hmem
    exact (SessionTimes.event_eq_iff (hordered session hmem)).mp (hreport session hmem)
  · intro hlead
    refine ⟨fun session hmem => ?_, fun session hmem hreset => ?_⟩
    · exact (SessionTimes.event_eq_iff (hordered session hmem)).mpr (hlead session hmem)
    -- a reset goes by the time since the connection attempt, which is then that of the loop
    · rw [← (SessionTimes.uptime_eq_iff (hordered session hmem)).mpr (hlead session hmem)]
      exact (hresets session hmem).mp hreset

/-- A public stream of trades, with one subscription. -/
def tradeConnector : Connector Unit where
  authMessage _ := none
  pingMessage _ := none
  responseFor _ _ := none
  parseMessage _ _ := .ok [()]

def tradeEndpoint : WsFeedEndpoint := ⟨"wss://trades", ["subscribe"]⟩

/-- One session on the default configuration: `connectTime` until the socket is open,
    `loopTime` from the subscription until the server closes the stream. -/
def closedSession (connectTime loopTime : ℕ) : List (ℕ × RunAction) :=
  [(0, .feed .iterate), (connectTime, .feed .connected), (0, .feed .written),
    (loopTime, .feed (.receive .close))]

/-- A connection in 0.2 s, a recv loop of 70.3 s: both clocks read 70 s. -/
theorem reports_recvLoop_iff_fast :
    ∃ s, run (runFeedStep .default tradeConnector tradeEndpoint) (.start 0 ⟨false, 0⟩ 0)
        (closedSession 200000000 70300000000) = some s ∧
      sessionEndedEvents s.log = [.sessionEnded 0 70 false] ∧
      ∀ session ∈ disconnects (sessionTimes .default tradeConnector tradeEndpoint
          (.start 0 ⟨false, 0⟩ 0) (closedSession 200000000 70300000000)),
        session.resets = true → 60 ≤ session.recvSecs :=
  ⟨_, rfl, rfl, ((reports_recvLoop_iff .default tradeConnector tradeEndpoint 0 ⟨false, 0⟩ 0
    (closedSession 200000000 70300000000) _ rfl).mpr (by decide)).2⟩

/-- The connection opens in 4 s and the recv loop lasts 2 s; the next one, after the back-off,
    opens in 8 s and lasts 55 s. -/
def slowMoves : List (ℕ × RunAction) :=
  closedSession 4000000000 2000000000 ++
    [(0, .feed .iterate), (5000000000, .feed .wake), (8000000000, .feed .connected),
      (0, .feed .written), (55000000000, .feed (.receive .close))]

/-- The first session is reported as 6 s and no cascade, and the second resets the counter. -/
theorem not_always_reports_recvLoop :
    (¬ ∀ (moves : List (ℕ × RunAction)) (s : FeedState Unit),
      run (runFeedStep .default tradeConnector tradeEndpoint) (.start 0 ⟨false, 0⟩ 0) moves =
        some s →
      sessionEndedEvents s.log = (disconnects (sessionTimes .default tradeConnector tradeEndpoint
        (.start 0 ⟨false, 0⟩ 0) moves)).map SessionTimes.recvEvent) ∧
    ¬ ∀ (moves : List (ℕ × RunAction)) (s : FeedState Unit),
      run (runFeedStep .default tradeConnector tradeEndpoint) (.start 0 ⟨false, 0⟩ 0) moves =
        some s →
      ∀ session ∈ disconnects (sessionTimes .default tradeConnector tradeEndpoint
          (.start 0 ⟨false, 0⟩ 0) moves),
        session.resets = true → 60 ≤ session.recvSecs := by
  have hreported : (run (runFeedStep .default tradeConnector tradeEndpoint)
      (.start 0 ⟨false, 0⟩ 0) slowMoves).map (fun s => sessionEndedEvents s.log) =
        some [.sessionEnded 0 6 false, .sessionEnded 1 63 false] := by decide
  have hactive : (disconnects (sessionTimes .default tradeConnector tradeEndpoint
      (.start 0 ⟨false, 0⟩ 0) slowMoves)).map SessionTimes.recvEvent =
        [.sessionEnded 0 2 true, .sessionEnded 1 55 false] := by decide
  obtain ⟨s, hrun, hevents⟩ := Option.map_eq_some_iff.mp hreported
  constructor
  · intro h
    have heq := h slowMoves s hrun
    rw [hevents, hactive] at heq
    revert heq
    decide
  · intro h
    exact absurd (h slowMoves s hrun) (by decide)

end ExchangeApiws.Spec
