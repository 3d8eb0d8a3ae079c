import ExchangeApiws.ForStd.TransitionSystem
import ExchangeApiws.Native.Runner

/-!
# The steps of the feed runner

`Feed.step_move` says once everything a step of `run_feed` can do, by the phase it starts in.
A step either ends the session, and then `afterSession` decides how the loop goes on, or leaves
the reconnect counter alone (`Feed.step_cases`). What holds over whole runs of `run_feed` and
of `run_feed_supervised` is proved from these two, for `run_feed` through `runFeed_invariant`.
-/

namespace ExchangeApiws.Native.Runner

variable {M : Type} {config : WsRunnerConfig} {connector : Connector M}
  {endpoint : WsFeedEndpoint}

/-- Counting up does not wrap below `u32::MAX`. -/
theorem toNat_add_one {n : UInt32} (h : n ≠ u32Max) : (n + 1).toNat = n.toNat + 1 := by
  have hne : n.toNat ≠ 2 ^ 32 - 1 := fun heq => h (UInt32.toNat_inj.mp heq)
  have hlt := n.toNat_lt
  rw [UInt32.toNat_add, UInt32.toNat_one]
  exact Nat.mod_eq_of_lt (by omega)

/-- No `u32` is above the greatest. -/
theorem eq_u32Max_of_le {b : UInt32} (h : u32Max ≤ b) : b = u32Max := by
  have hle := UInt32.le_iff_toNat_le.mp h
  have hlt := b.toNat_lt
  rw [show u32Max.toNat = 2 ^ 32 - 1 from rfl] at hle
  apply UInt32.toNat_inj.mp
  rw [show u32Max.toNat = 2 ^ 32 - 1 from rfl]
  omega

/-- A `u32` below another is not the greatest. -/
theorem ne_u32Max_of_lt {a b : UInt32} (h : a.toNat < b.toNat) : a ≠ u32Max := by
  rintro rfl
  have hlt := b.toNat_lt
  rw [show u32Max.toNat = 2 ^ 32 - 1 from rfl] at h
  omega

/-- The messages of a text frame that is parsed at a time. -/
def Connector.messages (connector : Connector M) (time : ℕ) (text : String) : List M :=
  match connector.parseMessage time text with
  | .ok msgs => msgs
  | .error _ => []

/-! ## Inversion -/

/-- How a session can end: by the phase it ends in and the time, with the outcome and what is
    done just before. -/
inductive Phase.EndsWith (now : ℕ) : Phase M → SessionOutcome → List (Output M) → Prop
  | connectFailed : EndsWith now .connecting .disconnected []
  | authFailed (auth : String) : EndsWith now (.authenticating auth) .disconnected []
  | subscribeFailed (sub : String) (rest : List String) :
      EndsWith now (.subscribing sub rest) .disconnected []
  | responseFailed (text response : String) :
      EndsWith now (.responding text response) .disconnected []
  | pongFailed : EndsWith now .ponging .disconnected []
  | pingFailed (ping : String) : EndsWith now (.pinging ping) .disconnected []
  | idle : EndsWith now .selecting .disconnected []
  | stream {frame : WsFrame} : (∀ text, frame ≠ .text text) →
      EndsWith now .selecting .disconnected [.received now frame]
  | closed : EndsWith now .closing .shutdownRequested [.wroteClose]
  | closeFailed : EndsWith now .closing .shutdownRequested []
  | receiverDropped (msg : M) (rest : List M) :
      EndsWith now (.delivering msg rest) .receiverDropped []

/-- Everything a step of `run_feed` can do. -/
inductive Feed.Move (config : WsRunnerConfig) (connector : Connector M)
    (endpoint : WsFeedEndpoint) (now : ℕ) (watch : Watch) (feed : Feed M) :
    Feed M × List (Output M) → Prop
  | slept (delay : UInt64) (deadline : ℕ) : feed.phase = .loopTop →
      Move config connector endpoint now watch feed
        ({ feed with phase := .backoff deadline }, [.sleep delay])
  | connect : (feed.phase = .loopTop ∨ ∃ deadline, feed.phase = .backoff deadline) →
      Move config connector endpoint now watch feed (feed.connect now endpoint.url)
  | authenticate {auth : String} : feed.phase = .connecting →
      connector.authMessage now = some auth →
      Move config connector endpoint now watch feed
        ({ feed with phase := .authenticating auth }, [])
  | connected : feed.phase = .connecting → connector.authMessage now = none →
      Move config connector endpoint now watch feed
        (feed.subscribe config now endpoint.subscriptions, [])
  | authenticated {auth : String} : feed.phase = .authenticating auth →
      Move config connector endpoint now watch feed
        (feed.subscribe config now endpoint.subscriptions, [.wrote now auth])
  | subscribed {sub : String} {rest : List String} : feed.phase = .subscribing sub rest →
      Move config connector endpoint now watch feed
        (feed.subscribe config now rest, [.wrote now sub])
  | observed (phase : Phase M) : feed.phase = .selecting →
      (phase = .closing ∨ phase = .selecting) →
      Move config connector endpoint now watch feed
        ({ feed with seen := watch.version, phase := phase }, [])
  | text {text : String} : feed.phase = .selecting → connector.responseFor now text = none →
      Move config connector endpoint now watch feed
        (({ feed with lastFrameAt := now }).parse connector now text, [.received now (.text text)])
  | textToAnswer {text response : String} : feed.phase = .selecting →
      connector.responseFor now text = some response →
      Move config connector endpoint now watch feed
        ({ feed with lastFrameAt := now, phase := .responding text response },
          [.received now (.text text)])
  | frame {frame : WsFrame} (phase : Phase M) : feed.phase = .selecting →
      (∀ text, frame ≠ .text text) → (phase = .selecting ∨ phase = .ponging) →
      Move config connector endpoint now watch feed
        ({ feed with lastFrameAt := now, phase := phase }, [.received now frame])
  | pingDue (nextPing : ℕ) (phase : Phase M) : feed.phase = .selecting →
      (phase = .selecting ∨ ∃ ping, phase = .pinging ping) →
      Move config connector endpoint now watch feed
        ({ feed with phase := phase, nextPing := nextPing }, [])
  | replied {text response : String} : feed.phase = .responding text response →
      Move config connector endpoint now watch feed
        (feed.parse connector now text, [.wrote now response])
  | ponged : feed.phase = .ponging →
      Move config connector endpoint now watch feed
        ({ feed with phase := .selecting }, [.wrotePong])
  | pinged {ping : String} : feed.phase = .pinging ping →
      Move config connector endpoint now watch feed
        ({ feed with phase := .selecting }, [.wrote now ping])
  | delivered {msg : M} {rest : List M} : feed.phase = .delivering msg rest →
      Move config connector endpoint now watch feed (feed.deliver rest, [.delivered msg])
  | ended {outcome : SessionOutcome} {outputs : List (Output M)} :
      feed.phase.EndsWith now outcome outputs →
      Move config connector endpoint now watch feed
        ((feed.endSession config endpoint.url now outcome).1,
          outputs ++ (feed.endSession config endpoint.url now outcome).2)

/-- A session that ends without a last output. -/
theorem Feed.Move.ended_nil {feed : Feed M} (now : ℕ) (watch : Watch) {outcome : SessionOutcome}
    (h : feed.phase.EndsWith now outcome []) :
    feed.Move config connector endpoint now watch
      (feed.endSession config endpoint.url now outcome) := by
  have hended : feed.Move config connector endpoint now watch
      ((feed.endSession config endpoint.url now outcome).1,
        [] ++ (feed.endSession config endpoint.url now outcome).2) := .ended h
  exact hended

/-- What a write that succeeds does. -/
theorem Feed.written_move {feed : Feed M} {now : ℕ} (watch : Watch)
    {after : Feed M × List (Output M)}
    (hstep : feed.written config connector endpoint now = some after) :
    feed.Move config connector endpoint now watch after := by
  simp only [Feed.written] at hstep
  -- in order: auth, subscription, response, pong, ping, close frame
  split at hstep
  · rename_i hphase; cases hstep; exact .authenticated hphase
  · rename_i hphase; cases hstep; exact .subscribed hphase
  · rename_i hphase; cases hstep; exact .replied hphase
  · rename_i hphase; cases hstep; exact .ponged hphase
  · rename_i hphase; cases hstep; exact .pinged hphase
  · rename_i hphase
    cases hstep
    -- the close frame goes out before the session ends
    have hended : feed.Move config connector endpoint now watch
        ((feed.endSession config endpoint.url now .shutdownRequested).1,
          [.wroteClose] ++ (feed.endSession config endpoint.url now .shutdownRequested).2) :=
      .ended (hphase ▸ .closed)
    exact hended
  · cases hstep

/-- What a write that fails does. -/
theorem Feed.writeFailed_move {feed : Feed M} {now : ℕ} (watch : Watch)
    {after : Feed M × List (Output M)}
    (hstep : feed.writeFailed config endpoint now = some after) :
    feed.Move config connector endpoint now watch after := by
  simp only [Feed.writeFailed] at hstep
  split at hstep
  · rename_i auth hphase; cases hstep; exact .ended_nil now watch (hphase ▸ .authFailed auth)
  · rename_i sub rest hphase
    cases hstep
    exact .ended_nil now watch (hphase ▸ .subscribeFailed sub rest)
  · rename_i text response hphase
    cases hstep
    exact .ended_nil now watch (hphase ▸ .responseFailed text response)
  · rename_i hphase; cases hstep; exact .ended_nil now watch (hphase ▸ .pongFailed)
  · rename_i ping hphase; cases hstep; exact .ended_nil now watch (hphase ▸ .pingFailed ping)
  · rename_i hphase; cases hstep; exact .ended_nil now watch (hphase ▸ .closeFailed)
  · cases hstep

/-- What an incoming frame does. -/
theorem Feed.receive_move {feed : Feed M} (hphase : feed.phase = .selecting) (now : ℕ)
    (watch : Watch) (frame : WsFrame) :
    feed.Move config connector endpoint now watch
      (feed.receive config connector endpoint now frame) := by
  have hstream : ∀ frame : WsFrame, (∀ text, frame ≠ .text text) →
      feed.Move config connector endpoint now watch
        ((feed.endSession config endpoint.url now .disconnected).1,
          [.received now frame] ++ (feed.endSession config endpoint.url now .disconnected).2) :=
    fun frame hframe => .ended (hphase ▸ .stream hframe)
  cases frame with
  | text text =>
    simp only [Feed.receive]
    split
    · next hresponse => exact .textToAnswer hphase hresponse
    · next hresponse => exact .text hphase hresponse
  | ping => exact .frame .ponging hphase (by simp) (Or.inr rfl)
  | binary | other =>
    simp only [Feed.receive]
    exact .frame feed.phase hphase (by simp) (Or.inl hphase)
  | close => exact hstream .close (by simp)
  | error => exact hstream .error (by simp)
  | endOfStream => exact hstream .endOfStream (by simp)

/-- What a ping that is due does. -/
theorem Feed.pingTick_move {feed : Feed M} (hphase : feed.phase = .selecting) (now : ℕ)
    (watch : Watch) :
    feed.Move config connector endpoint now watch
      (feed.pingTick config connector endpoint now) := by
  rw [Feed.pingTick]
  split
  · exact .ended_nil now watch (hphase ▸ .idle)
  · split
    · next ping hping => exact .pingDue _ (.pinging ping) hphase (Or.inr ⟨ping, rfl⟩)
    · exact .pingDue _ feed.phase hphase (Or.inl hphase)

/-- Every step of the state machine is one of the moves: the guards that let it happen, the next
    phase and the outputs. The invariants of runs are proved by cases on the move. -/
theorem Feed.step_move {feed : Feed M} {watch : Watch} {now : ℕ} {action : FeedAction}
    {after : Feed M × List (Output M)}
    (hstep : feed.step config connector endpoint now watch action = some after) :
    feed.Move config connector endpoint now watch after := by
  -- an action is enabled in one phase, or in two; the guards it passes are those of its move
  cases action with
  | iterate =>
    simp only [Feed.step] at hstep
    split at hstep
    · rename_i hphase
      -- after short sessions the back-off comes before the attempt
      split at hstep
      · cases hstep; exact .slept _ _ hphase
      · cases hstep; exact .connect (Or.inl hphase)
    · cases hstep
  | wake =>
    simp only [Feed.step] at hstep
    split at hstep
    · rename_i deadline hphase
      split at hstep
      · cases hstep; exact .connect (Or.inr ⟨deadline, hphase⟩)
      · cases hstep
    · cases hstep
  | connected =>
    simp only [Feed.step] at hstep
    split at hstep
    · rename_i hphase
      -- a connector without an auth frame goes on with the subscriptions
      split at hstep
      · rename_i auth hauth; cases hstep; exact .authenticate hphase hauth
      · rename_i hauth; cases hstep; exact .connected hphase hauth
    · cases hstep
  | connectFailed =>
    simp only [Feed.step] at hstep
    split at hstep
    · rename_i hphase; cases hstep; exact .ended_nil now watch (hphase ▸ .connectFailed)
    · cases hstep
  | connectTimedOut =>
    simp only [Feed.step] at hstep
    split at hstep
    · rename_i hphase
      -- a timeout ends the session as a refused connection does
      split at hstep
      · cases hstep; exact .ended_nil now watch (hphase ▸ .connectFailed)
      · cases hstep
    · cases hstep
  | written => exact Feed.written_move watch hstep
  | writeFailed => exact Feed.writeFailed_move watch hstep
  | observe =>
    simp only [Feed.step] at hstep
    split at hstep
    · rename_i hphase
      split at hstep
      · cases hstep
        refine .observed _ hphase ?_
        -- `true` closes the connection, `false` goes on
        split
        · exact Or.inl rfl
        · exact Or.inr rfl
      · cases hstep
    · cases hstep
  | receive frame =>
    simp only [Feed.step] at hstep
    split at hstep
    · rename_i hphase
      -- the `select!` is biased: a frame is taken only if the watch has not changed
      split at hstep
      · cases hstep; exact Feed.receive_move hphase now watch frame
      · cases hstep
    · cases hstep
  | pingTick =>
    simp only [Feed.step] at hstep
    split at hstep
    · rename_i hphase
      split at hstep
      · cases hstep; exact Feed.pingTick_move hphase now watch
      · cases hstep
    · cases hstep
  | delivered =>
    simp only [Feed.step] at hstep
    split at hstep
    · rename_i hphase; cases hstep; exact .delivered hphase
    · cases hstep
  | receiverDropped =>
    simp only [Feed.step] at hstep
    split at hstep
    · rename_i msg rest hphase
      cases hstep
      exact .ended_nil now watch (hphase ▸ .receiverDropped msg rest)
    · cases hstep

/-! ## Ends of sessions -/

/-- The output neither reports the end of a session nor emits an event. -/
def Output.isPlain : Output M → Bool
  | .sessionEnd _ | .event _ => false
  | _ => true

/-- The last outputs of a session are plain. -/
theorem Phase.EndsWith.isPlain {now : ℕ} {phase : Phase M} {outcome : SessionOutcome}
    {outputs : List (Output M)} (h : phase.EndsWith now outcome outputs) :
    ∀ output ∈ outputs, output.isPlain = true := by
  cases h <;> simp [Output.isPlain]

/-- The feed goes on without an end of the session. -/
structure Feed.Moved (watch : Watch) (feed feed' : Feed M) : Prop where
  attempts : feed'.attempts = feed.attempts
  seen : feed'.seen = feed.seen ∨ feed'.seen = watch.version
  notReturned : ∀ result, feed'.phase ≠ .returned result

/-- What a step does to the counter, the receiver and the outcome of the call. -/
inductive Feed.Effect (config : WsRunnerConfig) (url : String) (now : ℕ) (watch : Watch)
    (feed : Feed M) : Feed M × List (Output M) → Prop
  | ended (outcome : SessionOutcome) {outputs : List (Output M)} :
      (∀ output ∈ outputs, output.isPlain = true) →
      Effect config url now watch feed ((feed.endSession config url now outcome).1,
        outputs ++ (feed.endSession config url now outcome).2)
  | moved {feed' : Feed M} {outputs : List (Output M)} :
      feed.Moved watch feed' → (∀ output ∈ outputs, output.isPlain = true) →
      Effect config url now watch feed (feed', outputs)

/-- Sending the subscriptions goes on with the session. -/
theorem Feed.subscribe_moved (watch : Watch) (now : ℕ) (subs : List String) (feed : Feed M) :
    feed.Moved watch (feed.subscribe config now subs) := by
  cases subs with
  | nil =>
    simp only [Feed.subscribe, Feed.enterLoop]
    split
    · exact ⟨rfl, Or.inl rfl, nofun⟩
    · exact ⟨rfl, Or.inl rfl, nofun⟩
  | cons sub rest => exact ⟨rfl, Or.inl rfl, nofun⟩

/-- Delivering messages goes on with the session. -/
theorem Feed.deliver_moved (watch : Watch) (msgs : List M) (feed : Feed M) :
    feed.Moved watch (feed.deliver msgs) := by
  cases msgs with
  | nil => exact ⟨rfl, Or.inl rfl, nofun⟩
  | cons msg rest => exact ⟨rfl, Or.inl rfl, nofun⟩

/-- Parsing a frame goes on with the session. -/
theorem Feed.parse_moved (connector : Connector M) (watch : Watch) (now : ℕ) (text : String)
    (feed : Feed M) : feed.Moved watch (feed.parse connector now text) := by
  simp only [Feed.parse]
  split
  · exact Feed.deliver_moved watch _ feed
  · exact ⟨rfl, Or.inl rfl, nofun⟩

/-- Every step ends the session or moves on without an end. -/
theorem Feed.step_cases {feed : Feed M} {watch : Watch} {now : ℕ} {action : FeedAction}
    {after : Feed M × List (Output M)}
    (hstep : feed.step config connector endpoint now watch action = some after) :
    feed.Effect config endpoint.url now watch after := by
  cases Feed.step_move hstep with
  | slept delay deadline hphase =>
    exact .moved ⟨rfl, Or.inl rfl, by simp⟩ (by simp [Output.isPlain])
  | connect hphase =>
    exact .moved ⟨rfl, Or.inl rfl, by simp⟩ (by simp [Output.isPlain])
  | authenticate hphase hauth => exact .moved ⟨rfl, Or.inl rfl, by simp⟩ (by simp)
  | connected hphase hauth => exact .moved (Feed.subscribe_moved ..) (by simp)
  | authenticated hphase | subscribed hphase =>
    exact .moved (Feed.subscribe_moved ..) (by simp [Output.isPlain])
  | observed phase hphase hnext =>
    -- the only step that moves the seen version
    refine .moved ⟨rfl, Or.inr rfl, ?_⟩ (by simp)
    rcases hnext with rfl | rfl <;> simp
  | @text text hphase hresponse =>
    have hmoved := Feed.parse_moved connector watch now text { feed with lastFrameAt := now }
    exact .moved ⟨hmoved.attempts, hmoved.seen, hmoved.notReturned⟩ (by simp [Output.isPlain])
  | textToAnswer hphase hresponse =>
    exact .moved ⟨rfl, Or.inl rfl, by simp⟩ (by simp [Output.isPlain])
  | frame phase hphase hframe hnext =>
    refine .moved ⟨rfl, Or.inl rfl, ?_⟩ (by simp [Output.isPlain])
    rcases hnext with rfl | rfl <;> simp
  | pingDue nextPing phase hphase hnext =>
    refine .moved ⟨rfl, Or.inl rfl, ?_⟩ (by simp)
    rcases hnext with rfl | ⟨ping, rfl⟩ <;> simp
  | replied hphase => exact .moved (Feed.parse_moved ..) (by simp [Output.isPlain])
  | ponged hphase | pinged hphase =>
    exact .moved ⟨rfl, Or.inl rfl, by simp⟩ (by simp [Output.isPlain])
  | delivered hphase => exact .moved (Feed.deliver_moved ..) (by simp [Output.isPlain])
  | ended hends => exact .ended _ hends.isPlain

/-- The end of a session does not look at the watch. -/
@[simp] theorem Feed.endSession_seen (config : WsRunnerConfig) (url : String) (now : ℕ)
    (outcome : SessionOutcome) (feed : Feed M) :
    (feed.endSession config url now outcome).1.seen = feed.seen := by
  simp only [Feed.endSession]
  split <;> rfl

/-- The end of a session reports the session, then the events that `afterSession` emits. -/
theorem Feed.endSession_outputs (config : WsRunnerConfig) (url : String) (now : ℕ)
    (outcome : SessionOutcome) (feed : Feed M) :
    (feed.endSession config url now outcome).2 =
      .sessionEnd ⟨outcome, elapsedSecs feed.sessionStart now⟩ ::
        (afterSession config url feed.attempts
          ⟨outcome, elapsedSecs feed.sessionStart now⟩).1.map .event := rfl

/-- A step leaves the seen version alone, or sets it to the current one. -/
theorem Feed.step_seen {feed : Feed M} {watch : Watch} {now : ℕ} {action : FeedAction}
    {after : Feed M × List (Output M)}
    (hstep : feed.step config connector endpoint now watch action = some after) :
    after.1.seen = feed.seen ∨ after.1.seen = watch.version := by
  cases Feed.step_cases hstep with
  | ended outcome => exact Or.inl (feed.endSession_seen config endpoint.url now outcome)
  | moved hmoved => exact hmoved.seen

/-- A call that has returned, or panicked, makes no step. -/
theorem Feed.step_over {feed : Feed M}
    (h : (∃ result, feed.phase = .returned result) ∨ feed.phase = .panicked) (now : ℕ)
    (watch : Watch) (action : FeedAction) :
    feed.step config connector endpoint now watch action = none := by
  cases h with
  | inl h =>
    obtain ⟨result, hphase⟩ := h
    cases action <;> simp only [Feed.step, Feed.written, Feed.writeFailed, hphase]
  | inr hphase => cases action <;> simp only [Feed.step, Feed.written, Feed.writeFailed, hphase]

/-! ## Runs -/

/-- What every step of the task keeps of the task and its log, a run keeps: a send touches
    neither. -/
theorem runFeed_invariant {I : Feed M → List (Output M) → Prop}
    (hfeed : ∀ (feed : Feed M) (log : List (Output M)) (now : ℕ) (watch : Watch)
      (action : FeedAction) (after : Feed M × List (Output M)), I feed log →
      feed.step config connector endpoint now watch action = some after →
      I after.1 (log ++ after.2))
    {s s' : FeedState M} {moves : List (ℕ × RunAction)}
    (hrun : TransitionSystem.run (runFeedStep config connector endpoint) s moves = some s')
    (hs : I s.feed s.log) : I s'.feed s'.log := by
  apply TransitionSystem.run_invariant (I := fun t : FeedState M => I t.feed t.log) _ _ hrun hs
  intro t move t' ht hstep
  obtain ⟨dt, action⟩ := move
  cases action with
  | send value => cases hstep; exact ht
  | feed action =>
    obtain ⟨after, hafter, rfl⟩ := Option.map_eq_some_iff.mp hstep
    exact hfeed _ _ _ _ _ _ ht hafter

/-- The receiver has not seen a version that has not been sent. -/
theorem FeedState.seen_le {s s' : FeedState M} {moves : List (ℕ × RunAction)}
    (hrun : TransitionSystem.run (runFeedStep config connector endpoint) s moves = some s')
    (hs : s.feed.seen ≤ s.watch.version) : s'.feed.seen ≤ s'.watch.version := by
  apply TransitionSystem.run_invariant
    (I := fun t : FeedState M => t.feed.seen ≤ t.watch.version) _ _ hrun hs
  intro t move t' ht hstep
  obtain ⟨dt, action⟩ := move
  cases action with
  | send value =>
    -- the version of the watch grows, the receiver keeps its own
    cases hstep
    exact Nat.le_succ_of_le ht
  | feed action =>
    obtain ⟨after, hafter, rfl⟩ := Option.map_eq_some_iff.mp hstep
    cases Feed.step_seen hafter with
    | inl hsame => exact hsame ▸ ht
    | inr hsame => exact Nat.le_of_eq hsame

/-- A step of the supervisor that is not a send is an action of the task. -/
theorem supervisedStep_act {config : SupervisedConfig} {s : SupervisedState M}
    {move : ℕ × SupervisedAction} (hquiet : ∀ value, move.2 ≠ .send value) :
    supervisedStep config connector s move =
      (s.act config connector (s.now + move.1) move.2).map fun after =>
        { s with
          now := s.now + move.1
          phase := after.1
          cycle := after.2.1
          log := s.log ++ after.2.2 } := by
  obtain ⟨dt, action⟩ := move
  cases action with
  | send value => exact absurd rfl (hquiet value)
  | _ => rfl

/-- No receiver has seen a version that has not been sent. -/
structure SupervisedState.SeenLe (s : SupervisedState M) : Prop where
  outer : s.seen ≤ s.watch.version
  inner : ∀ endpoint feed, s.phase = .feeding endpoint feed → feed.seen ≤ s.watch.version

/-- An action that the supervisor can take gives a step. -/
theorem supervisedStep_of_act {config : SupervisedConfig} {s : SupervisedState M}
    (move : ℕ × SupervisedAction) (hquiet : ∀ value, move.2 ≠ .send value)
    {after : SupervisedPhase M × UInt32 × List (Output M)}
    (hact : s.act config connector (s.now + move.1) move.2 = some after) :
    ∃ s', supervisedStep config connector s move = some s' := by
  rw [supervisedStep_act hquiet, hact]
  exact ⟨_, Option.map_some _ _⟩

/-- A feed that goes on is left as it is. -/
theorem supervisedPhase_eq_feeding {endpoint endpoint' : WsFeedEndpoint} {feed feed' : Feed M}
    (h : supervisedPhase endpoint feed = .feeding endpoint' feed') : feed' = feed := by
  simp only [supervisedPhase] at h
  split at h
  case h_5 => cases h; rfl
  all_goals cases h

/-- Everything a step of `run_feed_supervised` can do, apart from a send. -/
inductive SupervisedState.Move (config : SupervisedConfig) (connector : Connector M)
    (s : SupervisedState M) (now : ℕ) :
    SupervisedAction → SupervisedPhase M × UInt32 × List (Output M) → Prop
  | fed {endpoint : WsFeedEndpoint} {feed : Feed M} {action : FeedAction}
      {after : Feed M × List (Output M)} : s.phase = .feeding endpoint feed →
      feed.step config.runner connector endpoint now s.watch action = some after →
      Move config connector s now (.feed action)
        (supervisedPhase endpoint after.1, s.cycle, after.2)
  | overflow {url : String} {attempts : UInt32} : s.phase = .exhausted url attempts →
      s.cycle = u32Max → Move config connector s now .decide (.panicked, s.cycle, [])
  | outOfBudget {url : String} {attempts : UInt32} : s.phase = .exhausted url attempts →
      s.cycle ≠ u32Max → config.maxRefreshCycles < s.cycle + 1 →
      Move config connector s now .decide
        (.returned (.error (.wsDisconnected url attempts)), s.cycle + 1,
          [.event (.refreshExhausted (s.cycle + 1))])
  | inBudget {url : String} {attempts : UInt32} (phase : SupervisedPhase M) :
      s.phase = .exhausted url attempts → s.cycle ≠ u32Max →
      ¬ config.maxRefreshCycles < s.cycle + 1 →
      (phase = .returned (.ok ()) ∨ ∃ deadline, phase = .delaying deadline) →
      Move config connector s now .decide (phase, s.cycle + 1, [])
  | observed {deadline : ℕ} (phase : SupervisedPhase M) : s.phase = .delaying deadline →
      (phase = .returned (.ok ()) ∨ phase = .refreshDue) →
      Move config connector s now .observe (phase, s.cycle, [])
  | delayOver {deadline : ℕ} : s.phase = .delaying deadline →
      Move config connector s now .delayOver (.refreshDue, s.cycle, [])
  | bootstrap : s.phase = .entry →
      Move config connector s now .refresh (.bootstrapping, s.cycle, [.refresh])
  | refresh : s.phase = .refreshDue →
      Move config connector s now .refresh
        (.refreshing, s.cycle, [.event (.tokenRefresh s.cycle), .refresh])
  | refreshed (endpoint : WsFeedEndpoint) : (s.phase = .bootstrapping ∨ s.phase = .refreshing) →
      Move config connector s now (.refreshed endpoint)
        (.feeding endpoint (.start s.seen), s.cycle, [])
  | refreshFailed (error : ExchangeError) :
      (s.phase = .bootstrapping ∨ s.phase = .refreshing) →
      Move config connector s now (.refreshFailed error) (.returned (.error error), s.cycle, [])

/-- Every action of the supervisor that is enabled is one of its moves. -/
theorem SupervisedState.act_move {config : SupervisedConfig} {s : SupervisedState M} {now : ℕ}
    {action : SupervisedAction} {after : SupervisedPhase M × UInt32 × List (Output M)}
    (hafter : s.act config connector now action = some after) :
    s.Move config connector now action after := by
  cases action with
  | send value => cases hafter
  | feed action =>
    simp only [SupervisedState.act] at hafter
    split at hafter
    · rename_i endpoint feed hphase
      obtain ⟨inner, hinner, rfl⟩ := Option.map_eq_some_iff.mp hafter
      exact .fed hphase hinner
    · cases hafter
  | decide =>
    simp only [SupervisedState.act] at hafter
    split at hafter
    · rename_i url attempts hphase
      split at hafter
      · rename_i hmax
        cases hafter
        exact .overflow hphase hmax
      · rename_i hmax
        split at hafter
        · rename_i hbudget
          cases hafter
          exact .outOfBudget hphase hmax hbudget
        · rename_i hbudget
          -- the shutdown flag is read before the delay
          split at hafter
          · cases hafter
            exact .inBudget _ hphase hmax hbudget (Or.inl rfl)
          · cases hafter
            exact .inBudget _ hphase hmax hbudget (Or.inr ⟨_, rfl⟩)
    · cases hafter
  | observe =>
    simp only [SupervisedState.act] at hafter
    split at hafter
    · rename_i deadline hphase
      split at hafter
      · cases hafter
        refine .observed _ hphase ?_
        split
        · exact Or.inl rfl
        · exact Or.inr rfl
      · cases hafter
    · cases hafter
  | delayOver =>
    simp only [SupervisedState.act] at hafter
    split at hafter
    · rename_i deadline hphase
      split at hafter
      · cases hafter
        exact .delayOver hphase
      · cases hafter
    · cases hafter
  | refresh =>
    simp only [SupervisedState.act] at hafter
    split at hafter
    · rename_i hphase
      cases hafter
      exact .bootstrap hphase
    · rename_i hphase
      cases hafter
      exact .refresh hphase
    · cases hafter
  | refreshed endpoint =>
    simp only [SupervisedState.act] at hafter
    split at hafter
    · rename_i hphase
      cases hafter
      exact .refreshed endpoint (Or.inl hphase)
    · rename_i hphase
      cases hafter
      exact .refreshed endpoint (Or.inr hphase)
    · cases hafter
  | refreshFailed error =>
    simp only [SupervisedState.act] at hafter
    split at hafter
    · rename_i hphase
      cases hafter
      exact .refreshFailed error (Or.inl hphase)
    · rename_i hphase
      cases hafter
      exact .refreshFailed error (Or.inr hphase)
    · cases hafter

/-- The inner `run_feed` is one that has just started or one that has moved. -/
theorem SupervisedState.act_feeding {config : SupervisedConfig} {s : SupervisedState M} {now : ℕ}
    {action : SupervisedAction} {after : SupervisedPhase M × UInt32 × List (Output M)}
    (hafter : s.act config connector now action = some after) {feed : Feed M}
    (hphase : after.1 = .feeding endpoint feed) :
    feed = .start s.seen ∨ ∃ endpoint' feed' action' inner, s.phase = .feeding endpoint' feed' ∧
      feed'.step config.runner connector endpoint' now s.watch action' = some inner ∧
      feed = inner.1 := by
  cases SupervisedState.act_move hafter with
  | @fed endpoint' feed' action' inner hs hinner =>
    exact Or.inr ⟨endpoint', feed', action', inner, hs, hinner, supervisedPhase_eq_feeding hphase⟩
  | refreshed endpoint' hs =>
    cases hphase
    exact Or.inl rfl
  | inBudget phase hs hmax hbudget hnext =>
    rcases hnext with rfl | ⟨deadline, rfl⟩ <;> cases hphase
  | observed phase hs hnext =>
    rcases hnext with rfl | rfl <;> cases hphase
  | overflow | outOfBudget | delayOver | bootstrap | refresh | refreshFailed => cases hphase

/-- Neither the receiver of the supervisor nor that of the inner call runs ahead. -/
theorem SupervisedState.seen_le {config : SupervisedConfig} {s s' : SupervisedState M}
    {moves : List (ℕ × SupervisedAction)}
    (hrun : TransitionSystem.run (supervisedStep config connector) s moves = some s')
    (hs : s.SeenLe) : s'.SeenLe := by
  apply TransitionSystem.run_invariant (I := SupervisedState.SeenLe) _ _ hrun hs
  intro t move t' ht hstep
  by_cases hsend : ∃ value, move.2 = .send value
  · obtain ⟨dt, action⟩ := move
    obtain ⟨value, rfl⟩ := hsend
    cases hstep
    exact ⟨Nat.le_succ_of_le ht.outer, fun endpoint feed h => Nat.le_succ_of_le (ht.inner _ _ h)⟩
  · rw [supervisedStep_act (fun value h => hsend ⟨value, h⟩)] at hstep
    obtain ⟨after, hafter, rfl⟩ := Option.map_eq_some_iff.mp hstep
    refine ⟨ht.outer, fun endpoint feed hphase => ?_⟩
    cases SupervisedState.act_feeding hafter hphase with
    | inl hstart =>
      -- a new inner call gets a clone of the outer receiver
      rw [hstart]
      exact ht.outer
    | inr hinner =>
      obtain ⟨endpoint', feed', action', inner, hs', hinner, rfl⟩ := hinner
      cases Feed.step_seen hinner with
      | inl hsame => rw [hsame]; exact ht.inner endpoint' feed' hs'
      | inr hsame => exact Nat.le_of_eq hsame

end ExchangeApiws.Native.Runner
