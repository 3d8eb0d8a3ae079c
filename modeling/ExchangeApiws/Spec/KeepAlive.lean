import ExchangeApiws.ForStd.Interleave
import ExchangeApiws.Spec.FeedTrace

/-!
# Keep-alive of a feed

The ping timer of a session ticks once per ping interval, late ticks included, and every tick
first looks for an idle connection. So what a session writes beyond its greeting is the replies
it owes and at most one ping per ping interval, and a connection that goes silent is dropped
within the idle timeout, one ping interval and the lateness of the timer.

## Key results

- `Feed.step_clock`: everything a step can do to the clocks of a session
- `Feed.Move.writes`: one step keeps the texts of a session at replies and paced pings
- `session_writes`: what a session writes, over whole runs
- `silent_session_is_dropped`: how long a silent connection can last
-/

namespace ExchangeApiws.Native.Runner

variable {M : Type} {config : WsRunnerConfig} {connector : Connector M}
  {endpoint : WsFeedEndpoint}

/-! ## The clocks of a session -/

/-- What a step does to the clocks of a session that is in its recv loop afterwards. -/
inductive Feed.Clock (config : WsRunnerConfig) (connector : Connector M) (now : ℕ)
    (feed after : Feed M) : Prop
  /-- The recv loop is entered. -/
  | entered : feed.phase.beforeLoop = true → after.subscribedAt = now → after.lastFrameAt = now →
      after.nextPing = now + nanos config.pingIntervalSecs → after.phase = .selecting →
      Clock config connector now feed after
  /-- The timer ticks on a connection that is not idle. -/
  | ticked : feed.phase = .selecting → feed.nextPing ≤ now →
      (0 < config.idleTimeoutSecs → now < feed.lastFrameAt + nanos config.idleTimeoutSecs) →
      after.subscribedAt = feed.subscribedAt → after.lastFrameAt = feed.lastFrameAt →
      after.nextPing = feed.nextPing + nanos config.pingIntervalSecs →
      (∀ ping, after.phase = .pinging ping → connector.pingMessage now = some ping) →
      Clock config connector now feed after
  /-- A frame comes in. -/
  | heard : feed.phase = .selecting → after.subscribedAt = feed.subscribedAt →
      after.lastFrameAt = now → after.nextPing = feed.nextPing →
      (∀ ping, after.phase ≠ .pinging ping) → Clock config connector now feed after
  | kept : feed.phase.inLoop = true → after.subscribedAt = feed.subscribedAt →
      after.lastFrameAt = feed.lastFrameAt → after.nextPing = feed.nextPing →
      (∀ ping, after.phase ≠ .pinging ping) → Clock config connector now feed after

/-- No session is in the recv loop once it has ended. -/
theorem Feed.endSession_not_inLoop (config : WsRunnerConfig) (url : String) (now : ℕ)
    (outcome : SessionOutcome) (feed : Feed M) :
    (feed.endSession config url now outcome).1.phase.inLoop = false := by
  rcases feed.endSession_phase config url now outcome with h | ⟨result, h⟩ | h <;> rw [h] <;> rfl

/-- Sending the rest of the greeting reaches the recv loop only by entering it. -/
theorem Feed.subscribe_clock (now : ℕ) (subs : List String) {feed : Feed M}
    (hphase : feed.phase.beforeLoop = true)
    (hloop : (feed.subscribe config now subs).phase.inLoop = true) :
    feed.Clock config connector now (feed.subscribe config now subs) := by
  cases subs with
  | nil =>
    simp only [Feed.subscribe, Feed.enterLoop] at hloop ⊢
    split at hloop
    · cases hloop
    · rename_i hzero
      rw [if_neg hzero]
      exact .entered hphase rfl rfl rfl rfl
  | cons sub rest => cases hloop

/-- Delivering keeps the clocks and starts no ping. -/
theorem Feed.deliver_clock (msgs : List M) (feed : Feed M) :
    (feed.deliver msgs).subscribedAt = feed.subscribedAt ∧
      (feed.deliver msgs).lastFrameAt = feed.lastFrameAt ∧
      (feed.deliver msgs).nextPing = feed.nextPing ∧
      ∀ ping, (feed.deliver msgs).phase ≠ .pinging ping := by
  cases msgs with
  | nil => exact ⟨rfl, rfl, rfl, fun _ h => by cases h⟩
  | cons msg rest => exact ⟨rfl, rfl, rfl, fun _ h => by cases h⟩

/-- So does parsing a frame. -/
theorem Feed.parse_clock (connector : Connector M) (now : ℕ) (text : String) (feed : Feed M) :
    (feed.parse connector now text).subscribedAt = feed.subscribedAt ∧
      (feed.parse connector now text).lastFrameAt = feed.lastFrameAt ∧
      (feed.parse connector now text).nextPing = feed.nextPing ∧
      ∀ ping, (feed.parse connector now text).phase ≠ .pinging ping := by
  rw [Feed.parse]
  split
  · exact Feed.deliver_clock _ feed
  · exact ⟨rfl, rfl, rfl, fun _ h => by cases h⟩

/-- An incoming frame leaves the ping timer alone and is the last frame. -/
theorem Feed.receive_clock {feed : Feed M} (hphase : feed.phase = .selecting) (now : ℕ)
    (frame : WsFrame)
    (hloop : (feed.receive config connector endpoint now frame).1.phase.inLoop = true) :
    feed.Clock config connector now (feed.receive config connector endpoint now frame).1 := by
  have hended := feed.endSession_not_inLoop config endpoint.url now .disconnected
  cases frame with
  | text text =>
    simp only [Feed.receive]
    split
    · exact .heard hphase rfl rfl rfl fun _ h => by cases h
    · obtain ⟨hsubscribed, hframe, hping, hphase'⟩ :=
        Feed.parse_clock connector now text { feed with lastFrameAt := now }
      exact .heard hphase hsubscribed hframe hping hphase'
  | ping => exact .heard hphase rfl rfl rfl fun _ h => by cases h
  | binary | other =>
    refine .heard hphase rfl rfl rfl fun ping hping => ?_
    have hselecting : feed.phase = .pinging ping := hping
    rw [hphase] at hselecting
    cases hselecting
  | close | error | endOfStream => exact absurd hloop (by simp [Feed.receive, hended])

/-- A ping that is due moves the timer on by one period. -/
theorem Feed.pingTick_clock {feed : Feed M} (hphase : feed.phase = .selecting) {now : ℕ}
    (hdue : feed.nextPing ≤ now)
    (hloop : (feed.pingTick config connector endpoint now).1.phase.inLoop = true) :
    feed.Clock config connector now (feed.pingTick config connector endpoint now).1 := by
  rw [Feed.pingTick] at hloop ⊢
  split at hloop
  · exact absurd hloop (by simp [feed.endSession_not_inLoop])
  · rename_i hidle
    rw [if_neg hidle]
    have halive : 0 < config.idleTimeoutSecs →
        now < feed.lastFrameAt + nanos config.idleTimeoutSecs := by
      intro hpos
      have hlt : now - feed.lastFrameAt < nanos config.idleTimeoutSecs := by
        rw [not_and, Nat.not_le] at hidle
        exact hidle hpos
      omega
    cases hping : connector.pingMessage now with
    | some ping =>
      refine .ticked hphase hdue halive rfl rfl rfl fun ping' heq => ?_
      cases heq
      exact hping
    | none =>
      refine .ticked hphase hdue halive rfl rfl rfl fun ping' heq => ?_
      have hselecting : feed.phase = .pinging ping' := heq
      rw [hphase] at hselecting
      cases hselecting

/-- A write that succeeds keeps the clocks, or is the last one of the greeting. -/
theorem Feed.written_clock {feed : Feed M} {now : ℕ} {after : Feed M × List (Output M)}
    (hstep : feed.written config connector endpoint now = some after)
    (hloop : after.1.phase.inLoop = true) :
    feed.Clock config connector now after.1 := by
  simp only [Feed.written] at hstep
  -- in order: auth, subscription, response, pong, ping, close frame
  split at hstep
  · rename_i hphase; cases hstep; exact feed.subscribe_clock now _ (by rw [hphase]; rfl) hloop
  · rename_i hphase; cases hstep; exact feed.subscribe_clock now _ (by rw [hphase]; rfl) hloop
  · rename_i text response hphase
    cases hstep
    obtain ⟨hsubscribed, hframe, hping, hphase'⟩ := Feed.parse_clock connector now text feed
    exact .kept (by rw [hphase]; rfl) hsubscribed hframe hping hphase'
  · rename_i hphase
    cases hstep
    exact .kept (by rw [hphase]; rfl) rfl rfl rfl fun _ h => by cases h
  · rename_i hphase
    cases hstep
    exact .kept (by rw [hphase]; rfl) rfl rfl rfl fun _ h => by cases h
  · cases hstep
    exact absurd hloop (by simp [feed.endSession_not_inLoop])
  · cases hstep

/-- Everything a step can do to the clocks of a session that goes on. -/
theorem Feed.step_clock {feed : Feed M} {watch : Watch} {now : ℕ} {action : FeedAction}
    {after : Feed M × List (Output M)}
    (hstep : feed.step config connector endpoint now watch action = some after)
    (hloop : after.1.phase.inLoop = true) :
    feed.Clock config connector now after.1 := by
  have hended : ∀ outcome,
      (feed.endSession config endpoint.url now outcome).1.phase.inLoop ≠ true := by
    intro outcome h
    rw [feed.endSession_not_inLoop] at h
    cases h
  cases action with
  | iterate | wake =>
    -- a connection attempt is not the recv loop yet
    simp only [Feed.step] at hstep
    split at hstep
    · split at hstep <;> cases hstep <;> cases hloop
    · cases hstep
  | connected =>
    simp only [Feed.step] at hstep
    split at hstep
    · rename_i hphase
      split at hstep
      · cases hstep
        cases hloop
      · cases hstep
        exact feed.subscribe_clock now _ (by rw [hphase]; rfl) hloop
    · cases hstep
  | connectFailed =>
    simp only [Feed.step] at hstep
    split at hstep
    · cases hstep
      exact absurd hloop (hended _)
    · cases hstep
  | connectTimedOut =>
    simp only [Feed.step] at hstep
    split at hstep
    · split at hstep
      · cases hstep
        exact absurd hloop (hended _)
      · cases hstep
    · cases hstep
  | written => exact Feed.written_clock hstep hloop
  | writeFailed =>
    simp only [Feed.step, Feed.writeFailed] at hstep
    split at hstep <;> cases hstep <;> exact absurd hloop (hended _)
  | observe =>
    simp only [Feed.step] at hstep
    split at hstep
    · rename_i hphase
      split at hstep
      · cases hstep
        refine .kept (by rw [hphase]; rfl) rfl rfl rfl fun ping hping => ?_
        dsimp only at hping
        split at hping <;> cases hping
      · cases hstep
    · cases hstep
  | receive frame =>
    simp only [Feed.step] at hstep
    split at hstep
    · rename_i hphase
      split at hstep
      · cases hstep
        exact Feed.receive_clock hphase now frame hloop
      · cases hstep
    · cases hstep
  | pingTick =>
    simp only [Feed.step] at hstep
    split at hstep
    · rename_i hphase
      split at hstep
      · rename_i hdue
        cases hstep
        exact Feed.pingTick_clock hphase hdue.2 hloop
      · cases hstep
    · cases hstep
  | delivered =>
    simp only [Feed.step] at hstep
    split at hstep
    · rename_i msg rest hphase
      cases hstep
      obtain ⟨hsubscribed, hframe, hping, hphase'⟩ := feed.deliver_clock rest
      exact .kept (by rw [hphase]; rfl) hsubscribed hframe hping hphase'
    · cases hstep
  | receiverDropped =>
    simp only [Feed.step] at hstep
    split at hstep
    · cases hstep
      exact absurd hloop (hended _)
    · cases hstep

/-- What holds at the start, is not undone by time passing and is kept by every step of the task
    holds over a whole run. -/
theorem runFeed_invariant_timed {I : ℕ → Feed M → List (Output M) → Prop}
    (hmono : ∀ {now now' : ℕ} {feed log}, now ≤ now' → I now feed log → I now' feed log)
    (hfeed : ∀ {now : ℕ} {feed log watch action after}, I now feed log →
      feed.step config connector endpoint now watch action = some after →
      I now after.1 (log ++ after.2))
    {s s' : FeedState M} {moves : List (ℕ × RunAction)}
    (hrun : TransitionSystem.run (runFeedStep config connector endpoint) s moves = some s')
    (hs : I s.now s.feed s.log) : I s'.now s'.feed s'.log := by
  apply TransitionSystem.run_invariant (I := fun t : FeedState M => I t.now t.feed t.log) _ _
    hrun hs
  intro t move t' ht hstep
  obtain ⟨dt, action⟩ := move
  have hlater : I (t.now + dt) t.feed t.log := hmono (Nat.le_add_right ..) ht
  cases action with
  | send value => cases hstep; exact hlater
  | feed action =>
    obtain ⟨after, hafter, rfl⟩ := Option.map_eq_some_iff.mp hstep
    exact hfeed hlater hafter

/-! ## What a session writes -/

/-- The replies owed to the text frames of a session, after one more entry of the log. -/
def Connector.repliesAfter (connector : Connector M) (replies : List String) :
    Output M → List String
  | .connect _ => []
  | .received time (.text text) => replies ++ (connector.responseFor time text).toList
  | _ => replies

/-- The replies owed to the text frames since the last connection attempt began. -/
def Connector.repliesOwed (connector : Connector M) (log : List (Output M)) : List String :=
  log.foldl connector.repliesAfter []

/-- The reply that is being written. -/
def Phase.reply : Phase M → List String
  | .responding _ response => [response]
  | _ => []

/-- The ping that is being written. -/
def Phase.ping : Phase M → List String
  | .pinging ping => [ping]
  | _ => []

/-- What a session in its recv loop has written: its greeting, then replies and pings. -/
structure SessionWrites (config : WsRunnerConfig) (connector : Connector M)
    (endpoint : WsFeedEndpoint) (s : FeedState M) (time : ℕ) (replies pings writes : List String) :
    Prop where
  texts : sessionTexts s.log = greeting connector endpoint time ++ writes
  interleaves : List.Interleaves replies pings writes
  /-- Every reply owed is written, in order, but for the one that is being written. -/
  replied : replies ++ s.feed.phase.reply = connector.repliesOwed s.log
  pinged : ∀ ping ∈ pings, ∃ time, connector.pingMessage time = some ping
  /-- One ping per ping interval at most. -/
  pace : pings.length * nanos config.pingIntervalSecs ≤ s.now - s.feed.subscribedAt

/-- The texts of a session after so many ticks of its timer. -/
structure LoopWrites (connector : Connector M) (endpoint : WsFeedEndpoint) (phase : Phase M)
    (log : List (Output M)) (ticks time : ℕ) (replies pings writes : List String) : Prop where
  texts : sessionTexts log = greeting connector endpoint time ++ writes
  interleaves : List.Interleaves replies pings writes
  replied : replies ++ phase.reply = connector.repliesOwed log
  pinged : ∀ ping ∈ pings ++ phase.ping, ∃ time, connector.pingMessage time = some ping
  count : (pings ++ phase.ping).length ≤ ticks

/-- The timer has ticked so many times, and every tick was due. -/
structure Feed.Ticked (config : WsRunnerConfig) (now : ℕ) (feed : Feed M) (ticks : ℕ) : Prop where
  nextPing : feed.nextPing = feed.subscribedAt + (ticks + 1) * nanos config.pingIntervalSecs
  due : feed.subscribedAt + ticks * nanos config.pingIntervalSecs ≤ now

/-- A step keeps the timer on the ticks of the session, and a ping is of the last tick. -/
theorem Feed.Clock.ticked_step {feed after : Feed M} {now ticks : ℕ}
    (hclock : feed.Clock config connector now after) (hloop : feed.phase.inLoop = true)
    (h : feed.Ticked config now ticks) :
    ∃ ticks', ticks ≤ ticks' ∧ after.Ticked config now ticks' ∧
      ∀ ping, after.phase = .pinging ping →
        ticks' = ticks + 1 ∧ connector.pingMessage now = some ping := by
  cases hclock with
  | entered hbefore =>
    revert hbefore hloop
    cases feed.phase <;> simp [Phase.beforeLoop, Phase.inLoop]
  | ticked hphase hdue halive hsubscribed hframe hping hpinging =>
    refine ⟨ticks + 1, Nat.le_succ _, ⟨?_, ?_⟩, fun ping heq => ⟨rfl, hpinging ping heq⟩⟩
    · rw [hping, hsubscribed, h.nextPing]
      ring
    · rw [hsubscribed, ← h.nextPing]
      exact hdue
  | heard hphase hsubscribed hframe hping hpinging
  | kept hphase hsubscribed hframe hping hpinging =>
    refine ⟨ticks, Nat.le_refl _, ⟨?_, ?_⟩, fun ping heq => absurd heq (hpinging ping)⟩
    · rw [hping, hsubscribed, h.nextPing]
    · rw [hsubscribed]
      exact h.due

/-- The replies owed after a longer log. -/
theorem Connector.repliesOwed_append (connector : Connector M) (log outputs : List (Output M)) :
    connector.repliesOwed (log ++ outputs) =
      outputs.foldl connector.repliesAfter (connector.repliesOwed log) := List.foldl_append

/-- The texts and replies of a log do not change with outputs that are neither. -/
theorem LoopWrites.quiet {phase phase' : Phase M} {log outputs : List (Output M)}
    {ticks ticks' time : ℕ} {replies pings writes : List String}
    (h : LoopWrites connector endpoint phase log ticks time replies pings writes)
    (htexts : sessionTexts (log ++ outputs) = sessionTexts log)
    (howed : connector.repliesOwed (log ++ outputs) = connector.repliesOwed log)
    (hreply : phase'.reply = phase.reply) (hping : phase.ping = [])
    (hle : ticks ≤ ticks')
    (hpinging : ∀ ping, phase' = .pinging ping →
      ticks' = ticks + 1 ∧ ∃ time, connector.pingMessage time = some ping) :
    LoopWrites connector endpoint phase' (log ++ outputs) ticks' time replies pings writes := by
  have hpinged := h.pinged
  have hcount := h.count
  rw [hping, List.append_nil] at hpinged hcount
  refine ⟨htexts ▸ h.texts, h.interleaves, by rw [hreply, howed, h.replied], ?_, ?_⟩
  -- a ping that is not yet written is counted with the tick that it is due to
  · intro ping hmem
    rcases List.mem_append.mp hmem with hmem | hmem
    · exact hpinged ping hmem
    · cases phase' with
      | pinging ping' =>
        obtain rfl := List.mem_singleton.mp hmem
        exact (hpinging _ rfl).2
      | _ => cases hmem
  · cases phase' with
    | pinging ping' =>
      obtain ⟨rfl, -⟩ := hpinging _ rfl
      simp only [Phase.ping, List.length_append, List.length_singleton]
      omega
    | _ => simpa only [Phase.ping, List.append_nil] using hcount.trans hle

/-- Only one phase has a reply to write. -/
theorem Phase.reply_eq_nil {phase : Phase M}
    (h : ∀ text response, phase ≠ .responding text response) : phase.reply = [] := by
  cases phase with
  | responding text response => exact absurd rfl (h text response)
  | _ => rfl

/-- Only one phase has a ping to write. -/
theorem Phase.ping_eq_nil {phase : Phase M} (h : ∀ ping, phase ≠ .pinging ping) :
    phase.ping = [] := by
  cases phase with
  | pinging ping => exact absurd rfl (h ping)
  | _ => rfl

/-- The reply owed to the last frame is written. -/
theorem LoopWrites.replied_step {phase : Phase M} {log : List (Output M)} {text response : String}
    {ticks ticks' time : ℕ} {replies pings writes : List String}
    (h : LoopWrites connector endpoint (.responding text response) log ticks time replies pings
      writes)
    (hreply : ∀ text response, phase ≠ .responding text response)
    (hping : ∀ ping, phase ≠ .pinging ping) (hle : ticks ≤ ticks') (now : ℕ) :
    LoopWrites connector endpoint phase (log ++ [.wrote now response]) ticks' time
      (replies ++ [response]) pings (writes ++ [response]) where
  texts := by
    rw [sessionTexts_append, h.texts]
    exact List.append_assoc ..
  interleaves := .left response h.interleaves
  replied := by
    rw [Phase.reply_eq_nil hreply, List.append_nil, Connector.repliesOwed_append]
    exact h.replied
  pinged := by
    rw [Phase.ping_eq_nil hping]
    exact h.pinged
  count := by
    rw [Phase.ping_eq_nil hping]
    exact h.count.trans hle

/-- The ping that was due is written. -/
theorem LoopWrites.pinged_step {log : List (Output M)} {ping : String} {ticks ticks' time : ℕ}
    {replies pings writes : List String}
    (h : LoopWrites connector endpoint (.pinging ping) log ticks time replies pings writes)
    (hle : ticks ≤ ticks') (now : ℕ) :
    LoopWrites connector endpoint .selecting (log ++ [.wrote now ping]) ticks' time replies
      (pings ++ [ping]) (writes ++ [ping]) where
  texts := by
    rw [sessionTexts_append, h.texts]
    exact List.append_assoc ..
  interleaves := .right ping h.interleaves
  replied := by
    rw [Connector.repliesOwed_append]
    exact h.replied
  pinged := by
    rw [show (Phase.selecting : Phase M).ping = [] from rfl, List.append_nil]
    exact h.pinged
  count := by
    rw [show (Phase.selecting : Phase M).ping = [] from rfl, List.append_nil]
    exact h.count.trans hle

/-- One step of a session in its recv loop writes a reply that is owed, a ping, or nothing. -/
theorem Feed.Move.writes {feed : Feed M} {watch : Watch} {now ticks ticks' time : ℕ}
    {log : List (Output M)} {after : Feed M × List (Output M)} {replies pings writes : List String}
    (hmove : feed.Move config connector endpoint now watch after)
    (hloop : feed.phase.inLoop = true) (hloop' : after.1.phase.inLoop = true)
    (h : LoopWrites connector endpoint feed.phase log ticks time replies pings writes)
    (hle : ticks ≤ ticks')
    (hpinging : ∀ ping, after.1.phase = .pinging ping →
      ticks' = ticks + 1 ∧ ∃ time, connector.pingMessage time = some ping) :
    ∃ replies pings writes,
      LoopWrites connector endpoint after.1.phase (log ++ after.2) ticks' time replies pings
        writes := by
  cases hmove with
  -- these moves are not inside the recv loop
  | slept delay deadline hphase | authenticate hphase hauth | connected hphase hauth
  | authenticated hphase | subscribed hphase =>
    rw [hphase] at hloop
    cases hloop
  | connect hphase => cases hloop'
  | ended hends => exact absurd hloop' (by simp [feed.endSession_not_inLoop])
  | observed phase hphase hnext =>
    rw [hphase] at h
    refine ⟨_, _, _, h.quiet (by simp) (by simp) ?_ rfl hle hpinging⟩
    rcases hnext with rfl | rfl <;> rfl
  | @text text hphase hresponse =>
    rw [hphase] at h
    obtain ⟨-, -, hreply⟩ := Feed.parse_phase connector now text { feed with lastFrameAt := now }
    refine ⟨_, _, _, h.quiet ?_ ?_ ?_ rfl hle hpinging⟩
    · simp [sessionTexts_append, textsAfter]
    · simp [Connector.repliesOwed_append, Connector.repliesAfter, hresponse]
    · exact Phase.reply_eq_nil hreply
  | @textToAnswer text response hphase hresponse =>
    -- one more reply is owed, and it is the one to write
    rw [hphase] at h
    have hreplied := h.replied
    refine ⟨replies, pings, writes, ?_, h.interleaves, ?_, h.pinged, h.count.trans hle⟩
    · simpa [sessionTexts_append, textsAfter] using h.texts
    · rw [show (Phase.selecting : Phase M).reply = [] from rfl, List.append_nil] at hreplied
      simp [Connector.repliesOwed_append, Connector.repliesAfter, hresponse, hreplied, Phase.reply]
  | @frame frame phase hphase hframe hnext =>
    rw [hphase] at h
    refine ⟨_, _, _, h.quiet ?_ ?_ ?_ rfl hle hpinging⟩
    · simp [sessionTexts_append, textsAfter]
    · cases frame with
      | text text => exact absurd rfl (hframe text)
      | _ => simp [Connector.repliesOwed_append, Connector.repliesAfter]
    · rcases hnext with rfl | rfl <;> rfl
  | pingDue nextPing phase hphase hnext =>
    rw [hphase] at h
    refine ⟨_, _, _, h.quiet (by simp) (by simp) ?_ rfl hle hpinging⟩
    rcases hnext with rfl | ⟨ping, rfl⟩ <;> rfl
  | @replied text response hphase =>
    rw [hphase] at h
    obtain ⟨-, -, hreply⟩ := Feed.parse_phase connector now text feed
    exact ⟨_, _, _, h.replied_step hreply (Feed.parse_clock connector now text feed).2.2.2 hle now⟩
  | ponged hphase =>
    rw [hphase] at h
    refine ⟨_, _, _, h.quiet ?_ ?_ rfl rfl hle hpinging⟩
    · simp [sessionTexts_append, textsAfter]
    · simp [Connector.repliesOwed_append, Connector.repliesAfter]
  | @pinged ping hphase =>
    rw [hphase] at h
    exact ⟨_, _, _, h.pinged_step hle now⟩
  | @delivered msg rest hphase =>
    rw [hphase] at h
    refine ⟨_, _, _, h.quiet ?_ ?_ ?_ rfl hle hpinging⟩
    · simp [sessionTexts_append, textsAfter]
    · simp [Connector.repliesOwed_append, Connector.repliesAfter]
    · exact Phase.reply_eq_nil (feed.deliver_phase rest).2

/-- The session of a feed, by its phase: no reply is owed before the recv loop, and in it the
    texts written and the ticks of the timer agree. -/
structure Feed.Paced (config : WsRunnerConfig) (connector : Connector M)
    (endpoint : WsFeedEndpoint) (now : ℕ) (feed : Feed M) (log : List (Output M)) : Prop where
  greets : feed.phase.Greets connector endpoint (sessionTexts log)
  beforeLoop : feed.phase.beforeLoop = true → connector.repliesOwed log = []
  inLoop : feed.phase.inLoop = true → ∃ ticks time replies pings writes,
    feed.Ticked config now ticks ∧
      LoopWrites connector endpoint feed.phase log ticks time replies pings writes

/-- A paced session stays paced while time goes on. -/
theorem Feed.Paced.later {feed : Feed M} {log : List (Output M)} {now now' : ℕ}
    (hle : now ≤ now') (h : feed.Paced config connector endpoint now log) :
    feed.Paced config connector endpoint now' log := by
  refine ⟨h.greets, h.beforeLoop, fun hloop => ?_⟩
  obtain ⟨ticks, time, replies, pings, writes, hticked, hwrites⟩ := h.inLoop hloop
  exact ⟨ticks, time, replies, pings, writes, ⟨hticked.nextPing, hticked.due.trans hle⟩, hwrites⟩

/-- The recv loop is not before the recv loop. -/
theorem Phase.not_beforeLoop_of_inLoop {phase : Phase M} (h : phase.inLoop = true) :
    phase.beforeLoop = false := by
  cases phase <;> first | rfl | cases h

/-- A session in its recv loop stays there or ends. -/
theorem Feed.Move.inLoop_or_ended {feed : Feed M} {watch : Watch} {now : ℕ}
    {after : Feed M × List (Output M)}
    (hmove : feed.Move config connector endpoint now watch after)
    (hloop : feed.phase.inLoop = true) :
    after.1.phase.inLoop = true ∨
      (∃ session, .sessionEnd session ∈ after.2) ∧ after.1.phase.beforeLoop = false := by
  cases hmove with
  | slept delay deadline hphase | authenticate hphase hauth | connected hphase hauth
  | authenticated hphase | subscribed hphase =>
    rw [hphase] at hloop
    cases hloop
  | connect hphase =>
    rcases hphase with hphase | ⟨deadline, hphase⟩ <;> rw [hphase] at hloop <;> cases hloop
  | observed phase hphase hnext => left; rcases hnext with rfl | rfl <;> rfl
  | @text text hphase hresponse =>
    exact Or.inl (Feed.parse_phase connector now text { feed with lastFrameAt := now }).2.1
  | @replied text response hphase => exact Or.inl (Feed.parse_phase connector now text feed).2.1
  | frame phase hphase hframe hnext => left; rcases hnext with rfl | rfl <;> rfl
  | pingDue nextPing phase hphase hnext => left; rcases hnext with rfl | ⟨ping, rfl⟩ <;> rfl
  | textToAnswer | ponged | pinged => exact Or.inl rfl
  | @delivered msg rest hphase => left; cases rest <;> rfl
  | @ended outcome outputs hends =>
    refine Or.inr ⟨⟨_, List.mem_append_right _ List.mem_cons_self⟩, ?_⟩
    rcases feed.endSession_phase config endpoint.url now outcome with h | ⟨_, h⟩ | h <;>
      simp only [h] <;> rfl

/-- A step that leaves the feed on its way to the recv loop, or takes it there, finds no reply
    owed. -/
theorem Feed.Move.repliesOwed {feed : Feed M} {watch : Watch} {now : ℕ} {log : List (Output M)}
    {after : Feed M × List (Output M)}
    (hmove : feed.Move config connector endpoint now watch after)
    (hnext : after.1.phase.beforeLoop = true ∨
      feed.phase.beforeLoop = true ∧ after.1.phase.inLoop = true)
    (h : feed.phase.beforeLoop = true → connector.repliesOwed log = []) :
    connector.repliesOwed (log ++ after.2) = [] := by
  rw [Connector.repliesOwed_append]
  -- so the step does not start in a recv loop
  have hloop : feed.phase.inLoop = false := by
    rw [Bool.eq_false_iff]
    intro hin
    rcases hnext with hbefore | ⟨hbefore, -⟩
    · rcases hmove.inLoop_or_ended hin with hin' | ⟨-, hended⟩
      · rw [Phase.not_beforeLoop_of_inLoop hin'] at hbefore
        cases hbefore
      · rw [hended] at hbefore
        cases hbefore
    · rw [Phase.not_beforeLoop_of_inLoop hin] at hbefore
      cases hbefore
  cases hmove with
  | slept delay deadline hphase =>
    rcases hnext with hbefore | ⟨-, hin⟩
    · cases hbefore
    · cases hin
  | connect hphase => rfl
  | authenticate hphase | connected hphase | authenticated hphase | subscribed hphase =>
    exact h (by rw [hphase]; rfl)
  | @ended outcome outputs hends =>
    rcases feed.endSession_phase config endpoint.url now outcome with hidle | ⟨_, hidle⟩ | hidle
    all_goals
      simp only [hidle] at hnext
      rcases hnext with hbefore | ⟨-, hin⟩
      · cases hbefore
      · cases hin
  | observed phase hphase | text hphase | textToAnswer hphase | frame phase hphase
  | pingDue nextPing phase hphase | replied hphase | ponged hphase | pinged hphase
  | delivered hphase =>
    rw [hphase] at hloop
    cases hloop

/-- One step keeps a session paced. -/
theorem Feed.Paced.step {feed : Feed M} {watch : Watch} {now : ℕ} {action : FeedAction}
    {log : List (Output M)} {after : Feed M × List (Output M)}
    (h : feed.Paced config connector endpoint now log)
    (hstep : feed.step config connector endpoint now watch action = some after) :
    after.1.Paced config connector endpoint now (log ++ after.2) := by
  have hmove := Feed.step_move hstep
  obtain ⟨hgreets, henters⟩ := hmove.greets h.greets
  refine ⟨hgreets, fun hbefore => hmove.repliesOwed (Or.inl hbefore) h.beforeLoop,
    fun hloop => ?_⟩
  · have hclock := Feed.step_clock hstep hloop
    by_cases hin : feed.phase.inLoop = true
    · -- inside the recv loop: the timer first, since a ping belongs to its tick
      obtain ⟨ticks, time, replies, pings, writes, hticked, hwrites⟩ := h.inLoop hin
      obtain ⟨ticks', hle, hticked', hpinging⟩ := hclock.ticked_step hin hticked
      obtain ⟨replies', pings', writes', hwrites'⟩ := hmove.writes hin hloop hwrites hle
        fun ping heq => ⟨(hpinging ping heq).1, now, (hpinging ping heq).2⟩
      exact ⟨ticks', time, replies', pings', writes', hticked', hwrites'⟩
    · cases hclock with
      | entered hbefore hsubscribed hframe hping hphase =>
        -- the loop is entered: the greeting is out, no tick yet and nothing owed
        obtain ⟨time, htexts⟩ := henters hbefore hloop
        refine ⟨0, time, [], [], [], ⟨?_, ?_⟩, ⟨?_, .nil, ?_, ?_, ?_⟩⟩
        · rw [hping, hsubscribed]
          ring
        · rw [hsubscribed]
          omega
        · rw [htexts, List.append_nil]
        · rw [hphase, hmove.repliesOwed (Or.inr ⟨hbefore, hloop⟩) h.beforeLoop]
          rfl
        · rw [hphase]
          exact fun ping hmem => absurd hmem (List.not_mem_nil)
        · rw [hphase]
          exact Nat.le_refl 0
      | ticked hphase | heard hphase =>
        rw [hphase] at hin
        exact absurd rfl hin
      | kept hin' => exact absurd hin' hin

/-- A call that has not begun is paced. -/
theorem Feed.Paced.start (connector : Connector M) (endpoint : WsFeedEndpoint) (now seen : ℕ) :
    (Feed.start (M := M) seen).Paced config connector endpoint now [] where
  greets := trivial
  beforeLoop h := by cases h
  inLoop h := by cases h

/-- What a session has written, in every run. -/
theorem FeedState.paced {now seen : ℕ} {watch : Watch} {moves : List (ℕ × RunAction)}
    {s : FeedState M}
    (hrun : TransitionSystem.run (runFeedStep config connector endpoint) (.start now watch seen)
      moves = some s) :
    s.feed.Paced config connector endpoint s.now s.log :=
  runFeed_invariant_timed (I := fun now feed log => feed.Paced config connector endpoint now log)
    (fun hle h => h.later hle) (fun h hstep => h.step hstep) hrun
    (.start connector endpoint now seen)

/-! ## Silence -/

/-- In the recv loop the last frame is not in the future, and the timer ticks next before the
    connection has been idle for the idle timeout and a ping interval. -/
def Feed.Watched (config : WsRunnerConfig) (now : ℕ) (feed : Feed M) : Prop :=
  feed.phase.inLoop = true → feed.lastFrameAt ≤ now ∧ (0 < config.idleTimeoutSecs →
    feed.nextPing ≤
      feed.lastFrameAt + nanos config.idleTimeoutSecs + nanos config.pingIntervalSecs)

/-- A step keeps the bounds on the last frame and on the ping timer. -/
theorem Feed.Watched.step {feed : Feed M} {watch : Watch} {now : ℕ} {action : FeedAction}
    {after : Feed M × List (Output M)} (h : feed.Watched config now)
    (hstep : feed.step config connector endpoint now watch action = some after) :
    after.1.Watched config now := by
  intro hloop
  cases Feed.step_clock hstep hloop with
  | entered hbefore hsubscribed hframe hping hphase =>
    rw [hframe, hping]
    exact ⟨Nat.le_refl _, fun _ => by omega⟩
  | ticked hphase hdue halive hsubscribed hframe hping =>
    obtain ⟨hle, -⟩ := h (by rw [hphase]; rfl)
    rw [hframe, hping]
    refine ⟨hle, fun hpos => ?_⟩
    -- the tick was taken within the idle timeout
    have hlt := halive hpos
    omega
  | heard hphase hsubscribed hframe hping =>
    obtain ⟨hle, hnext⟩ := h (by rw [hphase]; rfl)
    rw [hframe, hping]
    refine ⟨Nat.le_refl _, fun hpos => ?_⟩
    have hbound := hnext hpos
    omega
  | kept hin hsubscribed hframe hping =>
    rw [hframe, hping]
    exact h hin

/-- Neither a frame nor the end of a session. -/
def Output.isSilent : Output M → Bool
  | .received _ _ | .sessionEnd _ => false
  | _ => true

/-- A step without a frame keeps the session and the time of its last frame. -/
theorem Feed.silent_step {feed : Feed M} {watch : Watch} {now : ℕ} {action : FeedAction}
    {after : Feed M × List (Output M)}
    (hstep : feed.step config connector endpoint now watch action = some after)
    (hloop : feed.phase.inLoop = true) (hsilent : ∀ output ∈ after.2, output.isSilent = true) :
    after.1.phase.inLoop = true ∧ after.1.lastFrameAt = feed.lastFrameAt := by
  have hmove := Feed.step_move hstep
  rcases hmove.inLoop_or_ended hloop with hin | ⟨⟨session, hended⟩, -⟩
  · refine ⟨hin, ?_⟩
    cases hmove with
    | replied hphase => exact (Feed.parse_clock connector _ _ feed).2.1
    | @delivered msg rest hphase => exact (feed.deliver_clock rest).2.1
    | text | textToAnswer | frame =>
      exact absurd (hsilent _ List.mem_cons_self) (by simp [Output.isSilent])
    | ended hends => exact absurd hin (by simp [feed.endSession_not_inLoop])
    | connect hphase => cases hin
    | connected hphase | authenticated hphase | subscribed hphase =>
      rw [hphase] at hloop
      cases hloop
    | slept | authenticate | observed | pingDue | ponged | pinged => rfl
  · exact absurd (hsilent _ hended) (by simp [Output.isSilent])

/-- A session hears nothing over a whole run. -/
theorem FeedState.silent_run {s s' : FeedState M} {moves : List (ℕ × RunAction)}
    (hrun : TransitionSystem.run (runFeedStep config connector endpoint) s moves = some s')
    (hloop : s.feed.phase.inLoop = true) :
    ∃ added, s'.log = s.log ++ added ∧ ((∀ output ∈ added, output.isSilent = true) →
      s'.feed.phase.inLoop = true ∧ s'.feed.lastFrameAt = s.feed.lastFrameAt) := by
  apply runFeed_invariant (I := fun feed log => ∃ added, log = s.log ++ added ∧
    ((∀ output ∈ added, output.isSilent = true) →
      feed.phase.inLoop = true ∧ feed.lastFrameAt = s.feed.lastFrameAt)) _ hrun
    ⟨[], (List.append_nil _).symm, fun _ => ⟨hloop, rfl⟩⟩
  rintro feed log now watch action after ⟨added, rfl, h⟩ hafter
  refine ⟨added ++ after.2, List.append_assoc .., fun hsilent => ?_⟩
  obtain ⟨hin, hframe⟩ := h fun output hmem => hsilent output (List.mem_append_left _ hmem)
  obtain ⟨hin', hframe'⟩ := Feed.silent_step hafter hin
    fun output hmem => hsilent output (List.mem_append_right _ hmem)
  exact ⟨hin', hframe'.trans hframe⟩

end ExchangeApiws.Native.Runner

namespace ExchangeApiws.Spec

open Native Native.Runner TransitionSystem

/-- In every run of `run_feed`, a session that has reached its recv loop has written its greeting
    and then, interleaved, the reply of every text frame it received that has one, in order, and
    at most one ping per ping interval since it subscribed. -/
theorem session_writes {M : Type} (config : WsRunnerConfig) (connector : Connector M)
    (endpoint : WsFeedEndpoint) (now : ℕ) (watch : Watch) (seen : ℕ)
    (moves : List (ℕ × RunAction)) (s : FeedState M)
    (hrun : run (runFeedStep config connector endpoint) (.start now watch seen) moves = some s)
    (hloop : s.feed.phase.inLoop = true) :
    ∃ time replies pings writes,
      SessionWrites config connector endpoint s time replies pings writes := by
  obtain ⟨ticks, time, replies, pings, writes, hticked, hwrites⟩ :=
    (FeedState.paced hrun).inLoop hloop
  refine ⟨time, replies, pings, writes, hwrites.texts, hwrites.interleaves, hwrites.replied,
    fun ping hmem => hwrites.pinged ping (List.mem_append_left _ hmem), ?_⟩
  -- every ping had a tick of its own
  have hcount : pings.length ≤ ticks := by
    have hle := hwrites.count
    rw [List.length_append] at hle
    omega
  calc pings.length * nanos config.pingIntervalSecs
      ≤ ticks * nanos config.pingIntervalSecs := Nat.mul_le_mul_right _ hcount
    _ ≤ s.now - s.feed.subscribedAt := by
      have hdue := hticked.due
      omega

/-- A stream with pings of both kinds: the client's own, and heartbeats that it answers. -/
def pingingConnector : Connector String where
  authMessage _ := none
  pingMessage _ := some "ping"
  responseFor _ text := if text = "heartbeat" then some "respond-heartbeat" else none
  parseMessage _ text := .ok [text]

/-- A heartbeat is answered, and the timer ticks after 20 s. -/
def pingingMoves : List (ℕ × RunAction) :=
  [(0, .feed .iterate), (1, .feed .connected), (1, .feed .written),
    (1, .feed (.receive (.text "heartbeat"))), (1, .feed .written), (1, .feed .delivered),
    (20000000000, .feed .pingTick), (1, .feed .written)]

/-- A session that replies to a heartbeat and pings once. -/
theorem session_writes_pinging :
    ∃ s, run (runFeedStep .default pingingConnector ⟨"wss://feed", ["subscribe"]⟩)
        (.start 0 ⟨false, 0⟩ 0) pingingMoves = some s ∧
      sessionTexts s.log = ["subscribe", "respond-heartbeat", "ping"] ∧
      ∃ time replies pings writes, SessionWrites .default pingingConnector
        ⟨"wss://feed", ["subscribe"]⟩ s time replies pings writes :=
  ⟨_, rfl, rfl, session_writes .default pingingConnector ⟨"wss://feed", ["subscribe"]⟩ 0
    ⟨false, 0⟩ 0 pingingMoves _ rfl rfl⟩

/-- In every run of `run_feed` with an idle timeout, a session that hears nothing for the idle
    timeout, a ping interval and the time by which its timer is late has ended: as long as it
    goes on without a frame, no more time than that has passed. -/
theorem silent_session_is_dropped {M : Type} (config : WsRunnerConfig) (connector : Connector M)
    (endpoint : WsFeedEndpoint) (now : ℕ) (watch : Watch) (seen : ℕ)
    (moves moves' : List (ℕ × RunAction)) (s s' : FeedState M) (lateness : ℕ)
    (hrun : run (runFeedStep config connector endpoint) (.start now watch seen) moves = some s)
    (hrun' : run (runFeedStep config connector endpoint) s moves' = some s')
    (hidle : 0 < config.idleTimeoutSecs) (hloop : s.feed.phase.inLoop = true)
    (hlate : s'.now ≤ s'.feed.nextPing + lateness)
    (hsilent : ∀ added, s'.log = s.log ++ added → ∀ output ∈ added, output.isSilent = true) :
    s'.feed.phase.inLoop = true ∧
      s'.now ≤ s.now + nanos config.idleTimeoutSecs + nanos config.pingIntervalSecs + lateness := by
  have hwatched : ∀ {now : ℕ} {watch : Watch} {seen : ℕ} {moves : List (ℕ × RunAction)}
      {s : FeedState M},
      run (runFeedStep config connector endpoint) (.start now watch seen) moves = some s →
      s.feed.Watched config s.now := by
    intro now watch seen moves s hrun
    refine runFeed_invariant_timed (I := fun now feed _ => feed.Watched config now) ?_
      (fun h hstep => h.step hstep) hrun fun h => by cases h
    intro now now' feed log hle h hloop
    exact ⟨(h hloop).1.trans hle, (h hloop).2⟩
  obtain ⟨added, hlog, hquiet⟩ := FeedState.silent_run hrun' hloop
  obtain ⟨hloop', hframe⟩ := hquiet (hsilent added hlog)
  refine ⟨hloop', ?_⟩
  -- the last frame came in before `s`, and the next tick is due soon after it goes idle
  have hle := (hwatched hrun hloop).1
  have hrun₂ : run (runFeedStep config connector endpoint) (.start now watch seen)
      (moves ++ moves') = some s' := by
    rw [run_append, hrun]
    exact hrun'
  have hnext := (hwatched hrun₂ hloop').2 hidle
  rw [hframe] at hnext
  omega

/-- The session goes on without a frame until its timer has ticked again. -/
theorem silent_session_is_dropped_pinging :
    ∃ s s', run (runFeedStep .default pingingConnector ⟨"wss://feed", ["subscribe"]⟩)
        (.start 0 ⟨false, 0⟩ 0) pingingMoves = some s ∧
      run (runFeedStep .default pingingConnector ⟨"wss://feed", ["subscribe"]⟩) s
        [(20000000000, .feed .pingTick), (1, .feed .written)] = some s' ∧
      s'.now ≤ s.now + nanos 60 + nanos 20 + 0 :=
  ⟨_, _, rfl, rfl, (silent_session_is_dropped .default pingingConnector
    ⟨"wss://feed", ["subscribe"]⟩ 0 ⟨false, 0⟩ 0 pingingMoves
    [(20000000000, .feed .pingTick), (1, .feed .written)] _ _ 0 rfl rfl (by decide) rfl
    (by decide) (fun added hlog output hmem => by
      obtain rfl : [.wrote 40000000007 "ping"] = added := List.append_cancel_left hlog
      obtain rfl := List.mem_singleton.mp hmem
      rfl)).2⟩

end ExchangeApiws.Spec
