import ExchangeApiws.Spec.Supervisor

/-!
# Deliveries of a supervised feed

`run_feed_supervised` runs one inner `run_feed` after another, each on a fresh endpoint, and all
of them send to the same channel. What holds of the deliveries of one inner call carries over
the refresh between two calls, because a call that gives up has nothing left to deliver, and a
call whose receiver is gone ends the supervisor.

## Key results

- `SupervisedState.Move.deliveries`: one step of the supervisor keeps the deliveries
- `supervised_delivers_in_order`: what is delivered over all inner calls
-/

namespace ExchangeApiws.Native.Runner

variable {M : Type} {config : SupervisedConfig} {connector : Connector M}

/-! ## The inner call -/

/-- The phase of the latest inner call; before the first one, that of a call about to start. -/
def SupervisedPhase.inner : SupervisedPhase M → Phase M
  | .feeding _ feed => feed.phase
  | .exhausted url attempts => .returned (.error (.wsDisconnected url attempts))
  | .returned result => .returned result
  | .panicked => .panicked
  | .entry | .bootstrapping | .delaying _ | .refreshDue | .refreshing => .loopTop

/-- The supervisor takes the phase of the inner call as it is. -/
theorem inner_supervisedPhase (endpoint : WsFeedEndpoint) (feed : Feed M) :
    (supervisedPhase endpoint feed).inner = feed.phase := by
  unfold supervisedPhase
  split
  case h_1 hphase | h_2 hphase | h_3 hphase | h_4 hphase => exact hphase.symm
  case h_5 => rfl

/-- The invariant of the deliveries does not depend on the phase between two inner calls. -/
theorem DeliveryInvariant.idle {phase phase' : Phase M} {log : List (Output M)}
    (h : DeliveryInvariant connector phase log) (hdropped : ¬ ReceiverDropped log)
    (hresponding : ∀ text response, phase ≠ .responding text response)
    (hresponding' : ∀ text response, phase' ≠ .responding text response)
    (hpending : phase'.pending = phase.pending) : DeliveryInvariant connector phase' log where
  responding text response heq := absurd heq (hresponding' text response)
  settled _ := h.settled hresponding
  delivered hnot := by
    rw [hpending]
    exact h.delivered hnot
  prefixed := h.prefixed
  dropped hmem := absurd hmem hdropped
  answered := h.answered

/-- A session that ends because the receiver is gone makes `run_feed` return `Ok`. -/
theorem Feed.endSession_receiverDropped (config : WsRunnerConfig) (url : String) (now : ℕ)
    (feed : Feed M) :
    (feed.endSession config url now .receiverDropped).1.phase = .returned (.ok ()) := rfl

/-- The receiver is dropped by a step only if the call returns `Ok` with it. -/
theorem Feed.step_dropped {config : WsRunnerConfig} {endpoint : WsFeedEndpoint} {feed : Feed M}
    {watch : Watch} {now : ℕ} {action : FeedAction} {after : Feed M × List (Output M)}
    {log : List (Output M)}
    (hstep : feed.step config connector endpoint now watch action = some after)
    (hlog : ¬ ReceiverDropped log) (hdropped : ReceiverDropped (log ++ after.2)) :
    after.1.phase = .returned (.ok ()) := by
  obtain ⟨uptimeSecs, hmem⟩ := hdropped
  have hmem : Output.sessionEnd ⟨.receiverDropped, uptimeSecs⟩ ∈ after.2 :=
    (List.mem_append.mp hmem).resolve_left fun hin => hlog ⟨uptimeSecs, hin⟩
  cases Feed.step_cases hstep with
  | moved hmoved hplain => cases hplain _ hmem
  | ended outcome hplain =>
    rcases List.mem_append.mp hmem with hin | hin
    · cases hplain _ hin
    · rw [Feed.endSession_outputs, List.mem_cons] at hin
      rcases hin with heq | hevent
      · cases heq
        exact feed.endSession_receiverDropped config endpoint.url now
      · obtain ⟨event, -, heq⟩ := List.mem_map.mp hevent
        cases heq

/-! ## The invariant -/

/-- The deliveries of a supervised run, over all of its inner calls. -/
structure SupervisedState.Delivers (connector : Connector M) (s : SupervisedState M) : Prop where
  inner : DeliveryInvariant connector s.phase.inner s.log
  dropped : ReceiverDropped s.log → s.phase = .returned (.ok ())

/-- Between two inner calls the supervisor only emits events and calls the closure. -/
theorem SupervisedState.Delivers.between {s s' : SupervisedState M} (h : s.Delivers connector)
    (outputs : List (Output M)) (hlog : s'.log = s.log ++ outputs)
    (hreturned : s.phase ≠ .returned (.ok ()))
    (hidle : s.phase.inner = .loopTop ∨ ∃ result, s.phase.inner = .returned result)
    (hidle' : s'.phase.inner = .loopTop ∨ s'.phase.inner = .panicked ∨
      ∃ result, s'.phase.inner = .returned result)
    (hquiet : ∀ output ∈ outputs, output.isQuiet = true) : s'.Delivers connector := by
  have hnot : ¬ ReceiverDropped s.log := fun hdropped => hreturned (h.dropped hdropped)
  have hnot' : ¬ ReceiverDropped (s.log ++ outputs) := by
    rw [receiverDropped_append]
    · exact hnot
    · intro uptimeSecs hmem
      cases hquiet _ hmem
  -- first to the head of a loop, then the outputs, then to the phase that follows
  have htop : DeliveryInvariant connector .loopTop s.log := by
    refine h.inner.idle hnot ?_ (by simp) ?_
    all_goals rcases hidle with heq | ⟨result, heq⟩ <;> simp [heq, Phase.pending]
  have hlater : DeliveryInvariant connector .loopTop (s.log ++ outputs) :=
    htop.quiet rfl rfl rfl hquiet
  refine ⟨?_, fun hdropped => absurd (hlog ▸ hdropped) hnot'⟩
  rw [hlog]
  refine hlater.idle hnot' (by simp) ?_ ?_
  all_goals rcases hidle' with heq | heq | ⟨result, heq⟩ <;> simp [heq, Phase.pending]

/-- One step of the supervisor keeps the deliveries at what is expected. -/
theorem SupervisedState.Move.deliveries {s : SupervisedState M} {now : ℕ}
    {action : SupervisedAction} {next : SupervisedPhase M × UInt32 × List (Output M)}
    (h : s.Delivers connector) (hmove : s.Move config connector now action next) :
    (s.after now next).Delivers connector := by
  cases hmove with
  | @fed endpoint feed action after hphase hstep =>
    have hdelivery : DeliveryInvariant connector feed.phase s.log := by
      have hinner := h.inner
      rw [hphase] at hinner
      exact hinner
    have hnot : ¬ ReceiverDropped s.log := by
      intro hdropped
      have hreturned := h.dropped hdropped
      rw [hphase] at hreturned
      cases hreturned
    -- a step of the inner call is one of `run_feed`
    constructor
    · have hlater := (Feed.step_move hstep).deliveries hdelivery
      rw [← inner_supervisedPhase endpoint after.1] at hlater
      exact hlater
    · intro hdropped
      have hreturned := Feed.step_dropped hstep hnot hdropped
      simp only [SupervisedState.after, supervisedPhase, hreturned]
  -- between two calls nothing is received or delivered
  | overflow hphase hmax =>
    exact h.between [] rfl (by simp [hphase])
      (Or.inr ⟨_, by rw [hphase]; rfl⟩) (Or.inr (Or.inl rfl)) (by simp)
  | outOfBudget hphase hmax hbudget =>
    exact h.between _ rfl (by simp [hphase]) (Or.inr ⟨_, by rw [hphase]; rfl⟩)
      (Or.inr (Or.inr ⟨_, rfl⟩)) (by simp [Output.isQuiet])
  | inBudget phase hphase hmax hbudget hnext =>
    refine h.between [] rfl (by simp [hphase]) (Or.inr ⟨_, by rw [hphase]; rfl⟩)
      ?_ (by simp)
    rcases hnext with rfl | ⟨deadline, rfl⟩
    · exact Or.inr (Or.inr ⟨_, rfl⟩)
    · exact Or.inl rfl
  | observed phase hphase hnext =>
    refine h.between [] rfl (by simp [hphase]) (Or.inl (by rw [hphase]; rfl)) ?_
      (by simp)
    rcases hnext with rfl | rfl
    · exact Or.inr (Or.inr ⟨_, rfl⟩)
    · exact Or.inl rfl
  | delayOver hphase =>
    exact h.between [] rfl (by simp [hphase]) (Or.inl (by rw [hphase]; rfl))
      (Or.inl rfl) (by simp)
  | bootstrap hphase | refresh hphase =>
    exact h.between _ rfl (by simp [hphase]) (Or.inl (by rw [hphase]; rfl)) (Or.inl rfl)
      (by simp [Output.isQuiet])
  | refreshed endpoint hphase =>
    refine h.between [] rfl ?_ ?_ (Or.inl rfl) (by simp)
    · rcases hphase with hphase | hphase <;> simp [hphase]
    · rcases hphase with hphase | hphase <;> exact Or.inl (by rw [hphase]; rfl)
  | refreshFailed error hphase =>
    refine h.between [] rfl ?_ ?_ (Or.inr (Or.inr ⟨_, rfl⟩)) (by simp)
    · rcases hphase with hphase | hphase <;> simp [hphase]
    · rcases hphase with hphase | hphase <;> exact Or.inl (by rw [hphase]; rfl)

/-- Every run of the supervisor keeps the deliveries of all its inner calls in order. -/
theorem SupervisedState.delivers {now seen : ℕ} {watch : Watch}
    {moves : List (ℕ × SupervisedAction)} {s : SupervisedState M}
    (hrun : TransitionSystem.run (supervisedStep config connector) (.start now watch seen)
      moves = some s) : s.Delivers connector := by
  apply TransitionSystem.run_invariant
    (I := fun t : SupervisedState M => t.Delivers connector) _ _ hrun
    ⟨.start connector now watch seen, by simp [ReceiverDropped, SupervisedState.start]⟩
  intro t move t' ht hstep
  rcases supervisedStep_cases hstep with ⟨value, -, rfl⟩ | ⟨next, hmove, rfl⟩
  · exact ⟨ht.inner, ht.dropped⟩
  · exact hmove.deliveries ht

/-- What the log of a supervised run shows of its deliveries. -/
structure SupervisedTrace (connector : Connector M) (s : SupervisedState M) : Prop where
  /-- Up to the messages of the current frame, all that is expected is delivered. -/
  delivered : ¬ ReceiverDropped s.log →
    deliveries s.log ++ s.phase.inner.pending = connector.expected s.log
  /-- Between two inner calls nothing is left to deliver. -/
  settled : ¬ ReceiverDropped s.log → (∀ endpoint feed, s.phase ≠ .feeding endpoint feed) →
    deliveries s.log = connector.expected s.log
  prefixed : deliveries s.log <+: connector.expected s.log
  /-- A reply is written before anything else happens to its frame. -/
  answered : s.log.IsChain connector.Answers
  /-- A receiver that is gone ends the supervisor, without a refresh. -/
  dropped : ReceiverDropped s.log → s.phase = .returned (.ok ())

end ExchangeApiws.Native.Runner

namespace ExchangeApiws.Spec

open Native Native.Runner TransitionSystem

/-- For every run of `run_feed_supervised`, over all inner calls and refreshes: what is delivered
    is what the text frames received on any of the endpoints parse to, in order and each once; no
    message is lost or repeated across a refresh; and a receiver that is gone ends the run. -/
theorem supervised_delivers_in_order {M : Type} (config : SupervisedConfig)
    (connector : Connector M) (now : ℕ) (watch : Watch) (seen : ℕ)
    (moves : List (ℕ × SupervisedAction)) (s : SupervisedState M)
    (hrun : run (supervisedStep config connector) (.start now watch seen) moves = some s) :
    SupervisedTrace connector s := by
  have hdelivers := SupervisedState.delivers hrun
  refine ⟨hdelivers.inner.delivered, fun hnot hfeeding => ?_, hdelivers.inner.prefixed,
    hdelivers.inner.answered, hdelivers.dropped⟩
  have hpending : s.phase.inner.pending = [] := by
    cases hphase : s.phase with
    | feeding endpoint feed => exact absurd hphase (hfeeding endpoint feed)
    | _ => rfl
  have hdelivered := hdelivers.inner.delivered hnot
  rw [hpending, List.append_nil] at hdelivered
  exact hdelivered

/-- A message on the first endpoint, one on the second after a refresh. -/
def refreshedMoves : List (ℕ × SupervisedAction) :=
  [(0, .refresh), (1, .refreshed ⟨"wss://feed?token=1", []⟩), (0, .feed .iterate),
    (1, .feed .connected), (1, .feed .written), (1, .feed (.receive (.text "tick"))),
    (1, .feed .delivered), (1, .feed .delivered), (1, .feed (.receive .endOfStream)),
    (0, .decide), (5000000000, .delayOver), (0, .refresh),
    (1, .refreshed ⟨"wss://feed?token=2", []⟩), (0, .feed .iterate), (1, .feed .connected),
    (1, .feed .written), (1, .feed (.receive (.text "tock"))), (1, .feed .delivered)]

/-- Ticks and a tock over two inner calls. -/
theorem supervised_delivers_in_order_refreshed :
    ∃ s, run (supervisedStep oneRefresh heartbeatConnector) (.start 0 ⟨false, 0⟩ 0)
        refreshedMoves = some s ∧
      deliveries s.log = ["tick", "tick", "tock"] ∧ SupervisedTrace heartbeatConnector s :=
  ⟨_, rfl, rfl, supervised_delivers_in_order oneRefresh heartbeatConnector 0 ⟨false, 0⟩ 0
    refreshedMoves _ rfl⟩

end ExchangeApiws.Spec
