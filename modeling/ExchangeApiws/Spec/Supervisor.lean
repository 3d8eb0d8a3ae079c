import ExchangeApiws.Spec.FeedTrace

/-!
# Refreshes of the supervised feed

`run_feed_supervised` counts the cycles that its inner `run_feed` has exhausted, and the one
counter numbers the `TokenRefresh` events, is compared with the budget and is reported when
the budget is exhausted. The refresh calls, the events and the inner calls stay in step over
every run, whatever the inner runs and the refresh closure come to.

## Key results

- `SupervisedState.Move.refreshInvariant`: one step keeps the calls, the events and the counter
  in step
- `innerCalls_eq_results`: the inner calls are made on the results of the refreshes
- `supervisor_refreshes`: what every run of the supervisor shows
-/

namespace ExchangeApiws.Native.Runner

variable {M : Type} {config : SupervisedConfig} {connector : Connector M}

/-! ## Reading the log -/

/-- A refresh call as `none`, a `TokenRefresh` event as its cycle. -/
def refreshEntry : Output M → Option (Option UInt32)
  | .refresh => some none
  | .event (.tokenRefresh cycle) => some (some cycle)
  | _ => none

/-- The refresh calls and the `TokenRefresh` events, in order. -/
def refreshTrace (log : List (Output M)) : List (Option UInt32) := log.filterMap refreshEntry

/-- The number of `TokenRefresh` refreshes that were attempted. -/
def attemptedRefreshes (log : List (Output M)) : ℕ := (refreshTrace log).countP Option.isSome

/-- One call to begin with, then for each cycle from `1` to `n` its event and one call. -/
def refreshesUpTo (n : ℕ) : List (Option UInt32) :=
  none :: (List.range' 1 n).flatMap fun cycle => [some (UInt32.ofNat cycle), none]

/-- The endpoint that the inner `run_feed` works with. -/
def SupervisedPhase.endpoint? : SupervisedPhase M → Option WsFeedEndpoint
  | .feeding endpoint _ => some endpoint
  | _ => none

/-- The endpoints of the inner `run_feed` calls of a run, in order. -/
def innerCalls (config : SupervisedConfig) (connector : Connector M) :
    SupervisedState M → List (ℕ × SupervisedAction) → List WsFeedEndpoint
  | _, [] => []
  | s, move :: moves =>
    match supervisedStep config connector s move with
    | none => []
    | some t =>
      (if s.phase.endpoint?.isNone then t.phase.endpoint?.toList else []) ++
        innerCalls config connector t moves

/-- The results of the refresh closure in a run, in order. -/
def results (moves : List (ℕ × SupervisedAction)) : List WsFeedEndpoint :=
  moves.filterMap fun move =>
    match move.2 with
    | .refreshed endpoint => some endpoint
    | _ => none

/-- What a run of the supervisor shows. -/
structure SupervisorRun (config : SupervisedConfig) (connector : Connector M)
    (start : SupervisedState M) (moves : List (ℕ × SupervisedAction)) (s : SupervisedState M) :
    Prop where
  /-- The inner calls are made on the successful results, one on each. -/
  calls : innerCalls config connector start moves = results moves
  /-- The call in progress connects and subscribes on the latest of them. -/
  latest : ∀ endpoint feed, s.phase = .feeding endpoint feed →
    (results moves).getLast? = some endpoint ∧
      (feed.phase.beforeLoop = true →
        ∃ time, sessionTexts s.log <+: greeting connector endpoint time) ∧
      (feed.phase.inLoop = true →
        ∃ time, greeting connector endpoint time <+: sessionTexts s.log)
  /-- One refresh at entry, then one for each event, and the events count up from `1`. -/
  refreshes : refreshTrace s.log = [] ∨
    refreshTrace s.log = refreshesUpTo (attemptedRefreshes s.log)
  budget : attemptedRefreshes s.log ≤ config.maxRefreshCycles.toNat
  /-- The first error of the closure is returned, and nothing is done after it. -/
  failed : ∀ before dt error after, moves = before ++ (dt, .refreshFailed error) :: after →
    s.phase = .returned (.error error) ∧
      ∃ t, TransitionSystem.run (supervisedStep config connector) start before = some t ∧
        s.log = t.log
  /-- A run that reports an exhausted budget has used all of it, and reports one more. -/
  exhausted : ∀ cycles, .event (.refreshExhausted cycles) ∈ s.log →
    attemptedRefreshes s.log = config.maxRefreshCycles.toNat ∧
      cycles.toNat = attemptedRefreshes s.log + 1 ∧
      ∃ url attempts, s.phase = .returned (.error (.wsDisconnected url attempts))

/-- What a step of the supervisor shows. -/
structure SupervisorTransition (config : SupervisedConfig) (s : SupervisedState M)
    (action : SupervisedAction) (s' : SupervisedState M) : Prop where
  /-- Connections are made on the endpoint of the inner call only. -/
  connects : ∀ outputs url, s'.log = s.log ++ outputs → .connect url ∈ outputs →
    ∃ endpoint feed, s.phase = .feeding endpoint feed ∧ url = endpoint.url
  /-- After an exhausted inner call, an exhausted budget is reported exactly when as many
      refreshes as the budget allows have been attempted. -/
  exhausts : ∀ url attempts, s.phase = .exhausted url attempts → action = .decide →
    config.maxRefreshCycles ≠ u32Max →
      ((∃ cycles, s'.log = s.log ++ [.event (.refreshExhausted cycles)]) ↔
        attemptedRefreshes s.log = config.maxRefreshCycles.toNat)

/-! ## The outputs of the inner call -/

/-- What is emitted after a session is the session's event or the exhausted budget. -/
theorem afterSession_events (config : WsRunnerConfig) (url : String) (attempts : UInt32)
    (session : Session) {event : RunnerEvent}
    (h : event ∈ (afterSession config url attempts session).1) :
    (∃ attempt uptimeSecs cascadeStart, event = .sessionEnded attempt uptimeSecs cascadeStart) ∨
      ∃ attempts, event = .reconnectsExhausted attempts := by
  obtain ⟨outcome, uptimeSecs⟩ := session
  cases outcome with
  | shutdownRequested | receiverDropped => simp [afterSession] at h
  | disconnected =>
    simp only [afterSession] at h
    split_ifs at h
    all_goals simp only [List.mem_cons, List.not_mem_nil, or_false] at h
    · exact Or.inl ⟨_, _, _, h⟩
    · exact Or.inl ⟨_, _, _, h⟩
    · rcases h with h | h
      · exact Or.inl ⟨_, _, _, h⟩
      · exact Or.inr ⟨_, h⟩
    · exact Or.inl ⟨_, _, _, h⟩

/-- What an inner `run_feed` never does, and where it connects to. -/
structure Output.FromFeed (endpoint : WsFeedEndpoint) (output : Output M) : Prop where
  refreshEntry : refreshEntry output = none
  exhausted : ∀ cycles, output ≠ .event (.refreshExhausted cycles)
  connect : ∀ url, output = .connect url → url = endpoint.url

/-- The end of a session is none of the supervisor's outputs. -/
theorem Feed.endSession_fromFeed (config : WsRunnerConfig) (endpoint : WsFeedEndpoint) (now : ℕ)
    (outcome : SessionOutcome) (feed : Feed M) :
    ∀ output ∈ (feed.endSession config endpoint.url now outcome).2, output.FromFeed endpoint := by
  intro output hmem
  rw [Feed.endSession_outputs, List.mem_cons, List.mem_map] at hmem
  rcases hmem with rfl | ⟨event, hevent, rfl⟩
  · exact ⟨rfl, by simp, by simp⟩
  · rcases afterSession_events _ _ _ _ hevent with ⟨_, _, _, rfl⟩ | ⟨_, rfl⟩
    · exact ⟨rfl, by simp, by simp⟩
    · exact ⟨rfl, by simp, by simp⟩

/-- Neither are the last outputs of a session. -/
theorem Phase.EndsWith.fromFeed {now : ℕ} {phase : Phase M} {outcome : SessionOutcome}
    {outputs : List (Output M)} (h : phase.EndsWith now outcome outputs)
    (endpoint : WsFeedEndpoint) :
    ∀ output ∈ outputs, output.FromFeed endpoint := by
  intro output hmem
  cases h with
  | stream hframe =>
    rw [List.mem_singleton] at hmem
    subst hmem
    exact ⟨rfl, by simp, by simp⟩
  | closed =>
    rw [List.mem_singleton] at hmem
    subst hmem
    exact ⟨rfl, by simp, by simp⟩
  | _ => simp at hmem

/-- Neither is anything else that an inner call puts out. -/
theorem Feed.Move.fromFeed {config : WsRunnerConfig} {endpoint : WsFeedEndpoint} {feed : Feed M}
    {watch : Watch} {now : ℕ} {after : Feed M × List (Output M)}
    (hmove : feed.Move config connector endpoint now watch after) :
    ∀ output ∈ after.2, output.FromFeed endpoint := by
  intro output hmem
  cases hmove with
  | ended hends =>
    rcases List.mem_append.mp hmem with hmem | hmem
    · exact hends.fromFeed endpoint output hmem
    · exact feed.endSession_fromFeed config endpoint now _ output hmem
  | authenticate | connected | observed | pingDue => simp at hmem
  | connect =>
    rw [Feed.connect, List.mem_singleton] at hmem
    subst hmem
    exact ⟨rfl, by simp, by simp⟩
  | slept | authenticated | subscribed | text | textToAnswer | frame | replied | ponged | pinged
  | delivered =>
    rw [List.mem_singleton] at hmem
    subst hmem
    exact ⟨rfl, by simp, by simp⟩

/-! ## Refreshes and the counter -/

/-- The refreshes of a longer log. -/
theorem refreshTrace_append (log outputs : List (Output M)) :
    refreshTrace (log ++ outputs) = refreshTrace log ++ refreshTrace outputs :=
  List.filterMap_append

/-- An inner call adds no refresh. -/
theorem refreshTrace_fromFeed {endpoint : WsFeedEndpoint} {outputs : List (Output M)}
    (h : ∀ output ∈ outputs, output.FromFeed endpoint) : refreshTrace outputs = [] := by
  rw [refreshTrace, List.filterMap_eq_nil_iff]
  exact fun output hmem => (h output hmem).refreshEntry

/-- One more refresh is its event and its call. -/
theorem refreshesUpTo_succ (n : ℕ) :
    refreshesUpTo (n + 1) = refreshesUpTo n ++ [some (UInt32.ofNat (n + 1)), none] := by
  rw [refreshesUpTo, List.range'_1_concat, List.flatMap_append, Nat.add_comm 1 n]
  rfl

/-- There is one event for each refresh. -/
theorem countP_refreshesUpTo (n : ℕ) : (refreshesUpTo n).countP Option.isSome = n := by
  induction n with
  | zero => rfl
  | succ n ih => rw [refreshesUpTo_succ, List.countP_append, ih]; rfl

/-- The refreshes so far are those up to `n`, and the counter fits them by the phase. -/
def SupervisedState.Standing (config : SupervisedConfig) (s : SupervisedState M) (n : ℕ) : Prop :=
  match s.phase with
  | .entry => refreshTrace s.log = [] ∧ s.cycle.toNat = 0 ∧ n = 0
  | .bootstrapping | .feeding _ _ | .exhausted _ _ | .refreshing =>
    refreshTrace s.log = refreshesUpTo n ∧ s.cycle.toNat = n
  | .delaying _ | .refreshDue =>
    refreshTrace s.log = refreshesUpTo n ∧ s.cycle.toNat = n + 1 ∧
      n + 1 ≤ config.maxRefreshCycles.toNat
  | .returned _ | .panicked => refreshTrace s.log = refreshesUpTo n

/-- Calls, events and counter are in step, within the budget; what is reported of an exhausted
    budget is one more than the refreshes. -/
structure RefreshInvariant (config : SupervisedConfig) (s : SupervisedState M) (n : ℕ) : Prop where
  standing : s.Standing config n
  budget : n ≤ config.maxRefreshCycles.toNat
  exhausted : ∀ cycles, .event (.refreshExhausted cycles) ∈ s.log →
    n = config.maxRefreshCycles.toNat ∧ cycles.toNat = n + 1 ∧
      ∃ url attempts, s.phase = .returned (.error (.wsDisconnected url attempts))

/-- The number of refreshes can be read off the log. -/
theorem RefreshInvariant.attempted {s : SupervisedState M} {n : ℕ}
    (h : RefreshInvariant config s n) :
    attemptedRefreshes s.log = n ∧
      (refreshTrace s.log = [] ∨ refreshTrace s.log = refreshesUpTo n) := by
  have hstanding := h.standing
  unfold SupervisedState.Standing at hstanding
  -- before the bootstrap call there is nothing, after it one block for each refresh
  have hcases : refreshTrace s.log = [] ∧ n = 0 ∨ refreshTrace s.log = refreshesUpTo n := by
    cases hphase : s.phase with
    | entry =>
      rw [hphase] at hstanding
      exact Or.inl ⟨hstanding.1, hstanding.2.2⟩
    | bootstrapping | feeding | exhausted | refreshing | delaying | refreshDue =>
      rw [hphase] at hstanding
      exact Or.inr hstanding.1
    | returned | panicked =>
      rw [hphase] at hstanding
      exact Or.inr hstanding
  rcases hcases with ⟨hnil, rfl⟩ | htrace
  · exact ⟨by rw [attemptedRefreshes, hnil]; rfl, Or.inl hnil⟩
  · exact ⟨by rw [attemptedRefreshes, htrace, countP_refreshesUpTo], Or.inr htrace⟩

/-- The state after a move. -/
def SupervisedState.after (s : SupervisedState M) (now : ℕ)
    (next : SupervisedPhase M × UInt32 × List (Output M)) : SupervisedState M :=
  { s with now := now, phase := next.1, cycle := next.2.1, log := s.log ++ next.2.2 }

/-- What an inner `run_feed` comes to for the supervisor. -/
theorem supervisedPhase_cases (endpoint : WsFeedEndpoint) (feed : Feed M) :
    (∃ result, supervisedPhase endpoint feed = .returned result) ∨
      (∃ url attempts, supervisedPhase endpoint feed = .exhausted url attempts) ∨
      supervisedPhase endpoint feed = .panicked ∨
      supervisedPhase endpoint feed = .feeding endpoint feed := by
  unfold supervisedPhase
  split
  · exact Or.inl ⟨_, rfl⟩
  · exact Or.inr (Or.inl ⟨_, _, rfl⟩)
  · exact Or.inl ⟨_, rfl⟩
  · exact Or.inr (Or.inr (Or.inl rfl))
  · exact Or.inr (Or.inr (Or.inr rfl))

/-- While the supervisor has not returned, no exhausted budget has been reported. -/
theorem RefreshInvariant.not_exhausted {s : SupervisedState M} {n : ℕ}
    (h : RefreshInvariant config s n) (hopen : ∀ result, s.phase ≠ .returned result)
    (cycles : UInt32) : .event (.refreshExhausted cycles) ∉ s.log := by
  intro hmem
  obtain ⟨_, _, url, attempts, hclosed⟩ := h.exhausted cycles hmem
  exact hopen _ hclosed

/-- A move that adds no refresh, event or report keeps the invariant with its standing. -/
theorem RefreshInvariant.of_quiet {s s' : SupervisedState M} {n : ℕ}
    (h : RefreshInvariant config s n) {outputs : List (Output M)}
    (hlog : s'.log = s.log ++ outputs)
    (hquiet : ∀ cycles, .event (.refreshExhausted cycles) ∉ outputs)
    (hopen : ∀ result, s.phase ≠ .returned result) (hstanding : s'.Standing config n) :
    RefreshInvariant config s' n := by
  refine ⟨hstanding, h.budget, fun cycles hmem => ?_⟩
  rw [hlog, List.mem_append] at hmem
  rcases hmem with hmem | hmem
  · exact absurd hmem (h.not_exhausted hopen cycles)
  · exact absurd hmem (hquiet cycles)

/-- A step of the inner `run_feed`: the supervisor's calls and events are as before. -/
theorem RefreshInvariant.fed {s : SupervisedState M} {n now : ℕ} (h : RefreshInvariant config s n)
    {endpoint : WsFeedEndpoint} {feed : Feed M} (hphase : s.phase = .feeding endpoint feed)
    {action : FeedAction} {after : Feed M × List (Output M)}
    (hstep : feed.step config.runner connector endpoint now s.watch action = some after) :
    RefreshInvariant config (s.after now (supervisedPhase endpoint after.1, s.cycle, after.2))
      n := by
  -- nothing that an inner call puts out is a refresh, its event or a report
  have houtputs := (Feed.step_move hstep).fromFeed
  have htrace : refreshTrace (s.log ++ after.2) = refreshTrace s.log := by
    rw [refreshTrace_append, refreshTrace_fromFeed houtputs, List.append_nil]
  have hstanding := h.standing
  unfold SupervisedState.Standing at hstanding
  rw [hphase] at hstanding
  refine h.of_quiet rfl (fun cycles hmem => (houtputs _ hmem).exhausted cycles rfl)
    (by simp [hphase]) ?_
  unfold SupervisedState.Standing SupervisedState.after
  rcases supervisedPhase_cases endpoint after.1 with
    ⟨result, heq⟩ | ⟨url, attempts, heq⟩ | heq | heq
  · simp only [heq, htrace]
    exact hstanding.1
  · simp only [heq, htrace]
    exact hstanding
  · simp only [heq, htrace]
    exact hstanding.1
  · simp only [heq, htrace]
    exact hstanding

/-- The budget is used up: the report is one more than the refreshes. -/
theorem RefreshInvariant.outOfBudget {s : SupervisedState M} {n now : ℕ}
    (h : RefreshInvariant config s n) {url : String} {attempts : UInt32}
    (hphase : s.phase = .exhausted url attempts) (hmax : s.cycle ≠ u32Max)
    (hexceeded : config.maxRefreshCycles < s.cycle + 1) :
    RefreshInvariant config (s.after now (.returned (.error (.wsDisconnected url attempts)),
      s.cycle + 1, [.event (.refreshExhausted (s.cycle + 1))])) n := by
  have hstanding := h.standing
  unfold SupervisedState.Standing at hstanding
  rw [hphase] at hstanding
  obtain ⟨htrace, hcycle⟩ := hstanding
  have hnext : (s.cycle + 1).toNat = n + 1 := by rw [toNat_add_one hmax, hcycle]
  -- with `n` within the budget this makes `n` the whole of it
  have hlt : config.maxRefreshCycles.toNat < n + 1 := by
    rw [← hnext]
    exact UInt32.lt_iff_toNat_lt.mp hexceeded
  have hbudget := h.budget
  refine ⟨?_, hbudget, fun cycles hmem => ?_⟩
  · show refreshTrace (s.log ++ [.event (.refreshExhausted (s.cycle + 1))]) = refreshesUpTo n
    rw [refreshTrace_append, htrace]
    exact List.append_nil _
  · have hfresh := h.not_exhausted (by simp [hphase]) cycles
    simp only [SupervisedState.after, List.mem_append, List.mem_singleton, Output.event.injEq,
      RunnerEvent.refreshExhausted.injEq] at hmem
    rcases hmem with hmem | rfl
    · exact absurd hmem hfresh
    · exact ⟨by omega, hnext, url, attempts, rfl⟩

/-- One more refresh is announced and called. -/
theorem RefreshInvariant.refresh {s : SupervisedState M} {n now : ℕ}
    (h : RefreshInvariant config s n) (hphase : s.phase = .refreshDue) :
    RefreshInvariant config
      (s.after now (.refreshing, s.cycle, [.event (.tokenRefresh s.cycle), .refresh])) (n + 1) := by
  have hstanding := h.standing
  unfold SupervisedState.Standing at hstanding
  rw [hphase] at hstanding
  obtain ⟨htrace, hcycle, hle⟩ := hstanding
  have hof : s.cycle = UInt32.ofNat (n + 1) := by rw [← hcycle, UInt32.ofNat_toNat]
  refine ⟨⟨?_, hcycle⟩, hle, fun cycles hmem => ?_⟩
  · show refreshTrace (s.log ++ [.event (.tokenRefresh s.cycle), .refresh]) = _
    rw [refreshTrace_append, htrace, refreshesUpTo_succ, ← hof]
    rfl
  -- a refresh is due only while the call is open
  · have hold : .event (.refreshExhausted cycles) ∈ s.log := by
      simpa [SupervisedState.after] using hmem
    exact absurd hold (h.not_exhausted (by simp [hphase]) cycles)

/-- One step keeps the calls, the events and the counter in step. -/
theorem SupervisedState.Move.refreshInvariant {s : SupervisedState M} {now n : ℕ}
    {action : SupervisedAction} {next : SupervisedPhase M × UInt32 × List (Output M)}
    (h : RefreshInvariant config s n) (hmove : s.Move config connector now action next) :
    ∃ n', RefreshInvariant config (s.after now next) n' := by
  have hstanding := h.standing
  unfold SupervisedState.Standing at hstanding
  cases hmove with
  | fed hphase hstep => exact ⟨n, h.fed hphase hstep⟩
  | overflow hphase hmax =>
    rw [hphase] at hstanding
    refine ⟨n, h.of_quiet rfl (by simp) (by simp [hphase]) ?_⟩
    simpa [SupervisedState.Standing, SupervisedState.after] using hstanding.1
  | outOfBudget hphase hmax hexceeded => exact ⟨n, h.outOfBudget hphase hmax hexceeded⟩
  -- the counter runs one ahead of the refreshes until the next one is made
  | inBudget phase hphase hmax hbudget' hnext =>
    rw [hphase] at hstanding
    obtain ⟨htrace, hcycle⟩ := hstanding
    have hsucc : (s.cycle + 1).toNat = n + 1 := by rw [toNat_add_one hmax, hcycle]
    have hle : n + 1 ≤ config.maxRefreshCycles.toNat := by
      rw [← hsucc]
      exact UInt32.le_iff_toNat_le.mp (UInt32.not_lt.mp hbudget')
    refine ⟨n, h.of_quiet rfl (by simp) (by simp [hphase]) ?_⟩
    rcases hnext with rfl | ⟨deadline, rfl⟩
    · simpa [SupervisedState.Standing, SupervisedState.after] using htrace
    · simpa [SupervisedState.Standing, SupervisedState.after] using ⟨htrace, hsucc, hle⟩
  | observed phase hphase hnext =>
    rw [hphase] at hstanding
    refine ⟨n, h.of_quiet rfl (by simp) (by simp [hphase]) ?_⟩
    rcases hnext with rfl | rfl
    · simpa [SupervisedState.Standing, SupervisedState.after] using hstanding.1
    · simpa [SupervisedState.Standing, SupervisedState.after] using hstanding
  | delayOver hphase =>
    rw [hphase] at hstanding
    refine ⟨n, h.of_quiet rfl (by simp) (by simp [hphase]) ?_⟩
    simpa [SupervisedState.Standing, SupervisedState.after] using hstanding
  | bootstrap hphase =>
    rw [hphase] at hstanding
    obtain ⟨htrace, hcycle, rfl⟩ := hstanding
    refine ⟨0, h.of_quiet rfl (by simp) (by simp [hphase]) ?_⟩
    refine ⟨?_, hcycle⟩
    show refreshTrace (s.log ++ [.refresh]) = refreshesUpTo 0
    rw [refreshTrace_append, htrace]
    rfl
  | refresh hphase => exact ⟨n + 1, h.refresh hphase⟩
  | refreshed endpoint hphase =>
    have hsame : refreshTrace s.log = refreshesUpTo n ∧ s.cycle.toNat = n := by
      rcases hphase with hphase | hphase <;> rw [hphase] at hstanding <;> exact hstanding
    refine ⟨n, h.of_quiet rfl (by simp) (by rcases hphase with h | h <;> simp [h]) ?_⟩
    simpa [SupervisedState.Standing, SupervisedState.after] using hsame
  | refreshFailed error hphase =>
    have hsame : refreshTrace s.log = refreshesUpTo n ∧ s.cycle.toNat = n := by
      rcases hphase with hphase | hphase <;> rw [hphase] at hstanding <;> exact hstanding
    refine ⟨n, h.of_quiet rfl (by simp) (by rcases hphase with h | h <;> simp [h]) ?_⟩
    simpa [SupervisedState.Standing, SupervisedState.after] using hsame.1

/-! ## Runs -/

/-- A step of the supervisor is a send on the watch or a move. -/
theorem supervisedStep_cases {s s' : SupervisedState M} {move : ℕ × SupervisedAction}
    (hstep : supervisedStep config connector s move = some s') :
    (∃ value, move.2 = .send value ∧
      s' = { s with now := s.now + move.1, watch := s.watch.send value }) ∨
    ∃ next, s.Move config connector (s.now + move.1) move.2 next ∧
      s' = s.after (s.now + move.1) next := by
  by_cases hsend : ∃ value, move.2 = .send value
  · obtain ⟨value, hvalue⟩ := hsend
    obtain ⟨dt, action⟩ := move
    cases hvalue
    cases hstep
    exact Or.inl ⟨value, rfl, rfl⟩
  · rw [supervisedStep_act (fun value h => hsend ⟨value, h⟩)] at hstep
    obtain ⟨next, hnext, rfl⟩ := Option.map_eq_some_iff.mp hstep
    exact Or.inr ⟨next, SupervisedState.act_move hnext, rfl⟩

/-- Every run of the supervisor keeps the invariant. -/
theorem SupervisedState.refreshInvariant {now seen : ℕ} {watch : Watch}
    {moves : List (ℕ × SupervisedAction)} {s : SupervisedState M}
    (hrun : TransitionSystem.run (supervisedStep config connector) (.start now watch seen)
      moves = some s) : ∃ n, RefreshInvariant config s n := by
  apply TransitionSystem.run_invariant
    (I := fun t : SupervisedState M => ∃ n, RefreshInvariant config t n) _ _ hrun
    ⟨0, ⟨rfl, rfl, rfl⟩, Nat.zero_le _, by simp [SupervisedState.start]⟩
  rintro t move t' ⟨n, ht⟩ hstep
  rcases supervisedStep_cases hstep with ⟨value, _, rfl⟩ | ⟨next, hmove, rfl⟩
  · exact ⟨n, ht.standing, ht.budget, ht.exhausted⟩
  · exact hmove.refreshInvariant ht

/-- A step begins an inner call exactly on a successful result. -/
theorem SupervisedState.Move.endpoint {s : SupervisedState M} {now : ℕ}
    {action : SupervisedAction} {next : SupervisedPhase M × UInt32 × List (Output M)}
    (hmove : s.Move config connector now action next) :
    (∃ endpoint, action = .refreshed endpoint ∧ s.phase.endpoint? = none ∧
      next.1 = .feeding endpoint (.start s.seen)) ∨
    (∀ endpoint, action ≠ .refreshed endpoint) ∧
      (next.1.endpoint? = none ∨ next.1.endpoint? = s.phase.endpoint?) := by
  cases hmove with
  | @fed endpoint feed action after hphase hstep =>
    refine Or.inr ⟨by simp, ?_⟩
    rcases supervisedPhase_cases endpoint after.1 with
      ⟨result, heq⟩ | ⟨url, attempts, heq⟩ | heq | heq
    all_goals simp only [heq, hphase]
    · exact Or.inl rfl
    · exact Or.inl rfl
    · exact Or.inl rfl
    · exact Or.inr rfl
  | refreshed endpoint hphase =>
    refine Or.inl ⟨endpoint, rfl, ?_, rfl⟩
    rcases hphase with h | h <;> rw [h] <;> rfl
  | inBudget phase hphase hmax hbudget hnext =>
    refine Or.inr ⟨by simp, Or.inl ?_⟩
    rcases hnext with rfl | ⟨deadline, rfl⟩ <;> rfl
  | observed phase hphase hnext =>
    refine Or.inr ⟨by simp, Or.inl ?_⟩
    rcases hnext with rfl | rfl <;> rfl
  | overflow | outOfBudget | delayOver | bootstrap | refresh | refreshFailed =>
    exact Or.inr ⟨by simp, Or.inl rfl⟩

/-- The results of the first move, then those of the rest. -/
theorem results_cons (move : ℕ × SupervisedAction) (moves : List (ℕ × SupervisedAction)) :
    results (move :: moves) = results [move] ++ results moves :=
  List.filterMap_append (l := [move])

/-- Only an answered refresh is a result. -/
theorem results_of_ne {move : ℕ × SupervisedAction}
    (h : ∀ endpoint, move.2 ≠ .refreshed endpoint) : results [move] = [] := by
  obtain ⟨dt, action⟩ := move
  cases action with
  | refreshed endpoint => exact absurd rfl (h endpoint)
  | _ => rfl

/-- One step: what the inner calls and the results gain, and the call it leaves in progress. -/
theorem supervisedStep_calls {s t : SupervisedState M} {move : ℕ × SupervisedAction}
    (hstep : supervisedStep config connector s move = some t) :
    (if s.phase.endpoint?.isNone then t.phase.endpoint?.toList else []) = results [move] ∧
      (t.phase.endpoint? = none ∨ results [move] = [] ∧ t.phase.endpoint? = s.phase.endpoint? ∨
        t.phase.endpoint?.toList = results [move]) := by
  -- a call begins with a result and at no other step
  rcases supervisedStep_cases hstep with ⟨value, hsend, rfl⟩ | ⟨next, hmove, rfl⟩
  · have hresults : results [move] = [] := results_of_ne (by simp [hsend])
    refine ⟨?_, Or.inr (Or.inl ⟨hresults, rfl⟩)⟩
    rw [hresults]
    cases s.phase.endpoint? <;> rfl
  · rcases hmove.endpoint with ⟨endpoint, haction, hclosed, hnext⟩ | ⟨hne, hnext⟩
    · have hresults : results [move] = [endpoint] := by
        obtain ⟨dt, action⟩ := move
        cases haction
        rfl
      have hopened : (s.after (s.now + move.1) next).phase.endpoint? = some endpoint := by
        show next.1.endpoint? = some endpoint
        rw [hnext]
        rfl
      refine ⟨?_, Or.inr (Or.inr ?_)⟩
      · rw [hclosed, hopened, hresults]
        rfl
      · rw [hopened, hresults]
        rfl
    · rw [results_of_ne hne]
      have hphase : (s.after (s.now + move.1) next).phase = next.1 := rfl
      rw [hphase]
      rcases hnext with hnone | hsame
      · refine ⟨?_, Or.inl hnone⟩
        rw [hnone]
        cases s.phase.endpoint? <;> rfl
      · refine ⟨?_, Or.inr (Or.inl ⟨rfl, hsame⟩)⟩
        rw [hsame]
        cases s.phase.endpoint? <;> rfl

/-- The inner calls are made on the successful results, one on each. -/
theorem innerCalls_eq_results {s s' : SupervisedState M} {moves : List (ℕ × SupervisedAction)}
    (hrun : TransitionSystem.run (supervisedStep config connector) s moves = some s') :
    innerCalls config connector s moves = results moves := by
  induction moves generalizing s with
  | nil => rfl
  | cons move moves ih =>
    obtain ⟨t, ht, hrest⟩ := (TransitionSystem.run_cons_eq_some _).mp hrun
    rw [results_cons, ← (supervisedStep_calls ht).1, ← ih hrest]
    simp only [innerCalls, ht]

/-- The call in progress is on the latest result, or was so from the start. -/
theorem latest_result {s s' : SupervisedState M} {moves : List (ℕ × SupervisedAction)}
    (hrun : TransitionSystem.run (supervisedStep config connector) s moves = some s')
    {endpoint : WsFeedEndpoint} (hphase : s'.phase.endpoint? = some endpoint) :
    (results moves).getLast? = some endpoint ∨
      results moves = [] ∧ s.phase.endpoint? = some endpoint := by
  induction moves generalizing s with
  | nil =>
    cases hrun
    exact Or.inr ⟨rfl, hphase⟩
  | cons move moves ih =>
    obtain ⟨t, ht, hrest⟩ := (TransitionSystem.run_cons_eq_some _).mp hrun
    rw [results_cons]
    -- a later result wins; without one the call is that of the first step
    rcases ih hrest with hlast | ⟨hnil, hcurrent⟩
    · left
      rw [List.getLast?_append, hlast]
      rfl
    · rw [hnil, List.append_nil]
      rcases (supervisedStep_calls ht).2 with hnone | ⟨hnone, hsame⟩ | hnew
      · rw [hnone] at hcurrent
        cases hcurrent
      · exact Or.inr ⟨hnone, hsame ▸ hcurrent⟩
      · left
        rw [← hnew, hcurrent]
        rfl

/-- A call that has returned does nothing more. -/
theorem SupervisedState.Move.not_returned {s : SupervisedState M} {now : ℕ}
    {action : SupervisedAction} {next : SupervisedPhase M × UInt32 × List (Output M)}
    (hmove : s.Move config connector now action next) (result : Result Unit) :
    s.phase ≠ .returned result := by
  cases hmove with
  | refreshed endpoint hphase => rcases hphase with h | h <;> simp [h]
  | refreshFailed error hphase => rcases hphase with h | h <;> simp [h]
  | fed hphase | overflow hphase | outOfBudget hphase | inBudget _ hphase | observed _ hphase
  | delayOver hphase | bootstrap hphase | refresh hphase => simp [hphase]

/-- After a failed refresh the error is returned, and the log does not grow. -/
theorem refreshFailed_returned {s s' : SupervisedState M}
    {before after : List (ℕ × SupervisedAction)} {dt : ℕ} {error : ExchangeError}
    (hrun : TransitionSystem.run (supervisedStep config connector) s
      (before ++ (dt, .refreshFailed error) :: after) = some s') :
    s'.phase = .returned (.error error) ∧
      ∃ t, TransitionSystem.run (supervisedStep config connector) s before = some t ∧
        s'.log = t.log := by
  rw [TransitionSystem.run_append, Option.bind_eq_some_iff] at hrun
  obtain ⟨t, ht, hrun⟩ := hrun
  obtain ⟨u, hu, hrest⟩ := (TransitionSystem.run_cons_eq_some _).mp hrun
  have hfailed : u.phase = .returned (.error error) ∧ u.log = t.log := by
    rcases supervisedStep_cases hu with ⟨value, hsend, _⟩ | ⟨next, hmove, rfl⟩
    · cases hsend
    · cases hmove
      exact ⟨rfl, List.append_nil _⟩
  -- from there on only the watch can move
  have hend := TransitionSystem.run_invariant (I := fun v : SupervisedState M =>
    v.phase = .returned (.error error) ∧ v.log = t.log) _ (fun v move v' hv hstep => ?_) hrest
    hfailed
  · exact ⟨hend.1, t, ht, hend.2⟩
  · rcases supervisedStep_cases hstep with ⟨value, _, rfl⟩ | ⟨next, hmove, _⟩
    · exact hv
    · exact absurd hv.1 (hmove.not_returned _)

/-- The inner call in progress greets its server on its own endpoint. -/
theorem SupervisedState.greets {now seen : ℕ} {watch : Watch}
    {moves : List (ℕ × SupervisedAction)} {s : SupervisedState M}
    (hrun : TransitionSystem.run (supervisedStep config connector) (.start now watch seen)
      moves = some s) :
    ∀ endpoint feed, s.phase = .feeding endpoint feed →
      feed.phase.Greets connector endpoint (sessionTexts s.log) := by
  apply TransitionSystem.run_invariant (I := fun t : SupervisedState M =>
    ∀ endpoint feed, t.phase = .feeding endpoint feed →
      feed.phase.Greets connector endpoint (sessionTexts t.log)) _ _ hrun
    (by simp [SupervisedState.start])
  rintro t ⟨dt, action⟩ t' ht hstep
  rcases supervisedStep_cases hstep with ⟨value, _, rfl⟩ | ⟨next, hmove, rfl⟩
  · exact ht
  · intro endpoint feed hnext
    dsimp only at hmove
    have hnext : next.1 = .feeding endpoint feed := hnext
    -- either the call goes on, or a result begins one that has greeted nobody
    cases hmove with
    | @fed endpoint' feed' action after hphase hinner =>
      rcases supervisedPhase_cases endpoint' after.1 with
        ⟨result, heq⟩ | ⟨url, attempts, heq⟩ | heq | heq
      all_goals
        rw [heq] at hnext
        cases hnext
      exact ((Feed.step_move hinner).greets (ht _ _ hphase)).1
    | refreshed endpoint' hphase =>
      cases hnext
      exact trivial
    | inBudget phase hphase hmax hbudget hcases =>
      rcases hcases with rfl | ⟨deadline, rfl⟩ <;> cases hnext
    | observed phase hphase hcases =>
      rcases hcases with rfl | rfl <;> cases hnext
    | overflow | outOfBudget | delayOver | bootstrap | refresh | refreshFailed => cases hnext

/-- Connections are made by the inner call, on its endpoint. -/
theorem SupervisedState.Move.connects {s : SupervisedState M} {now : ℕ}
    {action : SupervisedAction} {next : SupervisedPhase M × UInt32 × List (Output M)}
    (hmove : s.Move config connector now action next) {url : String}
    (hmem : .connect url ∈ next.2.2) :
    ∃ endpoint feed, s.phase = .feeding endpoint feed ∧ url = endpoint.url := by
  cases hmove with
  | @fed endpoint feed action after hphase hstep =>
    exact ⟨endpoint, feed, hphase, ((Feed.step_move hstep).fromFeed _ hmem).connect url rfl⟩
  | overflow | outOfBudget | inBudget | observed | delayOver | bootstrap | refresh | refreshed
  | refreshFailed => simp at hmem

/-- After an exhausted inner call the budget is reported exactly when it is used up. -/
theorem RefreshInvariant.exhausts {s : SupervisedState M} {n now : ℕ}
    (h : RefreshInvariant config s n) {url : String} {attempts : UInt32}
    (hphase : s.phase = .exhausted url attempts) (hmax : config.maxRefreshCycles ≠ u32Max)
    {next : SupervisedPhase M × UInt32 × List (Output M)}
    (hmove : s.Move config connector now .decide next) :
    (∃ cycles, next.2.2 = [.event (.refreshExhausted cycles)]) ↔
      n = config.maxRefreshCycles.toNat := by
  have hcycle : s.cycle.toNat = n := by
    have hstanding := h.standing
    unfold SupervisedState.Standing at hstanding
    rw [hphase] at hstanding
    exact hstanding.2
  have hbudget := h.budget
  cases hmove with
  | overflow hphase' hover =>
    -- the counter never passes a budget below the largest
    have hlt := config.maxRefreshCycles.toNat_lt
    have hne : config.maxRefreshCycles.toNat ≠ 2 ^ 32 - 1 := fun heq =>
      hmax (UInt32.toNat_inj.mp heq)
    have hn : n = 2 ^ 32 - 1 := by rw [← hcycle, hover]; rfl
    omega
  | outOfBudget hphase' hover hexceeded =>
    have hexceeded := UInt32.lt_iff_toNat_lt.mp hexceeded
    rw [toNat_add_one hover, hcycle] at hexceeded
    exact iff_of_true ⟨_, rfl⟩ (by omega)
  | inBudget phase hphase' hover hwithin hnext =>
    have hwithin := UInt32.le_iff_toNat_le.mp (UInt32.not_lt.mp hwithin)
    rw [toNat_add_one hover, hcycle] at hwithin
    exact iff_of_false (by simp) (by omega)

end ExchangeApiws.Native.Runner

namespace ExchangeApiws.Spec

open Native Native.Runner TransitionSystem

/-- For every run of `run_feed_supervised`, whatever its inner calls and its refreshes come to:
    the inner calls are made on the successful results, in order; the closure is called once at
    entry and once after each `TokenRefresh` event, and these count up from `1` within the
    budget; the first error is returned and ends the run; and an exhausted budget is reported
    exactly when it is used up, as one more than the refreshes attempted. -/
theorem supervisor_refreshes {M : Type} (config : SupervisedConfig) (connector : Connector M)
    (now : ℕ) (watch : Watch) (seen : ℕ) (moves : List (ℕ × SupervisedAction))
    (s : SupervisedState M)
    (hrun : run (supervisedStep config connector) (.start now watch seen) moves = some s) :
    SupervisorRun config connector (.start now watch seen) moves s ∧
      ∀ move s', supervisedStep config connector s move = some s' →
        SupervisorTransition config s move.2 s' := by
  obtain ⟨n, hinvariant⟩ := SupervisedState.refreshInvariant hrun
  obtain ⟨hattempted, htrace⟩ := hinvariant.attempted
  constructor
  -- the run so far, and then any step from where it has come to
  · refine ⟨innerCalls_eq_results hrun, ?_, ?_, ?_, ?_, ?_⟩
    · intro endpoint feed hphase
      have hgreets := SupervisedState.greets hrun endpoint feed hphase
      refine ⟨?_, hgreets.beforeLoop, fun hloop => (Phase.greets_of_inLoop hloop).mp hgreets⟩
      have hcurrent : s.phase.endpoint? = some endpoint := by rw [hphase]; rfl
      rcases latest_result hrun hcurrent with hlast | ⟨_, hstart⟩
      · exact hlast
      · cases hstart
    · rw [hattempted]
      exact htrace
    · rw [hattempted]
      exact hinvariant.budget
    · rintro before dt error after rfl
      exact refreshFailed_returned hrun
    · intro cycles hmem
      rw [hattempted]
      exact hinvariant.exhausted cycles hmem
  · intro move s' hstep
    rcases supervisedStep_cases hstep with ⟨value, hsend, rfl⟩ | ⟨next, hmove, rfl⟩
    · refine ⟨fun outputs url hlog hmem => ?_, fun _ _ _ haction => ?_⟩
      · have hnil : outputs = [] := by simpa using hlog
        rw [hnil] at hmem
        cases hmem
      · rw [haction] at hsend
        cases hsend
    · refine ⟨fun outputs url hlog hmem => ?_, fun url attempts hphase haction hmax => ?_⟩
      · have hsame : next.2.2 = outputs := List.append_cancel_left hlog
        exact hmove.connects (hsame ▸ hmem)
      · rw [haction] at hmove
        rw [hattempted, ← hinvariant.exhausts hphase hmax hmove]
        constructor
        · rintro ⟨cycles, hlog⟩
          exact ⟨cycles, List.append_cancel_left hlog⟩
        · rintro ⟨cycles, hlog⟩
          exact ⟨cycles, congrArg (s.log ++ ·) hlog⟩

/-- One attempt for each cycle, and a budget of one refresh. -/
def oneRefresh : SupervisedConfig where
  runner := { WsRunnerConfig.default with maxReconnectAttempts := 0 }
  maxRefreshCycles := 1
  refreshDelaySecs := 5

/-- A public stream that yields no messages. -/
def silentConnector : Connector Unit where
  authMessage _ := none
  pingMessage _ := none
  responseFor _ _ := none
  parseMessage _ _ := .ok []

/-- No connection succeeds: one refresh, then the budget is exhausted. -/
def refusedMoves : List (ℕ × SupervisedAction) :=
  [(0, .refresh), (0, .refreshed ⟨"wss://first", []⟩), (0, .feed .iterate),
    (0, .feed .connectFailed), (0, .decide), (5000000000, .delayOver), (0, .refresh),
    (0, .refreshed ⟨"wss://second", []⟩), (0, .feed .iterate), (0, .feed .connectFailed),
    (0, .decide)]

/-- The run of the example refreshes once and exhausts its budget. -/
theorem supervisor_refreshes_refused :
    ∃ s, run (supervisedStep oneRefresh silentConnector) (.start 0 ⟨false, 0⟩ 0) refusedMoves =
        some s ∧
      SupervisorRun oneRefresh silentConnector (.start 0 ⟨false, 0⟩ 0) refusedMoves s :=
  ⟨_, rfl, (supervisor_refreshes oneRefresh silentConnector 0 ⟨false, 0⟩ 0 refusedMoves _ rfl).1⟩

/-- The report of an exhausted budget is not the number of refreshes attempted: one refresh is
    reported as two. -/
theorem not_exhausted_counts_refreshes :
    ¬ ∀ (moves : List (ℕ × SupervisedAction)) (s : SupervisedState Unit) (cycles : UInt32),
      run (supervisedStep oneRefresh silentConnector) (.start 0 ⟨false, 0⟩ 0) moves = some s →
      .event (.refreshExhausted cycles) ∈ s.log → cycles.toNat = attemptedRefreshes s.log := by
  intro h
  have hcount := h refusedMoves _ 2 rfl (by decide)
  revert hcount
  decide

end ExchangeApiws.Spec
