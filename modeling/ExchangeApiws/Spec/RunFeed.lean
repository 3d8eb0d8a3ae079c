import Mathlib.Data.List.Infix
import ExchangeApiws.Spec.FeedStep

/-!
# The reconnect loop as a reference machine

`run_feed` keeps a counter that it increments, resets and compares while it runs. The
reference machine has no counter: after each session it looks at the history and counts the
short disconnected sessions at its end. The file shows that the loop returns at the same
session with the same result, and emits the events that the history prescribes.

## Key results

- `afterSession_spec`: what `run_feed` does after one session, from the history
- `runSessions_reference`: what it does over any list of sessions
- `runFeed_sessions`: the sessions that end in a run of the state machine are such a list
- `runFeed_reference`: what a run of the state machine has returned and emitted, from its sessions
-/

namespace ExchangeApiws.Spec

open Native Native.Runner

variable {config : WsRunnerConfig} {url : String}

/-! ## The reference machine -/

/-- A `Disconnected` session shorter than the stable duration. -/
def isShort (session : Session) : Bool :=
  session.outcome = .disconnected && session.uptimeSecs < STABLE_SESSION_SECS

/-- The number of consecutive short sessions at the end of a history. -/
def shortStreak (history : List Session) : ℕ := (history.reverse.takeWhile isShort).length

/-- What the reference machine returns at the last session of a history, if it stops there. -/
def stop (config : WsRunnerConfig) (url : String) (history : List Session) :
    Option (Result Unit) :=
  match history.getLast? with
  | none => none
  | some session =>
    match session.outcome with
    | .shutdownRequested => some (.ok ())
    | .receiverDropped => some (.ok ())
    | .disconnected =>
      if shortStreak history = config.maxReconnectAttempts.toNat + 1 then
        some (.error (.wsDisconnected url (config.maxReconnectAttempts + 1)))
      else none

/-- The `SessionEnded` events of the sessions after a history: one for each `Disconnected`
    session, with the short sessions just before it as its attempt. -/
def endedEvents (history : List Session) : List Session → List RunnerEvent
  | [] => []
  | session :: rest =>
    let event := RunnerEvent.sessionEnded (UInt32.ofNat (shortStreak history)) session.uptimeSecs
      (isCascadeStart (UInt32.ofNat (shortStreak history)) session.uptimeSecs)
    (if session.outcome = .disconnected then [event] else []) ++
      endedEvents (history ++ [session]) rest

/-- The event that announces an error, if `run_feed` returns one. -/
def exhaustedEvents (config : WsRunnerConfig) : Option AfterSession → List RunnerEvent
  | some (.returned (.error _)) => [.reconnectsExhausted (config.maxReconnectAttempts + 1)]
  | _ => []

/-- A short session adds one to the streak, any other ends it. -/
theorem shortStreak_append (history : List Session) (session : Session) :
    shortStreak (history ++ [session]) =
      if isShort session then shortStreak history + 1 else 0 := by
  simp only [shortStreak, List.reverse_append, List.reverse_singleton, List.singleton_append,
    List.takeWhile_cons]
  split
  · rfl
  · rfl

/-- What the machine does after one more session. -/
theorem stop_append (history : List Session) (session : Session) :
    stop config url (history ++ [session]) =
      match session.outcome with
      | .shutdownRequested => some (.ok ())
      | .receiverDropped => some (.ok ())
      | .disconnected =>
        if shortStreak (history ++ [session]) = config.maxReconnectAttempts.toNat + 1 then
          some (.error (.wsDisconnected url (config.maxReconnectAttempts + 1)))
        else none := by
  simp only [stop, List.getLast?_append_cons, List.getLast?_singleton]

/-! ## One session -/

/-- The counter agrees with the history and is within the budget. -/
structure Counts (config : WsRunnerConfig) (attempts : UInt32) (history : List Session) : Prop where
  eq : attempts = UInt32.ofNat (shortStreak history)
  le : shortStreak history ≤ config.maxReconnectAttempts.toNat

/-- After one more session the loop emits the events that the history prescribes, and either
    goes on with a counter that agrees with the longer history or returns where the reference
    machine stops. -/
theorem afterSession_spec (url : String) (hmax : config.maxReconnectAttempts < u32Max)
    {attempts : UInt32} {history : List Session} (h : Counts config attempts history)
    (session : Session) :
    (afterSession config url attempts session).1 = endedEvents history [session] ++
        exhaustedEvents config (some (afterSession config url attempts session).2) ∧
      (stop config url (history ++ [session]) = none ∧
          (∃ next, (afterSession config url attempts session).2 = .again next ∧
            Counts config next (history ++ [session])) ∨
        ∃ result, stop config url (history ++ [session]) = some result ∧
          (afterSession config url attempts session).2 = .returned result ∧
          shortStreak (history ++ [session]) ≤ config.maxReconnectAttempts.toNat + 1) := by
  have hM : config.maxReconnectAttempts.toNat < 2 ^ 32 - 1 := UInt32.lt_iff_toNat_lt.mp hmax
  have hattempts : attempts.toNat = shortStreak history := by
    rw [h.eq, UInt32.toNat_ofNat']
    exact Nat.mod_eq_of_lt (by have := h.le; omega)
  rw [stop_append, shortStreak_append]
  cases houtcome : session.outcome with
  | shutdownRequested =>
    have hshort : isShort session = false := by simp [isShort, houtcome]
    simp [afterSession, endedEvents, exhaustedEvents, houtcome, hshort]
  | receiverDropped =>
    have hshort : isShort session = false := by simp [isShort, houtcome]
    simp [afterSession, endedEvents, exhaustedEvents, houtcome, hshort]
  | disconnected =>
    by_cases hstable : STABLE_SESSION_SECS ≤ session.uptimeSecs
    · -- a stable session ends the streak, and the counter is reset
      have hshort : isShort session = false := by simp [isShort, houtcome, hstable]
      refine ⟨?_, Or.inl ⟨?_, 0, ?_, ?_⟩⟩
      · simp [afterSession, endedEvents, exhaustedEvents, houtcome, hstable, ← h.eq]
      · simp [hshort]
      · simp [afterSession, houtcome, hstable]
      · exact ⟨by rw [shortStreak_append, hshort]; rfl, by rw [shortStreak_append, hshort]; simp⟩
    · have hshort : isShort session = true := by
        simp only [isShort, houtcome, decide_true, Bool.true_and, decide_eq_true_eq]
        exact UInt64.not_le.mp hstable
      have hne : attempts ≠ u32Max := by
        intro heq
        have := h.le
        rw [← hattempts, heq] at this
        exact absurd hM (Nat.not_lt_of_le this)
      have hnext : (attempts + 1).toNat = shortStreak history + 1 := by
        rw [toNat_add_one hne, hattempts]
      have hlast : config.maxReconnectAttempts < attempts + 1 ↔
          shortStreak history = config.maxReconnectAttempts.toNat := by
        rw [UInt32.lt_iff_toNat_lt, hnext]
        have := h.le
        omega
      rw [if_pos hshort]
      by_cases hexhausted : shortStreak history = config.maxReconnectAttempts.toNat
      · -- the budget is used up: the counter equals the maximum
        have hsame : attempts = config.maxReconnectAttempts :=
          UInt32.toNat_inj.mp (hattempts.trans hexhausted)
        have hafter : afterSession config url attempts session =
            ([.sessionEnded attempts session.uptimeSecs
                (isCascadeStart attempts session.uptimeSecs),
              .reconnectsExhausted (attempts + 1)],
              .returned (.error (.wsDisconnected url (attempts + 1)))) := by
          simp only [afterSession, houtcome]
          rw [if_neg hstable, if_neg hne, if_pos (hlast.mpr hexhausted)]
        rw [hafter]
        refine ⟨?_, Or.inr ⟨.error (.wsDisconnected url (attempts + 1)), ?_, rfl, ?_⟩⟩
        · simp [endedEvents, exhaustedEvents, houtcome, ← h.eq, hsame]
        · simp [hexhausted, hsame]
        · omega
      · -- the streak grows and the counter with it
        have hagain : ¬ config.maxReconnectAttempts < attempts + 1 := mt hlast.mp hexhausted
        refine ⟨?_, Or.inl ⟨?_, attempts + 1, ?_, ?_, ?_⟩⟩
        · simp [afterSession, endedEvents, exhaustedEvents, houtcome, hstable, hne, hagain, ← h.eq]
        · simp [hexhausted]
        · simp [afterSession, houtcome, hstable, hne, hagain]
        · rw [shortStreak_append, if_pos hshort, ← hnext, UInt32.ofNat_toNat]
        · rw [shortStreak_append, if_pos hshort]
          have := h.le
          omega

/-! ## All sessions -/

/-- The reference machine stops after `history`, the first part of `sessions` at which it
    stops at all. -/
structure StopsAfter (config : WsRunnerConfig) (url : String) (sessions history : List Session)
    (result : Result Unit) : Prop where
  isPrefix : history <+: sessions
  stops : stop config url history = some result
  first : ∀ earlier, earlier <+: history → earlier ≠ history → stop config url earlier = none

/-- The machine does not stop before the first session. -/
theorem stop_nil : stop config url [] = none := rfl

/-- The machine stops after one part of the sessions only. -/
theorem StopsAfter.unique {sessions history history' : List Session} {result result' : Result Unit}
    (h : StopsAfter config url sessions history result)
    (h' : StopsAfter config url sessions history' result') : history = history' := by
  -- of two prefixes of one list, the longer one would not be the first to stop
  cases List.prefix_or_prefix_of_prefix h.isPrefix h'.isPrefix with
  | inl hle =>
    by_contra hne
    have hnone := h'.first history hle hne
    simp [h.stops] at hnone
  | inr hle =>
    by_contra hne
    have hnone := h.first history' hle (Ne.symm hne)
    simp [h'.stops] at hnone

/-- The events of one session, then those of the rest. -/
theorem endedEvents_cons (history : List Session) (session : Session) (rest : List Session) :
    endedEvents history (session :: rest) =
      endedEvents history [session] ++ endedEvents (history ++ [session]) rest := by
  simp only [endedEvents, List.append_nil]

/-- The loop has run all of `sessions` without stopping. -/
def GoesOn (config : WsRunnerConfig) (url : String) (before sessions : List Session)
    (run : FeedRun) : Prop :=
  run.ending = none ∧ run.sessions = sessions ∧
    ∀ later, later <+: sessions → later ≠ [] → stop config url (before ++ later) = none

/-- The loop has returned after the first sessions at which the reference machine stops. -/
def Returns (config : WsRunnerConfig) (url : String) (before sessions : List Session)
    (run : FeedRun) : Prop :=
  ∃ result, run.ending = some (.returned result) ∧ run.sessions <+: sessions ∧
    stop config url (before ++ run.sessions) = some result ∧
    ∀ later, later <+: run.sessions → later ≠ [] → later ≠ run.sessions →
      stop config url (before ++ later) = none

/-- A fact about the nonempty parts of `session :: rest`, from the first part and the others. -/
theorem prefix_cons {before : List Session} {session : Session} {rest : List Session}
    {P : List Session → Prop} (hone : P (before ++ [session]))
    (hmore : ∀ later, later <+: rest → later ≠ [] → P (before ++ [session] ++ later)) :
    ∀ later, later <+: session :: rest → later ≠ [] → P (before ++ later) := by
  intro later hlater hne
  cases List.prefix_cons_iff.mp hlater with
  | inl hnil => exact absurd hnil hne
  | inr hcons =>
    obtain ⟨later, rfl, hrest⟩ := hcons
    rw [List.append_cons]
    by_cases hnil : later = []
    · rw [hnil, List.append_nil]; exact hone
    · exact hmore later hrest hnil

/-- The loop from a counter that agrees with the history so far. -/
theorem runSessions_from (hmax : config.maxReconnectAttempts < u32Max) {attempts : UInt32}
    {before : List Session} (h : Counts config attempts before) (sessions : List Session)
    {run : FeedRun} (hrun : runSessions config url attempts sessions = run) :
    run.events = endedEvents before run.sessions ++ exhaustedEvents config run.ending ∧
    (GoesOn config url before sessions run ∨ Returns config url before sessions run) ∧
    ∀ later, later <+: run.sessions →
      shortStreak (before ++ later) ≤ config.maxReconnectAttempts.toNat + 1 := by
  induction sessions generalizing attempts before run with
  | nil =>
    subst hrun
    refine ⟨rfl, Or.inl ⟨rfl, rfl, ?_⟩, ?_⟩
    · intro later hlater hne
      exact absurd (List.prefix_nil.mp hlater) hne
    · intro later hlater
      rw [List.prefix_nil.mp hlater, List.append_nil]
      exact Nat.le_succ_of_le h.le
  | cons session rest ih =>
    obtain ⟨hevents, hcase⟩ := afterSession_spec url hmax h session
    -- the streaks along `session :: rest`, from the one after `session` and those after it
    have hstreaks : ∀ {rest}, shortStreak (before ++ [session]) ≤
          config.maxReconnectAttempts.toNat + 1 →
        (∀ later, later <+: rest → shortStreak (before ++ [session] ++ later) ≤
          config.maxReconnectAttempts.toNat + 1) →
        ∀ later, later <+: session :: rest →
          shortStreak (before ++ later) ≤ config.maxReconnectAttempts.toNat + 1 := by
      intro rest hone hmore later hlater
      by_cases hnil : later = []
      · rw [hnil, List.append_nil]; exact Nat.le_succ_of_le h.le
      · exact prefix_cons (P := fun history => shortStreak history ≤ _) hone
          (fun later hlater _ => hmore later hlater) later hlater hnil
    cases hafter : afterSession config url attempts session with
    | mk events next =>
      rw [hafter] at hevents hcase
      cases hcase with
      | inl hagain =>
        -- the loop goes on, and the induction takes the longer history
        obtain ⟨hnone, attempts', hnext, hcounts⟩ := hagain
        simp only at hnext hevents
        subst hnext
        obtain ⟨hlater, hrest, hstreak⟩ := ih hcounts rfl
        simp only [runSessions, hafter] at hrun
        subst hrun
        refine ⟨?_, ?_, ?_⟩
        · rw [endedEvents_cons, hlater, hevents, List.append_assoc, List.append_assoc]
          rfl
        · cases hrest with
          | inl hgoes =>
            obtain ⟨hending, hsessions, hstops⟩ := hgoes
            refine Or.inl ⟨hending, congrArg (session :: ·) hsessions, ?_⟩
            exact prefix_cons (P := fun history => stop config url history = none) hnone hstops
          | inr hreturns =>
            obtain ⟨result, hending, hpre, hstop, hfirst⟩ := hreturns
            refine Or.inr ⟨result, hending, (List.prefix_cons_inj session).mpr hpre, ?_, ?_⟩
            · rw [List.append_cons]; exact hstop
            · intro later hlater hne hne'
              refine prefix_cons (P := fun history => history ≠ before ++ (session :: _) →
                stop config url history = none) (fun _ => hnone) ?_ later hlater hne
                (fun hsame => hne' (List.append_cancel_left hsame))
              intro later hlater hne hsame
              exact hfirst later hlater hne (fun heq => hsame (by rw [heq, List.append_assoc]; rfl))
        · have hone := hstreak [] List.nil_prefix
          rw [List.append_nil] at hone
          exact hstreaks hone hstreak
      | inr hreturned =>
        -- the loop returns after `session`, the only nonempty part of what it has run
        obtain ⟨result, hstop, hnext, hstreak⟩ := hreturned
        simp only at hnext hevents
        subst hnext
        simp only [runSessions, hafter] at hrun
        subst hrun
        refine ⟨by rw [hevents], Or.inr ⟨result, rfl, ?_, hstop, ?_⟩, ?_⟩
        · exact (List.prefix_cons_inj session).mpr List.nil_prefix
        · intro later hlater hne hne'
          cases List.prefix_cons_iff.mp hlater with
          | inl hnil => exact absurd hnil hne
          | inr hcons =>
            obtain ⟨later, rfl, hrest⟩ := hcons
            rw [List.prefix_nil.mp hrest] at hne'
            exact absurd rfl hne'
        · refine hstreaks hstreak (fun later hlater => ?_)
          rw [List.prefix_nil.mp hlater, List.append_nil]
          exact hstreak

/-- `run_feed` returns exactly where the reference machine stops, and with its result; it
    emits one `SessionEnded` event for each `Disconnected` session that has run, in order,
    whose attempt is the number of short sessions just before it, and after them
    `ReconnectsExhausted` if and only if it returns an error. -/
theorem runSessions_reference (config : WsRunnerConfig) (url : String)
    (hmax : config.maxReconnectAttempts < u32Max) (sessions : List Session) :
    let run := runSessions config url 0 sessions
    (∀ history result, StopsAfter config url sessions history result ↔
      run.sessions = history ∧ run.ending = some (.returned result)) ∧
    ((∀ history, history <+: sessions → stop config url history = none) ↔
      run.sessions = sessions ∧ run.ending = none) ∧
    run.events = endedEvents [] run.sessions ++ exhaustedEvents config run.ending ∧
    ∀ history, history <+: run.sessions → shortStreak history < 2 ^ 32 := by
  have hcounts : Counts config 0 [] := ⟨rfl, Nat.zero_le _⟩
  intro run
  obtain ⟨hevents, hcase, hstreak⟩ := runSessions_from hmax hcounts sessions (rfl : _ = run)
  have hM : config.maxReconnectAttempts.toNat < 2 ^ 32 - 1 := UInt32.lt_iff_toNat_lt.mp hmax
  have hlt : ∀ history, history <+: run.sessions → shortStreak history < 2 ^ 32 := by
    intro history hpre
    have hle := hstreak history hpre
    rw [List.nil_append] at hle
    omega
  cases hcase with
  | inl hgoes =>
    -- no part of the sessions stops the machine, and the loop has run them all
    obtain ⟨hending, hsessions, hstops⟩ := hgoes
    have hall : ∀ history, history <+: sessions → stop config url history = none := by
      intro history hpre
      by_cases hnil : history = []
      · rw [hnil]; exact stop_nil
      · exact hstops history hpre hnil
    refine ⟨fun history result => ⟨fun hstop => ?_, fun hret => ?_⟩, ?_, hevents, hlt⟩
    · have hnone := hall history hstop.isPrefix
      simp [hstop.stops] at hnone
    · rw [hending] at hret
      cases hret.2
    · exact ⟨fun _ => ⟨hsessions, hending⟩, fun _ => hall⟩
  | inr hreturns =>
    -- the sessions that have run are the first part that stops the machine
    obtain ⟨result₀, hending, hpre, hstop, hfirst⟩ := hreturns
    have hstops : StopsAfter config url sessions run.sessions result₀ := by
      refine ⟨hpre, hstop, fun earlier hearlier hne => ?_⟩
      by_cases hnil : earlier = []
      · rw [hnil]; exact stop_nil
      · exact hfirst earlier hearlier hnil hne
    refine ⟨fun history result => ⟨fun h => ?_, fun hret => ?_⟩, ⟨fun hall => ?_, fun hret => ?_⟩,
      hevents, hlt⟩
    · have hsame := h.unique hstops
      have hresult := h.stops
      rw [hsame, hstops.stops] at hresult
      exact ⟨hsame.symm, by rw [hending, Option.some.inj hresult]⟩
    · obtain ⟨rfl, hret⟩ := hret
      rw [hending] at hret
      cases hret
      exact hstops
    · have hnone := hall run.sessions hpre
      simp [hstops.stops] at hnone
    · rw [hending] at hret
      cases hret.2

/-- A stable session resets the counter, so the error comes after the last session only. -/
def exampleSessions : List Session :=
  [⟨.disconnected, 3⟩, ⟨.disconnected, 70⟩, ⟨.disconnected, 2⟩, ⟨.disconnected, 59⟩]

/-- The machine stops after the two short sessions at the end. -/
theorem runSessions_reference_example :
    StopsAfter { WsRunnerConfig.default with maxReconnectAttempts := 1 } "wss://feed"
      exampleSessions exampleSessions (.error (.wsDisconnected "wss://feed" 2)) :=
  ((runSessions_reference { WsRunnerConfig.default with maxReconnectAttempts := 1 } "wss://feed"
    (by decide) exampleSessions).1 exampleSessions (.error (.wsDisconnected "wss://feed" 2))).mpr
    (by decide)

/-! ## Runs of the state machine -/

variable {M : Type}

/-- The sessions that have ended, in order. -/
def sessionsOf (log : List (Output M)) : List Session :=
  log.filterMap fun
    | .sessionEnd session => some session
    | _ => none

/-- The events that have been emitted, in order. -/
def eventsOf (log : List (Output M)) : List RunnerEvent :=
  log.filterMap fun
    | .event event => some event
    | _ => none

/-- The counter after sessions that do not end the loop. -/
def attemptsAfter (config : WsRunnerConfig) (url : String) (attempts : UInt32) :
    List Session → UInt32
  | [] => attempts
  | session :: rest =>
    match (afterSession config url attempts session).2 with
    | .again next => attemptsAfter config url next rest
    | _ => attempts

/-- The end of the loop that a decision after a session makes. -/
def endingOf : AfterSession → Option AfterSession
  | .again _ => none
  | ending => some ending

/-- One more session after sessions that do not end the loop. -/
theorem runSessions_concat {attempts : UInt32} {sessions : List Session}
    (hgoes : (runSessions config url attempts sessions).ending = none) (session : Session) :
    runSessions config url attempts (sessions ++ [session]) =
        ⟨(runSessions config url attempts sessions).events ++
            (afterSession config url (attemptsAfter config url attempts sessions) session).1,
          sessions ++ [session],
          endingOf
            (afterSession config url (attemptsAfter config url attempts sessions) session).2⟩ ∧
      ∀ next, (afterSession config url (attemptsAfter config url attempts sessions) session).2 =
          .again next →
        attemptsAfter config url attempts (sessions ++ [session]) = next := by
  induction sessions generalizing attempts with
  | nil =>
    cases hafter : afterSession config url attempts session with
    | mk events next =>
      cases next <;> simp [runSessions, attemptsAfter, hafter, endingOf]
  | cons first rest ih =>
    cases hafter : afterSession config url attempts first with
    | mk events next =>
      cases next with
      | again next =>
        simp only [runSessions, hafter] at hgoes
        obtain ⟨hrun, hnext⟩ := ih hgoes
        simp only [List.cons_append, runSessions, attemptsAfter, hafter, hrun, List.append_assoc]
        exact ⟨trivial, hnext⟩
      | returned result => simp [runSessions, hafter] at hgoes
      | overflow => simp [runSessions, hafter] at hgoes

/-- No session ends in plain outputs. -/
theorem sessionsOf_plain {outputs : List (Output M)}
    (h : ∀ output ∈ outputs, output.isPlain = true) : sessionsOf outputs = [] := by
  rw [sessionsOf, List.filterMap_eq_nil_iff]
  intro output houtput
  cases output with
  | sessionEnd session => cases h _ houtput
  | _ => rfl

/-- Plain outputs are no events. -/
theorem eventsOf_plain {outputs : List (Output M)}
    (h : ∀ output ∈ outputs, output.isPlain = true) : eventsOf outputs = [] := by
  rw [eventsOf, List.filterMap_eq_nil_iff]
  intro output houtput
  cases output with
  | event event => cases h _ houtput
  | _ => rfl

/-- The sessions of a longer log. -/
theorem sessionsOf_append (log outputs : List (Output M)) :
    sessionsOf (log ++ outputs) = sessionsOf log ++ sessionsOf outputs := List.filterMap_append

/-- The events of a longer log. -/
theorem eventsOf_append (log outputs : List (Output M)) :
    eventsOf (log ++ outputs) = eventsOf log ++ eventsOf outputs := List.filterMap_append

/-- The end of a session is one session. -/
theorem sessionsOf_endSession (session : Session) (events : List RunnerEvent) :
    sessionsOf (.sessionEnd session :: events.map .event : List (Output M)) = [session] := by
  have hnone : sessionsOf (events.map .event : List (Output M)) = [] := by
    rw [sessionsOf, List.filterMap_eq_nil_iff]
    intro output houtput
    obtain ⟨event, -, rfl⟩ := List.mem_map.mp houtput
    rfl
  rw [sessionsOf, List.filterMap_cons]
  exact congrArg (session :: ·) hnone

/-- The end of a session has the events of the decision. -/
theorem eventsOf_endSession (session : Session) (events : List RunnerEvent) :
    eventsOf (.sessionEnd session :: events.map .event : List (Output M)) = events := by
  rw [eventsOf, List.filterMap_cons, List.filterMap_map]
  exact List.filterMap_some

/-- The call stands where the loop over its ended sessions stands. -/
def Stands (config : WsRunnerConfig) (url : String) (sessions : List Session) (feed : Feed M) :
    Option AfterSession → Prop
  | none => attemptsAfter config url 0 sessions = feed.attempts ∧
      ∀ result, feed.phase ≠ .returned result
  | some (.returned result) => feed.phase = .returned result
  | some .overflow => feed.phase = .panicked
  | some (.again _) => False

/-- After the end of a session the call stands where the loop stands. -/
theorem stands_endSession {sessions : List Session} {feed : Feed M} {now : ℕ}
    {outcome : SessionOutcome}
    (hnext : ∀ next, (afterSession config url feed.attempts
        ⟨outcome, elapsedSecs feed.sessionStart now⟩).2 = .again next →
      attemptsAfter config url 0 (sessions ++ [⟨outcome, elapsedSecs feed.sessionStart now⟩]) =
        next) :
    Stands config url (sessions ++ [⟨outcome, elapsedSecs feed.sessionStart now⟩])
      (feed.endSession config url now outcome).1
      (endingOf (afterSession config url feed.attempts
        ⟨outcome, elapsedSecs feed.sessionStart now⟩).2) := by
  simp only [Feed.endSession]
  cases hafter : (afterSession config url feed.attempts
      ⟨outcome, elapsedSecs feed.sessionStart now⟩).2 with
  | again next => exact ⟨hnext next hafter, by simp⟩
  | returned result => rfl
  | overflow => rfl

/-- A run of the state machine does what `runSessions` does with the sessions that have ended
    in it. -/
theorem runFeed_sessions {connector : Connector M} {endpoint : WsFeedEndpoint} {now seen : ℕ}
    {watch : Watch} {moves : List (ℕ × RunAction)} {s : FeedState M}
    (hrun : TransitionSystem.run (runFeedStep config connector endpoint) (.start now watch seen)
      moves = some s) :
    runSessions config endpoint.url 0 (sessionsOf s.log) =
        ⟨eventsOf s.log, sessionsOf s.log,
          (runSessions config endpoint.url 0 (sessionsOf s.log)).ending⟩ ∧
      Stands config endpoint.url (sessionsOf s.log) s.feed
        (runSessions config endpoint.url 0 (sessionsOf s.log)).ending := by
  have hstart : ∀ result, (FeedState.start now watch seen : FeedState M).feed.phase ≠
      .returned result := by
    simp [FeedState.start, Feed.start]
  apply runFeed_invariant
    (I := fun feed log =>
      runSessions config endpoint.url 0 (sessionsOf log) =
        ⟨eventsOf log, sessionsOf log,
          (runSessions config endpoint.url 0 (sessionsOf log)).ending⟩ ∧
      Stands config endpoint.url (sessionsOf log) feed
        (runSessions config endpoint.url 0 (sessionsOf log)).ending) _ hrun
    ⟨rfl, rfl, hstart⟩
  intro feed log now watch action after h hafter
  obtain ⟨heq, hstands⟩ := h
  cases hending : (runSessions config endpoint.url 0 (sessionsOf log)).ending with
  | some ending =>
    -- the call is over and makes no step
    rw [hending] at hstands
    have hover : (∃ result, feed.phase = .returned result) ∨ feed.phase = .panicked := by
      cases ending with
      | again next => exact hstands.elim
      | returned result => exact Or.inl ⟨result, hstands⟩
      | overflow => exact Or.inr hstands
    simp [Feed.step_over hover] at hafter
  | none =>
    rw [hending] at hstands
    cases Feed.step_cases hafter with
    | moved hmoved hplain =>
      -- the session goes on: its outputs add neither a session nor an event
      rw [sessionsOf_append, eventsOf_append, sessionsOf_plain hplain, eventsOf_plain hplain,
        List.append_nil, List.append_nil, hending]
      rw [hending] at heq
      exact ⟨heq, hstands.1.trans hmoved.attempts.symm, hmoved.notReturned⟩
    | ended outcome hplain =>
      -- one more session has ended, and `afterSession` decides in both
      obtain ⟨hconcat, hnext⟩ := runSessions_concat hending
        ⟨outcome, elapsedSecs feed.sessionStart now⟩
      rw [hstands.1] at hconcat hnext
      dsimp only
      rw [sessionsOf_append, sessionsOf_append, eventsOf_append, eventsOf_append,
        sessionsOf_plain hplain, eventsOf_plain hplain, List.nil_append, List.nil_append]
      rw [Feed.endSession_outputs, sessionsOf_endSession, eventsOf_endSession, hconcat, heq]
      exact ⟨rfl, stands_endSession hnext⟩

/-- In every run, the call has returned exactly if the reference machine stops at the last session
    that has ended, and then with its result; the machine stops at no session before; and the
    events are those that the sessions prescribe. -/
theorem runFeed_reference {connector : Connector M} {endpoint : WsFeedEndpoint} {now seen : ℕ}
    {watch : Watch} {moves : List (ℕ × RunAction)} {s : FeedState M}
    (hmax : config.maxReconnectAttempts < u32Max)
    (hrun : TransitionSystem.run (runFeedStep config connector endpoint) (.start now watch seen)
      moves = some s) :
    (∀ result, s.feed.phase = .returned result ↔
      stop config endpoint.url (sessionsOf s.log) = some result) ∧
    (∀ earlier, earlier <+: sessionsOf s.log → earlier ≠ sessionsOf s.log →
      stop config endpoint.url earlier = none) ∧
    eventsOf s.log = endedEvents [] (sessionsOf s.log) ++
      exhaustedEvents config ((stop config endpoint.url (sessionsOf s.log)).map .returned) := by
  obtain ⟨heq, hstands⟩ := runFeed_sessions hrun
  obtain ⟨hevents, hcase, -⟩ := runSessions_from hmax (⟨rfl, Nat.zero_le _⟩ : Counts config 0 [])
    (sessionsOf s.log) heq
  dsimp only at hevents
  have hnil : ∀ history : List Session, history = [] → stop config endpoint.url history = none :=
    fun history h => h ▸ stop_nil
  cases hcase with
  | inl hgoes =>
    -- no part of the sessions stops the machine, and the call goes on
    obtain ⟨hending, -, hstops⟩ := hgoes
    have hnone : ∀ history, history <+: sessionsOf s.log →
        stop config endpoint.url history = none := by
      intro history hpre
      by_cases hempty : history = []
      · exact hnil history hempty
      · exact hstops history hpre hempty
    dsimp only at hending
    rw [hending] at hstands hevents
    rw [hnone _ List.prefix_rfl]
    exact ⟨fun result => iff_of_false (hstands.2 result) (by simp),
      fun earlier hpre _ => hnone earlier hpre, hevents⟩
  | inr hreturns =>
    -- all the sessions together are the first part that stops the machine
    obtain ⟨result, hending, -, hstop, hfirst⟩ := hreturns
    dsimp only at hending hstop hfirst
    rw [List.nil_append] at hstop
    rw [hending] at hstands hevents
    rw [hstop]
    refine ⟨fun result' => ?_, fun earlier hpre hne => ?_, hevents⟩
    · show s.feed.phase = .returned result' ↔ some result = some result'
      rw [show s.feed.phase = .returned result from hstands]
      simp
    · by_cases hempty : earlier = []
      · exact hnil earlier hempty
      · exact hfirst earlier hpre hempty hne

end ExchangeApiws.Spec
