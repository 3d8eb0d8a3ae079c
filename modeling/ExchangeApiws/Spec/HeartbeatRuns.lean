import ExchangeApiws.Native.Connectors
import ExchangeApiws.Spec.Heartbeat
import ExchangeApiws.Spec.KeepAlive

/-!
# Heartbeats over a whole feed

A Crypto.com session has no pings of its own. Once its greeting is out it writes the answers to
the server's heartbeats and nothing else, with the `id` of the heartbeat and in the order they
come. A heartbeat is answered if its text spells out the method's name and its `id` is below
`2 ^ 63`.

## Key results

- `repliesOwed_eq`: the replies that a log owes, from the heartbeats it holds
- `cryptocom_session_echoes_heartbeats`: what a session writes, over whole runs
-/

namespace ExchangeApiws.Spec

open Native Native.Runner TransitionSystem

variable {F : Type}

/-- The `id` that a frame is answered with: that of a heartbeat which spells out the method's
    name and fits an `i64`. -/
def answeredId (fromStr : String → Result (Value F)) (raw : String) : Option ℤ :=
  if contains raw "public/heartbeat" = true then
    (heartbeatId fromStr raw).filter fun id => decide (id < 2 ^ 63)
  else none

/-- The ids answered in a session, after one more entry of the log. -/
def idsAfter {M : Type} (fromStr : String → Result (Value F)) (ids : List ℤ) :
    Output M → List ℤ
  | .connect _ => []
  | .received _ (.text raw) => ids ++ (answeredId fromStr raw).toList
  | _ => ids

/-- The ids answered since the last connection attempt began. -/
def sessionIds {M : Type} (fromStr : String → Result (Value F)) (log : List (Output M)) : List ℤ :=
  log.foldl (idsAfter fromStr) []

/-- A frame is answered with the `id` of its heartbeat. -/
theorem respondHeartbeat_eq_map (fromStr : String → Result (Value F)) (raw : String) :
    Cryptocom.respondHeartbeat fromStr raw =
      (answeredId fromStr raw).map Cryptocom.heartbeatResponse := by
  apply Option.ext
  intro reply
  rw [respondHeartbeat_eq_some, answeredId]
  by_cases hcontains : contains raw "public/heartbeat" = true
  · simp only [hcontains, true_and, if_true, Option.map_eq_some_iff, Option.filter_eq_some_iff,
      decide_eq_true_eq]
    constructor
    · rintro ⟨id, hid, hlt, rfl⟩
      exact ⟨id, ⟨hid, hlt⟩, rfl⟩
    · rintro ⟨id, ⟨hid, hlt⟩, rfl⟩
      exact ⟨id, hid, hlt, rfl⟩
  · simp [hcontains]

/-- The replies that a log owes, from the heartbeats it holds. The induction is on the log, an
    entry at a time. -/
theorem repliesOwed_eq {M : Type} {connector : Connector M} {fromStr : String → Result (Value F)}
    (hresponse : ∀ time, connector.responseFor time = Cryptocom.respondHeartbeat fromStr)
    (log : List (Output M)) :
    connector.repliesOwed log = (sessionIds fromStr log).map Cryptocom.heartbeatResponse := by
  induction log using List.reverseRecOn with
  | nil => rfl
  | append_singleton log output ih =>
    rw [Connector.repliesOwed_append, ih, sessionIds, sessionIds, List.foldl_append]
    cases output with
    | received time frame =>
      cases frame with
      | text raw =>
        simp only [List.foldl_cons, List.foldl_nil, Connector.repliesAfter, idsAfter,
          List.map_append, hresponse, respondHeartbeat_eq_map]
        congr 1
        cases answeredId fromStr raw <;> rfl
      | _ => rfl
    | _ => rfl

/-- The session of `s` has written its greeting and then the answers to the heartbeats that it has
    read, each with the `id` of its heartbeat, in order, but for the answer that is being
    written. -/
def EchoesHeartbeats {M : Type} (fromStr : String → Result (Value F)) (connector : Connector M)
    (endpoint : WsFeedEndpoint) (s : FeedState M) : Prop :=
  ∃ time echoed, sessionTexts s.log = greeting connector endpoint time ++ echoed ∧
    echoed ++ s.feed.phase.reply = (sessionIds fromStr s.log).map Cryptocom.heartbeatResponse

/-- A connector that answers heartbeats and sends no pings writes nothing else. -/
theorem echoesHeartbeats {M : Type} {connector : Connector M} {fromStr : String → Result (Value F)}
    (hresponse : ∀ time, connector.responseFor time = Cryptocom.respondHeartbeat fromStr)
    (hping : ∀ time, connector.pingMessage time = none) {config : WsRunnerConfig}
    {endpoint : WsFeedEndpoint} {now seen : ℕ} {watch : Watch} {moves : List (ℕ × RunAction)}
    {s : FeedState M}
    (hrun : run (runFeedStep config connector endpoint) (.start now watch seen) moves = some s)
    (hloop : s.feed.phase.inLoop = true) : EchoesHeartbeats fromStr connector endpoint s := by
  obtain ⟨ticks, time, replies, pings, writes, -, hwrites⟩ := (FeedState.paced hrun).inLoop hloop
  -- there are no pings among the texts
  have hnil : pings = [] := by
    rw [List.eq_nil_iff_forall_not_mem]
    intro ping hmem
    obtain ⟨at', hsome⟩ := hwrites.pinged ping (List.mem_append_left _ hmem)
    rw [hping] at hsome
    cases hsome
  have heq : writes = replies := hwrites.interleaves.eq_left hnil
  refine ⟨time, replies, heq ▸ hwrites.texts, ?_⟩
  rw [← repliesOwed_eq hresponse]
  exact hwrites.replied

/-- In every run of `run_feed` with either Crypto.com connector, a session that has reached its recv
    loop has written, after its greeting, one answer for each heartbeat that it has read, with the
    `id` of the heartbeat and in order, and nothing else. Of the heartbeats, those are answered
    that spell out the method's name and whose `id` is below `2 ^ 63`. -/
theorem cryptocom_session_echoes_heartbeats [F64Arith F] (reader : Reader F)
    (toText : Value F → String)
    (newFromSlice : List UInt8 → Except String (List UInt8 → List UInt8))
    (credentials : Cryptocom.Credentials) (nowMs clock : ℕ → Int64) (config : WsRunnerConfig)
    (endpoint userEndpoint : WsFeedEndpoint) (now seen : ℕ) (watch : Watch)
    (moves userMoves : List (ℕ × RunAction)) (s : FeedState (DataMessage F))
    (user : FeedState (FeedMessage F))
    (hrun : run (runFeedStep config (Cryptocom.connector reader.json clock) endpoint)
      (.start now watch seen) moves = some s)
    (hloop : s.feed.phase.inLoop = true)
    (huserRun : run (runFeedStep config
      (CryptocomUser.connector reader toText newFromSlice credentials nowMs clock) userEndpoint)
      (.start now watch seen) userMoves = some user)
    (huserLoop : user.feed.phase.inLoop = true) :
    EchoesHeartbeats reader.json (Cryptocom.connector reader.json clock) endpoint s ∧
      EchoesHeartbeats reader.json
        (CryptocomUser.connector reader toText newFromSlice credentials nowMs clock) userEndpoint
        user :=
  ⟨echoesHeartbeats (fun _ => rfl) (fun _ => rfl) hrun hloop,
    echoesHeartbeats (fun _ => rfl) (fun _ => rfl) huserRun huserLoop⟩

/-- A session that reads a heartbeat and answers it. -/
def heartbeatSession : List (ℕ × RunAction) :=
  [(0, .feed .iterate), (1, .feed .connected), (1, .feed .written),
    (1, .feed (.receive (.text "\x7b\"id\":7,\"method\":\"public/heartbeat\"\x7d"))),
    (1, .feed .written)]

/-- The market stream greets with its subscription; the stream of the user, whose key is refused
    here, does too. -/
theorem cryptocom_session_echoes_heartbeats_seven :
    ∃ s user,
      run (runFeedStep .default (Cryptocom.connector (heartbeat 7).json fun _ => 0)
        ⟨"wss://market", ["subscribe"]⟩) (.start 0 ⟨false, 0⟩ 0) heartbeatSession = some s ∧
      sessionIds (heartbeat 7).json s.log = [7] ∧
      EchoesHeartbeats (heartbeat 7).json (Cryptocom.connector (heartbeat 7).json fun _ => 0)
        ⟨"wss://market", ["subscribe"]⟩ s ∧
      EchoesHeartbeats (heartbeat 7).json
        (CryptocomUser.connector (heartbeat 7) (fun _ => "") (fun _ => .error "invalid length")
          ⟨"key", "secret"⟩ (fun _ => 0) fun _ => 0) ⟨"wss://user", ["subscribe"]⟩ user := by
  obtain ⟨hmarket, huser⟩ := cryptocom_session_echoes_heartbeats (heartbeat 7) (fun _ => "")
    (fun _ => .error "invalid length") ⟨"key", "secret"⟩ (fun _ => 0) (fun _ => 0) .default
    ⟨"wss://market", ["subscribe"]⟩ ⟨"wss://user", ["subscribe"]⟩ 0 0 ⟨false, 0⟩ heartbeatSession
    heartbeatSession _ _ rfl rfl rfl rfl
  exact ⟨_, _, rfl, rfl, hmarket, huser⟩

end ExchangeApiws.Spec
