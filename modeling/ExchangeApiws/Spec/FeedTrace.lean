import Mathlib.Data.List.Chain
import Mathlib.Data.List.Infix
import ExchangeApiws.Spec.FeedStep

/-!
# What a feed receives, sends and delivers

The log of a run of `run_feed` tells which frames came in, which texts went out and which
messages were delivered to the receiver. Nothing is lost, duplicated or reordered between
the frames and the receiver, across all sessions of the run, and every session greets the
server with the auth frame and the subscriptions in order.

## Key results

- `expected_append`: what a longer log should deliver
- `Feed.Move.deliveries`: one step keeps deliveries and pending messages at what is expected
- `Feed.Move.greets`: one step keeps the texts of a session at a prefix of the greeting
- `feed_delivers_in_order`: both, over whole runs
-/

namespace ExchangeApiws.Native.Runner

variable {M : Type} {config : WsRunnerConfig} {connector : Connector M}
  {endpoint : WsFeedEndpoint}

/-! ## Reading the log -/

/-- The messages delivered to the receiver, in order. -/
def deliveries (log : List (Output M)) : List M :=
  log.filterMap fun
    | .delivered msg => some msg
    | _ => none

/-- What a text frame that came in at `time` contributes, given the entry of the log after it. It is
    parsed at once, or when its reply is out; nothing comes of it if the reply is not written. -/
def Connector.contribution (connector : Connector M) (time : ℕ) (text : String)
    (next : Option (Output M)) : List M :=
  match connector.responseFor time text with
  | none => connector.messages time text
  | some response =>
    match next with
    | some (.wrote replied written) =>
      if written = response then connector.messages replied text else []
    | _ => []

/-- The messages of the text frames received, in order. -/
def Connector.expected (connector : Connector M) : List (Output M) → List M
  | [] => []
  | .received time (.text text) :: log =>
    connector.contribution time text log.head? ++ connector.expected log
  | _ :: log => connector.expected log

/-- The texts written in a session, after one more entry of the log. -/
def textsAfter (texts : List String) : Output M → List String
  | .connect _ => []
  | .wrote _ text => texts ++ [text]
  | _ => texts

/-- The texts written since the last connection attempt began. -/
def sessionTexts (log : List (Output M)) : List String := log.foldl textsAfter []

/-- The auth frame, if there is one at the time of the call, and every subscription. -/
def greeting (connector : Connector M) (endpoint : WsFeedEndpoint) (time : ℕ) : List String :=
  (connector.authMessage time).toList ++ endpoint.subscriptions

/-- The connection is being made, or the greeting sent. -/
def Phase.beforeLoop : Phase M → Bool
  | .connecting | .authenticating _ | .subscribing _ _ => true
  | _ => false

/-- The session is in its recv loop. -/
def Phase.inLoop : Phase M → Bool
  | .selecting | .closing | .responding _ _ | .delivering _ _ | .ponging | .pinging _ => true
  | _ => false

/-- The messages of the current frame that are still to be delivered. -/
def Phase.pending : Phase M → List M
  | .delivering msg rest => msg :: rest
  | _ => []

/-- A session has ended because the receiver was dropped. -/
def ReceiverDropped (log : List (Output M)) : Prop :=
  ∃ uptimeSecs, .sessionEnd ⟨.receiverDropped, uptimeSecs⟩ ∈ log

/-- What comes right after a text frame that has a reply: the reply, or the end of the session
    for a write that failed. -/
def Connector.Answers (connector : Connector M) (output next : Output M) : Prop :=
  ∀ time text response, output = .received time (.text text) →
    connector.responseFor time text = some response →
    (∃ replied, next = .wrote replied response) ∨
      ∃ uptimeSecs, next = .sessionEnd ⟨.disconnected, uptimeSecs⟩

/-- Deliveries of a longer log. -/
theorem deliveries_append (log outputs : List (Output M)) :
    deliveries (log ++ outputs) = deliveries log ++ deliveries outputs := List.filterMap_append

/-- The last entry of the log is a text frame whose reply is yet to be written. -/
def Connector.AwaitsReply (connector : Connector M) (log : List (Output M)) : Prop :=
  ∃ time text response, log.getLast? = some (.received time (.text text)) ∧
    connector.responseFor time text = some response

/-- The last output of a longer log. -/
theorem getLast?_cons_of_ne_nil {output : Output M} {log : List (Output M)} (h : log ≠ []) :
    (output :: log).getLast? = log.getLast? := by
  cases log with
  | nil => exact absurd rfl h
  | cons next log => rw [List.getLast?_cons_cons]

/-- A log is expected to deliver what its parts are, unless the second begins with the reply to
    the last frame of the first. -/
theorem Connector.expected_append {log outputs : List (Output M)}
    (h : ∀ time text response, log.getLast? = some (.received time (.text text)) →
      connector.responseFor time text = some response →
        ∀ replied, outputs.head? ≠ some (.wrote replied response)) :
    connector.expected (log ++ outputs) = connector.expected log ++ connector.expected outputs := by
  induction log with
  | nil => rfl
  | cons output log ih =>
    by_cases hnil : log = []
    · -- the last frame of the first part: it has no reply in the second
      subst hnil
      cases output with
      | received time frame =>
        cases frame with
        | text text =>
          simp only [List.cons_append, List.nil_append, Connector.expected, List.append_nil,
            List.head?_nil]
          congr 1
          unfold Connector.contribution
          cases hresponse : connector.responseFor time text with
          | none => rfl
          | some response =>
            have hne := h time text response (by simp) hresponse
            cases hhead : outputs.head? with
            | none => rfl
            | some next =>
              cases next with
              | wrote replied written =>
                simp only
                rw [if_neg]
                rintro rfl
                exact hne replied hhead
              | _ => rfl
        | _ => simp [Connector.expected]
      | _ => simp [Connector.expected]
    · -- any other frame: what follows it is in the first part
      have hlast : (output :: log).getLast? = log.getLast? := getLast?_cons_of_ne_nil hnil
      rw [hlast] at h
      have hhead : (log ++ outputs).head? = log.head? := List.head?_append_of_ne_nil log hnil
      cases output with
      | received time frame =>
        cases frame with
        | text text =>
          simp only [List.cons_append, Connector.expected, hhead, ih h, List.append_assoc]
        | _ => exact ih h
      | _ => exact ih h

/-- Writing the reply of the last frame adds its messages. -/
theorem Connector.expected_append_reply {log : List (Output M)} {time : ℕ}
    {text response : String} (hlast : log.getLast? = some (.received time (.text text)))
    (hresponse : connector.responseFor time text = some response) (replied : ℕ) :
    connector.expected (log ++ [.wrote replied response]) =
      connector.expected log ++ connector.messages replied text := by
  induction log with
  | nil => simp at hlast
  | cons output log ih =>
    by_cases hnil : log = []
    · subst hnil
      rw [List.getLast?_singleton, Option.some_inj] at hlast
      subst hlast
      simp [Connector.expected, Connector.contribution, hresponse]
    · rw [getLast?_cons_of_ne_nil hnil] at hlast
      have hhead : (log ++ [Output.wrote replied response]).head? = log.head? :=
        List.head?_append_of_ne_nil log hnil
      cases output with
      | received time' frame =>
        cases frame with
        | text text' =>
          simp only [List.cons_append, Connector.expected, hhead, ih hlast, List.append_assoc]
        | _ => exact ih hlast
      | _ => exact ih hlast

/-- The deliveries of a log, by the phase the feed is in. -/
structure DeliveryInvariant (connector : Connector M) (phase : Phase M) (log : List (Output M)) :
    Prop where
  responding : ∀ text response, phase = .responding text response → ∃ time,
    log.getLast? = some (.received time (.text text)) ∧
      connector.responseFor time text = some response
  settled : (∀ text response, phase ≠ .responding text response) → ¬ connector.AwaitsReply log
  delivered : ¬ ReceiverDropped log →
    deliveries log ++ phase.pending = connector.expected log
  prefixed : deliveries log <+: connector.expected log
  dropped : ReceiverDropped log → ∃ result, phase = .returned result
  answered : log.IsChain connector.Answers

/-- No output is a text frame. -/
def NoText (outputs : List (Output M)) : Prop :=
  ∀ output ∈ outputs, ∀ time text, output ≠ .received time (.text text)

/-- Nothing is expected of outputs without a text frame. -/
theorem NoText.expected {outputs : List (Output M)} (h : NoText outputs) :
    connector.expected outputs = [] := by
  induction outputs with
  | nil => rfl
  | cons output outputs ih =>
    have hrest : connector.expected outputs = [] :=
      ih fun o ho => h o (List.mem_cons_of_mem output ho)
    cases output with
    | received time frame =>
      cases frame with
      | text text => exact absurd rfl (h _ List.mem_cons_self time text)
      | _ => exact hrest
    | _ => exact hrest

/-- Outputs without a text frame have nothing to answer. -/
theorem NoText.isChain {outputs : List (Output M)} (h : NoText outputs) :
    outputs.IsChain connector.Answers := by
  induction outputs with
  | nil => exact List.isChain_nil
  | cons output outputs ih =>
    rw [List.isChain_cons]
    refine ⟨?_, ih fun o ho => h o (List.mem_cons_of_mem output ho)⟩
    rintro next _ time text response rfl
    exact absurd rfl (h _ List.mem_cons_self time text)

/-- After outputs without a text frame no reply is awaited. -/
theorem NoText.not_awaitsReply {log outputs : List (Output M)} (h : NoText outputs)
    (hlog : outputs = [] → ¬ connector.AwaitsReply log) :
    ¬ connector.AwaitsReply (log ++ outputs) := by
  by_cases hnil : outputs = []
  · rw [hnil, List.append_nil]
    exact hlog hnil
  · rintro ⟨time, text, response, hlast, _⟩
    rw [List.getLast?_append_of_ne_nil log hnil] at hlast
    exact h _ (List.mem_of_getLast? hlast) time text rfl

/-- No reply is awaited and the call has not returned. -/
def Phase.isOpen : Phase M → Bool
  | .responding _ _ | .returned _ => false
  | _ => true

/-- An open phase has neither returned nor a reply to write. -/
theorem Phase.isOpen_ne {phase : Phase M} (h : phase.isOpen = true) :
    (∀ result, phase ≠ .returned result) ∧
      ∀ text response, phase ≠ .responding text response := by
  constructor
  · rintro result rfl
    cases h
  · rintro text response rfl
    cases h

/-- Neither a text frame, a delivery nor the end of a session. -/
def Output.isQuiet : Output M → Bool
  | .received _ (.text _) | .delivered _ | .sessionEnd _ => false
  | _ => true

/-- The receiver is not dropped by what a step adds. -/
theorem receiverDropped_append {log outputs : List (Output M)}
    (h : ∀ uptimeSecs, .sessionEnd ⟨.receiverDropped, uptimeSecs⟩ ∉ outputs) :
    ReceiverDropped (log ++ outputs) ↔ ReceiverDropped log := by
  simp only [ReceiverDropped, List.mem_append]
  constructor
  · rintro ⟨uptimeSecs, hmem | hmem⟩
    · exact ⟨uptimeSecs, hmem⟩
    · exact absurd hmem (h uptimeSecs)
  · rintro ⟨uptimeSecs, hmem⟩
    exact ⟨uptimeSecs, Or.inl hmem⟩

namespace DeliveryInvariant

variable {phase phase' : Phase M} {log outputs : List (Output M)}

/-- A chain of answers goes on with anything when no reply is awaited. -/
theorem isChain_append (h : DeliveryInvariant connector phase log)
    (houtputs : outputs.IsChain connector.Answers)
    (hnext : ∀ time text response, phase = .responding text response → ∀ next ∈ outputs.head?,
      connector.Answers (.received time (.text text)) next) :
    (log ++ outputs).IsChain connector.Answers := by
  refine List.IsChain.append h.answered houtputs ?_
  intro last hlast next hhead time text response htext hresponse
  subst htext
  -- only while the feed is responding does the last entry await a reply
  by_cases hphase : ∃ text response, phase = .responding text response
  · obtain ⟨text', response', hphase⟩ := hphase
    obtain ⟨time', hlast', _⟩ := h.responding text' response' hphase
    obtain ⟨rfl, rfl⟩ : time = time' ∧ text = text' := by
      rw [Option.mem_def, hlast', Option.some_inj] at hlast
      simpa [eq_comm] using hlast
    exact hnext time text response' hphase next hhead time text response rfl hresponse
  · have hsettled := h.settled fun text response heq => hphase ⟨text, response, heq⟩
    exact absurd ⟨time, text, response, hlast, hresponse⟩ hsettled

/-- Outputs without a text frame, in which exactly what was pending is delivered. -/
theorem append (h : DeliveryInvariant connector phase log)
    (hphase : ∀ result, phase ≠ .returned result) (htext : NoText outputs)
    (hpending : deliveries outputs ++ phase'.pending = phase.pending)
    (hresponding : ∀ text response, phase' ≠ .responding text response)
    (hdrop : ∀ uptimeSecs, .sessionEnd ⟨.receiverDropped, uptimeSecs⟩ ∉ outputs)
    (hfailed : ∀ text response, phase = .responding text response →
      ∃ uptimeSecs, outputs.head? = some (.sessionEnd ⟨.disconnected, uptimeSecs⟩)) :
    DeliveryInvariant connector phase' (log ++ outputs) := by
  have hnot : ¬ ReceiverDropped log := fun hdropped =>
    (h.dropped hdropped).elim fun result heq => hphase result heq
  have hexpected : connector.expected (log ++ outputs) = connector.expected log := by
    rw [Connector.expected_append, htext.expected, List.append_nil]
    intro time text response hlast hresponse replied hhead
    -- a frame whose reply is awaited: the feed is responding, and the reply is not written
    by_cases hphase : ∃ text response, phase = .responding text response
    · obtain ⟨text', response', hphase⟩ := hphase
      obtain ⟨uptimeSecs, hend⟩ := hfailed text' response' hphase
      rw [hend, Option.some_inj] at hhead
      cases hhead
    · exact h.settled (fun text response heq => hphase ⟨text, response, heq⟩)
        ⟨time, text, response, hlast, hresponse⟩
  -- what is delivered leaves the pending messages, so the sum is as before
  have hdelivered : deliveries (log ++ outputs) ++ phase'.pending =
      connector.expected (log ++ outputs) := by
    rw [deliveries_append, List.append_assoc, hpending, hexpected]
    exact h.delivered hnot
  refine ⟨?_, ?_, fun _ => hdelivered, ?_, ?_, ?_⟩
  · intro text response heq
    exact absurd heq (hresponding text response)
  · intro _
    apply htext.not_awaitsReply
    rintro rfl
    apply h.settled
    intro text response heq
    obtain ⟨uptimeSecs, hend⟩ := hfailed text response heq
    cases hend
  · rw [← hdelivered]
    exact List.prefix_append ..
  · intro hdropped
    exact absurd ((receiverDropped_append hdrop).mp hdropped) hnot
  · apply h.isChain_append htext.isChain
    intro time text response heq next hnext _ text' response' _ _
    obtain ⟨uptimeSecs, hend⟩ := hfailed text response heq
    rw [hend] at hnext
    exact Or.inr ⟨uptimeSecs, (Option.some_inj.mp hnext).symm⟩

/-- Most steps: nothing is received to deliver, delivered or ended. -/
theorem quiet (h : DeliveryInvariant connector phase log) (hopen : phase.isOpen = true)
    (hopen' : phase'.isOpen = true) (hpending : phase'.pending = phase.pending)
    (hquiet : ∀ output ∈ outputs, output.isQuiet = true) :
    DeliveryInvariant connector phase' (log ++ outputs) := by
  obtain ⟨hreturned, hresponding⟩ := Phase.isOpen_ne hopen
  have hdeliveries : deliveries outputs = [] := by
    rw [deliveries, List.filterMap_eq_nil_iff]
    intro output hmem
    have hquiet := hquiet output hmem
    cases output with
    | delivered msg => cases hquiet
    | _ => rfl
  refine h.append hreturned ?_ ?_ (Phase.isOpen_ne hopen').2 ?_ ?_
  · rintro _ hmem time text rfl
    cases hquiet _ hmem
  · rw [hdeliveries]
    exact hpending
  · intro uptimeSecs hmem
    cases hquiet _ hmem
  · intro text response heq
    exact absurd heq (hresponding text response)

/-- The receiver is gone: the rest of the frame is lost, and the call returns. -/
theorem drop (h : DeliveryInvariant connector phase log)
    (hresponding : ∀ text response, phase ≠ .responding text response) (uptimeSecs : UInt64)
    (result : Result Unit) :
    DeliveryInvariant connector (.returned result)
      (log ++ [.sessionEnd ⟨.receiverDropped, uptimeSecs⟩]) := by
  have hsettled := h.settled hresponding
  have htext : NoText [(.sessionEnd ⟨.receiverDropped, uptimeSecs⟩ : Output M)] := by
    simp [NoText]
  -- from here on only the prefix holds: what was pending is lost
  have hdropped : ReceiverDropped
      (log ++ [(.sessionEnd ⟨.receiverDropped, uptimeSecs⟩ : Output M)]) :=
    ⟨uptimeSecs, by simp⟩
  refine ⟨by simp, fun _ => htext.not_awaitsReply (by simp), fun hnot => absurd hdropped hnot, ?_,
    fun _ => ⟨result, rfl⟩, ?_⟩
  · rw [Connector.expected_append (by simp), htext.expected, deliveries_append]
    simpa [deliveries] using h.prefixed
  · exact h.isChain_append htext.isChain fun _ text response heq =>
      absurd heq (hresponding text response)

/-- A text frame without a reply: its messages are pending. -/
theorem text (h : DeliveryInvariant connector .selecting log) {time : ℕ} {text : String}
    (hresponse : connector.responseFor time text = none)
    (hpending : phase'.pending = connector.messages time text)
    (hresponding : ∀ text response, phase' ≠ .responding text response) :
    DeliveryInvariant connector phase' (log ++ [.received time (.text text)]) := by
  have hsettled := h.settled (by simp)
  have hnot : ¬ ReceiverDropped log := fun hdropped =>
    (h.dropped hdropped).elim fun result heq => by cases heq
  have hdelivered : deliveries (log ++ [.received time (.text text)]) ++ phase'.pending =
      connector.expected (log ++ [.received time (.text text)]) := by
    rw [deliveries_append, hpending,
      Connector.expected_append fun time text response hlast hresponse =>
        absurd ⟨time, text, response, hlast, hresponse⟩ hsettled, ← h.delivered hnot]
    simp [deliveries, Phase.pending, Connector.expected, Connector.contribution, hresponse]
  refine ⟨fun text response heq => absurd heq (hresponding text response), ?_,
    fun _ => hdelivered, ?_, ?_, ?_⟩
  · rintro _ ⟨time', text', response', hlast, hresponse'⟩
    rw [List.getLast?_concat, Option.some_inj] at hlast
    obtain ⟨rfl, rfl⟩ : time = time' ∧ text = text' := by simpa using hlast
    rw [hresponse] at hresponse'
    cases hresponse'
  · rw [← hdelivered]
    exact List.prefix_append ..
  · intro hdropped
    exact absurd ((receiverDropped_append (by simp)).mp hdropped) hnot
  · exact h.isChain_append (List.isChain_singleton _) (by simp)

/-- A text frame with a reply: nothing is expected of it yet. -/
theorem textToAnswer (h : DeliveryInvariant connector .selecting log) {time : ℕ}
    {text response : String} (hresponse : connector.responseFor time text = some response) :
    DeliveryInvariant connector (.responding text response)
      (log ++ [.received time (.text text)]) := by
  have hsettled := h.settled (by simp)
  have hnot : ¬ ReceiverDropped log := fun hdropped =>
    (h.dropped hdropped).elim fun result heq => by cases heq
  have hexpected : connector.expected (log ++ [.received time (.text text)]) =
      connector.expected log := by
    rw [Connector.expected_append fun time text response hlast hresponse =>
      absurd ⟨time, text, response, hlast, hresponse⟩ hsettled]
    simp [Connector.expected, Connector.contribution, hresponse]
  have hdeliveries : deliveries (log ++ [.received time (.text text)]) = deliveries log := by
    simp [deliveries]
  refine ⟨?_, fun hne => absurd rfl (hne text response), ?_, ?_, ?_, ?_⟩
  · rintro text' response' heq
    cases heq
    exact ⟨time, List.getLast?_concat, hresponse⟩
  · intro _
    rw [hdeliveries, hexpected]
    exact h.delivered hnot
  · rw [hdeliveries, hexpected]
    exact h.prefixed
  · intro hdropped
    exact absurd ((receiverDropped_append (by simp)).mp hdropped) hnot
  · exact h.isChain_append (List.isChain_singleton _) (by simp)

/-- The reply of a text frame is written: its messages are pending. -/
theorem replied {text response : String}
    (h : DeliveryInvariant connector (.responding text response) log) {now : ℕ}
    (hpending : phase'.pending = connector.messages now text)
    (hresponding : ∀ text response, phase' ≠ .responding text response) :
    DeliveryInvariant connector phase' (log ++ [.wrote now response]) := by
  obtain ⟨time, hlast, hresponse⟩ := h.responding text response rfl
  have htext : NoText [(.wrote now response : Output M)] := by simp [NoText]
  have hnot : ¬ ReceiverDropped log := fun hdropped =>
    (h.dropped hdropped).elim fun result heq => by cases heq
  have hdelivered : deliveries (log ++ [.wrote now response]) ++ phase'.pending =
      connector.expected (log ++ [.wrote now response]) := by
    -- the reply makes the messages of the frame expected, and they are pending now
    rw [deliveries_append, hpending, Connector.expected_append_reply hlast hresponse,
      ← h.delivered hnot]
    simp [deliveries, Phase.pending]
  refine ⟨fun text response heq => absurd heq (hresponding text response),
    fun _ => htext.not_awaitsReply (by simp), fun _ => hdelivered, ?_, ?_, ?_⟩
  · rw [← hdelivered]
    exact List.prefix_append ..
  · intro hdropped
    exact absurd ((receiverDropped_append (by simp)).mp hdropped) hnot
  · refine List.IsChain.append h.answered htext.isChain ?_
    -- the last entry is the frame that is replied to
    rintro _ hlast' next hnext time' text' response' rfl hresponse'
    rw [Option.mem_def, hlast, Option.some_inj] at hlast'
    obtain ⟨rfl, rfl⟩ : time = time' ∧ text = text' := by simpa using hlast'
    obtain rfl := Option.some.inj (hresponse.symm.trans hresponse')
    exact Or.inl ⟨now, by simpa using hnext.symm⟩

end DeliveryInvariant

/-- After parsing a frame its messages are pending, in the recv loop. -/
theorem Feed.parse_phase (connector : Connector M) (now : ℕ) (text : String) (feed : Feed M) :
    (feed.parse connector now text).phase.pending = connector.messages now text ∧
      (feed.parse connector now text).phase.inLoop = true ∧
      (∀ text' response, (feed.parse connector now text).phase ≠ .responding text' response) := by
  unfold Feed.parse Connector.messages
  cases connector.parseMessage now text with
  | error e => exact ⟨rfl, rfl, by simp⟩
  | ok msgs => cases msgs <;> exact ⟨rfl, rfl, by simp [Feed.deliver]⟩

/-- Messages to deliver are pending. -/
theorem Feed.deliver_phase (msgs : List M) (feed : Feed M) :
    (feed.deliver msgs).phase.pending = msgs ∧
      ∀ text response, (feed.deliver msgs).phase ≠ .responding text response := by
  cases msgs <;> exact ⟨rfl, by simp [Feed.deliver]⟩

/-- While the subscriptions are sent nothing is pending. -/
theorem Feed.subscribe_phase (config : WsRunnerConfig) (now : ℕ) (subs : List String)
    (feed : Feed M) :
    (feed.subscribe config now subs).phase.pending = [] ∧
      (feed.subscribe config now subs).phase.isOpen = true := by
  cases subs with
  | nil =>
    simp only [Feed.subscribe, Feed.enterLoop]
    split <;> exact ⟨rfl, rfl⟩
  | cons sub rest => exact ⟨rfl, rfl⟩

/-- The phases in which no session is in progress. -/
theorem Feed.endSession_phase (config : WsRunnerConfig) (url : String) (now : ℕ)
    (outcome : SessionOutcome) (feed : Feed M) :
    (feed.endSession config url now outcome).1.phase = .loopTop ∨
      (∃ result, (feed.endSession config url now outcome).1.phase = .returned result) ∨
      (feed.endSession config url now outcome).1.phase = .panicked := by
  simp only [Feed.endSession]
  split
  · exact Or.inl rfl
  · next result _ => exact Or.inr (Or.inl ⟨result, rfl⟩)
  · exact Or.inr (Or.inr rfl)

/-- No text frame is received where a session ends. -/
theorem Phase.EndsWith.noText {now : ℕ} {phase : Phase M} {outcome : SessionOutcome}
    {outputs : List (Output M)} (h : phase.EndsWith now outcome outputs) : NoText outputs := by
  cases h with
  | stream hframe => simpa [NoText] using fun _ text _ heq => hframe text heq
  | _ => simp [NoText]

/-- How a session ends, apart from a receiver that is gone. -/
theorem Phase.EndsWith.deliveries {now : ℕ} {phase : Phase M} {outcome : SessionOutcome}
    {outputs : List (Output M)} (h : phase.EndsWith now outcome outputs)
    (houtcome : outcome ≠ .receiverDropped) :
    deliveries outputs = [] ∧ phase.pending = [] ∧
      (∀ text response, phase = .responding text response →
        outputs = [] ∧ outcome = .disconnected) := by
  cases h with
  | receiverDropped msg rest => exact absurd rfl houtcome
  | responseFailed text response => exact ⟨rfl, rfl, fun _ _ _ => ⟨rfl, rfl⟩⟩
  | stream hframe => exact ⟨rfl, rfl, by simp⟩
  | _ => exact ⟨rfl, rfl, by simp⟩

/-- A session that ends was in progress. -/
theorem Phase.EndsWith.not_returned {now : ℕ} {phase : Phase M} {outcome : SessionOutcome}
    {outputs : List (Output M)} (h : phase.EndsWith now outcome outputs) (result : Result Unit) :
    phase ≠ .returned result := by
  cases h <;> simp

/-- Events are no deliveries. -/
theorem deliveries_map_event (events : List RunnerEvent) :
    deliveries (events.map (Output.event (M := M))) = [] := by
  rw [deliveries, List.filterMap_map, List.filterMap_eq_nil_iff]
  intro event _
  rfl

/-- The end of a session keeps what is delivered at what is expected. -/
theorem Feed.ended_deliveries {feed : Feed M} {log outputs : List (Output M)}
    {outcome : SessionOutcome} (now : ℕ) (url : String)
    (h : DeliveryInvariant connector feed.phase log)
    (hends : feed.phase.EndsWith now outcome outputs) :
    DeliveryInvariant connector (feed.endSession config url now outcome).1.phase
      (log ++ (outputs ++ (feed.endSession config url now outcome).2)) := by
  by_cases houtcome : outcome = .receiverDropped
  · subst houtcome
    -- `run_feed` returns and emits nothing
    cases hphase : feed.phase with
    | delivering msg rest =>
      rw [hphase] at h hends
      cases hends
      exact h.drop (by simp) _ _
    | _ =>
      rw [hphase] at hends
      cases hends
  -- nothing was pending, since a frame is delivered to its end before the next select
  · obtain ⟨hnone, hpending, hresponding⟩ := hends.deliveries houtcome
    have hphase := feed.endSession_phase config url now outcome
    rw [Feed.endSession_outputs]
    refine h.append hends.not_returned ?_ ?_ ?_ ?_ ?_
    · intro output hmem time text heq
      subst heq
      simp only [List.mem_append, List.mem_cons, List.mem_map, reduceCtorEq, and_false,
        exists_false, or_false] at hmem
      exact hends.noText _ hmem time text rfl
    · rw [deliveries_append, hnone, hpending]
      have hevents := deliveries_map_event (M := M) (afterSession config url feed.attempts
        ⟨outcome, elapsedSecs feed.sessionStart now⟩).1
      have hidle : (feed.endSession config url now outcome).1.phase.pending = [] := by
        rcases hphase with h | ⟨result, h⟩ | h <;> rw [h] <;> rfl
      rw [hidle, List.nil_append, List.append_nil]
      exact hevents
    · intro text response
      rcases hphase with h | ⟨result, h⟩ | h <;> rw [h] <;> simp
    · intro uptimeSecs hmem
      simp only [List.mem_append, List.mem_cons, Output.sessionEnd.injEq, Session.mk.injEq,
        List.mem_map, reduceCtorEq, and_false, exists_false, or_false] at hmem
      rcases hmem with hmem | ⟨heq, _⟩
      · exact absurd (hends.isPlain _ hmem) (by simp [Output.isPlain])
      · exact houtcome heq.symm
    · intro text response heq
      obtain ⟨rfl, rfl⟩ := hresponding text response heq
      exact ⟨_, rfl⟩

/-- One step keeps the deliveries and what is pending at what is expected. -/
theorem Feed.Move.deliveries {feed : Feed M} {watch : Watch} {now : ℕ} {log : List (Output M)}
    {after : Feed M × List (Output M)}
    (h : DeliveryInvariant connector feed.phase log)
    (hmove : feed.Move config connector endpoint now watch after) :
    DeliveryInvariant connector after.1.phase (log ++ after.2) := by
  cases hmove with
  | slept delay deadline hphase =>
    rw [hphase] at h
    exact h.quiet rfl rfl rfl (by simp [Output.isQuiet])
  | connect hphase =>
    -- a connection attempt comes at the head of the loop or after the back-off
    rcases hphase with hphase | ⟨deadline, hphase⟩
    all_goals
      rw [hphase] at h
      exact h.quiet rfl rfl rfl (by simp [Feed.connect, Output.isQuiet])
  | authenticate hphase hauth =>
    rw [hphase] at h
    exact h.quiet rfl rfl rfl (by simp)
  | connected hphase hauth =>
    rw [hphase] at h
    obtain ⟨hpending, hopen⟩ := feed.subscribe_phase config now endpoint.subscriptions
    exact h.quiet rfl hopen hpending (by simp)
  | authenticated hphase =>
    rw [hphase] at h
    obtain ⟨hpending, hopen⟩ := feed.subscribe_phase config now endpoint.subscriptions
    exact h.quiet rfl hopen hpending (by simp [Output.isQuiet])
  | @subscribed sub rest hphase =>
    rw [hphase] at h
    obtain ⟨hpending, hopen⟩ := feed.subscribe_phase config now rest
    exact h.quiet rfl hopen hpending (by simp [Output.isQuiet])
  | observed phase hphase hnext =>
    rw [hphase] at h
    rcases hnext with rfl | rfl
    · exact h.quiet rfl rfl rfl (by simp)
    · exact h.quiet rfl rfl rfl (by simp)
  | @frame frame phase hphase hframe hnext =>
    rw [hphase] at h
    have hquiet : (Output.received now frame : Output M).isQuiet = true := by
      cases frame with
      | text text => exact absurd rfl (hframe text)
      | _ => rfl
    rcases hnext with rfl | rfl
    · exact h.quiet rfl rfl rfl (by simpa using hquiet)
    · exact h.quiet rfl rfl rfl (by simpa using hquiet)
  | pingDue nextPing phase hphase hnext =>
    rw [hphase] at h
    rcases hnext with rfl | ⟨ping, rfl⟩
    · exact h.quiet rfl rfl rfl (by simp)
    · exact h.quiet rfl rfl rfl (by simp)
  | ponged hphase | pinged hphase =>
    rw [hphase] at h
    exact h.quiet rfl rfl rfl (by simp [Output.isQuiet])
  | @delivered msg rest hphase =>
    rw [hphase] at h
    obtain ⟨hpending, hresponding⟩ := feed.deliver_phase rest
    refine h.append (by simp) (by simp [NoText]) ?_ hresponding (by simp) (by simp)
    rw [hpending]
    rfl
  | ended hends => exact Feed.ended_deliveries now endpoint.url h hends
  | @text text hphase hresponse =>
    rw [hphase] at h
    obtain ⟨hpending, _, hresponding⟩ :=
      Feed.parse_phase connector now text { feed with lastFrameAt := now }
    exact h.text hresponse hpending hresponding
  | textToAnswer hphase hresponse =>
    rw [hphase] at h
    exact h.textToAnswer hresponse
  | @replied text response hphase =>
    rw [hphase] at h
    obtain ⟨hpending, _, hresponding⟩ := feed.parse_phase connector now text
    exact h.replied hpending hresponding

/-! ## The greeting -/

/-- The texts of the session in progress, from a longer log. -/
theorem sessionTexts_append (log outputs : List (Output M)) :
    sessionTexts (log ++ outputs) = outputs.foldl textsAfter (sessionTexts log) :=
  List.foldl_append

/-- The texts of a session against its greeting, by the phase the feed is in. -/
def Phase.Greets (connector : Connector M) (endpoint : WsFeedEndpoint) (texts : List String)
    (phase : Phase M) : Prop :=
  match phase with
  | .connecting => texts = []
  | .authenticating auth => texts = [] ∧ ∃ time, connector.authMessage time = some auth
  | .subscribing sub rest => ∃ time, texts ++ sub :: rest = greeting connector endpoint time
  | .loopTop | .backoff _ | .returned _ | .panicked => True
  | .selecting | .closing | .responding _ _ | .delivering _ _ | .ponging | .pinging _ =>
    ∃ time, greeting connector endpoint time <+: texts

/-- In the recv loop the whole greeting is out. -/
theorem Phase.greets_of_inLoop {phase : Phase M} {texts : List String}
    (hphase : phase.inLoop = true) :
    phase.Greets connector endpoint texts ↔
      ∃ time, greeting connector endpoint time <+: texts := by
  cases phase <;> first | exact Iff.rfl | cases hphase

/-- Before the recv loop only a part of the greeting is out. -/
theorem Phase.Greets.beforeLoop {phase : Phase M} {texts : List String}
    (h : phase.Greets connector endpoint texts) (hphase : phase.beforeLoop = true) :
    ∃ time, texts <+: greeting connector endpoint time := by
  cases phase with
  | connecting => exact ⟨0, h ▸ List.nil_prefix⟩
  | authenticating auth => exact ⟨0, h.1 ▸ List.nil_prefix⟩
  | subscribing sub rest =>
    obtain ⟨time, heq⟩ := h
    exact ⟨time, heq ▸ List.prefix_append ..⟩
  | _ => cases hphase

/-- A session goes on in the recv loop with at least the texts it had. -/
theorem Phase.Greets.stay {phase phase' : Phase M} {texts texts' : List String}
    (h : phase.Greets connector endpoint texts) (hphase : phase.inLoop = true)
    (hphase' : phase'.inLoop = true) (htexts : texts <+: texts') :
    phase'.Greets connector endpoint texts' ∧
      (phase.beforeLoop = true → phase'.inLoop = true →
        ∃ time, texts' = greeting connector endpoint time) := by
  obtain ⟨time, hprefix⟩ := (greets_of_inLoop hphase).mp h
  refine ⟨(greets_of_inLoop hphase').mpr ⟨time, hprefix.trans htexts⟩, fun hbefore _ => ?_⟩
  cases phase <;> simp [Phase.beforeLoop, Phase.inLoop] at hbefore hphase

/-- The rest of the greeting is still to be written. -/
theorem Feed.subscribe_greets {texts rest : List String} {time : ℕ} (config : WsRunnerConfig)
    (now : ℕ) (feed : Feed M)
    (h : texts ++ rest = greeting connector endpoint time) :
    (feed.subscribe config now rest).phase.Greets connector endpoint texts ∧
      ((feed.subscribe config now rest).phase.inLoop = true →
        texts = greeting connector endpoint time) := by
  cases rest with
  | nil =>
    rw [List.append_nil] at h
    simp only [Feed.subscribe, Feed.enterLoop]
    split
    · exact ⟨trivial, fun _ => h⟩
    · exact ⟨⟨time, h ▸ List.prefix_refl texts⟩, fun _ => h⟩
  | cons sub rest => exact ⟨⟨time, h⟩, fun hloop => by cases hloop⟩

/-- One step keeps the texts of a session in step with its greeting. -/
theorem Feed.Move.greets {feed : Feed M} {watch : Watch} {now : ℕ} {log : List (Output M)}
    {after : Feed M × List (Output M)}
    (h : feed.phase.Greets connector endpoint (sessionTexts log))
    (hmove : feed.Move config connector endpoint now watch after) :
    after.1.phase.Greets connector endpoint (sessionTexts (log ++ after.2)) ∧
      (feed.phase.beforeLoop = true → after.1.phase.inLoop = true →
        ∃ time, sessionTexts (log ++ after.2) = greeting connector endpoint time) := by
  rw [sessionTexts_append]
  cases hmove with
  -- before the recv loop the texts are a part of the greeting that grows
  | slept delay deadline hphase => exact ⟨trivial, fun _ hloop => by cases hloop⟩
  | connect hphase => exact ⟨rfl, fun _ hloop => by cases hloop⟩
  | authenticate hphase hauth =>
    rw [hphase] at h
    exact ⟨⟨h, now, hauth⟩, fun _ hloop => by cases hloop⟩
  | connected hphase hauth =>
    rw [hphase] at h
    have hgreeting : sessionTexts log ++ endpoint.subscriptions =
        greeting connector endpoint now := by
      rw [show sessionTexts log = [] from h, greeting, hauth]
      rfl
    obtain ⟨hgreets, hloop⟩ := Feed.subscribe_greets config now feed hgreeting
    exact ⟨hgreets, fun _ hin => ⟨now, hloop hin⟩⟩
  | @authenticated auth hphase =>
    rw [hphase] at h
    obtain ⟨hnil, time, hauth⟩ := h
    have hgreeting : [auth] ++ endpoint.subscriptions = greeting connector endpoint time := by
      rw [greeting, hauth]
      rfl
    obtain ⟨hgreets, hloop⟩ := Feed.subscribe_greets config now feed hgreeting
    rw [hnil]
    exact ⟨hgreets, fun _ hin => ⟨time, hloop hin⟩⟩
  | @subscribed sub rest hphase =>
    rw [hphase] at h
    obtain ⟨time, heq⟩ := h
    have hgreeting : (sessionTexts log ++ [sub]) ++ rest = greeting connector endpoint time := by
      rw [← heq, List.append_assoc]
      rfl
    obtain ⟨hgreets, hloop⟩ := Feed.subscribe_greets config now feed hgreeting
    exact ⟨hgreets, fun _ hin => ⟨time, hloop hin⟩⟩
  -- in the recv loop the greeting is complete, and texts are only added behind it
  | observed phase hphase hnext =>
    have hloop : phase.inLoop = true := by rcases hnext with rfl | rfl <;> rfl
    exact h.stay (by rw [hphase]; rfl) hloop (List.prefix_refl _)
  | @text text hphase hresponse =>
    obtain ⟨_, hloop, _⟩ := Feed.parse_phase connector now text { feed with lastFrameAt := now }
    exact h.stay (by rw [hphase]; rfl) hloop (List.prefix_refl _)
  | textToAnswer hphase hresponse =>
    exact h.stay (by rw [hphase]; rfl) rfl (List.prefix_refl _)
  | frame phase hphase hframe hnext =>
    have hloop : phase.inLoop = true := by rcases hnext with rfl | rfl <;> rfl
    exact h.stay (by rw [hphase]; rfl) hloop (List.prefix_refl _)
  | pingDue nextPing phase hphase hnext =>
    have hloop : phase.inLoop = true := by rcases hnext with rfl | ⟨ping, rfl⟩ <;> rfl
    exact h.stay (by rw [hphase]; rfl) hloop (List.prefix_refl _)
  | @replied text response hphase =>
    obtain ⟨_, hloop, _⟩ := feed.parse_phase connector now text
    exact h.stay (by rw [hphase]; rfl) hloop (List.prefix_append ..)
  | ponged hphase =>
    exact h.stay (by rw [hphase]; rfl) rfl (List.prefix_refl _)
  | pinged hphase =>
    exact h.stay (by rw [hphase]; rfl) rfl (List.prefix_append ..)
  | @delivered msg rest hphase =>
    have hloop : (feed.deliver rest).phase.inLoop = true := by cases rest <;> rfl
    exact h.stay (by rw [hphase]; rfl) hloop (List.prefix_refl _)
  | @ended outcome outputs hends =>
    rcases feed.endSession_phase config endpoint.url now outcome with hidle | ⟨_, hidle⟩ | hidle
    all_goals
      simp only [hidle]
      exact ⟨trivial, fun _ hloop => by cases hloop⟩

/-! ## Runs -/

/-- Nothing is expected of a call that has not begun. -/
theorem DeliveryInvariant.start (connector : Connector M) (now : ℕ) (watch : Watch) (seen : ℕ) :
    DeliveryInvariant connector (FeedState.start (M := M) now watch seen).feed.phase
      (FeedState.start (M := M) now watch seen).log where
  responding _ _ h := by cases h
  settled _ := by simp [Connector.AwaitsReply, FeedState.start]
  delivered _ := rfl
  prefixed := List.prefix_refl _
  dropped := by simp [ReceiverDropped, FeedState.start]
  answered := List.isChain_nil

/-- The two invariants hold of every run. -/
theorem FeedState.traced {now seen : ℕ} {watch : Watch} {moves : List (ℕ × RunAction)}
    {s : FeedState M}
    (hrun : TransitionSystem.run (runFeedStep config connector endpoint) (.start now watch seen)
      moves = some s) :
    DeliveryInvariant connector s.feed.phase s.log ∧
      s.feed.phase.Greets connector endpoint (sessionTexts s.log) := by
  apply runFeed_invariant (I := fun feed log => DeliveryInvariant connector feed.phase log ∧
    feed.phase.Greets connector endpoint (sessionTexts log)) _ hrun
    ⟨.start connector now watch seen, trivial⟩
  intro feed log now watch action after h hafter
  have hmove := Feed.step_move hafter
  exact ⟨hmove.deliveries h.1, (hmove.greets h.2).1⟩

end ExchangeApiws.Native.Runner

namespace ExchangeApiws.Spec

open Native Native.Runner TransitionSystem

/-- A private stream with server-driven heartbeats: a text is one message, twice. -/
def heartbeatConnector : Connector String where
  authMessage _ := some "login"
  pingMessage _ := none
  responseFor _ text := if text = "heartbeat" then some "respond-heartbeat" else none
  parseMessage _ text :=
    if text = "noise" then .error (.json "expected value") else .ok [text, text]

end ExchangeApiws.Spec
