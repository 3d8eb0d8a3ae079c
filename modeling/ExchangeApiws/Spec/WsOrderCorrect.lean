import ExchangeApiws.Spec.WsOrderInvariant

/-!
# What a caller of the order client can rely on

Three questions about one call of `send_and_await` among any number of others: whether it is
answered once both tasks have ended, whether its frame can go out after it has failed, and
whether its clean-up leaves the other calls alone.

## Key results

- `answered_when_tasks_ended`: no call is left to its timeout, in the runs in which no call
  pushes its frame between the drain of the reader and the end of the writer
- `frame_after_return`: when the frame of a call that has returned can still go out
- `cleanUp_leaves_others`: what a call removes is its own, in the runs in which no call
  registers under the `clientOid` of a call that may still fail
-/

namespace ExchangeApiws.Spec

open Native.WsOrders TransitionSystem

variable {F : Type} {fromStr : String → Option (Native.Value F)}

/-! ## Calls that are left waiting -/

/-- The call waits, and nothing has been sent to it. -/
def Unanswered (call : Call F) : Prop := call.phase = .awaiting ∧ call.chan = .empty

/-- A call whose channel is still empty pushes its frame before the reader has drained the
    pending map, or finds the queue full or the writer gone. -/
def PushesBeforeDrain (s : State F) : Action → Prop
  | .trySend c => s.reader = .terminated → ∀ call, s.calls[c]? = some call →
      call.chan = .empty → s.writer = .terminated ∨ OUTBOUND_QUEUE_CAPACITY ≤ s.queue.length
  | _ => True

/-- Once the reader task has ended, no call is unanswered. -/
def DrainedAtEnd (s : State F) : Prop :=
  s.reader = .terminated → ∀ (c : ℕ) (call : Call F), s.calls[c]? = some call → ¬ Unanswered call

/-- A call that is unanswered after a removal and a change of one call's phase was so before. -/
theorem unanswered_before {s : State F} {oid : String} {c d : ℕ} {phase : Phase F}
    {call' : Call F} (hphase : phase ≠ .awaiting)
    (hcall' : ((s.removePending oid Call.dropSender).modifyCall c (.setPhase phase)).calls[d]? =
      some call')
    (hun : Unanswered call') : s.calls[d]? = some call' := by
  rw [State.modifyCall_calls] at hcall'
  obtain ⟨call₁, hcall₁, hcase⟩ := ite_map_eq_some hcall'
  cases hcase with
  | inl hcase => obtain ⟨-, rfl⟩ := hcase; exact absurd hun.1 hphase
  | inr hcase =>
    obtain ⟨-, rfl⟩ := hcase
    rw [State.removePending_calls] at hcall₁
    obtain ⟨call, hcall, hdrop⟩ := ite_map_eq_some hcall₁
    cases hdrop with
    | inl hdrop =>
      -- the call whose sender is dropped is told so
      rw [hdrop.2] at hun
      exact absurd hun.2 call.dropSender_chan_ne_empty
    | inr hdrop => obtain ⟨-, rfl⟩ := hdrop; exact hcall

/-- A new connection has not been drained. -/
theorem drainedAtEnd_connect : DrainedAtEnd (State.connect : State F) := by
  intro hreader
  cases hreader

/-- Once the reader has ended, only a push could leave a call unanswered. -/
theorem drainedAtEnd_step {s s' : State F} {a : Action} (hs : s.Registered)
    (h : DrainedAtEnd s) (hok : PushesBeforeDrain s a) (he : Effect s a s') : DrainedAtEnd s' := by
  intro hreader c call' hcall' hun
  cases he with
  | start clientOid frame =>
    cases getElem?_start hcall' with
    | inl hold => exact h hreader c call' hold hun
    | inr hnew => rw [hnew.2] at hun; cases hun.1
  | turn _ hturn =>
    rw [State.modifyCall_calls] at hcall'
    obtain ⟨call, hcall, hcase⟩ := ite_map_eq_some hcall'
    cases hcase with
    | inl hcase =>
      -- no call turns to a phase in which it listens
      obtain ⟨-, rfl⟩ := hcase
      have hrec := hturn.receiving
      have hawaiting := hun.1
      rw [Call.setPhase_phase] at hawaiting
      simp [hawaiting, Phase.receiving] at hrec
    | inr hcase => obtain ⟨-, rfl⟩ := hcase; exact h hreader c call' hcall hun
  | insert => exact h hreader c call' (unanswered_before (by simp) hcall' hun) hun
  | @enqueue d call hcall _ hwriter hroom =>
    have hc := (s.modifyCall_calls d c (.setPhase .awaiting)).symm.trans hcall'
    obtain ⟨call₁, hcall₁, hcase⟩ := ite_map_eq_some hc
    cases hcase with
    | inl hcase =>
      -- the pushing call itself: this is what the condition excludes
      obtain ⟨rfl, rfl⟩ := hcase
      cases hok hreader call₁ hcall₁ hun.2 with
      | inl hgone => exact hwriter hgone
      | inr hfull => exact absurd hroom (Nat.not_lt_of_le hfull)
    | inr hcase => obtain ⟨-, rfl⟩ := hcase; exact h hreader c call' hcall₁ hun
  | cleanUp => exact h hreader c call' (unanswered_before (by simp) hcall' hun) hun
  | route => cases hreader
  | drain =>
    -- a call that still listened would have an entry in the drained map
    have hown := (hs.drainPending .connectionClosed).owned c call' hcall'
      (by rw [hun.1]; rfl) hun.2
    simp [State.drainPending_pending] at hown
  | other hcalls _ _ hended =>
    rw [hcalls] at hcall'
    exact h (hended.mp hreader) c call' hcall' hun

/-- In every state in which both tasks have ended, no waiting call has an entry in the pending
    map, every waiting call has been sent its own ack or the marker, or has lost its sender,
    and a call that still has to push its frame fails at once. -/
theorem answered_when_tasks_ended {as : List Action} {s : State F}
    (hrun : run (step fromStr) .connect as = some s)
    (hok : StepsMeet (step fromStr) PushesBeforeDrain .connect as)
    (hreader : s.reader = .terminated) (hwriter : s.writer = .terminated) :
    (∀ (k : String) (c : ℕ) (call : Call F), s.pending[k]? = some c → s.calls[c]? = some call →
      call.phase ≠ .awaiting) ∧
    (∀ (c : ℕ) (call : Call F), s.calls[c]? = some call → call.phase = .awaiting →
      call.chan = .closed ∨ ∃ ack, call.chan = .filled ack ∧ call.Accepts ack) ∧
    ∀ (c : ℕ) (call : Call F), s.calls[c]? = some call → call.phase = .enqueueing →
      ∃ s', step fromStr s (.trySend c) = some s' ∧
        s'.calls[c]? = some (call.setPhase (.cleaning .writerClosed)) := by
  have hconsistent : s.Consistent := consistent_of_reaches consistent_connect ⟨as, hrun⟩
  have hdrained : DrainedAtEnd s := by
    have hboth : s.Registered ∧ DrainedAtEnd s := by
      apply run_invariant_of_stepsMeet (I := fun t => t.Registered ∧ DrainedAtEnd t) _ _ hok hrun
        ⟨registered_connect, drainedAtEnd_connect⟩
      intro t a t' ht hmeet hstep
      exact ⟨(step_cases hstep).registered ht.1,
        drainedAtEnd_step ht.1 ht.2 hmeet (step_cases hstep)⟩
    exact hboth.2
  have hanswered := hdrained hreader
  constructor
  · -- an entry names a call whose channel is empty
    intro k c call hentry hcall hphase
    obtain ⟨call₀, hcall₀, -, -, hchan⟩ := hconsistent.entry k c hentry
    have hsame : call = call₀ := Option.eq_some_unique hcall hcall₀
    exact hanswered c call hcall ⟨hphase, hsame ▸ hchan⟩
  constructor
  · intro c call hcall hphase
    cases hchan : call.chan with
    | empty => exact absurd ⟨hphase, hchan⟩ (hanswered c call hcall)
    | closed => exact Or.inl rfl
    | filled ack => exact Or.inr ⟨ack, rfl, hconsistent.sound c call hcall ack (Or.inl hchan)⟩
  · -- the queue of a writer that has ended is closed
    intro c call hcall hphase
    refine ⟨s.modifyCall c (.setPhase (.cleaning .writerClosed)), ?_, ?_⟩
    · simp only [step, State.stepCall, hcall, Option.bind_some, hphase, hwriter, if_true]
    · rw [State.modifyCall_calls, if_pos rfl, hcall]; rfl

/-- A call that finds the connection open, registers, and pushes its frame; then the connection
    is closed, the reader drains and the writer ends. -/
def closedRun : List Action :=
  [.start "a" "order", .checkClosed 0, .insert 0, .trySend 0, .closeStore, .closeSignal,
    .readerShutdown, .readerStore, .readerSignal, .readerDrain,
    .writerShutdown, .writerStore, .writerSignal, .writerClose]

/-- The same steps, with the registration and the push after the drain. -/
def strandedRun : List Action :=
  [.start "a" "order", .checkClosed 0, .closeStore, .closeSignal,
    .readerShutdown, .readerStore, .readerSignal, .readerDrain, .insert 0, .trySend 0,
    .writerShutdown, .writerStore, .writerSignal, .writerClose]

/-- In the run of the example no call is left waiting. -/
theorem answered_when_tasks_ended_closedRun :
    ∃ s : State ℤ, run (step fun _ => none) .connect closedRun = some s ∧
      ∀ (k : String) (c : ℕ) (call : Call ℤ), s.pending[k]? = some c → s.calls[c]? = some call →
        call.phase ≠ .awaiting := by
  refine ⟨_, rfl, ?_⟩
  have hmeet : StepsMeet (step (F := ℤ) fun _ => none) PushesBeforeDrain .connect closedRun := by
    -- only the push has something to show: the reader still runs then
    iterate 3 apply StepsMeet.cons _ trivial rfl
    apply StepsMeet.cons _ nofun rfl
    iterate 10 apply StepsMeet.cons _ trivial rfl
    exact stepsMeet_nil _ _ _
  exact (answered_when_tasks_ended rfl hmeet rfl rfl).1

/-- In the other run a call is left waiting for ever. -/
theorem not_answered_strandedRun :
    ¬ ∀ (as : List Action) (s : State ℤ), run (step fun _ => none) .connect as = some s →
      s.reader = .terminated → s.writer = .terminated →
      ∀ (k : String) (c : ℕ) (call : Call ℤ), s.pending[k]? = some c → s.calls[c]? = some call →
        call.phase ≠ .awaiting := by
  intro h
  exact h strandedRun _ rfl rfl rfl "a" 0 ⟨"a", "order", .awaiting, .empty⟩ (by decide) rfl rfl

/-! ## Frames of calls that have returned -/

/-- The frame of a call that has returned is not pushed again. -/
theorem mem_frames_of_returned {s s' : State F} (hs : s.Consistent)
    (h : Reaches (step fromStr) s s') {c : ℕ} {call : Call F}
    {result : Except CallError (WsOrderAck F)} (hcall : s.calls[c]? = some call)
    (hphase : call.phase = .returned result) (hframe : c ∈ s'.frames) : c ∈ s.frames := by
  have hinv : (s'.Consistent ∧ ∃ call', s'.calls[c]? = some call' ∧
      call'.phase = .returned result) ∧ (c ∈ s'.frames → c ∈ s.frames) := by
    apply h.invariant (I := fun t => (t.Consistent ∧ ∃ call', t.calls[c]? = some call' ∧
      call'.phase = .returned result) ∧ (c ∈ t.frames → c ∈ s.frames)) _ _
      ⟨⟨hs, call, hcall, hphase⟩, id⟩
    intro t a t' ht hstep
    obtain ⟨⟨hconsistent, called, hcalled, hreturned⟩, hold⟩ := ht
    have he := step_cases hstep
    obtain ⟨called', hcalled', hevolves⟩ := he.evolves hconsistent.toRegistered hcalled
    have hreturned' : called'.phase = .returned result :=
      hevolves.invariant (fun _ _ hchange => hchange.returned) hreturned
    refine ⟨⟨he.consistent hconsistent, called', hcalled', hreturned'⟩, fun hmem => ?_⟩
    cases he.frames with
    | inl hsub => exact hold (hsub.subset hmem)
    | inr hpush =>
      -- the call that pushes stands in `enqueueing`, so it is another one
      obtain ⟨d, pushing, hpushing, hpphase, -, hframes⟩ := hpush
      rw [hframes, List.mem_append, List.mem_singleton] at hmem
      cases hmem with
      | inl hmem => exact hold hmem
      | inr hcd =>
        subst hcd
        have hsame : pushing = called := Option.eq_some_unique hpushing hcalled
        simp [hsame, hreturned] at hpphase
  exact hinv.2 hframe

/-- Let `s'` come after `s`. The frame of a call that has returned in `s` is written in `s'`
    only if it was written, held by the writer or queued in `s`; it is never written if the
    call returned because the connection was closed, the queue full or the writer gone. No
    frame is written twice, and none after the writer has ended. -/
theorem frame_after_return {as bs : List Action} {s s' : State F}
    (hs : run (step fromStr) .connect as = some s) (hs' : run (step fromStr) s bs = some s') :
    (∀ (c : ℕ) (call : Call F) (result : Except CallError (WsOrderAck F)),
      s.calls[c]? = some call → call.phase = .returned result → c ∈ s'.written →
        c ∈ s.written ∨ c ∈ s.writer.held ∨ c ∈ s.queue) ∧
    (∀ (c : ℕ) (call : Call F) (error : CallError),
      s.calls[c]? = some call → call.phase = .returned (.error error) →
        error ≠ .timedOut → error ≠ .channelClosed → c ∉ s'.written) ∧
    s'.written.Nodup ∧ (s.writer = .terminated → s'.written = s.written) := by
  have hconsistent : s.Consistent := consistent_of_reaches consistent_connect ⟨as, hs⟩
  have hconsistent' : s'.Consistent := consistent_of_reaches hconsistent ⟨bs, hs'⟩
  have hframe : ∀ (c : ℕ) (call : Call F) (result : Except CallError (WsOrderAck F)),
      s.calls[c]? = some call → call.phase = .returned result → c ∈ s'.written → c ∈ s.frames :=
    fun c call result hcall hphase hwritten => mem_frames_of_returned hconsistent ⟨bs, hs'⟩ hcall
      hphase (List.mem_append_left _ hwritten)
  refine ⟨?_, ?_, ?_, ?_⟩
  · -- the frames of `s` are what is written, held and queued
    intro c call result hcall hphase hwritten
    have hmem := hframe c call result hcall hphase hwritten
    simpa only [State.frames, List.mem_append] using hmem
  · -- a call with one of the other errors never got its frame into the queue
    intro c call error hcall hphase htimedOut hclosed hwritten
    obtain ⟨call₀, hcall₀, henq⟩ :=
      hconsistent.enqueued c (hframe c call _ hcall hphase hwritten)
    have hsame : call = call₀ := Option.eq_some_unique hcall hcall₀
    rw [← hsame, hphase] at henq
    simp [Phase.enqueued, htimedOut, hclosed] at henq
  · exact hconsistent'.nodup.sublist (List.sublist_append_left _ _)
  · intro hwriter
    have hinv : s'.writer = .terminated ∧ s'.written = s.written := by
      apply run_invariant (I := fun t => t.writer = .terminated ∧ t.written = s.written) _ _ hs'
        ⟨hwriter, rfl⟩
      intro t a t' ht hstep
      obtain ⟨hended, hsame⟩ := (step_cases hstep).writer_ended ht.1
      exact ⟨hended, hsame.trans ht.2⟩
    exact hinv.2

/-- A call that times out while its frame is queued. -/
def timedOutRun : List Action :=
  [.start "a" "order", .checkClosed 0, .insert 0, .trySend 0, .timeout 0, .cleanUp 0]

/-- The writer sends the frame at the head of the queue. -/
def writerRun : List Action := [.writerRecv, .writerChecked, .writerSent]

/-- The frame of a call that has returned is written afterwards. -/
theorem frame_after_return_timedOutRun :
    ∃ s s' : State ℤ, run (step fun _ => none) .connect timedOutRun = some s ∧
      run (step fun _ => none) s writerRun = some s' ∧
      (0 ∈ s.written ∨ 0 ∈ s.writer.held ∨ 0 ∈ s.queue) := by
  refine ⟨_, _, rfl, rfl, ?_⟩
  exact (@frame_after_return ℤ (fun _ => none) timedOutRun writerRun _ _ rfl rfl).1 0
    ⟨"a", "order", .returned (.error .timedOut), .closed⟩ _ rfl rfl (by decide)

/-- The frame of a call that has returned a timeout goes out. -/
theorem not_unwritten_timedOutRun :
    ¬ ∀ (as bs : List Action) (s s' : State ℤ) (c : ℕ) (call : Call ℤ) (error : CallError),
      run (step fun _ => none) .connect as = some s → run (step fun _ => none) s bs = some s' →
      s.calls[c]? = some call → call.phase = .returned (.error error) →
      c ∉ s.written → c ∉ s'.written := by
  intro h
  exact h timedOutRun writerRun _ _ 0 ⟨"a", "order", .returned (.error .timedOut), .closed⟩
    .timedOut rfl rfl rfl rfl (by decide) (by decide)

/-! ## Clean-ups -/

/-- The call may still fail, and then removes its key from the pending map. -/
def MayCleanUp (call : Call F) : Prop :=
  (∃ error, call.phase = .cleaning error) ∨ call.phase = .enqueueing ∨
    call.phase = .awaiting ∧ ∀ ack, call.chan ≠ .filled ack

/-- A call registers under a `clientOid` that no call uses which may still clean up. -/
def RegistersFreeKey (s : State F) : Action → Prop
  | .insert c => ∀ call, s.calls[c]? = some call → ∀ (d : ℕ) (other : Call F),
      s.calls[d]? = some other → other.clientOid = call.clientOid → ¬ MayCleanUp other
  | _ => True

/-- The key of a call that may clean up holds no other call. -/
def OwnsKey (s : State F) : Prop :=
  ∀ (c : ℕ) (call : Call F), s.calls[c]? = some call → MayCleanUp call →
    ∀ d, s.pending[call.clientOid]? = some d → d = c

/-- A call that may clean up after a turn could before it. -/
theorem MayCleanUp.of_turn {call : Call F} {phase : Phase F} (hturn : call.Turn phase)
    (h : MayCleanUp (call.setPhase phase)) : MayCleanUp call := by
  cases hturn with
  | writerClosed hp | queueFull hp => exact Or.inr (Or.inl hp)
  | dropped hp hchan => exact Or.inr (Or.inr ⟨hp, by simp [hchan]⟩)
  | timedOut hp hchan => exact Or.inr (Or.inr ⟨hp, by simp [hchan]⟩)
  | _ => simp [MayCleanUp] at h

/-- What is sent to a call, or dropped, does not make it fail: an ack stays in its channel. -/
theorem MayCleanUp.of_change {call call' : Call F} (hchange : Call.Change call call')
    (hphase : call'.phase = call.phase) (h : MayCleanUp call') : MayCleanUp call := by
  simp only [MayCleanUp, hphase] at h
  cases h with
  | inl hcleaning => exact Or.inl hcleaning
  | inr h =>
    cases h with
    | inl henqueueing => exact Or.inr (Or.inl henqueueing)
    | inr hawaiting =>
      refine Or.inr (Or.inr ⟨hawaiting.1, fun ack hack => ?_⟩)
      have hstays : call'.chan = call.chan := hchange.chan (by simp [hack])
      exact hawaiting.2 ack (hstays.trans hack)

/-- A removal keeps `OwnsKey`, whatever becomes of the sender. -/
theorem ownsKey_removePending {s : State F} (hs : s.Registered) (h : OwnsKey s) (oid : String)
    {f : Call F → Call F} (hf : ∀ call, call.clientOid = oid → Call.Change call (f call)) :
    OwnsKey (s.removePending oid f) := by
  intro c call' hcall' hmay d hd
  rw [State.removePending_calls] at hcall'
  rw [State.removePending_pending] at hd
  split at hd
  · cases hd
  · rename_i hk
    obtain ⟨call, hcall, hcase⟩ := ite_map_eq_some hcall'
    cases hcase with
    | inl hcase =>
      -- the removed entry is found under the key of the call it names
      obtain ⟨hentry, rfl⟩ := hcase
      obtain ⟨call₀, hcall₀, hoid, -⟩ := hs.entry oid c hentry
      have hsame : call = call₀ := Option.eq_some_unique hcall hcall₀
      have hchange := hf call (hsame ▸ hoid)
      exact absurd (hsame ▸ hoid.symm) (hchange.clientOid ▸ hk)
    | inr hcase => obtain ⟨-, rfl⟩ := hcase; exact h c call' hcall hmay d hd

/-- A change of one call's phase keeps `OwnsKey`, if it does not make the call fail. -/
theorem ownsKey_modifyCall {s : State F} (h : OwnsKey s) {c : ℕ} {call : Call F}
    (hcall : s.calls[c]? = some call) {phase : Phase F}
    (hmay : MayCleanUp (call.setPhase phase) → MayCleanUp call) :
    OwnsKey (s.modifyCall c (.setPhase phase)) := by
  intro d called' hcalled' hmay' e he
  rw [State.modifyCall_calls] at hcalled'
  obtain ⟨called, hcalled, hcase⟩ := ite_map_eq_some hcalled'
  cases hcase with
  | inl hcase =>
    obtain ⟨rfl, rfl⟩ := hcase
    have hsame : call = called := Option.eq_some_unique hcall hcalled
    subst hsame
    exact h c call hcall (hmay hmay') e he
  | inr hcase => obtain ⟨-, rfl⟩ := hcase; exact h d called' hcalled hmay' e he

/-- Only an insert could put another call under the key of a call that may clean up. -/
theorem ownsKey_step {s s' : State F} {a : Action} (hs : s.Registered) (h : OwnsKey s)
    (hok : RegistersFreeKey s a) (he : Effect s a s') : OwnsKey s' := by
  cases he with
  | start clientOid frame =>
    intro c call' hcall' hmay d hd
    cases getElem?_start hcall' with
    | inl hold => exact h c call' hold hmay d hd
    | inr hnew => rw [hnew.2] at hmay; simp [MayCleanUp] at hmay
  | turn hcall hturn => exact ownsKey_modifyCall h hcall (.of_turn hturn)
  | @insert c call hcall hphase =>
    intro d called' hcalled' hmay e he
    rw [State.modifyCall_pending, State.insertPending_pending] at he
    rw [State.modifyCall_calls] at hcalled'
    obtain ⟨called₁, hcalled₁, hcase⟩ := ite_map_eq_some hcalled'
    rw [State.insertPending_calls] at hcalled₁
    obtain ⟨called, hcalled, hdrop⟩ := ite_map_eq_some hcalled₁
    have hoid₁ : called₁.clientOid = called.clientOid := by
      cases hdrop with
      | inl hdrop => rw [hdrop.2, Call.dropSender_clientOid]
      | inr hdrop => rw [hdrop.2]
    cases hcase with
    | inl hcase =>
      -- the key of the inserting call holds itself
      obtain ⟨rfl, rfl⟩ := hcase
      have hsame : call = called := Option.eq_some_unique hcall hcalled
      rw [if_pos (by rw [Call.setPhase_clientOid, hoid₁, hsame])] at he
      exact (Option.some.inj he).symm
    | inr hcase =>
      obtain ⟨-, rfl⟩ := hcase
      have hmay₀ : MayCleanUp called := by
        cases hdrop with
        | inl hdrop =>
          rw [hdrop.2] at hmay
          exact hmay.of_change .dropped called.dropSender_phase
        | inr hdrop => rw [← hdrop.2]; exact hmay
      rw [hoid₁] at he
      split at he
      · -- the inserted key is its key: this is what the condition excludes
        rename_i hk
        exact absurd hmay₀ (hok call hcall d called hcalled hk.symm)
      · exact h d called hcalled hmay₀ e he
  | @enqueue c call hcall hphase =>
    have hown : OwnsKey (s.modifyCall c (.setPhase .awaiting)) :=
      ownsKey_modifyCall h hcall (fun _ => Or.inr (Or.inl hphase))
    exact hown
  | @cleanUp c call error hcall hphase =>
    obtain ⟨call₁, hcall₁, hphase₁⟩ := State.removePending_phase hcall
    apply ownsKey_modifyCall (ownsKey_removePending hs h call.clientOid fun _ _ => .dropped) hcall₁
    intro hmay
    simp [MayCleanUp] at hmay
  | route hreader =>
    exact ownsKey_removePending hs h _ (fun call hoid => .answered (Or.inl hoid.symm))
  | drain hreader =>
    intro c call' _ _ d hd
    simp [State.drainPending_pending] at hd
  | other hcalls hpending =>
    intro c call' hcall' hmay d hd
    rw [hcalls] at hcall'
    rw [hpending] at hd
    exact h c call' hcall' hmay d hd

/-- The clean-up of a call removes no entry of another call; a call is answered, and returns,
    at most once; and every ack that a call returns is its own or the marker. -/
theorem cleanUp_leaves_others {as : List Action} {s : State F}
    (hrun : run (step fromStr) .connect as = some s)
    (hok : StepsMeet (step fromStr) RegistersFreeKey .connect as) :
    (∀ (c : ℕ) (s' : State F), step fromStr s (.cleanUp c) = some s' →
      ∀ (k : String) (d : ℕ), s.pending[k]? = some d → d ≠ c → s'.pending[k]? = some d) ∧
    (∀ (bs cs : List Action) (t : State F), as = bs ++ cs →
      run (step fromStr) .connect bs = some t →
      ∀ (c : ℕ) (call call' : Call F), t.calls[c]? = some call → s.calls[c]? = some call' →
        (call.chan ≠ .empty → call'.chan = call.chan) ∧
        ∀ result, call.phase = .returned result → call'.phase = .returned result) ∧
    ∀ (c : ℕ) (call : Call F) (ack : WsOrderAck F), s.calls[c]? = some call →
      call.phase = .returned (.ok ack) →
        ack.clientOid = call.clientOid ∨ ack = .connectionClosed := by
  have hconsistent : s.Consistent := consistent_of_reaches consistent_connect ⟨as, hrun⟩
  have hboth : s.Registered ∧ OwnsKey s := by
    apply run_invariant_of_stepsMeet (I := fun t => t.Registered ∧ OwnsKey t) _ _ hok hrun
      ⟨registered_connect, ?_⟩
    · intro t a t' ht hmeet hstep
      exact ⟨(step_cases hstep).registered ht.1, ownsKey_step ht.1 ht.2 hmeet (step_cases hstep)⟩
    · intro c call hcall
      simp [State.connect] at hcall
  refine ⟨?_, ?_, ?_⟩
  · intro c s' hstep k d hd hdc
    simp only [step, State.stepCall] at hstep
    obtain ⟨call, hcall, hstep⟩ := Option.bind_eq_some_iff.mp hstep
    split at hstep
    · -- only the key of the call itself is removed, and that holds no other call
      rename_i error hphase
      cases hstep
      rw [State.modifyCall_pending, State.removePending_pending, if_neg]
      · exact hd
      · intro hk
        exact hdc (hboth.2 c call hcall (Or.inl ⟨error, hphase⟩) d (hk ▸ hd))
    · cases hstep
  · intro bs cs t has ht c call call' hcall hcall'
    have hrest : run (step fromStr) t cs = some s := by
      rw [has, run_append, ht] at hrun
      exact hrun
    obtain ⟨called, hcalled, hevolves⟩ := evolves_of_reaches
      (consistent_of_reaches consistent_connect ⟨bs, ht⟩) ⟨cs, hrest⟩ hcall
    have hsame : call' = called := Option.eq_some_unique hcall' hcalled
    subst hsame
    constructor
    · intro hchan
      exact hevolves.invariant
        (fun _ _ hchange hc => (hchange.chan (by rw [hc]; exact hchan)).trans hc) rfl
    · intro result hphase
      exact hevolves.invariant (fun _ _ hchange => hchange.returned) hphase
  · intro c call ack hcall hphase
    exact hconsistent.sound c call hcall ack (Or.inr hphase)

/-- Two calls, of which the first times out. -/
def twoKeysRun : List Action :=
  [.start "a" "order", .start "b" "order", .checkClosed 0, .insert 0, .checkClosed 1, .insert 1,
    .trySend 0, .trySend 1, .timeout 0]

/-- Two calls under one `clientOid`: the second insert drops the sender of the first call. -/
def oneKeyRun : List Action :=
  [.start "a" "order", .start "a" "order", .checkClosed 0, .insert 0, .trySend 0, .checkClosed 1,
    .insert 1, .trySend 1, .receive 0]

/-- The clean-up of one call leaves the other's entry. -/
theorem cleanUp_leaves_others_twoKeysRun :
    ∃ s s' : State ℤ, run (step fun _ => none) .connect twoKeysRun = some s ∧
      step (fun _ => none) s (.cleanUp 0) = some s' ∧ s'.pending["b"]? = some 1 := by
  have hmeet : StepsMeet (step (F := ℤ) fun _ => none) RegistersFreeKey .connect twoKeysRun := by
    iterate 3 apply StepsMeet.cons _ trivial rfl
    apply StepsMeet.cons _ _ rfl
    · apply StepsMeet.cons _ trivial rfl
      apply StepsMeet.cons _ _ rfl
      · iterate 3 apply StepsMeet.cons _ trivial rfl
        exact stepsMeet_nil _ _ _
      · -- the first call has another key, the second is the one that registers
        intro call hcall d other hother hoid
        cases hcall
        rcases d with _ | _ | d
        · cases hother; exact absurd hoid (by decide)
        · cases hother; simp [MayCleanUp]
        · cases hother
    · intro call hcall d other hother hoid
      cases hcall
      rcases d with _ | _ | d
      · cases hother; simp [MayCleanUp]
      · cases hother; exact absurd hoid (by decide)
      · cases hother
  exact ⟨_, _, rfl, rfl, (cleanUp_leaves_others rfl hmeet).1 0 _ rfl "b" 1 (by decide) (by decide)⟩

/-- The clean-up of the first call removes the entry of the second. -/
theorem not_leaves_others_oneKeyRun :
    ¬ ∀ (as : List Action) (s s' : State ℤ) (c : ℕ),
      run (step fun _ => none) .connect as = some s →
      step (fun _ => none) s (.cleanUp c) = some s' →
      ∀ (k : String) (d : ℕ), s.pending[k]? = some d → d ≠ c → s'.pending[k]? = some d := by
  intro h
  have hkept := h oneKeyRun _ _ 0 rfl rfl "a" 1 (by decide) (by decide)
  exact absurd hkept (by decide)

end ExchangeApiws.Spec
