import ExchangeApiws.Spec.WsOrderInvariant

/-!
# The frames of the order client go out in order

The outbound path of the client is a bounded queue, then the frame in the hands of the writer
task, then the socket. The order in which the queue accepts frames is the order in which they
go out: a frame is lost only when the writer ends, and then all that were accepted behind it
are lost too.
-/

namespace ExchangeApiws.Native.WsOrders

variable {F : Type}

/-! ## What one step does to the outbound path -/

/-- The writer task is in its loop. -/
def Writer.looping : Writer → Bool
  | .selecting | .throttled _ | .sending _ => true
  | _ => false

def Phase.isAwaiting : Phase F → Bool
  | .awaiting => true
  | _ => false

/-- The frame that the queue accepted in a step: a `try_send` that succeeds leaves its call
    waiting for the ack. -/
def acceptedFrame (_ : State F) (a : Action) (s' : State F) : List ℕ :=
  match a with
  | .trySend c => if s'.calls[c]?.any (·.phase.isAwaiting) then [c] else []
  | _ => []

/-- What a step can do to the queue, the writer and the socket. -/
inductive Outbound (s : State F) : Action → State F → Prop
  | same {a : Action} {s' : State F} :
      s'.queue = s.queue → s'.writer = s.writer → s'.written = s.written →
      acceptedFrame s a s' = [] → Outbound s a s'
  | accept {c : ℕ} {call : Call F} {s' : State F} :
      s.calls[c]? = some call → call.phase = .enqueueing →
      s'.calls[c]? = some (call.setPhase .awaiting) → s'.queue = s.queue ++ [c] →
      s'.writer = s.writer → s'.written = s.written →
      s.queue.length < OUTBOUND_QUEUE_CAPACITY →
      Outbound s (.trySend c) s'
  | take {frame : ℕ} {rest : List ℕ} :
      s.writer = .selecting → s.queue = frame :: rest →
      Outbound s .writerRecv { s with writer := .throttled frame, queue := rest }
  | checked {frame : ℕ} :
      s.writer = .throttled frame → Outbound s .writerChecked { s with writer := .sending frame }
  | sent {frame : ℕ} :
      s.writer = .sending frame →
      Outbound s .writerSent { s with writer := .selecting, written := s.written ++ [frame] }
  | failed {frame : ℕ} (wrote : Bool) :
      s.writer = .sending frame →
      Outbound s (.writerFailed wrote) { s with
        writer := .storingClosed
        written := if wrote then s.written ++ [frame] else s.written }
  /-- The writer leaves its loop, or goes on to its end. -/
  | leave {a : Action} {s' : State F} :
      s'.writer.looping = false → s'.written = s.written → s'.queue.length ≤ s.queue.length →
      acceptedFrame s a s' = [] → Outbound s a s'

/-- A `try_send` that fails leaves its call about to clean up. -/
theorem acceptedFrame_refused {s : State F} {c : ℕ} {call : Call F} {error : CallError}
    (hcall : s.calls[c]? = some call) :
    acceptedFrame s (.trySend c) (s.modifyCall c (.setPhase (.cleaning error))) = [] := by
  simp [acceptedFrame, State.modifyCall_calls, hcall, Phase.isAwaiting]

/-- A push that succeeds is accepted. -/
theorem acceptedFrame_enqueued {s s' : State F} {c : ℕ} {call : Call F}
    (hcall : s'.calls[c]? = some (call.setPhase .awaiting)) :
    acceptedFrame s (.trySend c) s' = [c] := by
  simp [acceptedFrame, hcall, Phase.isAwaiting]

/-- Every step does one of these to the outbound path. -/
theorem outbound_cases {fromStr : String → Option (Value F)} {s s' : State F} {a : Action}
    (h : step fromStr s a = some s') : Outbound s a s' := by
  cases a with
  | trySend c =>
    simp only [step, State.stepCall] at h
    obtain ⟨call, hcall, h⟩ := Option.bind_eq_some_iff.mp h
    split at h
    · rename_i hphase
      split at h
      · cases h; exact .same rfl rfl rfl (acceptedFrame_refused hcall)
      · split at h
        · cases h; exact .same rfl rfl rfl (acceptedFrame_refused hcall)
        · rename_i hroom
          have hcall' : (s.modifyCall c (.setPhase .awaiting)).calls[c]? =
              some (call.setPhase .awaiting) := by
            rw [State.modifyCall_calls, if_pos rfl, hcall]
            rfl
          cases h
          exact .accept hcall hphase hcall' rfl rfl rfl (Nat.lt_of_not_le hroom)
    · cases h
  | writerRecv =>
    simp only [step] at h
    split at h
    · rename_i frame rest hwriter hqueue; cases h; exact .take hwriter hqueue
    · cases h
  | writerChecked =>
    simp only [step] at h
    split at h
    · rename_i frame hwriter; cases h; exact .checked hwriter
    · cases h
  | writerSent =>
    simp only [step] at h
    split at h
    · rename_i frame hwriter; cases h; exact .sent hwriter
    · cases h
  | writerFailed wrote =>
    simp only [step] at h
    split at h
    · rename_i frame hwriter; cases h; exact .failed wrote hwriter
    · cases h
  | writerShutdown | writerQueueClosed | writerStore | writerSignal =>
    simp only [step] at h
    split at h
    · cases h; exact .leave rfl rfl (Nat.le_refl _) rfl
    · cases h
  | writerClose =>
    simp only [step] at h
    split at h
    · cases h; exact .leave rfl rfl (Nat.zero_le _) rfl
    · cases h
  | checkClosed c | insert c | receive c | timeout c | cleanUp c | cancel c =>
    -- a call's other steps leave the path alone
    simp only [step, State.stepCall] at h
    obtain ⟨call, hcall, h⟩ := Option.bind_eq_some_iff.mp h
    split at h <;> (try split at h) <;> cases h <;> exact .same rfl rfl rfl rfl
  | readerText raw | readerShutdown =>
    simp only [step] at h
    split at h
    · split at h <;> cases h <;> exact .same rfl rfl rfl rfl
    · cases h
  | start | closeStore | closeSignal | dropHandles | readerOther | readerEnd | readerRoute
  | readerStore | readerSignal | readerDrain =>
    simp only [step] at h
    split at h
    · cases h; exact .same rfl rfl rfl rfl
    · cases h

/-! ## What a run keeps -/

/-- The frames the queue has accepted so far, against the state they have led to. -/
structure State.Pipelined (s : State F) (accepted : List ℕ) : Prop where
  /-- Until the writer leaves its loop nothing is lost. -/
  kept : s.writer.looping = true → accepted = s.frames
  order : s.written <+: accepted
  bounded : s.queue.length ≤ OUTBOUND_QUEUE_CAPACITY

/-- A new connection has accepted nothing. -/
theorem pipelined_connect : (State.connect : State F).Pipelined [] where
  kept := fun _ => rfl
  order := List.prefix_rfl
  bounded := Nat.zero_le _

/-- A step of the writer's loop moves frames along the path. -/
theorem State.Pipelined.move {s s' : State F} {accepted : List ℕ} (h : s.Pipelined accepted)
    (hlooping : s.writer.looping = true) (hframes : s'.frames = s.frames)
    (hqueue : s'.queue.length ≤ s.queue.length) : s'.Pipelined accepted where
  kept := by
    intro _
    rw [h.kept hlooping, hframes]
  order := by
    rw [h.kept hlooping, ← hframes]
    exact List.prefix_append _ _
  bounded := hqueue.trans h.bounded

/-- Every step keeps the order of the path. -/
theorem Outbound.pipelined {s s' : State F} {a : Action} {accepted : List ℕ}
    (h : s.Pipelined accepted) (ho : Outbound s a s') :
    s'.Pipelined (accepted ++ acceptedFrame s a s') := by
  cases ho with
  | same hqueue hwriter hwritten hframe =>
    rw [hframe, List.append_nil]
    refine ⟨?_, ?_, ?_⟩
    · intro hlooping
      rw [State.frames, hwritten, hwriter, hqueue]
      exact h.kept (hwriter ▸ hlooping)
    · rw [hwritten]
      exact h.order
    · rw [hqueue]
      exact h.bounded
  | accept hcall hphase hcall' hqueue hwriter hwritten hroom =>
    rw [acceptedFrame_enqueued hcall']
    refine ⟨?_, ?_, ?_⟩
    · intro hlooping
      have hkept : accepted = s.frames := h.kept (hwriter ▸ hlooping)
      rw [hkept, State.frames, State.frames, hwritten, hwriter, hqueue]
      simp only [List.append_assoc]
    · rw [hwritten]
      exact h.order.trans (List.prefix_append _ _)
    · rw [hqueue, List.length_append]
      exact hroom
  | take hwriter hqueue =>
    rw [show acceptedFrame s .writerRecv _ = [] from rfl, List.append_nil]
    exact h.move (by rw [hwriter]; rfl)
      (by simp [State.frames, Writer.held, hwriter, hqueue]) (by simp [hqueue])
  | checked hwriter =>
    rw [show acceptedFrame s .writerChecked _ = [] from rfl, List.append_nil]
    exact h.move (by rw [hwriter]; rfl) (by simp [State.frames, Writer.held, hwriter])
      (Nat.le_refl _)
  | sent hwriter =>
    rw [show acceptedFrame s .writerSent _ = [] from rfl, List.append_nil]
    exact h.move (by rw [hwriter]; rfl) (by simp [State.frames, Writer.held, hwriter])
      (Nat.le_refl _)
  | @failed frame wrote hwriter =>
    rw [show acceptedFrame s (.writerFailed wrote) _ = [] from rfl, List.append_nil]
    have hkept : accepted = s.frames := h.kept (by rw [hwriter]; rfl)
    refine ⟨fun hlooping => absurd hlooping Bool.false_ne_true, ?_, h.bounded⟩
    cases wrote with
    | true =>
      -- the frame in the writer's hands is the next one
      have hframes : s.frames = (s.written ++ [frame]) ++ s.queue := by
        simp [State.frames, Writer.held, hwriter]
      rw [hkept, hframes]
      exact List.prefix_append _ _
    | false => exact h.order
  | leave hlooping hwritten hqueue hframe =>
    rw [hframe, List.append_nil]
    refine ⟨fun hloop => ?_, ?_, hqueue.trans h.bounded⟩
    · rw [hlooping] at hloop
      cases hloop
    · rw [hwritten]
      exact h.order

/-- Only a call that pushes has its frame accepted. -/
theorem Outbound.acceptedFrame_eq {s s' : State F} {a : Action} (ho : Outbound s a s') :
    acceptedFrame s a s' = [] ∨ ∃ c call, s.calls[c]? = some call ∧ call.phase = .enqueueing ∧
      s'.calls[c]? = some (call.setPhase .awaiting) ∧ acceptedFrame s a s' = [c] := by
  cases ho with
  | accept hcall hphase hcall' =>
    exact Or.inr ⟨_, _, hcall, hphase, hcall', acceptedFrame_enqueued hcall'⟩
  | same _ _ _ hframe | leave _ _ _ hframe => exact Or.inl hframe
  | _ => exact Or.inl rfl

/-- No frame has been accepted twice, since the call of an accepted frame is past its push. -/
structure State.AcceptedOnce (s : State F) (accepted : List ℕ) : Prop where
  nodup : accepted.Nodup
  past : ∀ c ∈ accepted, ∃ call, s.calls[c]? = some call ∧ call.phase.enqueued = true

/-- A step accepts no frame that was accepted before. -/
theorem acceptedOnce_step {fromStr : String → Option (Value F)} {s s' : State F} {a : Action}
    {accepted : List ℕ} (hs : s.Consistent) (h : s.AcceptedOnce accepted)
    (hstep : step fromStr s a = some s') : s'.AcceptedOnce (accepted ++ acceptedFrame s a s') := by
  have hpast : ∀ c ∈ accepted, ∃ call, s'.calls[c]? = some call ∧ call.phase.enqueued = true := by
    intro c hc
    obtain ⟨call, hcall, henq⟩ := h.past c hc
    obtain ⟨call', hcall', hevolves⟩ := (step_cases hstep).evolves hs.toRegistered hcall
    exact ⟨call', hcall', hevolves.invariant (fun _ _ hchange => hchange.phase_enqueued) henq⟩
  cases (outbound_cases hstep).acceptedFrame_eq with
  | inl hnone =>
    rw [hnone, List.append_nil]
    exact ⟨h.nodup, hpast⟩
  | inr hpush =>
    obtain ⟨c, call, hcall, hphase, hcall', hframe⟩ := hpush
    rw [hframe]
    refine ⟨?_, ?_⟩
    · -- a call that still has to push is not among the accepted
      have hnot : c ∉ accepted := by
        intro hc
        obtain ⟨call₀, hcall₀, henq⟩ := h.past c hc
        have hsame : call = call₀ := Option.eq_some_unique hcall hcall₀
        simp [← hsame, hphase, Phase.enqueued] at henq
      exact List.nodup_append.mpr ⟨h.nodup, List.nodup_singleton c,
        fun d hd e he hde => hnot (by rw [List.mem_singleton] at he; rw [← he, ← hde]; exact hd)⟩
    · intro d hd
      rw [List.mem_append, List.mem_singleton] at hd
      cases hd with
      | inl hd => exact hpast d hd
      | inr hd => rw [hd]; exact ⟨_, hcall', rfl⟩

end ExchangeApiws.Native.WsOrders

namespace ExchangeApiws.Spec

open Native.WsOrders TransitionSystem

variable {F : Type} {fromStr : String → Option (Native.Value F)}

/-! ## Whole runs -/

/-- The frames that the queue accepted in a run from `connect`, in order. -/
def acceptedFrames (fromStr : String → Option (Native.Value F)) (as : List Action) : List ℕ :=
  emitted (step fromStr) acceptedFrame .connect as

/-- Every run keeps the frames in order, each accepted once. -/
theorem pipelined_of_run {as : List Action} {s : State F}
    (hrun : run (step fromStr) .connect as = some s) :
    s.Pipelined (acceptedFrames fromStr as) ∧ s.AcceptedOnce (acceptedFrames fromStr as) := by
  have hinv := emitted_invariant (step fromStr) acceptedFrame
    (I := fun t log => t.Consistent ∧ t.Pipelined log ∧ t.AcceptedOnce log) ?_ hrun
    ⟨consistent_connect, pipelined_connect, List.nodup_nil, fun c hc => absurd hc List.not_mem_nil⟩
  · rw [List.nil_append] at hinv
    exact hinv.2
  · intro t a t' log ht hstep
    obtain ⟨hconsistent, hpipelined, honce⟩ := ht
    exact ⟨(step_cases hstep).consistent hconsistent,
      (outbound_cases hstep).pipelined hpipelined, acceptedOnce_step hconsistent honce hstep⟩

/-- Whatever the callers, the writer and the reader do, the frames on the socket are the first
    of those that the queue has accepted, each once and in the order in which they were
    accepted. As long as the writer is in its loop none is lost: what was accepted is on the
    socket, in the hands of the writer or in the queue, which never holds more than its
    capacity. -/
theorem frames_are_written_in_order {as : List Action} {s : State F}
    (hrun : run (step fromStr) .connect as = some s) :
    s.written <+: acceptedFrames fromStr as ∧ (acceptedFrames fromStr as).Nodup ∧
      (s.writer.looping = true →
        acceptedFrames fromStr as = s.written ++ (s.writer.held ++ s.queue)) ∧
      s.queue.length ≤ OUTBOUND_QUEUE_CAPACITY := by
  obtain ⟨hpipelined, honce⟩ := pipelined_of_run hrun
  exact ⟨hpipelined.order, honce.nodup, hpipelined.kept, hpipelined.bounded⟩

/-- Two calls push in the order opposite to their start, and the writer fails on the second
    frame. -/
def twoOrdersRun : List Action :=
  [.start "a" "first", .start "b" "second", .checkClosed 0, .checkClosed 1, .insert 0, .insert 1,
    .trySend 1, .trySend 0, .writerRecv, .writerChecked, .writerSent, .writerRecv, .writerChecked,
    .writerFailed false]

/-- Two calls push in the opposite order of their start, and one frame is written. -/
theorem frames_are_written_in_order_twoOrdersRun :
    ∃ s : State ℤ, s.written = [1] ∧ acceptedFrames (F := ℤ) (fun _ => none) twoOrdersRun = [1, 0] ∧
      s.written <+: acceptedFrames (F := ℤ) (fun _ => none) twoOrdersRun := by
  refine ⟨_, ?_, ?_, (@frames_are_written_in_order ℤ (fun _ => none) twoOrdersRun _ rfl).1⟩
  · rfl
  · rfl

end ExchangeApiws.Spec
