import ExchangeApiws.ForStd.List
import ExchangeApiws.Native.WsOrders

/-!
# The steps of the order client

`step_cases` says once what a step can do to the calls, the pending map, the frames and the
reader task, and the lemmas after it read the changed state. The invariants of the client
are proved from these.
-/

namespace ExchangeApiws.Native.WsOrders

variable {F : Type}

/-! ## Frames -/

/-- The frame the writer task holds. -/
def Writer.held : Writer → List ℕ
  | .throttled frame => [frame]
  | .sending frame => [frame]
  | _ => []

/-- The frames that the queue has accepted and that are not lost, oldest first. -/
def State.frames (s : State F) : List ℕ := s.written ++ (s.writer.held ++ s.queue)

/-! ## What one step does -/

/-- The call may be dropped here: it stands at an await point. -/
def Phase.cancellable : Phase F → Bool
  | .registering | .awaiting | .cleaning _ => true
  | _ => false

/-- The phases a call goes to without touching what it shares. -/
inductive Call.Turn (call : Call F) : Phase F → Prop
  | refused : call.phase = .checking → call.Turn (.returned (.error .connectionClosed))
  | admitted : call.phase = .checking → call.Turn .registering
  | writerClosed : call.phase = .enqueueing → call.Turn (.cleaning .writerClosed)
  | queueFull : call.phase = .enqueueing → call.Turn (.cleaning .queueFull)
  | received (ack : WsOrderAck F) :
      call.phase = .awaiting → call.chan = .filled ack → call.Turn (.returned (.ok ack))
  | dropped : call.phase = .awaiting → call.chan = .closed → call.Turn (.cleaning .channelClosed)
  | timedOut : call.phase = .awaiting → call.chan = .empty → call.Turn (.cleaning .timedOut)
  | cancelled : call.phase.cancellable = true → call.Turn .cancelled

/-- What a step can do to the calls, the pending map, the frames and the reader. -/
inductive Effect (s : State F) : Action → State F → Prop
  | start (clientOid frame : String) :
      Effect s (.start clientOid frame)
        { s with calls := s.calls ++ [⟨clientOid, frame, .checking, .empty⟩] }
  | turn {a : Action} {c : ℕ} {call : Call F} {phase : Phase F} :
      s.calls[c]? = some call → call.Turn phase → (phase = .cancelled → a = .cancel c) →
      Effect s a (s.modifyCall c (.setPhase phase))
  | insert {c : ℕ} {call : Call F} :
      s.calls[c]? = some call → call.phase = .registering →
      Effect s (.insert c) ((s.insertPending call.clientOid c).modifyCall c (.setPhase .enqueueing))
  | enqueue {c : ℕ} {call : Call F} :
      s.calls[c]? = some call → call.phase = .enqueueing → s.writer ≠ .terminated →
      s.queue.length < OUTBOUND_QUEUE_CAPACITY →
      Effect s (.trySend c)
        { s.modifyCall c (.setPhase .awaiting) with queue := s.queue ++ [c] }
  | cleanUp {c : ℕ} {call : Call F} {error : CallError} :
      s.calls[c]? = some call → call.phase = .cleaning error →
      Effect s (.cleanUp c) ((s.removePending call.clientOid Call.dropSender).modifyCall c
        (.setPhase (.returned (.error error))))
  | route {ack : WsOrderAck F} :
      s.reader = .routing ack →
      Effect s .readerRoute
        { s.removePending ack.clientOid (Call.send ack) with reader := .selecting }
  | drain :
      s.reader = .draining →
      Effect s .readerDrain { s.drainPending .connectionClosed with reader := .terminated }
  /-- A step of a task, of `close` or of the last handle that leaves calls and map alone. -/
  | other {a : Action} {s' : State F} :
      s'.calls = s.calls → s'.pending = s.pending → s'.frames.Sublist s.frames →
      (s'.reader = .terminated ↔ s.reader = .terminated) →
      (s.writer = .terminated → s'.writer = .terminated ∧ s'.written = s.written) →
      Effect s a s'

/-- Every step is one of these. -/
theorem step_cases {fromStr : String → Option (Value F)} {s s' : State F} {a : Action}
    (h : step fromStr s a = some s') : Effect s a s' := by
  cases a with
  | start clientOid frame =>
    simp only [step] at h
    split at h
    · cases h; exact .start clientOid frame
    · cases h
  | checkClosed c =>
    simp only [step, State.stepCall] at h
    obtain ⟨call, hcall, h⟩ := Option.bind_eq_some_iff.mp h
    split at h
    · rename_i hphase
      split at h
      · cases h; exact .turn hcall (.refused hphase) nofun
      · cases h; exact .turn hcall (.admitted hphase) nofun
    · cases h
  | insert c =>
    simp only [step, State.stepCall] at h
    obtain ⟨call, hcall, h⟩ := Option.bind_eq_some_iff.mp h
    split at h
    · rename_i hphase; cases h; exact .insert hcall hphase
    · cases h
  | trySend c =>
    simp only [step, State.stepCall] at h
    obtain ⟨call, hcall, h⟩ := Option.bind_eq_some_iff.mp h
    split at h
    · rename_i hphase
      -- in order: closed, full, accepted
      split at h
      · cases h; exact .turn hcall (.writerClosed hphase) nofun
      · rename_i hwriter
        split at h
        · cases h; exact .turn hcall (.queueFull hphase) nofun
        · rename_i hroom
          cases h
          exact .enqueue hcall hphase hwriter (Nat.lt_of_not_le hroom)
    · cases h
  | receive c =>
    simp only [step, State.stepCall] at h
    obtain ⟨call, hcall, h⟩ := Option.bind_eq_some_iff.mp h
    split at h
    · rename_i ack hphase hchan; cases h; exact .turn hcall (.received ack hphase hchan) nofun
    · rename_i hphase hchan; cases h; exact .turn hcall (.dropped hphase hchan) nofun
    · cases h
  | timeout c =>
    simp only [step, State.stepCall] at h
    obtain ⟨call, hcall, h⟩ := Option.bind_eq_some_iff.mp h
    split at h
    · rename_i hphase hchan; cases h; exact .turn hcall (.timedOut hphase hchan) nofun
    · cases h
  | cleanUp c =>
    simp only [step, State.stepCall] at h
    obtain ⟨call, hcall, h⟩ := Option.bind_eq_some_iff.mp h
    split at h
    · rename_i error hphase; cases h; exact .cleanUp hcall hphase
    · cases h
  | cancel c =>
    simp only [step, State.stepCall] at h
    obtain ⟨call, hcall, h⟩ := Option.bind_eq_some_iff.mp h
    split at h
    all_goals first
      | (rename_i hphase
         cases h
         exact .turn hcall (.cancelled (by rw [hphase]; rfl)) fun _ => rfl)
      | cases h
  | readerRoute =>
    simp only [step] at h
    split at h
    · rename_i hreader; cases h; exact .route hreader
    · cases h
  | readerDrain =>
    simp only [step] at h
    split at h
    · rename_i hreader; cases h; exact .drain hreader
    · cases h
  | writerRecv =>
    simp only [step] at h
    split at h
    · rename_i frame rest hwriter hqueue
      cases h
      -- the frame moves from the head of the queue to the hands of the writer
      exact .other rfl rfl (by simp [State.frames, Writer.held, hwriter, hqueue]) Iff.rfl
        (by simp [hwriter])
    · cases h
  | writerSent =>
    simp only [step] at h
    split at h
    · rename_i frame hwriter
      cases h
      exact .other rfl rfl (by simp [State.frames, Writer.held, hwriter]) Iff.rfl
        (by simp [hwriter])
    · cases h
  | writerFailed wrote =>
    simp only [step] at h
    split at h
    · rename_i frame hwriter
      cases h
      -- whether the frame went out or is lost, the writer no longer holds it
      exact .other rfl rfl (by cases wrote <;> simp [State.frames, Writer.held, hwriter]) Iff.rfl
        (by simp [hwriter])
    · cases h
  | writerClose =>
    simp only [step] at h
    split at h
    · rename_i hwriter
      cases h
      -- what is still queued is lost with the receiver
      exact .other rfl rfl (by simp [State.frames, Writer.held, hwriter]) Iff.rfl
        (by simp [hwriter])
    · cases h
  | writerChecked =>
    simp only [step] at h
    split at h
    · rename_i frame hwriter
      cases h
      exact .other rfl rfl (by simp [State.frames, Writer.held, hwriter]) Iff.rfl
        (by simp [hwriter])
    · cases h
  | readerText raw =>
    simp only [step] at h
    split at h
    · rename_i hreader
      split at h
      · cases h; exact .other rfl rfl (.refl _) (by simp [hreader]) (fun hw => ⟨hw, rfl⟩)
      · cases h; exact .other rfl rfl (.refl _) Iff.rfl (fun hw => ⟨hw, rfl⟩)
    · cases h
  | closeStore | closeSignal | dropHandles =>
    simp only [step] at h
    split at h
    · cases h; exact .other rfl rfl (.refl _) Iff.rfl (fun hw => ⟨hw, rfl⟩)
    · cases h
  | writerShutdown | writerQueueClosed | writerStore | writerSignal =>
    simp only [step] at h
    split at h
    · rename_i hwriter
      cases h
      exact .other rfl rfl (by simp [State.frames, Writer.held, hwriter]) Iff.rfl
        (by simp [hwriter])
    · cases h
  | readerOther =>
    simp only [step] at h
    split at h
    · cases h; exact .other rfl rfl (.refl _) Iff.rfl (fun hw => ⟨hw, rfl⟩)
    · cases h
  | readerEnd | readerStore | readerSignal =>
    simp only [step] at h
    split at h
    · rename_i hreader
      cases h
      exact .other rfl rfl (.refl _) (by simp [hreader]) (fun hw => ⟨hw, rfl⟩)
    · cases h
  | readerShutdown =>
    simp only [step] at h
    split at h
    · rename_i hreader
      split at h
      · cases h; exact .other rfl rfl (.refl _) (by simp [hreader]) (fun hw => ⟨hw, rfl⟩)
      · cases h
    · cases h

/-- The writer writes nothing after its end. -/
theorem Effect.writer_ended {s s' : State F} {a : Action} (he : Effect s a s')
    (hwriter : s.writer = .terminated) : s'.writer = .terminated ∧ s'.written = s.written := by
  cases he with
  | other _ _ _ _ hended => exact hended hwriter
  | _ => exact ⟨hwriter, rfl⟩

/-! ## Reading the changed state -/

@[simp] theorem Call.setPhase_clientOid (phase : Phase F) (call : Call F) :
    (call.setPhase phase).clientOid = call.clientOid := rfl

@[simp] theorem Call.setPhase_phase (phase : Phase F) (call : Call F) :
    (call.setPhase phase).phase = phase := rfl

@[simp] theorem Call.setPhase_chan (phase : Phase F) (call : Call F) :
    (call.setPhase phase).chan = call.chan := rfl

@[simp] theorem Call.send_clientOid (ack : WsOrderAck F) (call : Call F) :
    (call.send ack).clientOid = call.clientOid := by
  simp only [Call.send]
  split
  · split <;> rfl
  · rfl

@[simp] theorem Call.send_phase (ack : WsOrderAck F) (call : Call F) :
    (call.send ack).phase = call.phase := by
  simp only [Call.send]
  split
  · split <;> rfl
  · rfl

/-- A send fills an empty channel whose receiver is alive, and does nothing else. -/
theorem Call.send_chan (ack : WsOrderAck F) (call : Call F) :
    (call.chan = .empty ∧ call.phase.receiving = true ∧ (call.send ack).chan = .filled ack) ∨
      (¬ (call.chan = .empty ∧ call.phase.receiving = true) ∧ call.send ack = call) := by
  simp only [Call.send]
  split
  · rename_i hchan
    split
    · rename_i hphase; exact Or.inl ⟨hchan, hphase, rfl⟩
    · rename_i hphase; exact Or.inr ⟨fun h => hphase h.2, rfl⟩
  · rename_i hchan; exact Or.inr ⟨fun h => hchan h.1, rfl⟩

/-- The same ack sent twice is sent once. -/
theorem Call.send_send (ack : WsOrderAck F) (call : Call F) :
    (call.send ack).send ack = call.send ack := by
  cases Call.send_chan ack (call.send ack) with
  | inl h =>
    -- the second send finds the channel that the first one filled
    cases Call.send_chan ack call with
    | inl h' => rw [h'.2.2] at h; cases h.1
    | inr h' => rw [h'.2, h'.2]
  | inr h => exact h.2

@[simp] theorem Call.dropSender_clientOid (call : Call F) :
    call.dropSender.clientOid = call.clientOid := by
  simp only [Call.dropSender]
  split <;> rfl

@[simp] theorem Call.dropSender_phase (call : Call F) :
    call.dropSender.phase = call.phase := by
  simp only [Call.dropSender]
  split <;> rfl

/-- A dropped sender leaves the channel closed, unless it held an ack. -/
theorem Call.dropSender_chan (call : Call F) :
    call.dropSender.chan = .closed ∨ ∃ ack, call.chan = .filled ack ∧ call.dropSender = call := by
  simp only [Call.dropSender]
  split
  · exact Or.inl rfl
  · rename_i hchan
    cases hc : call.chan with
    | empty => exact absurd hc hchan
    | filled ack => exact Or.inr ⟨ack, rfl, rfl⟩
    | closed => exact Or.inl rfl

/-- Modifying a call leaves the others alone. -/
theorem State.modifyCall_calls (s : State F) (c d : ℕ) (f : Call F → Call F) :
    (s.modifyCall c f).calls[d]? = if c = d then s.calls[d]?.map f else s.calls[d]? :=
  List.getElem?_modify_eq_ite f c d s.calls

@[simp] theorem State.modifyCall_pending (s : State F) (c : ℕ) (f : Call F → Call F) :
    (s.modifyCall c f).pending = s.pending := rfl

/-- Removing an entry touches its call only. -/
theorem State.removePending_calls (s : State F) (oid : String) (f : Call F → Call F) (d : ℕ) :
    (s.removePending oid f).calls[d]? =
      if s.pending[oid]? = some d then s.calls[d]?.map f else s.calls[d]? := by
  simp only [State.removePending]
  split
  · rename_i c hc; rw [hc, List.getElem?_modify_eq_ite]; simp
  · rename_i hc; simp [hc]

/-- Removing an entry leaves the others. -/
theorem State.removePending_pending (s : State F) (oid k : String) (f : Call F → Call F) :
    (s.removePending oid f).pending[k]? = if oid = k then none else s.pending[k]? := by
  simp [State.removePending, Std.ExtTreeMap.getElem?_erase, Std.LawfulEqCmp.compare_eq_iff_eq]

/-- Inserting an entry drops the sender of the one it replaces. -/
theorem State.insertPending_calls (s : State F) (oid : String) (c d : ℕ) :
    (s.insertPending oid c).calls[d]? =
      if s.pending[oid]? = some d then s.calls[d]?.map Call.dropSender else s.calls[d]? :=
  s.removePending_calls oid Call.dropSender d

/-- Inserting an entry leaves those of other keys. -/
theorem State.insertPending_pending (s : State F) (oid k : String) (c : ℕ) :
    (s.insertPending oid c).pending[k]? = if oid = k then some c else s.pending[k]? := by
  simp only [State.insertPending, Std.ExtTreeMap.getElem?_insert,
    Std.LawfulEqCmp.compare_eq_iff_eq, State.removePending_pending]
  split
  · rfl
  · rfl

/-- Draining sends to every call that has an entry. -/
theorem State.drainPending_calls (s : State F) (ack : WsOrderAck F) (d : ℕ) :
    (s.drainPending ack).calls[d]? =
      if d ∈ s.pending.toList.map Prod.snd then s.calls[d]?.map (Call.send ack)
      else s.calls[d]? :=
  List.getElem?_foldl_modify (Call.send_send ack) s.pending.toList s.calls d

/-- The calls in the list of the map are those that have an entry. -/
theorem State.mem_pending_toList {s : State F} {d : ℕ} :
    d ∈ s.pending.toList.map Prod.snd ↔ ∃ k : String, s.pending[k]? = some d := by
  simp [Std.ExtTreeMap.mem_toList_iff_getElem?_eq_some]

@[simp] theorem State.drainPending_pending (s : State F) (ack : WsOrderAck F) (k : String) :
    (s.drainPending ack).pending[k]? = none := Std.ExtTreeMap.getElem?_empty

/-- A lookup among calls some of which have been changed. -/
theorem ite_map_eq_some {p : Prop} [Decidable p] {x : Option (Call F)} {f : Call F → Call F}
    {call' : Call F} (h : (if p then x.map f else x) = some call') :
    ∃ call, x = some call ∧ (p ∧ call' = f call ∨ ¬ p ∧ call' = call) := by
  split at h
  · rename_i hp
    obtain ⟨call, hcall, hf⟩ := Option.map_eq_some_iff.mp h
    exact ⟨call, hcall, Or.inl ⟨hp, hf.symm⟩⟩
  · rename_i hp
    exact ⟨call', h, Or.inr ⟨hp, rfl⟩⟩

/-- After a send a receiving call has something in its channel. -/
theorem Call.send_chan_ne_empty (ack : WsOrderAck F) (call : Call F)
    (h : (call.send ack).phase.receiving = true) : (call.send ack).chan ≠ .empty := by
  rw [Call.send_phase] at h
  cases Call.send_chan ack call with
  | inl hs => rw [hs.2.2]; exact nofun
  | inr hs => rw [hs.2]; exact fun hc => hs.1 ⟨hc, h⟩

/-- After its sender is dropped a channel is not empty. -/
theorem Call.dropSender_chan_ne_empty (call : Call F) : call.dropSender.chan ≠ .empty := by
  cases Call.dropSender_chan call with
  | inl hd => rw [hd]; exact nofun
  | inr hd => obtain ⟨ack, hack, hd⟩ := hd; rw [hd, hack]; exact nofun

end ExchangeApiws.Native.WsOrders
