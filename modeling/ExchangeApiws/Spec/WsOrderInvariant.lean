import Mathlib.Data.List.Nodup
import Mathlib.Logic.Relation
import ExchangeApiws.ForStd.TransitionSystem
import ExchangeApiws.Spec.WsOrderStep

/-!
# What every run of the order client keeps

The callers, the writer task and the reader task share a pending map keyed by `clientOid`, a
queue and a few flags. The invariants hold in every reachable state, whatever the callers do:
the pending map names calls that have not been answered, every call that listens to an empty
channel is found under its `clientOid`, no frame is in two places, and an ack that a call
holds is its own or the marker of a closed connection.
-/

namespace ExchangeApiws.Native.WsOrders

variable {F : Type}

/-! ## The pending map and the channels -/

/-- The call has not registered yet. -/
def Phase.fresh : Phase F → Bool
  | .checking | .registering => true
  | _ => false

/-- A call that is fresh after a turn was fresh before it. -/
theorem Call.Turn.fresh {call : Call F} {phase : Phase F} (h : call.Turn phase)
    (hphase : phase.fresh = true) : call.phase.fresh = true := by
  cases h with
  | admitted hc => rw [hc]; rfl
  | _ => cases hphase

/-- No turn leads to a phase that receives. -/
theorem Call.Turn.receiving {call : Call F} {phase : Phase F} (h : call.Turn phase) :
    phase.receiving = false := by
  cases h <;> rfl

/-- How the pending map and the channels of the calls fit together. -/
structure State.Registered (s : State F) : Prop where
  /-- An entry names a call that has registered under the key and has not been answered. -/
  entry : ∀ (k : String) (c : ℕ), s.pending[k]? = some c → ∃ call, s.calls[c]? = some call ∧
    call.clientOid = k ∧ call.phase.fresh = false ∧ call.chan = .empty
  /-- A call that listens to an empty channel is found under its `clientOid`. -/
  owned : ∀ (c : ℕ) (call : Call F), s.calls[c]? = some call → call.phase.receiving = true →
    call.chan = .empty → s.pending[call.clientOid]? = some c
  fresh : ∀ (c : ℕ) (call : Call F), s.calls[c]? = some call → call.phase.fresh = true →
    call.chan = .empty

/-- A new connection has no entries. -/
theorem registered_connect : (State.connect : State F).Registered where
  entry := by
    intro k c h
    rw [show (State.connect : State F).pending[k]? = none from Std.ExtTreeMap.getElem?_empty] at h
    cases h
  owned := by intro c call h; simp [State.connect] at h
  fresh := by intro c call h; simp [State.connect] at h

/-- Two entries for one call have one key. -/
theorem State.Registered.key_unique {s : State F} (h : s.Registered) {k l : String} {c : ℕ}
    (hk : s.pending[k]? = some c) (hl : s.pending[l]? = some c) : k = l := by
  obtain ⟨call, hcall, hoid, -⟩ := h.entry k c hk
  obtain ⟨call', hcall', hoid', -⟩ := h.entry l c hl
  have hsame : call = call' := Option.eq_some_unique hcall hcall'
  rw [← hoid, ← hoid', hsame]

/-- A call that has not registered yet has no entry. -/
theorem State.Registered.not_entry {s : State F} (h : s.Registered) {c : ℕ} {call : Call F}
    (hcall : s.calls[c]? = some call) (hfresh : call.phase.fresh = true) (k : String) :
    s.pending[k]? ≠ some c := by
  intro hd
  obtain ⟨call₀, hcall₀, -, hold, -⟩ := h.entry k c hd
  have hsame : call = call₀ := Option.eq_some_unique hcall hcall₀
  simp [← hsame, hfresh] at hold

/-- A step that changes one call's phase, to one in which it neither listens nor is fresh
    again, leaves the rest alone. -/
theorem State.Registered.modifyCall {s : State F} (h : s.Registered) {c : ℕ} {call : Call F}
    (hcall : s.calls[c]? = some call) {phase : Phase F}
    (hfresh : phase.fresh = true → call.phase.fresh = true)
    (hreceiving : phase.receiving = true → call.phase.receiving = true) :
    (s.modifyCall c (.setPhase phase)).Registered where
  entry := by
    intro k d hd
    obtain ⟨call₀, hcall₀, hoid, hold, hchan⟩ := h.entry k d hd
    -- the entry of the call itself keeps its receiver, and so do the others
    by_cases hcd : c = d
    · subst hcd
      have hsame : call = call₀ := Option.eq_some_unique hcall hcall₀
      subst hsame
      have hcall' : (s.modifyCall c (.setPhase phase)).calls[c]? = some (call.setPhase phase) := by
        rw [modifyCall_calls, if_pos rfl, hcall]
        rfl
      refine ⟨call.setPhase phase, hcall', hoid, ?_, hchan⟩
      cases hphase : phase.fresh with
      | true => simp [hfresh hphase] at hold
      | false => exact hphase
    · exact ⟨call₀, by rw [modifyCall_calls, if_neg hcd]; exact hcall₀, hoid, hold, hchan⟩
  owned := by
    intro d call' hcall' hrec hchan
    rw [modifyCall_calls] at hcall'
    obtain ⟨call₀, hcall₀, hcase⟩ := ite_map_eq_some hcall'
    cases hcase with
    | inl hcase =>
      obtain ⟨rfl, rfl⟩ := hcase
      have hsame : call = call₀ := Option.eq_some_unique hcall hcall₀
      subst hsame
      exact h.owned c call hcall (hreceiving hrec) hchan
    | inr hcase => obtain ⟨-, rfl⟩ := hcase; exact h.owned d call' hcall₀ hrec hchan
  fresh := by
    intro d call' hcall' hphase
    rw [modifyCall_calls] at hcall'
    obtain ⟨call₀, hcall₀, hcase⟩ := ite_map_eq_some hcall'
    cases hcase with
    | inl hcase =>
      obtain ⟨rfl, rfl⟩ := hcase
      have hsame : call = call₀ := Option.eq_some_unique hcall hcall₀
      subst hsame
      exact h.fresh c call hcall (hfresh hphase)
    | inr hcase => obtain ⟨-, rfl⟩ := hcase; exact h.fresh d call' hcall₀ hphase

/-- Removing an entry keeps the fit, if what becomes of the sender ends an empty channel that
    is listened to. -/
theorem State.Registered.removePending {s : State F} (h : s.Registered) (oid : String)
    {f : Call F → Call F} (hphase : ∀ call, (f call).phase = call.phase)
    (hchan : ∀ call, (f call).phase.receiving = true → (f call).chan ≠ .empty) :
    (s.removePending oid f).Registered where
  entry := by
    intro k d hd
    rw [removePending_pending] at hd
    split at hd
    · cases hd
    · rename_i hk
      obtain ⟨call, hcall, hrest⟩ := h.entry k d hd
      -- the removed entry names another call, since a call has one key
      have hne : s.pending[oid]? ≠ some d := fun hd' => hk (h.key_unique hd' hd)
      exact ⟨call, by rw [removePending_calls, if_neg hne]; exact hcall, hrest⟩
  owned := by
    intro d call' hcall' hrec hempty
    rw [removePending_calls] at hcall'
    obtain ⟨call, hcall, hcase⟩ := ite_map_eq_some hcall'
    cases hcase with
    | inl hcase =>
      obtain ⟨-, rfl⟩ := hcase
      exact absurd hempty (hchan call hrec)
    | inr hcase =>
      obtain ⟨hne, rfl⟩ := hcase
      have hown := h.owned d call' hcall hrec hempty
      rw [removePending_pending, if_neg]
      · exact hown
      · intro hk
        rw [hk] at hne
        exact hne hown
  fresh := by
    intro d call' hcall' hfresh
    rw [removePending_calls] at hcall'
    obtain ⟨call, hcall, hcase⟩ := ite_map_eq_some hcall'
    cases hcase with
    | inl hcase =>
      obtain ⟨hd, rfl⟩ := hcase
      -- the call that the entry names has registered
      obtain ⟨call₀, hcall₀, -, hold, -⟩ := h.entry oid d hd
      have hsame : call = call₀ := Option.eq_some_unique hcall hcall₀
      simp [hphase, hsame, hold] at hfresh
    | inr hcase => obtain ⟨-, rfl⟩ := hcase; exact h.fresh d call' hcall hfresh

/-- A call that registers has its entry. -/
theorem State.Registered.insert {s : State F} (h : s.Registered) {c : ℕ} {call : Call F}
    (hcall : s.calls[c]? = some call) (hphase : call.phase = .registering) :
    ((s.insertPending call.clientOid c).modifyCall c (.setPhase .enqueueing)).Registered := by
  -- first the old entry under the key goes, then the new one comes
  have ht := h.removePending call.clientOid Call.dropSender_phase
    (fun call₀ _ => call₀.dropSender_chan_ne_empty)
  have hfresh : call.phase.fresh = true := by rw [hphase]; rfl
  have hne : s.pending[call.clientOid]? ≠ some c := h.not_entry hcall hfresh _
  have hcall' : (s.removePending call.clientOid Call.dropSender).calls[c]? = some call := by
    rw [removePending_calls, if_neg hne]; exact hcall
  constructor
  · -- the new entry names the inserting call, the others are old
    intro k d hd
    rw [modifyCall_pending, insertPending_pending] at hd
    rw [modifyCall_calls]
    split at hd
    · rename_i hk
      cases hd
      rw [if_pos rfl, insertPending_calls, if_neg hne, hcall]
      exact ⟨_, rfl, hk, rfl, h.fresh c call hcall hfresh⟩
    · rename_i hk
      obtain ⟨call₀, hcall₀, hoid, hrest⟩ := h.entry k d hd
      have hcd : c ≠ d := by
        intro hcd
        subst hcd
        have hsame : call = call₀ := Option.eq_some_unique hcall hcall₀
        exact hk (hsame ▸ hoid)
      have hd' : s.pending[call.clientOid]? ≠ some d := fun hd' => hk (h.key_unique hd' hd)
      rw [if_neg hcd, insertPending_calls, if_neg hd']
      exact ⟨call₀, hcall₀, hoid, hrest⟩
  · -- what is listened to has kept its entry or has just got one
    intro d call' hd hrec hchan
    rw [modifyCall_calls] at hd
    obtain ⟨call₀, hcall₀, hcase⟩ := ite_map_eq_some hd
    rw [modifyCall_pending, insertPending_pending]
    cases hcase with
    | inl hcase =>
      obtain ⟨rfl, rfl⟩ := hcase
      have hsame : call = call₀ := Option.eq_some_unique hcall' hcall₀
      exact if_pos (by rw [hsame]; rfl)
    | inr hcase =>
      obtain ⟨-, rfl⟩ := hcase
      have hown := ht.owned d call' hcall₀ hrec hchan
      rw [removePending_pending] at hown
      split at hown
      · cases hown
      · rename_i hk; rw [if_neg hk]; exact hown
  · intro d call' hd hold
    rw [modifyCall_calls] at hd
    obtain ⟨call₀, hcall₀, hcase⟩ := ite_map_eq_some hd
    cases hcase with
    | inl hcase => obtain ⟨-, rfl⟩ := hcase; cases hold
    | inr hcase => obtain ⟨-, rfl⟩ := hcase; exact ht.fresh d call' hcall₀ hold

/-- A drained map has no entries. -/
theorem State.Registered.drainPending {s : State F} (h : s.Registered) (ack : WsOrderAck F) :
    (s.drainPending ack).Registered where
  entry := by
    intro k d hd
    simp [drainPending_pending] at hd
  owned := by
    intro d call' hcall' hrec hchan
    rw [drainPending_calls] at hcall'
    obtain ⟨call, hcall, hcase⟩ := ite_map_eq_some hcall'
    cases hcase with
    | inl hcase =>
      obtain ⟨-, rfl⟩ := hcase
      exact absurd hchan (Call.send_chan_ne_empty ack call hrec)
    | inr hcase =>
      -- a call that still listens had an entry, so the drain has answered it
      obtain ⟨hne, rfl⟩ := hcase
      exact absurd (mem_pending_toList.mpr ⟨_, h.owned d call' hcall hrec hchan⟩) hne
  fresh := by
    intro d call' hcall' hfresh
    rw [drainPending_calls] at hcall'
    obtain ⟨call, hcall, hcase⟩ := ite_map_eq_some hcall'
    cases hcase with
    | inl hcase =>
      obtain ⟨hd, rfl⟩ := hcase
      obtain ⟨k, hk⟩ := mem_pending_toList.mp hd
      obtain ⟨call₀, hcall₀, -, hold, -⟩ := h.entry k d hk
      have hsame : call = call₀ := Option.eq_some_unique hcall hcall₀
      simp [Call.send_phase, hsame, hold] at hfresh
    | inr hcase => obtain ⟨-, rfl⟩ := hcase; exact h.fresh d call' hcall hfresh

/-- A lookup after a call has started. -/
theorem getElem?_start {s : State F} {clientOid frame : String} {d : ℕ} {call' : Call F}
    (h : (s.calls ++ [⟨clientOid, frame, .checking, .empty⟩])[d]? = some call') :
    s.calls[d]? = some call' ∨
      s.calls[d]? = none ∧ call' = ⟨clientOid, frame, .checking, .empty⟩ := by
  -- the new call stands behind all the others
  by_cases hd : d < s.calls.length
  · rw [List.getElem?_append_left hd] at h
    exact Or.inl h
  · rw [List.getElem?_append_right (Nat.le_of_not_lt hd), List.getElem?_singleton] at h
    split at h
    · cases h; exact Or.inr ⟨List.getElem?_eq_none (Nat.le_of_not_lt hd), rfl⟩
    · cases h

/-- A call that starts has no entry yet. -/
theorem State.Registered.start {s : State F} (h : s.Registered) (clientOid frame : String) :
    State.Registered { s with calls := s.calls ++ [⟨clientOid, frame, .checking, .empty⟩] } where
  entry := by
    intro k d hd
    obtain ⟨call, hcall, hrest⟩ := h.entry k d hd
    have hlt : d < s.calls.length := (List.getElem?_eq_some_iff.mp hcall).1
    exact ⟨call, by rw [List.getElem?_append_left hlt]; exact hcall, hrest⟩
  owned := by
    intro d call' hcall' hrec hchan
    cases getElem?_start hcall' with
    | inl hold => exact h.owned d call' hold hrec hchan
    | inr hnew => simp [hnew.2, Phase.receiving] at hrec
  fresh := by
    intro d call' hcall' hfresh
    cases getElem?_start hcall' with
    | inl hold => exact h.fresh d call' hold hfresh
    | inr hnew => rw [hnew.2]

/-- Registration depends on the calls and on the map only. -/
theorem State.Registered.congr {s s' : State F} (h : s.Registered) (hcalls : s'.calls = s.calls)
    (hpending : s'.pending = s.pending) : s'.Registered where
  entry := by rw [hcalls, hpending]; exact h.entry
  owned := by rw [hcalls, hpending]; exact h.owned
  fresh := by rw [hcalls]; exact h.fresh

/-- A call whose key is removed keeps its phase. -/
theorem State.removePending_phase {s : State F} {c : ℕ} {call : Call F}
    (hcall : s.calls[c]? = some call) :
    ∃ call', (s.removePending call.clientOid Call.dropSender).calls[c]? = some call' ∧
      call'.phase = call.phase := by
  rw [removePending_calls, hcall]
  split
  · exact ⟨call.dropSender, rfl, call.dropSender_phase⟩
  · exact ⟨call, rfl, rfl⟩

/-- Every step keeps the map and the channels together. -/
theorem Effect.registered {s s' : State F} {a : Action} (h : s.Registered) (he : Effect s a s') :
    s'.Registered := by
  cases he with
  | start clientOid frame => exact h.start clientOid frame
  | @turn a c call phase hcall hturn =>
    have hrec : phase.receiving = true → call.phase.receiving = true := by
      rw [hturn.receiving]; exact nofun
    exact h.modifyCall hcall hturn.fresh hrec
  | insert hcall hphase => exact h.insert hcall hphase
  | @enqueue c call hcall hphase hwriter hroom =>
    -- the call listens already while it pushes its frame
    have hawait : (s.modifyCall c (.setPhase .awaiting)).Registered :=
      h.modifyCall hcall nofun (fun _ => by rw [hphase]; rfl)
    exact hawait.congr rfl rfl
  | @cleanUp c call error hcall hphase =>
    obtain ⟨call', hcall', -⟩ := State.removePending_phase hcall
    exact (h.removePending call.clientOid Call.dropSender_phase
      (fun call₀ _ => call₀.dropSender_chan_ne_empty)).modifyCall hcall' nofun nofun
  | @route ack hreader =>
    exact (h.removePending ack.clientOid (Call.send_phase ack)
      (Call.send_chan_ne_empty ack)).congr rfl rfl
  | drain hreader => exact (h.drainPending .connectionClosed).congr rfl rfl
  | other hcalls hpending => exact h.congr hcalls hpending

/-! ## How one call evolves -/

/-- The acks that may answer the call: its own, and the marker of a closed connection. -/
def Call.Accepts (call : Call F) (ack : WsOrderAck F) : Prop :=
  ack.clientOid = call.clientOid ∨ ack = .connectionClosed

/-- One change of a call. -/
inductive Call.Change : Call F → Call F → Prop
  | turn {call : Call F} {phase : Phase F} :
      call.Turn phase → Change call (call.setPhase phase)
  | inserted {call : Call F} :
      call.phase = .registering → Change call (call.setPhase .enqueueing)
  | enqueued {call : Call F} :
      call.phase = .enqueueing → Change call (call.setPhase .awaiting)
  | cleanedUp {call : Call F} {error : CallError} :
      call.phase = .cleaning error → Change call (call.setPhase (.returned (.error error)))
  | answered {call : Call F} {ack : WsOrderAck F} :
      call.Accepts ack → Change call (call.send ack)
  | dropped {call : Call F} : Change call call.dropSender

def Call.Evolves : Call F → Call F → Prop := Relation.ReflTransGen Call.Change

/-- What every change of a call keeps, its evolution keeps. -/
theorem Call.Evolves.invariant {P : Call F → Prop} {call call' : Call F}
    (h : call.Evolves call') (hP : ∀ call call', Call.Change call call' → P call → P call')
    (hcall : P call) : P call' := by
  induction h with
  | refl => exact hcall
  | tail _ hchange ih => exact hP _ _ hchange ih

/-- A call keeps its `clientOid`. -/
theorem Call.Change.clientOid {call call' : Call F} (h : Call.Change call call') :
    call'.clientOid = call.clientOid := by
  cases h <;> simp

/-- What a call has returned stays. -/
theorem Call.Change.returned {result : Except CallError (WsOrderAck F)} {call call' : Call F}
    (h : Call.Change call call') (hphase : call.phase = .returned result) :
    call'.phase = .returned result := by
  cases h with
  | turn hturn =>
    -- no call turns from `returned`
    cases hturn
    case cancelled hc => simp [hphase, Phase.cancellable] at hc
    all_goals simp_all
  | inserted hp => simp [hphase] at hp
  | enqueued hp => simp [hphase] at hp
  | cleanedUp hp => simp [hphase] at hp
  | answered => rw [Call.send_phase]; exact hphase
  | dropped => rw [Call.dropSender_phase]; exact hphase

/-- A channel that has been filled or closed stays as it is. -/
theorem Call.Change.chan {call call' : Call F} (h : Call.Change call call')
    (hchan : call.chan ≠ .empty) : call'.chan = call.chan := by
  cases h with
  | turn | inserted | enqueued | cleanedUp => rfl
  | @answered ack =>
    cases call.send_chan ack with
    | inl hs => exact absurd hs.1 hchan
    | inr hs => rw [hs.2]
  | dropped =>
    -- the match is on a channel that is not empty
    simp only [Call.dropSender]

/-- Every ack that the call holds may answer it. -/
def Call.Sound (call : Call F) : Prop :=
  ∀ ack, call.chan = .filled ack ∨ call.phase = .returned (.ok ack) → call.Accepts ack

/-- A change brings in no ack but the call's own or the marker. -/
theorem Call.Change.sound {call call' : Call F} (h : Call.Change call call') (hs : call.Sound) :
    call'.Sound := by
  intro ack hack
  have hoid : call'.Accepts ack ↔ call.Accepts ack := by
    simp only [Call.Accepts, h.clientOid]
  rw [hoid]
  -- a turn hands on what the channel held, and only an answer fills it
  cases h with
  | turn hturn =>
    cases hack with
    | inl hchan => exact hs ack (Or.inl hchan)
    | inr hphase =>
      cases hturn with
      | received _ hp hchan => cases hphase; exact hs ack (Or.inl hchan)
      | _ => cases hphase
  | inserted | enqueued | cleanedUp =>
    cases hack with
    | inl hchan => exact hs ack (Or.inl hchan)
    | inr hphase => cases hphase
  | @answered ack' haccepts =>
    cases call.send_chan ack' with
    | inl hsend =>
      rw [hsend.2.2, Call.send_phase] at hack
      cases hack with
      | inl hchan => cases hchan; exact haccepts
      | inr hphase => exact hs ack (Or.inr hphase)
    | inr hsend => rw [hsend.2] at hack; exact hs ack hack
  | dropped =>
    rw [Call.dropSender_phase] at hack
    cases hack with
    | inl hchan =>
      cases call.dropSender_chan with
      | inl hd => simp [hd] at hchan
      | inr hd => obtain ⟨ack', hfilled, hd⟩ := hd; rw [hd] at hchan; exact hs ack (Or.inl hchan)
    | inr hphase => exact hs ack (Or.inr hphase)

/-- A call evolves to itself. -/
theorem Call.Evolves.refl (call : Call F) : call.Evolves call := Relation.ReflTransGen.refl

/-- One change is an evolution. -/
theorem Call.Change.evolves {call call' : Call F} (h : Call.Change call call') :
    call.Evolves call' := Relation.ReflTransGen.single h

/-- A changed phase of one call. -/
theorem State.modifyCall_evolves {s : State F} {c d : ℕ} {call called : Call F}
    {phase : Phase F} (hcall : s.calls[c]? = some call) (hcalled : s.calls[d]? = some called)
    (hchange : Call.Change call (call.setPhase phase)) :
    ∃ called', (s.modifyCall c (.setPhase phase)).calls[d]? = some called' ∧
      called.Evolves called' := by
  rw [modifyCall_calls]
  by_cases hcd : c = d
  · subst hcd
    have hsame : call = called := Option.eq_some_unique hcall hcalled
    subst hsame
    rw [if_pos rfl, hcall]
    exact ⟨_, rfl, hchange.evolves⟩
  · rw [if_neg hcd]
    exact ⟨called, hcalled, .refl called⟩

/-- A removed entry: the call it names, if any, has registered under its key. -/
theorem State.removePending_evolves {s : State F} (h : s.Registered) {oid : String}
    {f : Call F → Call F} (hf : ∀ call, call.clientOid = oid → Call.Change call (f call))
    {d : ℕ} {called : Call F} (hcalled : s.calls[d]? = some called) :
    ∃ called', (s.removePending oid f).calls[d]? = some called' ∧ called.Evolves called' := by
  rw [removePending_calls]
  by_cases hd : s.pending[oid]? = some d
  · obtain ⟨call₀, hcall₀, hoid, -⟩ := h.entry oid d hd
    have hsame : called = call₀ := Option.eq_some_unique hcalled hcall₀
    rw [if_pos hd, hcalled]
    exact ⟨_, rfl, (hf called (hsame ▸ hoid)).evolves⟩
  · rw [if_neg hd]
    exact ⟨called, hcalled, .refl called⟩

/-- The key of a call is removed, and then the call goes to another phase. -/
theorem State.removed_evolves {s : State F} (h : s.Registered) {c : ℕ} {call : Call F}
    (hcall : s.calls[c]? = some call) {phase : Phase F}
    (hchange : ∀ call₁ : Call F, call₁.phase = call.phase →
      Call.Change call₁ (call₁.setPhase phase))
    {d : ℕ} {called : Call F} (hcalled : s.calls[d]? = some called) :
    ∃ called', ((s.removePending call.clientOid Call.dropSender).modifyCall c
        (.setPhase phase)).calls[d]? = some called' ∧ called.Evolves called' := by
  obtain ⟨call₁, hcall₁, hphase₁⟩ := State.removePending_phase hcall
  obtain ⟨called₁, hcalled₁, hevolves₁⟩ :=
    State.removePending_evolves h (f := Call.dropSender) (fun _ _ => .dropped) hcalled
  obtain ⟨called₂, hcalled₂, hevolves₂⟩ :=
    State.modifyCall_evolves hcall₁ hcalled₁ (hchange call₁ hphase₁)
  exact ⟨called₂, hcalled₂, hevolves₁.trans hevolves₂⟩

/-- Every call survives a step and evolves in it. -/
theorem Effect.evolves {s s' : State F} {a : Action} (h : s.Registered) (he : Effect s a s')
    {d : ℕ} {called : Call F} (hcalled : s.calls[d]? = some called) :
    ∃ called', s'.calls[d]? = some called' ∧ called.Evolves called' := by
  cases he with
  | start clientOid frame =>
    have hlt : d < s.calls.length := (List.getElem?_eq_some_iff.mp hcalled).1
    exact ⟨called, by rw [List.getElem?_append_left hlt]; exact hcalled, .refl called⟩
  | turn hcall hturn => exact State.modifyCall_evolves hcall hcalled (.turn hturn)
  | insert hcall hphase =>
    exact State.removed_evolves h hcall (fun _ hsame => .inserted (hsame.trans hphase)) hcalled
  | enqueue hcall hphase => exact State.modifyCall_evolves hcall hcalled (.enqueued hphase)
  | cleanUp hcall hphase =>
    exact State.removed_evolves h hcall (fun _ hsame => .cleanedUp (hsame.trans hphase)) hcalled
  | route hreader =>
    exact State.removePending_evolves h (fun call hoid => .answered (Or.inl hoid.symm)) hcalled
  | drain hreader =>
    have hdrain := s.drainPending_calls .connectionClosed d
    split at hdrain
    · exact ⟨_, hdrain.trans (by rw [hcalled]; rfl), (Call.Change.answered (Or.inr rfl)).evolves⟩
    · exact ⟨called, hdrain.trans hcalled, .refl called⟩
  | other hcalls => exact ⟨called, by rw [hcalls]; exact hcalled, .refl called⟩

/-- A call that a step brings up has just started. -/
theorem Effect.new_call {s s' : State F} {a : Action} (he : Effect s a s') {d : ℕ}
    (hnone : s.calls[d]? = none) {called : Call F} (hcalled : s'.calls[d]? = some called) :
    called.phase = .checking ∧ called.chan = .empty := by
  -- all steps but a start change the calls that there are
  cases he with
  | start clientOid frame =>
    cases getElem?_start hcalled with
    | inl hold => simp [hnone] at hold
    | inr hnew => rw [hnew.2]; exact ⟨rfl, rfl⟩
  | turn =>
    simp [State.modifyCall_calls, hnone] at hcalled
  | insert =>
    simp [State.modifyCall_calls, State.insertPending_calls, hnone] at hcalled
  | @enqueue c =>
    have hsame := s.modifyCall_calls c d (.setPhase .awaiting)
    rw [hnone] at hsame
    rw [hsame] at hcalled
    simp at hcalled
  | cleanUp =>
    simp [State.modifyCall_calls, State.removePending_calls, hnone] at hcalled
  | @route ack =>
    have hsame := s.removePending_calls ack.clientOid (Call.send ack) d
    rw [hnone] at hsame
    rw [hsame] at hcalled
    simp at hcalled
  | drain =>
    have hsame := s.drainPending_calls .connectionClosed d
    rw [hnone] at hsame
    rw [hsame] at hcalled
    simp at hcalled
  | other hcalls => simp [hcalls, hnone] at hcalled

/-! ## Frames -/

/-- The queue has accepted the frame of a call in this phase, or may have. -/
def Phase.enqueued : Phase F → Bool
  | .awaiting | .cancelled => true
  | .cleaning error => error = .timedOut ∨ error = .channelClosed
  | .returned (.ok _) => true
  | .returned (.error error) => error = .timedOut ∨ error = .channelClosed
  | _ => false

/-- No change takes back what the queue has accepted. -/
theorem Call.Change.phase_enqueued {call call' : Call F} (h : Call.Change call call')
    (hphase : call.phase.enqueued = true) : call'.phase.enqueued = true := by
  cases h with
  | turn hturn =>
    cases hturn with
    | refused hp | admitted hp | writerClosed hp | queueFull hp =>
      simp [hp, Phase.enqueued] at hphase
    | _ => rfl
  | inserted hp => simp [hp, Phase.enqueued] at hphase
  | enqueued => rfl
  | cleanedUp hp => rw [hp] at hphase; exact hphase
  | answered => rw [Call.send_phase]; exact hphase
  | dropped => rw [Call.dropSender_phase]; exact hphase

/-- A step adds the frame of a call that pushes it, or may lose frames. -/
theorem Effect.frames {s s' : State F} {a : Action} (he : Effect s a s') :
    s'.frames.Sublist s.frames ∨ ∃ c call, s.calls[c]? = some call ∧ call.phase = .enqueueing ∧
      s'.calls[c]? = some (call.setPhase .awaiting) ∧ s'.frames = s.frames ++ [c] := by
  cases he with
  | @enqueue c call hcall hphase =>
    refine Or.inr ⟨c, call, hcall, hphase, ?_, ?_⟩
    · have hc := s.modifyCall_calls c c (.setPhase .awaiting)
      rw [if_pos rfl, hcall] at hc
      exact hc
    · simp [State.frames, State.modifyCall]
  | other _ _ hframes => exact Or.inl hframes
  | _ => exact Or.inl (.refl _)

/-- The invariants of the client together. -/
structure State.Consistent (s : State F) : Prop extends s.Registered where
  /-- Every ack that a call holds is its own or the marker. -/
  sound : ∀ (c : ℕ) (call : Call F), s.calls[c]? = some call → call.Sound
  /-- No frame is in two places. -/
  nodup : s.frames.Nodup
  /-- Every frame was pushed by a call that got past the push. -/
  enqueued : ∀ c ∈ s.frames, ∃ call, s.calls[c]? = some call ∧ call.phase.enqueued = true

/-- A new connection is consistent. -/
theorem consistent_connect : (State.connect : State F).Consistent where
  toRegistered := registered_connect
  sound := by intro c call h; simp [State.connect] at h
  nodup := by simp [State.frames, State.connect, Writer.held]
  enqueued := by intro c h; simp [State.frames, State.connect, Writer.held] at h

/-- Every step keeps the client consistent. -/
theorem Effect.consistent {s s' : State F} {a : Action} (h : s.Consistent)
    (he : Effect s a s') : s'.Consistent where
  toRegistered := he.registered h.toRegistered
  sound := by
    intro c call' hcall'
    cases hc : s.calls[c]? with
    | none =>
      -- a call that has just started holds no ack
      obtain ⟨hphase, hchan⟩ := he.new_call hc hcall'
      intro ack hack
      rw [hphase, hchan] at hack
      cases hack with
      | inl hack => cases hack
      | inr hack => cases hack
    | some call =>
      obtain ⟨call₁, hcall₁, hevolves⟩ := he.evolves h.toRegistered hc
      rw [hcall'] at hcall₁
      cases hcall₁
      exact hevolves.invariant (fun _ _ hchange => hchange.sound) (h.sound c call hc)
  nodup := by
    cases he.frames with
    | inl hsub => exact h.nodup.sublist hsub
    | inr hpush =>
      obtain ⟨c, call, hcall, hphase, -, hframes⟩ := hpush
      rw [hframes, List.nodup_append]
      refine ⟨h.nodup, List.nodup_singleton c, ?_⟩
      -- a call in `enqueueing` has no frame yet
      intro d hd e he hde
      rw [List.mem_singleton] at he
      subst he
      subst hde
      obtain ⟨call₀, hcall₀, henq⟩ := h.enqueued d hd
      have hsame : call = call₀ := Option.eq_some_unique hcall hcall₀
      simp [← hsame, hphase, Phase.enqueued] at henq
  enqueued := by
    intro c hc
    have hold : c ∈ s.frames →
        ∃ call, s'.calls[c]? = some call ∧ call.phase.enqueued = true := by
      intro hmem
      obtain ⟨call, hcall, henq⟩ := h.enqueued c hmem
      obtain ⟨call', hcall', hevolves⟩ := he.evolves h.toRegistered hcall
      exact ⟨call', hcall',
        hevolves.invariant (fun _ _ hchange => hchange.phase_enqueued) henq⟩
    cases he.frames with
    | inl hsub => exact hold (hsub.subset hc)
    | inr hpush =>
      obtain ⟨d, call, -, -, hcall', hframes⟩ := hpush
      rw [hframes, List.mem_append, List.mem_singleton] at hc
      cases hc with
      | inl hmem => exact hold hmem
      | inr hcd => rw [hcd]; exact ⟨_, hcall', rfl⟩

/-! ## Runs -/

section Runs

variable {fromStr : String → Option (Value F)}

/-- Every state that the client reaches is consistent. -/
theorem consistent_of_reaches {s s' : State F} (hs : s.Consistent)
    (h : TransitionSystem.Reaches (step fromStr) s s') : s'.Consistent :=
  h.invariant _ (fun _ _ _ ht hstep => (step_cases hstep).consistent ht) hs

/-- A call evolves along a run. -/
theorem evolves_of_reaches {s s' : State F} (hs : s.Consistent)
    (h : TransitionSystem.Reaches (step fromStr) s s') {c : ℕ} {call : Call F}
    (hcall : s.calls[c]? = some call) :
    ∃ call', s'.calls[c]? = some call' ∧ call.Evolves call' := by
  have hinv : s'.Consistent ∧ ∃ call', s'.calls[c]? = some call' ∧ call.Evolves call' := by
    apply h.invariant (I := fun t =>
      t.Consistent ∧ ∃ call', t.calls[c]? = some call' ∧ call.Evolves call') _ _
      ⟨hs, call, hcall, .refl call⟩
    intro t a t' ht hstep
    obtain ⟨hconsistent, called, hcalled, hevolves⟩ := ht
    obtain ⟨called', hcalled', hevolves'⟩ :=
      (step_cases hstep).evolves hconsistent.toRegistered hcalled
    exact ⟨(step_cases hstep).consistent hconsistent, called', hcalled', hevolves.trans hevolves'⟩
  exact hinv.2

end Runs

end ExchangeApiws.Native.WsOrders
