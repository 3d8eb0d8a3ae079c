import Mathlib.Data.List.Perm.Subperm
import ExchangeApiws.Spec.WsOrderInvariant

/-!
# Entries of the pending map

An entry of the pending map is put there by a call when it registers and is taken out by its
ack, by the call itself when it fails, or by the end of the connection. A call whose future is
dropped after it has registered takes out nothing, and its entry stays behind.

## Key results

- `State.LiveEntries.step`: a step keeps every entry with a call in flight, unless it cancels a
  call that has one
- `pending_live_iff`: exactly the runs that cancel no call with an entry keep the map to the
  calls in flight
-/

namespace ExchangeApiws.Native.WsOrders

variable {F : Type} {fromStr : String → Option (Value F)}

/-- The call has registered and has neither returned nor been cancelled. -/
def Phase.registered : Phase F → Bool
  | .enqueueing | .awaiting | .cleaning _ => true
  | _ => false

/-- A registered call is in flight. -/
theorem Phase.inFlight_of_registered {phase : Phase F} (h : phase.registered = true) :
    phase.inFlight = true := by
  cases phase with
  | enqueueing | awaiting | cleaning => rfl
  | _ => cases h

/-- Every entry was put in the map by a call that still runs, under its `clientOid`. -/
def State.LiveEntries (s : State F) : Prop :=
  ∀ (k : String) (c : ℕ), s.pending[k]? = some c → ∃ call, s.calls[c]? = some call ∧
    call.clientOid = k ∧ call.phase.registered = true

/-- The number of calls in flight. -/
def State.inFlight (s : State F) : ℕ := s.calls.countP fun call => call.phase.inFlight

/-- The map holds entries of calls in flight only, and no more of them than there are calls. -/
def State.PendingLive (s : State F) : Prop :=
  s.LiveEntries ∧ s.pending.size ≤ s.inFlight

/-- The step cancels no call whose entry is in the map. -/
def State.Abandons (s : State F) (a : Action) : Prop :=
  ∃ (k : String) (c : ℕ), a = .cancel c ∧ s.pending[k]? = some c

/-! ## One step -/

/-- Live entries depend on the calls and on the map only. -/
theorem State.LiveEntries.congr {s s' : State F} (h : s.LiveEntries)
    (hcalls : s'.calls = s.calls) (hpending : s'.pending = s.pending) : s'.LiveEntries := by
  intro k c hc
  rw [hpending] at hc
  rw [hcalls]
  exact h k c hc

/-- A call whose phase changes has no entry, or still runs. -/
theorem State.LiveEntries.modifyCall {s : State F} (h : s.LiveEntries) {c : ℕ}
    (phase : Phase F) (hphase : phase.registered = true ∨ ∀ k : String, s.pending[k]? ≠ some c) :
    (s.modifyCall c (.setPhase phase)).LiveEntries := by
  intro k d hd
  rw [modifyCall_pending] at hd
  obtain ⟨call, hcall, hoid, hlive⟩ := h k d hd
  rw [modifyCall_calls]
  by_cases hcd : c = d
  · subst hcd
    rw [if_pos rfl, hcall]
    exact ⟨_, rfl, hoid, hphase.resolve_right fun hno => hno k hd⟩
  · rw [if_neg hcd]
    exact ⟨call, hcall, hoid, hlive⟩

/-- Removing an entry leaves the others live. -/
theorem State.LiveEntries.removePending {s : State F} (h : s.LiveEntries) (oid : String)
    {f : Call F → Call F} (hoid : ∀ call, (f call).clientOid = call.clientOid)
    (hphase : ∀ call, (f call).phase = call.phase) : (s.removePending oid f).LiveEntries := by
  intro k d hd
  rw [removePending_pending] at hd
  split at hd
  · cases hd
  · obtain ⟨call, hcall, hk, hlive⟩ := h k d hd
    rw [removePending_calls, hcall]
    split
    · exact ⟨f call, rfl, (hoid call).trans hk, by rw [hphase]; exact hlive⟩
    · exact ⟨call, rfl, hk, hlive⟩

/-- The new entry is the registering call's; the others are as before. -/
theorem State.LiveEntries.insert {s : State F} (h : s.LiveEntries) (hr : s.Registered) {c : ℕ}
    {call : Call F} (hcall : s.calls[c]? = some call) (hphase : call.phase = .registering) :
    ((s.insertPending call.clientOid c).modifyCall c (.setPhase .enqueueing)).LiveEntries := by
  have hnew : ∀ k : String, s.pending[k]? ≠ some c :=
    hr.not_entry hcall (by rw [hphase]; rfl)
  intro k d hd
  rw [modifyCall_pending, insertPending_pending] at hd
  rw [modifyCall_calls]
  split at hd
  · rename_i hk
    cases hd
    rw [if_pos rfl, insertPending_calls, if_neg (hnew _), hcall]
    exact ⟨_, rfl, hk, rfl⟩
  · obtain ⟨call₀, hcall₀, hoid, hlive⟩ := h k d hd
    have hcd : c ≠ d := fun hcd => hnew k (hcd ▸ hd)
    rw [if_neg hcd, insertPending_calls, hcall₀]
    split
    · exact ⟨_, rfl, by simpa using hoid, by simpa using hlive⟩
    · exact ⟨call₀, rfl, hoid, hlive⟩

/-- A step keeps every entry with a call in flight, unless it cancels a call that has one. -/
theorem State.LiveEntries.step {s s' : State F} {a : Action} (h : s.LiveEntries)
    (hr : s.Registered) (hkeep : ¬ s.Abandons a) (hstep : step fromStr s a = some s') :
    s'.LiveEntries := by
  cases step_cases hstep with
  | start clientOid frame =>
    intro k d hd
    obtain ⟨call, hcall, hrest⟩ := h k d hd
    have hlt : d < s.calls.length := (List.getElem?_eq_some_iff.mp hcall).1
    exact ⟨call, by rw [List.getElem?_append_left hlt]; exact hcall, hrest⟩
  | @turn a c call phase hcall hturn hcancel =>
    refine h.modifyCall _ ?_
    cases hturn with
    | writerClosed | queueFull | dropped | timedOut => exact .inl rfl
    | refused hphase | admitted hphase =>
      -- the call has not registered
      exact .inr (hr.not_entry hcall (by rw [hphase]; rfl))
    | received ack hphase hchan =>
      -- its ack has taken the entry out
      refine .inr fun k hd => ?_
      obtain ⟨call₀, hcall₀, -, -, hempty⟩ := hr.entry k c hd
      have hsame : call = call₀ := Option.eq_some_unique hcall hcall₀
      simp [← hsame, hchan] at hempty
    | cancelled hphase => exact .inr fun k hd => hkeep ⟨k, c, hcancel rfl, hd⟩
  | insert hcall hphase => exact h.insert hr hcall hphase
  | enqueue hcall hphase =>
    exact (h.modifyCall .awaiting (.inl rfl)).congr rfl rfl
  | @cleanUp c call error hcall hphase =>
    refine (h.removePending call.clientOid Call.dropSender_clientOid
      Call.dropSender_phase).modifyCall _ (.inr fun k hd => ?_)
    -- the entry of the call was the one under its own key
    rw [State.removePending_pending] at hd
    split at hd
    · cases hd
    · rename_i hk
      obtain ⟨call₀, hcall₀, hoid, -⟩ := h k c hd
      have hsame : call = call₀ := Option.eq_some_unique hcall hcall₀
      exact hk (hsame ▸ hoid)
  | @route ack hreader =>
    exact (h.removePending ack.clientOid (Call.send_clientOid ack) (Call.send_phase ack)).congr
      rfl rfl
  | drain hreader =>
    intro k d hd
    rw [show ({ s.drainPending .connectionClosed with reader := .terminated } : State F).pending =
      (s.drainPending .connectionClosed).pending from rfl, State.drainPending_pending] at hd
    cases hd
  | other hcalls hpending => exact h.congr hcalls hpending

/-- A cancelled call leaves its entry without a call in flight. -/
theorem State.Abandons.not_liveEntries {s s' : State F} {a : Action} (h : s.Abandons a)
    (hstep : WsOrders.step fromStr s a = some s') : ¬ s'.LiveEntries := by
  obtain ⟨k, c, rfl, hentry⟩ := h
  simp only [WsOrders.step, State.stepCall] at hstep
  obtain ⟨call, hcall, hstep⟩ := Option.bind_eq_some_iff.mp hstep
  have hs' : s' = s.modifyCall c (.setPhase .cancelled) := by
    split at hstep
    all_goals first
      | exact (Option.some.inj hstep).symm
      | cases hstep
  subst hs'
  intro hlive
  obtain ⟨call', hcall', -, hphase⟩ := hlive k c hentry
  rw [modifyCall_calls, if_pos rfl, hcall] at hcall'
  cases hcall'
  cases hphase

/-! ## The size of the map -/

/-- Two entries name two calls. -/
theorem State.Registered.nodup_pending {s : State F} (h : s.Registered) :
    (s.pending.toList.map Prod.snd).Nodup := by
  rw [List.Nodup, List.pairwise_map]
  refine Std.ExtTreeMap.distinct_keys_toList.imp_of_mem ?_
  intro e e' he he' hkeys hsame
  rw [← Prod.eta e, Std.ExtTreeMap.mem_toList_iff_getElem?_eq_some] at he
  rw [← Prod.eta e', Std.ExtTreeMap.mem_toList_iff_getElem?_eq_some] at he'
  exact hkeys (Std.LawfulEqCmp.compare_eq_iff_eq.mpr (h.key_unique he (hsame ▸ he')))

/-- There are no more entries than calls in flight. -/
theorem State.LiveEntries.size_le {s : State F} (h : s.LiveEntries) (hr : s.Registered) :
    s.pending.size ≤ s.inFlight := by
  have hsub : s.pending.toList.map Prod.snd ⊆
      s.calls.findIdxs fun call => call.phase.inFlight := by
    intro c hc
    obtain ⟨k, hk⟩ := State.mem_pending_toList.mp hc
    obtain ⟨call, hcall, -, hlive⟩ := h k c hk
    obtain ⟨hlt, rfl⟩ := List.getElem?_eq_some_iff.mp hcall
    rw [List.mem_findIdxs_iff_pos_getElem hlt]
    exact Phase.inFlight_of_registered hlive
  calc s.pending.size = (s.pending.toList.map Prod.snd).length := by
        rw [List.length_map, Std.ExtTreeMap.length_toList]
    _ ≤ (s.calls.findIdxs fun call => call.phase.inFlight).length :=
        (hr.nodup_pending.subperm hsub).length_le
    _ = s.inFlight := List.length_findIdxs

end ExchangeApiws.Native.WsOrders

namespace ExchangeApiws.Spec

open Native.WsOrders TransitionSystem

variable {F : Type} {fromStr : String → Option (Native.Value F)}

/-- For every run of the client, whatever the calls, the server and the callers do: in every
    state the pending map holds entries of calls in flight only, exactly when no step of the run
    cancels a call whose entry is in the map. -/
theorem pending_live_iff {actions : List Action} {s : State F}
    (hrun : run (step fromStr) .connect actions = some s) :
    Throughout (step fromStr) State.PendingLive .connect actions ↔
      StepsMeet (step fromStr) (fun s a => ¬ s.Abandons a) .connect actions := by
  refine throughout_iff_stepsMeet (step fromStr)
    (I := fun s => s.LiveEntries ∧ s.Registered) ?_ ?_ ?_ hrun ?_
  · intro s h
    exact ⟨h.1, h.1.size_le h.2⟩
  · intro s a s' h hkeep hstep
    exact ⟨h.1.step h.2 hkeep hstep, (step_cases hstep).registered h.2⟩
  · intro s a s' h habandons hstep hlive
    exact (not_not.mp habandons).not_liveEntries hstep hlive.1
  · refine ⟨?_, registered_connect⟩
    intro k c hc
    rw [show (State.connect : State F).pending[k]? = none from Std.ExtTreeMap.getElem?_empty] at hc
    cases hc

/-- A server whose frames are all unreadable. -/
def unreadable : String → Option (Native.Value Unit) := fun _ => none

/-- A call that gets no ack and gives up. -/
def timedOut : List Action :=
  [.start "oid" "frame", .checkClosed 0, .insert 0, .trySend 0, .timeout 0, .cleanUp 0]

/-- The run in which an ack times out, where no call abandons its entry. -/
theorem pending_live_timedOut :
    Throughout (step unreadable) State.PendingLive .connect timedOut ↔
      StepsMeet (step unreadable) (fun s a => ¬ s.Abandons a) .connect timedOut :=
  pending_live_iff (s := _) rfl

/-- A caller drops its future while it waits for the ack: the entry stays. -/
theorem not_pending_live :
    ¬ ∀ (actions : List Action) (s : State Unit),
      run (step unreadable) .connect actions = some s → s.PendingLive := by
  intro h
  have hlive := h [.start "oid" "frame", .checkClosed 0, .insert 0, .trySend 0, .cancel 0] _ rfl
  obtain ⟨call, hcall, -, hphase⟩ := hlive.1 "oid" 0 (by decide)
  cases hcall
  cases hphase

end ExchangeApiws.Spec
