import ExchangeApiws.ForStd.TransitionSystem
import ExchangeApiws.ForStd.UInt64
import ExchangeApiws.Native.SignedClients

/-!
# Nonces are distinct and increasing

`next_nonce` raises the shared counter to the clock and takes the next value in two separate
atomic steps. Whatever comes between them, the value taken is above every value taken
before and not below the clock that the call read, as long as the counter stays within the
range of the nonces.

## Key results

- `step_effect`: what one step does
- `CounterInvariant.step`, `IdInvariant.step`, `SendInvariant.step`: what every step keeps
- `nonces_increase`: nonces in every run of any number of calls
-/

namespace ExchangeApiws.Native.SignedClients

/-! ## What a step does -/

/-- `calls'` differs from `calls` in the phase of one call. -/
structure Moves (calls calls' : ℕ → Call) (call : ℕ) (phase : Phase) : Prop where
  self : (calls' call).phase = phase
  other : ∀ c, c ≠ call → calls' c = calls c

/-- Setting the phase of a call moves this call only. -/
theorem State.setPhase_moves (s : State) (call : ℕ) (phase : Phase) :
    Moves s.calls (s.setPhase call phase).calls call phase where
  self := by simp only [State.setPhase, Function.update_self]
  other c hc := Function.update_of_ne hc _ _

/-- What a step does, one constructor for each. -/
inductive Effect (client : Client) (secretOk : Bool) (s : State) : Action → State → Prop where
  | start {call : ℕ} {calls : ℕ → Call} (hphase : (s.calls call).phase = .notStarted)
      (hcalls : Moves s.calls calls call (.signing true client.firstStep)) :
      Effect client secretOk s (.start call) { s with calls := calls }
  | nextId {call : ℕ} {calls : ℕ → Call} {upfront : Bool}
      (hphase : (s.calls call).phase = .signing upfront .nextId)
      (hcalls : Moves s.calls calls call (.signing upfront (.readClock (some s.nextId)))) :
      Effect client secretOk s (.nextId call) { s with calls := calls, nextId := s.nextId + 1 }
  | readClock {call : ℕ} {calls : ℕ → Call} {clock : Int64} {upfront : Bool} {id : Option Int64}
      (hphase : (s.calls call).phase = .signing upfront (.readClock id))
      (hcalls : Moves s.calls calls call (.signing upfront (.fetchMax id clock))) :
      Effect client secretOk s (.readClock call clock) { s with calls := calls }
  | fetchMax {call : ℕ} {calls : ℕ → Call} {upfront : Bool} {id : Option Int64} {clock : Int64}
      (hphase : (s.calls call).phase = .signing upfront (.fetchMax id clock))
      (hcalls : Moves s.calls calls call (.signing upfront (.fetchAdd id clock))) :
      Effect client secretOk s (.fetchMax call)
        { s with calls := calls, nonceState := max s.nonceState (floorMs clock) }
  | fetchAdd {call : ℕ} {calls : ℕ → Call} {upfront : Bool} {id : Option Int64} {clock : Int64}
      (hphase : (s.calls call).phase = .signing upfront (.fetchAdd id clock))
      (hcalls : Moves s.calls calls call (afterSigning client secretOk upfront
        ⟨call, id, clock, client.nonceOf s.nonceState⟩)) :
      Effect client secretOk s (.fetchAdd call)
        { s with
          calls := calls
          nonceState := s.nonceState + 1
          minted := s.minted ++ [⟨call, id, clock, client.nonceOf s.nonceState⟩] }
  | send {call : ℕ} {calls : ℕ → Call} {request : Signed}
      (hphase : (s.calls call).phase = .signed request)
      (hcalls : Moves s.calls calls call .inFlight) :
      Effect client secretOk s (.send call)
        { s with calls := calls, sent := s.sent ++ [request] }
  | receive {call : ℕ} {calls : ℕ → Call} {outcome : Outcome} {phase : Phase}
      (hphase : (s.calls call).phase = .inFlight)
      (hphase' : phase = .signing false client.firstStep ∨ phase = .returned)
      (hcalls : Moves s.calls calls call phase) :
      Effect client secretOk s (.receive call outcome) { s with calls := calls }

/-- After an outcome a call signs the next attempt or has returned. -/
theorem Call.afterSend_phase (client : Client) (call : Call) (outcome : Outcome) :
    (call.afterSend client outcome).phase = .signing false client.firstStep ∨
      (call.afterSend client outcome).phase = .returned := by
  cases outcome with
  | networkError =>
    rw [Call.afterSend]
    split
    · exact Or.inl rfl
    · exact Or.inr rfl
  | rateLimited =>
    rw [Call.afterSend]
    split
    · exact Or.inr rfl
    · exact Or.inl rfl
  | response => exact Or.inr rfl

/-- Every step of the machine has one of the effects: the call that moves, what it does to the
    counters, and what it mints or sends. The invariants are proved by cases on the effect. -/
theorem step_effect {client : Client} {secretOk : Bool} {s s' : State} {a : Action}
    (h : step client secretOk s a = some s') : Effect client secretOk s a s' := by
  -- an action is enabled at one step of its call, and no other call moves
  cases a with
  | start call =>
    simp only [step] at h
    split at h
    · cases h
      exact .start ‹_› (s.setPhase_moves _ _)
    · cases h
  | nextId call =>
    simp only [step] at h
    split at h
    · cases h
      exact .nextId ‹_› (s.setPhase_moves _ _)
    · cases h
  | readClock call clock =>
    simp only [step] at h
    split at h
    · cases h
      exact .readClock ‹_› (s.setPhase_moves _ _)
    · cases h
  | fetchMax call =>
    simp only [step] at h
    split at h
    · cases h
      exact .fetchMax ‹_› (s.setPhase_moves _ _)
    · cases h
  | fetchAdd call =>
    simp only [step] at h
    split at h
    · cases h
      exact .fetchAdd ‹_› (s.setPhase_moves _ _)
    · cases h
  | send call =>
    simp only [step] at h
    split at h
    · cases h
      exact .send ‹_› (s.setPhase_moves _ _)
    · cases h
  | receive call outcome =>
    simp only [step] at h
    split at h
    · cases h
      -- the call also counts its attempts, so more than its phase changes
      refine .receive ‹_› ((s.calls call).afterSend_phase client outcome) ⟨?_, fun c hc => ?_⟩
      · simp only [Function.update_self]
      · exact Function.update_of_ne hc _ _
    · cases h

/-! ## Where a call goes on -/

/-- A step of a call that is not about to send leaves those that are. -/
theorem Moves.held {calls calls' : ℕ → Call} {call c : ℕ} {phase : Phase} {m : Signed}
    (hcalls : Moves calls calls' c phase) (hheld : (calls call).phase = .signed m)
    (hphase : (calls c).phase ≠ .signed m) : (calls' call).phase = .signed m := by
  have hne : call ≠ c := by
    rintro rfl
    exact hphase hheld
  rw [hcalls.other call hne]
  exact hheld

/-- No call starts to sign at a step on the nonce counter. -/
theorem Client.firstStep_ne_fetchAdd (client : Client) (id : Option Int64) (clock : Int64) :
    client.firstStep ≠ .fetchAdd id clock := by
  cases client <;> simp [Client.firstStep]

/-- Nor does one start to sign at the step that raises the counter to the clock. -/
theorem Client.firstStep_ne_fetchMax (client : Client) (id : Option Int64) (clock : Int64) :
    client.firstStep ≠ .fetchMax id clock := by
  cases client <;> simp [Client.firstStep]

/-- A call that has taken its nonce starts to sign again, is about to send, or has returned. -/
theorem afterSigning_cases (client : Client) (secretOk upfront : Bool) (request : Signed) :
    afterSigning client secretOk upfront request = .signing false client.firstStep ∨
      afterSigning client secretOk upfront request = .signed request ∨
      afterSigning client secretOk upfront request = .returned := by
  rw [afterSigning]
  split
  · exact Or.inr (Or.inr rfl)
  · split
    · exact Or.inl rfl
    · exact Or.inr (Or.inl rfl)

/-- The request that a call holds when it has taken its nonce is the one with that nonce. -/
theorem eq_of_afterSigning {client : Client} {secretOk upfront : Bool} {request m : Signed}
    (h : afterSigning client secretOk upfront request = .signed m) : m = request := by
  rcases afterSigning_cases client secretOk upfront request with hafter | hafter | hafter
  · rw [hafter] at h
    cases h
  · rw [hafter] at h
    injection h with heq
    exact heq.symm
  · rw [hafter] at h
    cases h

/-- A call that has taken its nonce is before none of the steps on the counter. -/
theorem afterSigning_ne {client : Client} {secretOk upfront upfront' : Bool} {request : Signed}
    {next : SignStep} (hnext : client.firstStep ≠ next) :
    afterSigning client secretOk upfront request ≠ .signing upfront' next := by
  intro h
  rcases afterSigning_cases client secretOk upfront request with hafter | hafter | hafter
  · rw [hafter] at h
    injection h with _ heq
    exact hnext heq
  · rw [hafter] at h
    cases h
  · rw [hafter] at h
    cases h

/-! ## Clock and nonce -/

/-- The floor that the clock gives is not below the clock. -/
theorem toInt_le_floorMs (clock : Int64) : clock.toInt ≤ (floorMs clock).toNat := by
  rw [floorMs]
  split
  · rename_i h
    have hneg : clock.toInt < 0 := Int64.lt_iff_toInt_lt.mp h
    rw [UInt64.toNat_zero]
    omega
  · rename_i h
    have hnonneg : 0 ≤ clock := Int64.not_lt.mp h
    rw [Int64.toNat_toUInt64_of_le hnonneg, Int64.cast_toNatClampNeg clock hnonneg]

/-- The floor is no higher than the clock needs. -/
theorem floorMs_le {clock : Int64} {top : ℕ} (h : clock.toInt ≤ top) :
    (floorMs clock).toNat ≤ top := by
  rw [floorMs]
  split
  · exact Nat.zero_le _
  · rename_i hneg
    have hnonneg : 0 ≤ clock := Int64.not_lt.mp hneg
    have hcast := Int64.cast_toNatClampNeg clock hnonneg
    rw [Int64.toNat_toUInt64_of_le hnonneg]
    omega

/-- Counter values below this bound become nonces unchanged and do not wrap. -/
def Client.bound : Client → ℕ
  | .kraken => 2 ^ 64 - 1
  | .cryptocom => 2 ^ 63

/-- Below the client's bound the counter is the nonce itself. -/
theorem Client.nonceOf_of_lt {client : Client} {next : UInt64} (h : next.toNat < client.bound) :
    client.nonceOf next = next.toNat := by
  cases client with
  | kraken => rfl
  | cryptocom => exact if_pos h

/-- Below the client's bound the counter does not wrap. -/
theorem Client.toNat_add_one {client : Client} {next : UInt64} (h : next.toNat < client.bound) :
    (next + 1).toNat = next.toNat + 1 := by
  refine UInt64.toNat_add_one_of_lt ?_
  cases client with
  | kraken => exact h
  | cryptocom =>
    simp only [Client.bound] at h
    omega

end ExchangeApiws.Native.SignedClients

namespace ExchangeApiws.Spec

open TransitionSystem Native Native.SignedClients

/-- The step leaves the counters within their ranges: a `fetch_add` of the nonce finds the
    counter below the bound of the nonces, one of the id below the largest id. -/
def CounterFits (client : Client) (s : State) : Action → Prop
  | .fetchAdd _ => s.nonceState.toNat < client.bound
  | .nextId _ => s.nextId.toInt < 2 ^ 63 - 1
  | _ => True

/-! ## Nonces and the counter -/

/-- The nonces minted so far and the counter. -/
structure CounterInvariant (s : State) : Prop where
  /-- A call that is about to take a nonce has raised the counter to its clock. -/
  raised : ∀ call upfront id clock, (s.calls call).phase = .signing upfront (.fetchAdd id clock) →
    (floorMs clock).toNat ≤ s.nonceState.toNat
  below : ∀ m ∈ s.minted, m.nonce < s.nonceState.toNat
  increasing : s.minted.Pairwise fun m m' => m.nonce < m'.nonce
  clock : ∀ m ∈ s.minted, m.clock.toInt ≤ m.nonce

/-- The counters of a new client are in order. -/
theorem CounterInvariant.new : CounterInvariant State.new where
  raised _ _ _ _ h := by cases h
  below _ h := by cases h
  increasing := List.Pairwise.nil
  clock _ h := by cases h

/-- A step that keeps the nonces, does not lower the counter, and does not bring a call before
    its `fetch_add`. -/
theorem CounterInvariant.mono {s s' : State} {call : ℕ} {phase : Phase}
    (h : CounterInvariant s) (hcalls : Moves s.calls s'.calls call phase)
    (hphase : ∀ upfront id clock, phase = .signing upfront (.fetchAdd id clock) →
      (floorMs clock).toNat ≤ s'.nonceState.toNat)
    (hcounter : s.nonceState.toNat ≤ s'.nonceState.toNat) (hminted : s'.minted = s.minted) :
    CounterInvariant s' where
  raised c upfront id clock hc := by
    by_cases hself : c = call
    · subst hself
      exact hphase upfront id clock (hcalls.self.symm.trans hc)
    · rw [hcalls.other c hself] at hc
      exact (h.raised c upfront id clock hc).trans hcounter
  below m hm := by
    have hlt := h.below m (hminted ▸ hm)
    omega
  increasing := hminted ▸ h.increasing
  clock m hm := h.clock m (hminted ▸ hm)

/-- Taking a nonce keeps the invariant: the value taken is above all before it, and the counter
    moves past it. -/
theorem CounterInvariant.fetchAdd {client : Client} {secretOk : Bool} {s : State} {call : ℕ}
    {calls : ℕ → Call} {upfront : Bool} {id : Option Int64} {clock : Int64}
    (h : CounterInvariant s) (hfits : s.nonceState.toNat < client.bound)
    (hphase : (s.calls call).phase = .signing upfront (.fetchAdd id clock))
    (hcalls : Moves s.calls calls call (afterSigning client secretOk upfront
      ⟨call, id, clock, client.nonceOf s.nonceState⟩)) :
    CounterInvariant { s with
      calls := calls
      nonceState := s.nonceState + 1
      minted := s.minted ++ [⟨call, id, clock, client.nonceOf s.nonceState⟩] } := by
  have hnonce : client.nonceOf s.nonceState = s.nonceState.toNat := Client.nonceOf_of_lt hfits
  have hsucc : (s.nonceState + 1).toNat = s.nonceState.toNat + 1 := Client.toNat_add_one hfits
  refine ⟨?_, ?_, ?_, ?_⟩
  · intro c up id' clock' hc
    by_cases hself : c = call
    · subst hself
      exact absurd (hcalls.self.symm.trans hc)
        (afterSigning_ne (client.firstStep_ne_fetchAdd id' clock'))
    · simp only [hcalls.other c hself] at hc
      have hraised := h.raised c up id' clock' hc
      simp only [hsucc]
      omega
  · intro m hm
    rw [hsucc]
    rcases List.mem_append.mp hm with hold | hnew
    · have hlt := h.below m hold
      omega
    · obtain rfl := List.mem_singleton.mp hnew
      simp only [hnonce]
      omega
  -- the value taken is the counter, and all values before it are below the counter
  · refine List.pairwise_append.mpr ⟨h.increasing, List.pairwise_singleton _ _, ?_⟩
    intro m hm m' hm'
    obtain rfl := List.mem_singleton.mp hm'
    rw [hnonce]
    exact h.below m hm
  · intro m hm
    rcases List.mem_append.mp hm with hold | hnew
    · exact h.clock m hold
    · -- the floor was raised to this clock before
      obtain rfl := List.mem_singleton.mp hnew
      have hraised := h.raised call upfront id clock hphase
      have hclock := toInt_le_floorMs clock
      simp only [hnonce]
      omega

/-- Every step that leaves the counters within their ranges keeps the invariant. -/
theorem CounterInvariant.step {client : Client} {secretOk : Bool} {s s' : State} {a : Action}
    (h : CounterInvariant s) (hfits : CounterFits client s a)
    (heffect : Effect client secretOk s a s') : CounterInvariant s' := by
  -- only `fetchMax` raises the counter and only `fetchAdd` mints; every other step moves a phase
  cases heffect with
  | start _ hcalls =>
    refine h.mono hcalls (fun upfront id clock hp => ?_) le_rfl rfl
    injection hp with _ hstep
    exact absurd hstep (client.firstStep_ne_fetchAdd id clock)
  | nextId _ hcalls => exact h.mono hcalls (fun _ _ _ hp => by cases hp) le_rfl rfl
  | readClock _ hcalls => exact h.mono hcalls (fun _ _ _ hp => by cases hp) le_rfl rfl
  | fetchMax hphase hcalls =>
    refine h.mono hcalls (fun _ _ _ hp => ?_) ?_ rfl
    -- the call comes before its `fetch_add` with the counter at least at its clock
    · cases hp
      rw [UInt64.toNat_max]
      exact Nat.le_max_right _ _
    · rw [UInt64.toNat_max]
      exact Nat.le_max_left _ _
  | fetchAdd hphase hcalls => exact h.fetchAdd hfits hphase hcalls
  | send _ hcalls => exact h.mono hcalls (fun _ _ _ hp => by cases hp) le_rfl rfl
  | receive _ hphase' hcalls =>
    refine h.mono hcalls (fun upfront id clock hp => ?_) le_rfl rfl
    rcases hphase' with rfl | rfl
    · injection hp with _ hstep
      exact absurd hstep (client.firstStep_ne_fetchAdd id clock)
    · cases hp

/-! ## Ids -/

/-- The id that a call has taken for the request that it is signing. -/
def heldId : Phase → Option Int64
  | .signing _ (.readClock id) => id
  | .signing _ (.fetchMax id _) => id
  | .signing _ (.fetchAdd id _) => id
  | _ => none

@[simp] theorem heldId_firstStep (client : Client) (upfront : Bool) :
    heldId (.signing upfront client.firstStep) = none := by
  cases client <;> rfl

/-- A request that is signed holds no id. -/
theorem heldId_afterSigning (client : Client) (secretOk upfront : Bool) (request : Signed) :
    heldId (afterSigning client secretOk upfront request) = none := by
  rcases afterSigning_cases client secretOk upfront request with h | h | h
  · rw [h, heldId_firstStep]
  · rw [h]
    rfl
  · rw [h]
    rfl

/-- The ids minted so far, those that calls hold, and the counter. -/
structure IdInvariant (s : State) : Prop where
  minted_lt : ∀ m ∈ s.minted, ∀ id, m.id = some id → id.toInt < s.nextId.toInt
  held_lt : ∀ call id, heldId (s.calls call).phase = some id → id.toInt < s.nextId.toInt
  held_unminted : ∀ call id, heldId (s.calls call).phase = some id → ∀ m ∈ s.minted, m.id ≠ some id
  held_unique : ∀ call call' id, heldId (s.calls call).phase = some id →
    heldId (s.calls call').phase = some id → call = call'
  distinct : s.minted.Pairwise fun m m' => ∀ id, m.id = some id → m'.id ≠ some id

/-- A new client has minted no id. -/
theorem IdInvariant.new : IdInvariant State.new where
  minted_lt _ h := by cases h
  held_lt _ _ h := by cases h
  held_unminted _ _ h := by cases h
  held_unique _ _ _ h := by cases h
  distinct := List.Pairwise.nil

/-- A step that keeps the ids minted and the counter, and lets no call take an id. -/
theorem IdInvariant.mono {s s' : State} {call : ℕ} {phase : Phase} (h : IdInvariant s)
    (hcalls : Moves s.calls s'.calls call phase)
    (hphase : ∀ id, heldId phase = some id → heldId (s.calls call).phase = some id)
    (hcounter : s'.nextId = s.nextId) (hminted : s'.minted = s.minted) : IdInvariant s' := by
  have hheld : ∀ c id, heldId (s'.calls c).phase = some id →
      heldId (s.calls c).phase = some id := by
    intro c id hc
    by_cases hself : c = call
    · subst hself
      rw [hcalls.self] at hc
      exact hphase id hc
    · rwa [hcalls.other c hself] at hc
  refine ⟨?_, ?_, ?_, ?_, ?_⟩
  · rw [hminted, hcounter]
    exact h.minted_lt
  · intro c id hc
    rw [hcounter]
    exact h.held_lt c id (hheld c id hc)
  · intro c id hc
    rw [hminted]
    exact h.held_unminted c id (hheld c id hc)
  · intro c c' id hc hc'
    exact h.held_unique c c' id (hheld c id hc) (hheld c' id hc')
  · rw [hminted]
    exact h.distinct

/-- Taking an id: it is above all ids before it. -/
theorem IdInvariant.nextId {s : State} {call : ℕ} {calls : ℕ → Call} {upfront : Bool}
    (h : IdInvariant s) (hfits : s.nextId.toInt < 2 ^ 63 - 1)
    (hcalls : Moves s.calls calls call (.signing upfront (.readClock (some s.nextId)))) :
    IdInvariant { s with calls := calls, nextId := s.nextId + 1 } := by
  have hsucc : (s.nextId + 1).toInt = s.nextId.toInt + 1 := Int64.toInt_add_one_of_lt hfits
  -- a call holds the new id or held its id before
  have hheld : ∀ c id, heldId (calls c).phase = some id →
      (c = call ∧ id = s.nextId) ∨ (c ≠ call ∧ heldId (s.calls c).phase = some id) := by
    intro c id hc
    by_cases hself : c = call
    · subst hself
      rw [hcalls.self] at hc
      exact Or.inl ⟨rfl, (Option.some.inj hc).symm⟩
    · rw [hcalls.other c hself] at hc
      exact Or.inr ⟨hself, hc⟩
  refine ⟨?_, ?_, ?_, ?_, h.distinct⟩
  · intro m hm id hid
    have hlt := h.minted_lt m hm id hid
    simp only [hsucc]
    omega
  · intro c id hc
    simp only [hsucc]
    obtain ⟨_, rfl⟩ | ⟨_, hold⟩ := hheld c id hc
    · omega
    · have hlt := h.held_lt c id hold
      omega
  · intro c id hc m hm hid
    obtain ⟨_, rfl⟩ | ⟨_, hold⟩ := hheld c id hc
    · exact absurd (h.minted_lt m hm _ hid) (lt_irrefl _)
    · exact h.held_unminted c id hold m hm hid
  · intro c c' id hc hc'
    obtain ⟨hself, rfl⟩ | ⟨_, hold⟩ := hheld c id hc
    · obtain ⟨hself', _⟩ | ⟨_, hold'⟩ := hheld c' _ hc'
      · rw [hself, hself']
      · exact absurd (h.held_lt c' _ hold') (lt_irrefl _)
    · obtain ⟨_, rfl⟩ | ⟨_, hold'⟩ := hheld c' _ hc'
      · exact absurd (h.held_lt c _ hold) (lt_irrefl _)
      · exact h.held_unique c c' id hold hold'

/-- Taking a nonce puts the id that the call held into the log. -/
theorem IdInvariant.fetchAdd {client : Client} {secretOk : Bool} {s : State} {call : ℕ}
    {calls : ℕ → Call} {upfront : Bool} {id : Option Int64} {clock : Int64} (h : IdInvariant s)
    (hphase : (s.calls call).phase = .signing upfront (.fetchAdd id clock))
    (hcalls : Moves s.calls calls call (afterSigning client secretOk upfront
      ⟨call, id, clock, client.nonceOf s.nonceState⟩)) :
    IdInvariant { s with
      calls := calls
      nonceState := s.nonceState + 1
      minted := s.minted ++ [⟨call, id, clock, client.nonceOf s.nonceState⟩] } := by
  have hheld : heldId (s.calls call).phase = id := by rw [hphase, heldId]
  -- a call that has its nonce holds its id no longer, and the others hold what they held
  have hother : ∀ c i, heldId (calls c).phase = some i →
      c ≠ call ∧ heldId (s.calls c).phase = some i := by
    intro c i hc
    by_cases hself : c = call
    · subst hself
      rw [hcalls.self, heldId_afterSigning] at hc
      cases hc
    · rw [hcalls.other c hself] at hc
      exact ⟨hself, hc⟩
  refine ⟨?_, ?_, ?_, ?_, ?_⟩
  · intro m hm i hi
    rcases List.mem_append.mp hm with hold | hnew
    · exact h.minted_lt m hold i hi
    · obtain rfl := List.mem_singleton.mp hnew
      exact h.held_lt call i (hheld.trans hi)
  · intro c i hc
    exact h.held_lt c i (hother c i hc).2
  · intro c i hc m hm hi
    obtain ⟨hne, hold⟩ := hother c i hc
    rcases List.mem_append.mp hm with hmem | hnew
    · exact h.held_unminted c i hold m hmem hi
    · obtain rfl := List.mem_singleton.mp hnew
      exact hne (h.held_unique c call i hold (hheld.trans hi))
  · intro c c' i hc hc'
    exact h.held_unique c c' i (hother c i hc).2 (hother c' i hc').2
  · refine List.pairwise_append.mpr ⟨h.distinct, List.pairwise_singleton _ _, ?_⟩
    intro m hm m' hm' i hi hi'
    obtain rfl := List.mem_singleton.mp hm'
    exact h.held_unminted call i (hheld.trans hi') m hm hi

/-- Every step that leaves the counters within their ranges keeps the ids distinct. -/
theorem IdInvariant.step {client : Client} {secretOk : Bool} {s s' : State} {a : Action}
    (h : IdInvariant s) (hfits : CounterFits client s a)
    (heffect : Effect client secretOk s a s') : IdInvariant s' := by
  cases heffect with
  | start _ hcalls => exact h.mono hcalls (fun _ hp => by simp at hp) rfl rfl
  | nextId _ hcalls => exact h.nextId hfits hcalls
  | readClock hphase hcalls =>
    exact h.mono hcalls (fun _ hp => by rw [hphase]; exact hp) rfl rfl
  | fetchMax hphase hcalls =>
    exact h.mono hcalls (fun _ hp => by rw [hphase]; exact hp) rfl rfl
  | fetchAdd hphase hcalls => exact h.fetchAdd hphase hcalls
  | send _ hcalls => exact h.mono hcalls (fun _ hp => by cases hp) rfl rfl
  | receive _ hphase' hcalls =>
    refine h.mono hcalls (fun _ hp => ?_) rfl rfl
    rcases hphase' with rfl | rfl
    · simp at hp
    · cases hp

/-! ## Requests on the wire -/

/-- The requests that were sent and those that are about to be. -/
structure SendInvariant (s : State) : Prop where
  sent_minted : ∀ m ∈ s.sent, m ∈ s.minted
  held_minted : ∀ call m, (s.calls call).phase = .signed m → m ∈ s.minted
  held_unsent : ∀ call m, (s.calls call).phase = .signed m → ∀ m' ∈ s.sent, m'.nonce ≠ m.nonce
  held_unique : ∀ call call' m m', (s.calls call).phase = .signed m →
    (s.calls call').phase = .signed m' → m.nonce = m'.nonce → call = call'
  distinct : s.sent.Pairwise fun m m' => m.nonce ≠ m'.nonce

/-- A new client has sent nothing. -/
theorem SendInvariant.new : SendInvariant State.new where
  sent_minted _ h := by cases h
  held_minted _ _ h := by cases h
  held_unsent _ _ h := by cases h
  held_unique _ _ _ _ h := by cases h
  distinct := List.Pairwise.nil

/-- A step that keeps what was minted and sent, and builds no request. -/
theorem SendInvariant.mono {s s' : State} {call : ℕ} {phase : Phase} (h : SendInvariant s)
    (hcalls : Moves s.calls s'.calls call phase) (hphase : ∀ m, phase ≠ .signed m)
    (hminted : s'.minted = s.minted) (hsent : s'.sent = s.sent) : SendInvariant s' := by
  have hheld : ∀ c m, (s'.calls c).phase = .signed m → (s.calls c).phase = .signed m := by
    intro c m hc
    by_cases hself : c = call
    · subst hself
      exact absurd (hcalls.self.symm.trans hc) (hphase m)
    · rwa [hcalls.other c hself] at hc
  refine ⟨?_, ?_, ?_, ?_, ?_⟩
  · rw [hminted, hsent]
    exact h.sent_minted
  · intro c m hc
    rw [hminted]
    exact h.held_minted c m (hheld c m hc)
  · intro c m hc
    rw [hsent]
    exact h.held_unsent c m (hheld c m hc)
  · intro c c' m m' hc hc'
    exact h.held_unique c c' m m' (hheld c m hc) (hheld c' m' hc')
  · rw [hsent]
    exact h.distinct

/-- Taking a nonce: the request that carries it is not among those sent or about to be. -/
theorem SendInvariant.fetchAdd {client : Client} {secretOk : Bool} {s : State} {call : ℕ}
    {calls : ℕ → Call} {upfront : Bool} {id : Option Int64} {clock : Int64} (h : SendInvariant s)
    (hcounter : CounterInvariant s) (hfits : s.nonceState.toNat < client.bound)
    (hcalls : Moves s.calls calls call (afterSigning client secretOk upfront
      ⟨call, id, clock, client.nonceOf s.nonceState⟩)) :
    SendInvariant { s with
      calls := calls
      nonceState := s.nonceState + 1
      minted := s.minted ++ [⟨call, id, clock, client.nonceOf s.nonceState⟩] } := by
  have hfresh : ∀ m ∈ s.minted, m.nonce < client.nonceOf s.nonceState := by
    intro m hm
    rw [Client.nonceOf_of_lt hfits]
    exact hcounter.below m hm
  -- a call holds the new request or held its request before
  have hheld : ∀ c m, (calls c).phase = .signed m →
      (c = call ∧ m = ⟨call, id, clock, client.nonceOf s.nonceState⟩) ∨
        (s.calls c).phase = .signed m := by
    intro c m hc
    by_cases hself : c = call
    · subst hself
      exact Or.inl ⟨rfl, eq_of_afterSigning (hcalls.self.symm.trans hc)⟩
    · rw [hcalls.other c hself] at hc
      exact Or.inr hc
  refine ⟨?_, ?_, ?_, ?_, h.distinct⟩
  · intro m hm
    exact List.mem_append_left _ (h.sent_minted m hm)
  · intro c m hc
    obtain ⟨_, rfl⟩ | hold := hheld c m hc
    · exact List.mem_append_right _ (List.mem_singleton_self _)
    · exact List.mem_append_left _ (h.held_minted c m hold)
  · intro c m hc m' hm'
    obtain ⟨_, rfl⟩ | hold := hheld c m hc
    · exact ne_of_lt (hfresh m' (h.sent_minted m' hm'))
    · exact h.held_unsent c m hold m' hm'
  · intro c c' m m' hc hc' hnonce
    obtain ⟨hself, rfl⟩ | hold := hheld c m hc
    · obtain ⟨hself', _⟩ | hold' := hheld c' m' hc'
      · rw [hself, hself']
      · exact absurd hnonce.symm (ne_of_lt (hfresh m' (h.held_minted c' m' hold')))
    · obtain ⟨_, rfl⟩ | hold' := hheld c' m' hc'
      · exact absurd hnonce (ne_of_lt (hfresh m (h.held_minted c m hold)))
      · exact h.held_unique c c' m m' hold hold' hnonce

/-- Sending: the request moves from its call to the wire. -/
theorem SendInvariant.send {s : State} {call : ℕ} {calls : ℕ → Call} {request : Signed}
    (h : SendInvariant s) (hphase : (s.calls call).phase = .signed request)
    (hcalls : Moves s.calls calls call .inFlight) :
    SendInvariant { s with calls := calls, sent := s.sent ++ [request] } := by
  -- the sender has no signed request left, so the nonce is now on the wire alone
  have hheld : ∀ c m, (calls c).phase = .signed m →
      c ≠ call ∧ (s.calls c).phase = .signed m := by
    intro c m hc
    by_cases hself : c = call
    · subst hself
      rw [hcalls.self] at hc
      cases hc
    · rw [hcalls.other c hself] at hc
      exact ⟨hself, hc⟩
  refine ⟨?_, ?_, ?_, ?_, ?_⟩
  · intro m hm
    rcases List.mem_append.mp hm with hold | hnew
    · exact h.sent_minted m hold
    · obtain rfl := List.mem_singleton.mp hnew
      exact h.held_minted call m hphase
  · intro c m hc
    exact h.held_minted c m (hheld c m hc).2
  · intro c m hc m' hm'
    obtain ⟨hne, hold⟩ := hheld c m hc
    rcases List.mem_append.mp hm' with hmem | hnew
    · exact h.held_unsent c m hold m' hmem
    · obtain rfl := List.mem_singleton.mp hnew
      intro hnonce
      exact hne (h.held_unique c call m m' hold hphase hnonce.symm)
  · intro c c' m m' hc hc'
    exact h.held_unique c c' m m' (hheld c m hc).2 (hheld c' m' hc').2
  · refine List.pairwise_append.mpr ⟨h.distinct, List.pairwise_singleton _ _, ?_⟩
    intro m hm m' hm'
    obtain rfl := List.mem_singleton.mp hm'
    exact h.held_unsent call m' hphase m hm

/-- Every step that leaves the counters within their ranges keeps the nonces on the wire
    distinct. -/
theorem SendInvariant.step {client : Client} {secretOk : Bool} {s s' : State} {a : Action}
    (h : SendInvariant s) (hcounter : CounterInvariant s) (hfits : CounterFits client s a)
    (heffect : Effect client secretOk s a s') : SendInvariant s' := by
  cases heffect with
  | start _ hcalls => exact h.mono hcalls (fun _ hp => by cases hp) rfl rfl
  | nextId _ hcalls => exact h.mono hcalls (fun _ hp => by cases hp) rfl rfl
  | readClock _ hcalls => exact h.mono hcalls (fun _ hp => by cases hp) rfl rfl
  | fetchMax _ hcalls => exact h.mono hcalls (fun _ hp => by cases hp) rfl rfl
  | fetchAdd _ hcalls => exact h.fetchAdd hcounter hfits hcalls
  | send hphase hcalls => exact h.send hphase hcalls
  | receive _ hphase' hcalls =>
    refine h.mono hcalls (fun _ hp => ?_) rfl rfl
    rcases hphase' with rfl | rfl
    · cases hp
    · cases hp

/-! ## Every request has an id -/

/-- A Crypto.com call has taken an id before it reads the clock. -/
def HasId : Phase → Prop
  | .signing _ (.readClock id) => id.isSome = true
  | .signing _ (.fetchMax id _) => id.isSome = true
  | .signing _ (.fetchAdd id _) => id.isSome = true
  | _ => True

/-- The Crypto.com requests minted so far have an id, and so will those being signed. -/
structure HasIdInvariant (s : State) : Prop where
  calls : ∀ call, HasId (s.calls call).phase
  minted : ∀ m ∈ s.minted, m.id.isSome = true

/-- In a new client no call is under way. -/
theorem HasIdInvariant.new : HasIdInvariant State.new where
  calls _ := trivial
  minted _ h := by cases h

/-- A step that mints nothing. -/
theorem HasIdInvariant.mono {s s' : State} {call : ℕ} {phase : Phase} (h : HasIdInvariant s)
    (hcalls : Moves s.calls s'.calls call phase) (hphase : HasId phase)
    (hminted : s'.minted = s.minted) : HasIdInvariant s' where
  calls c := by
    by_cases hself : c = call
    · rw [hself, hcalls.self]
      exact hphase
    · rw [hcalls.other c hself]
      exact h.calls c
  minted := hminted ▸ h.minted

/-- In the Crypto.com client every step keeps it that way. -/
theorem HasIdInvariant.step {secretOk : Bool} {s s' : State} {a : Action} (h : HasIdInvariant s)
    (heffect : Effect .cryptocom secretOk s a s') : HasIdInvariant s' := by
  cases heffect with
  | start _ hcalls => exact h.mono hcalls trivial rfl
  | nextId _ hcalls => exact h.mono hcalls rfl rfl
  | @readClock call _ _ _ _ hphase hcalls =>
    have hid := h.calls call
    rw [hphase] at hid
    exact h.mono hcalls hid rfl
  | @fetchMax call _ _ _ _ hphase hcalls =>
    have hid := h.calls call
    rw [hphase] at hid
    exact h.mono hcalls hid rfl
  | @fetchAdd call calls upfront id clock hphase hcalls =>
    -- the id of the new nonce is the one that its call held
    have hid := h.calls call
    rw [hphase] at hid
    refine ⟨fun c => ?_, fun m hm => ?_⟩
    · by_cases hself : c = call
      · subst hself
        simp only [hcalls.self]
        rcases afterSigning_cases .cryptocom secretOk upfront
          ⟨c, id, clock, Client.cryptocom.nonceOf s.nonceState⟩ with hafter | hafter | hafter
        · rw [hafter]
          trivial
        · rw [hafter]
          trivial
        · rw [hafter]
          trivial
      · simp only [hcalls.other c hself]
        exact h.calls c
    · rcases List.mem_append.mp hm with hold | hnew
      · exact h.minted m hold
      · obtain rfl := List.mem_singleton.mp hnew
        exact hid
  | send _ hcalls => exact h.mono hcalls trivial rfl
  | receive _ hphase' hcalls =>
    refine h.mono hcalls ?_ rfl
    rcases hphase' with rfl | rfl
    · trivial
    · trivial

/-! ## Every run -/

/-- What holds of a client in every state that it reaches. -/
structure SignedInvariant (s : State) : Prop where
  counter : CounterInvariant s
  ids : IdInvariant s
  sends : SendInvariant s

/-- A new client satisfies the invariant. -/
theorem SignedInvariant.new : SignedInvariant State.new where
  counter := CounterInvariant.new
  ids := IdInvariant.new
  sends := SendInvariant.new

/-- A step whose counter fits keeps the invariant. -/
theorem SignedInvariant.step {client : Client} {secretOk : Bool} {s s' : State} {a : Action}
    (h : SignedInvariant s) (hfits : CounterFits client s a)
    (hstep : SignedClients.step client secretOk s a = some s') : SignedInvariant s' where
  counter := h.counter.step hfits (step_effect hstep)
  ids := h.ids.step hfits (step_effect hstep)
  sends := h.sends.step h.counter hfits (step_effect hstep)

/-- In every run of any number of calls through the clones of one client whose steps leave the
    counters within their ranges, the nonces signed strictly increase in the order of the
    `fetch_add` steps and none is below the clock that its call read; the nonces sent, those of
    the attempts of one call among them, are distinct, and so are the ids of the Crypto.com
    requests. -/
theorem nonces_increase (client : Client) (secretOk : Bool) (actions : List Action) (s : State)
    (hrun : run (step client secretOk) State.new actions = some s)
    (hfits : StepsMeet (step client secretOk) (CounterFits client) State.new actions) :
    (s.minted.Pairwise fun m m' => m.nonce < m'.nonce) ∧
      (∀ m ∈ s.minted, m.clock.toInt ≤ m.nonce) ∧
      (∀ m ∈ s.sent, m ∈ s.minted) ∧
      (s.sent.Pairwise fun m m' => m.nonce ≠ m'.nonce) ∧
      (client = .cryptocom → (∀ m ∈ s.minted, m.id.isSome = true) ∧
        s.minted.Pairwise fun m m' => m.id ≠ m'.id) := by
  have h : SignedInvariant s := run_invariant_of_stepsMeet (step client secretOk)
    (fun _ _ _ h hfits hstep => h.step hfits hstep) hfits hrun .new
  refine ⟨h.counter.increasing, h.counter.clock, h.sends.sent_minted, h.sends.distinct, ?_⟩
  rintro rfl
  have hids : HasIdInvariant s := run_invariant (step .cryptocom secretOk)
    (fun _ _ _ h hstep => h.step (step_effect hstep)) hrun .new
  refine ⟨hids.minted, h.ids.distinct.imp_of_mem fun {m m'} hm _ hne heq => ?_⟩
  obtain ⟨id, hid⟩ := Option.isSome_iff_exists.mp (hids.minted m hm)
  exact hne id hid (heq ▸ hid)

/-! ## Runs whose counters stay within their ranges -/

/-- The action is a `fetch_add` of the nonce. -/
def TakesNonce : Action → Bool
  | .fetchAdd _ => true
  | _ => false

/-- The action is a `fetch_add` of the id. -/
def TakesId : Action → Bool
  | .nextId _ => true
  | _ => false

/-- Calls that are about to raise the counter read at most `top` from the clock. -/
def ReadsUpTo (top : ℕ) (s : State) : Prop :=
  ∀ call upfront id clock, (s.calls call).phase = .signing upfront (.fetchMax id clock) →
    (floorMs clock).toNat ≤ top

/-- The bound on the clock readings holds after a step whose reading is within it. -/
theorem ReadsUpTo.mono {top : ℕ} {s s' : State} {call : ℕ} {phase : Phase}
    (h : ReadsUpTo top s) (hcalls : Moves s.calls s'.calls call phase)
    (hphase : ∀ upfront id clock, phase = .signing upfront (.fetchMax id clock) →
      (floorMs clock).toNat ≤ top) : ReadsUpTo top s' := by
  intro c upfront id clock hc
  by_cases hself : c = call
  · subst hself
    exact hphase upfront id clock (hcalls.self.symm.trans hc)
  · rw [hcalls.other c hself] at hc
    exact h c upfront id clock hc

/-- The counters stay within their ranges when the clock readings and the number of nonces
    taken leave room, and so does the number of ids taken. -/
theorem counterFits_of_room {client : Client} {secretOk : Bool} {top : ℕ}
    (actions : List Action) (hclock : ∀ call clock, Action.readClock call clock ∈ actions →
      (floorMs clock).toNat ≤ top) {s : State} (hreads : ReadsUpTo top s)
    (hnonces : max s.nonceState.toNat top + actions.countP TakesNonce ≤ client.bound)
    (hids : s.nextId.toInt + actions.countP TakesId ≤ 2 ^ 63 - 1) :
    StepsMeet (step client secretOk) (CounterFits client) s actions := by
  induction actions generalizing s with
  | nil => trivial
  | cons a actions ih =>
    rw [List.countP_cons] at hnonces hids
    have hclock' : ∀ call clock, Action.readClock call clock ∈ actions →
        (floorMs clock).toNat ≤ top := fun call clock hmem =>
      hclock call clock (List.mem_cons_of_mem _ hmem)
    -- an action that takes a value finds one of the places that its count leaves
    have hfits : CounterFits client s a := by
      cases a with
      | fetchAdd call =>
        simp only [TakesNonce, if_true] at hnonces
        simp only [CounterFits]
        omega
      | nextId call =>
        simp only [TakesId, if_true] at hids
        simp only [CounterFits]
        omega
      | _ => trivial
    refine ⟨hfits, fun t hstep => ?_⟩
    have heffect := step_effect hstep
    cases heffect with
    | start _ hcalls =>
      refine ih hclock' (hreads.mono hcalls fun upfront id clock hp => ?_) hnonces hids
      injection hp with _ hnext
      exact absurd hnext (client.firstStep_ne_fetchMax id clock)
    | nextId _ hcalls =>
      refine ih hclock' (hreads.mono hcalls fun _ _ _ hp => by cases hp) hnonces ?_
      simp only [TakesId, if_true] at hids
      simp only [Int64.toInt_add_one_of_lt hfits]
      omega
    | @readClock call _ clock _ _ _ hcalls =>
      refine ih hclock' (hreads.mono hcalls fun _ _ _ hp => ?_) hnonces hids
      cases hp
      exact hclock call clock List.mem_cons_self
    -- the counter is raised to `top` at most, which the hypothesis has room for
    | @fetchMax call _ upfront id clock hphase hcalls =>
      refine ih hclock' (hreads.mono hcalls fun _ _ _ hp => by cases hp) ?_ hids
      have hraise := hreads call upfront id clock hphase
      simp only [TakesNonce, Bool.false_eq_true, if_false] at hnonces
      rw [UInt64.toNat_max]
      omega
    | @fetchAdd call _ upfront id clock hphase hcalls =>
      refine ih hclock' (hreads.mono hcalls fun _ _ _ hp => ?_) ?_ hids
      · exact absurd hp (afterSigning_ne (client.firstStep_ne_fetchMax _ _))
      -- the counter goes up by one, and one value fewer is left to take
      · simp only [TakesNonce, if_true] at hnonces
        simp only [Client.toNat_add_one hfits]
        omega
    | send _ hcalls =>
      exact ih hclock' (hreads.mono hcalls fun _ _ _ hp => by cases hp) hnonces hids
    | receive _ hphase' hcalls =>
      refine ih hclock' (hreads.mono hcalls fun _ _ _ hp => ?_) hnonces hids
      rcases hphase' with rfl | rfl
      · injection hp with _ hnext
        exact absurd hnext (client.firstStep_ne_fetchMax _ _)
      · cases hp

/-- In a run of a new client it is enough that the largest reading and the number of nonces
    taken add up to at most the bound. -/
theorem counterFits_of_readings {client : Client} {secretOk : Bool} (top : ℕ)
    (actions : List Action)
    (hclock : ∀ call clock, Action.readClock call clock ∈ actions → clock.toInt ≤ top)
    (hnonces : top + actions.countP TakesNonce ≤ client.bound)
    (hids : actions.countP TakesId < 2 ^ 63 - 1) :
    StepsMeet (step client secretOk) (CounterFits client) State.new actions := by
  refine counterFits_of_room actions (fun call clock hmem => floorMs_le (hclock call clock hmem))
    (fun _ _ _ _ h => by cases h) ?_ ?_
  · rw [show State.new.nonceState.toNat = 0 from rfl, Nat.zero_max]
    exact hnonces
  · rw [show State.new.nextId.toInt = 1 from rfl]
    omega

/-! ### A run whose clock goes back -/

/-- A call signs up front at 1000 ms, then its attempt at 990 ms. -/
def rewoundRun : List Action :=
  [.start 0, .readClock 0 1000, .fetchMax 0, .fetchAdd 0, .readClock 0 990, .fetchMax 0,
    .fetchAdd 0, .send 0]

/-- The clock is rewound between two calls, and the nonces still increase. -/
theorem nonces_increase_rewoundRun :
    ∃ s, run (step .kraken true) State.new rewoundRun = some s ∧
      s.minted.map Signed.nonce = [1000, 1001] ∧
      s.minted.Pairwise fun m m' => m.nonce < m'.nonce := by
  have hfits : StepsMeet (step .kraken true) (CounterFits .kraken) State.new rewoundRun := by
    refine counterFits_of_readings 1000 _ (fun call clock hmem => ?_) (by decide) (by decide)
    simp only [rewoundRun, List.mem_cons, List.not_mem_nil, Action.readClock.injEq, reduceCtorEq,
      or_false, false_or] at hmem
    rcases hmem with ⟨_, rfl⟩ | ⟨_, rfl⟩
    · decide
    · decide
  exact ⟨_, rfl, rfl, (nonces_increase .kraken true rewoundRun _ rfl hfits).1⟩

/-! ### A clock at the end of its range -/

/-- A Crypto.com call whose readings are one below `i64::MAX`: the signing up front and the
    two attempts take three values from the counter. -/
def saturatedRun : List Action :=
  let signing : List Action :=
    [.nextId 0, .readClock 0 (Int64.maxValue - 1), .fetchMax 0, .fetchAdd 0]
  .start 0 :: signing ++ signing ++ [.send 0, .receive 0 .networkError] ++ signing ++ [.send 0]

/-- The third value does not fit an `i64`, so the retry carries the nonce of the attempt before
    it. -/
theorem not_nonces_distinct :
    ¬ ∀ (client : Client) (secretOk : Bool) (actions : List Action) (s : State),
      (∀ call clock, Action.readClock call clock ∈ actions → clock < Int64.maxValue) →
      run (step client secretOk) State.new actions = some s →
      s.sent.Pairwise fun m m' => m.nonce ≠ m'.nonce := by
  intro h
  have hrun : ∃ s, run (step .cryptocom true) State.new saturatedRun = some s ∧
      s.sent.map Signed.nonce = [2 ^ 63 - 1, 2 ^ 63 - 1] := ⟨_, rfl, rfl⟩
  obtain ⟨s, hs, hsent⟩ := hrun
  have hdistinct := h .cryptocom true saturatedRun s ?_ hs
  · rw [← List.pairwise_map (f := Signed.nonce) (R := (· ≠ ·)), hsent] at hdistinct
    simp at hdistinct
  · intro call clock hmem
    simp only [saturatedRun, List.cons_append, List.nil_append, List.mem_cons, List.not_mem_nil,
      Action.readClock.injEq, reduceCtorEq, or_false, false_or] at hmem
    rcases hmem with ⟨_, rfl⟩ | ⟨_, rfl⟩ | ⟨_, rfl⟩
    · decide
    · decide
    · decide

end ExchangeApiws.Spec
