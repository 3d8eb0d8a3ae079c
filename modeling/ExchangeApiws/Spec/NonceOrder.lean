import ExchangeApiws.Spec.Nonce

/-!
# The order in which nonces reach Kraken

Kraken accepts a request only if its nonce is greater than every nonce it has received. The
atomic counter orders the minting of nonces; signing, building and sending the request come
after it and outside any lock. A request is rejected when another one that was minted after
it has overtaken it on the way to the wire.

## Key results

- `OrderInvariant.step`: sends in the order of the nonces keep all requests acceptable
- `held_is_sent`: a request that is built leaves its call only by being sent
- `noneRejected_iff_sends_in_order`: when no request is rejected for its nonce
-/

namespace ExchangeApiws.Spec

open TransitionSystem Native Native.SignedClients

/-- Every request has a nonce greater than those of the requests received before it. -/
def NoneRejected (received : List Signed) : Prop :=
  received.Pairwise fun m m' => m.nonce < m'.nonce

/-- The step sends no request while another call is about to send one with a smaller nonce. -/
def SendsInOrder (s : State) : Action → Prop
  | .send call => ∀ m, (s.calls call).phase = .signed m →
    ∀ call' m', call' ≠ call → (s.calls call').phase = .signed m' → m.nonce < m'.nonce
  | _ => True

/-- The requests sent are acceptable, and those about to be sent are above them. -/
structure OrderInvariant (s : State) : Prop where
  accepted : NoneRejected s.sent
  above : ∀ m ∈ s.sent, ∀ call m', (s.calls call).phase = .signed m' → m.nonce < m'.nonce

/-- A new client has sent nothing out of order. -/
theorem OrderInvariant.new : OrderInvariant State.new where
  accepted := List.Pairwise.nil
  above _ h := by cases h

/-- A step that sends nothing and builds no request. -/
theorem OrderInvariant.mono {s s' : State} {call : ℕ} {phase : Phase} (h : OrderInvariant s)
    (hcalls : Moves s.calls s'.calls call phase) (hphase : ∀ m, phase ≠ .signed m)
    (hsent : s'.sent = s.sent) : OrderInvariant s' where
  accepted := hsent ▸ h.accepted
  above m hm c m' hc := by
    rw [hsent] at hm
    by_cases hself : c = call
    · subst hself
      exact absurd (hcalls.self.symm.trans hc) (hphase m')
    · rw [hcalls.other c hself] at hc
      exact h.above m hm c m' hc

/-- A step that sends in order keeps the requests acceptable. -/
theorem OrderInvariant.step {client : Client} {secretOk : Bool} {s s' : State} {a : Action}
    (h : OrderInvariant s) (hsigned : SignedInvariant s) (hfits : CounterFits client s a)
    (horder : SendsInOrder s a) (heffect : Effect client secretOk s a s') :
    OrderInvariant s' := by
  cases heffect with
  | start _ hcalls => exact h.mono hcalls (fun _ hp => by cases hp) rfl
  | nextId _ hcalls => exact h.mono hcalls (fun _ hp => by cases hp) rfl
  | readClock _ hcalls => exact h.mono hcalls (fun _ hp => by cases hp) rfl
  | fetchMax _ hcalls => exact h.mono hcalls (fun _ hp => by cases hp) rfl
  | @fetchAdd call calls upfront id clock hphase hcalls =>
    refine ⟨h.accepted, fun m hm c m' hc => ?_⟩
    -- the new nonce is above all that were minted, and those were sent are among them
    by_cases hself : c = call
    · subst hself
      have hm' : m' = ⟨c, id, clock, client.nonceOf s.nonceState⟩ :=
        eq_of_afterSigning (hcalls.self.symm.trans hc)
      rw [hm', Client.nonceOf_of_lt hfits]
      exact hsigned.counter.below m (hsigned.sends.sent_minted m hm)
    · simp only [hcalls.other c hself] at hc
      exact h.above m hm c m' hc
  | @send call calls request hphase hcalls =>
    refine ⟨?_, fun m hm c m' hc => ?_⟩
    · refine List.pairwise_append.mpr ⟨h.accepted, List.pairwise_singleton _ _, ?_⟩
      intro m hm m' hm'
      obtain rfl := List.mem_singleton.mp hm'
      exact h.above m hm call m' hphase
    · have hne : c ≠ call := by
        rintro rfl
        rw [hcalls.self] at hc
        cases hc
      simp only [hcalls.other c hne] at hc
      rcases List.mem_append.mp hm with hold | hnew
      · exact h.above m hold c m' hc
      · obtain rfl := List.mem_singleton.mp hnew
        exact horder m hphase c m' hne hc
  | receive _ hphase' hcalls =>
    refine h.mono hcalls (fun _ hp => ?_) rfl
    rcases hphase' with rfl | rfl
    · cases hp
    · cases hp

/-! ## What a call holds is sent -/

/-- A step sends something or leaves the wire alone. -/
theorem sent_prefix_step {client : Client} {secretOk : Bool} {s s' : State} {a : Action}
    (heffect : Effect client secretOk s a s') : s.sent <+: s'.sent := by
  cases heffect with
  | send _ _ => exact List.prefix_append _ _
  | _ => exact List.prefix_rfl

/-- What has been sent stays sent, in order. -/
theorem sent_prefix_run {client : Client} {secretOk : Bool} {s s' : State}
    {actions : List Action} (hrun : run (step client secretOk) s actions = some s') :
    s.sent <+: s'.sent :=
  run_invariant (step client secretOk) (I := fun t => s.sent <+: t.sent)
    (fun _ _ _ h hstep => h.trans (sent_prefix_step (step_effect hstep))) hrun List.prefix_rfl

/-- A call that is about to send still is after a step, or has sent with it. -/
theorem held_step {client : Client} {secretOk : Bool} {s s' : State} {a : Action} {call : ℕ}
    {m : Signed} (hheld : (s.calls call).phase = .signed m)
    (heffect : Effect client secretOk s a s') :
    (s'.calls call).phase = .signed m ∨ s'.sent = s.sent ++ [m] := by
  cases heffect with
  | @send c _ request hphase hcalls =>
    by_cases hself : call = c
    · subst hself
      rw [hheld] at hphase
      injection hphase with hm
      exact Or.inr (by rw [hm])
    · left
      simp only [hcalls.other call hself]
      exact hheld
  | start hphase hcalls => exact Or.inl (hcalls.held hheld (by simp [hphase]))
  | nextId hphase hcalls => exact Or.inl (hcalls.held hheld (by simp [hphase]))
  | readClock hphase hcalls => exact Or.inl (hcalls.held hheld (by simp [hphase]))
  | fetchMax hphase hcalls => exact Or.inl (hcalls.held hheld (by simp [hphase]))
  | fetchAdd hphase hcalls => exact Or.inl (hcalls.held hheld (by simp [hphase]))
  | receive hphase _ hcalls => exact Or.inl (hcalls.held hheld (by simp [hphase]))

/-- In a run at whose end no call is about to send, a request that a call holds on the way is
    sent later. -/
theorem held_is_sent {client : Client} {secretOk : Bool} {s s' : State} {actions : List Action}
    (hrun : run (step client secretOk) s actions = some s') {call : ℕ} {m : Signed}
    (hheld : (s.calls call).phase = .signed m)
    (hdone : ∀ call m, (s'.calls call).phase ≠ .signed m) :
    ∃ later, s'.sent = s.sent ++ later ∧ m ∈ later := by
  induction actions generalizing s with
  | nil =>
    obtain rfl := Option.some.inj hrun
    exact absurd hheld (hdone call m)
  | cons a actions ih =>
    obtain ⟨t, ht, hrest⟩ := (run_cons_eq_some _).mp hrun
    -- either the call still holds the request after the first step, or that step sends it
    rcases held_step hheld (step_effect ht) with hheld' | hsent
    · obtain ⟨later, hlater, hmem⟩ := ih hrest hheld'
      obtain ⟨now, hnow⟩ := sent_prefix_step (step_effect ht)
      exact ⟨now ++ later, by rw [hlater, ← hnow, List.append_assoc],
        List.mem_append_right _ hmem⟩
    · -- it is sent with this step
      obtain ⟨later, hlater⟩ := sent_prefix_run hrest
      exact ⟨m :: later, by rw [← hlater, hsent, List.append_assoc, List.singleton_append],
        List.mem_cons_self⟩

/-! ## When no request is rejected -/

/-- If a request overtakes one with a smaller nonce that is sent later, the latter is rejected. -/
theorem sendsInOrder_of_noneRejected {client : Client} {secretOk : Bool} {s t s' : State}
    {a : Action} {actions : List Action} (hstep : step client secretOk s a = some t)
    (hrun : run (step client secretOk) t actions = some s')
    (hdone : ∀ call m, (s'.calls call).phase ≠ .signed m) (haccepted : NoneRejected s'.sent) :
    SendsInOrder s a := by
  cases a with
  | send call =>
    intro m hm call' m' hne hm'
    have heffect := step_effect hstep
    -- this step sends `m`; the call with the smaller nonce still holds `m'` after it
    have hsent : t.sent = s.sent ++ [m] := by
      cases heffect with
      | send hphase _ =>
        rw [hm] at hphase
        injection hphase with heq
        rw [heq]
    have hheld : (t.calls call').phase = .signed m' := by
      cases heffect with
      | send _ hcalls =>
        simp only [hcalls.other call' hne]
        exact hm'
    -- so `m'` arrives after `m`, and is not rejected only if its nonce is greater
    obtain ⟨later, hlater, hmem⟩ := held_is_sent hrun hheld hdone
    rw [NoneRejected, hlater, hsent, List.pairwise_append] at haccepted
    exact haccepted.2.2 m (List.mem_append_right _ (List.mem_singleton_self _)) m' hmem
  | _ => trivial

/-- If no request was rejected and none is still to be sent, every send was in order. -/
theorem stepsMeet_sendsInOrder {client : Client} {secretOk : Bool} {s s' : State}
    {actions : List Action} (hrun : run (step client secretOk) s actions = some s')
    (hdone : ∀ call m, (s'.calls call).phase ≠ .signed m) (haccepted : NoneRejected s'.sent) :
    StepsMeet (step client secretOk) SendsInOrder s actions := by
  induction actions generalizing s with
  | nil => trivial
  | cons a actions ih =>
    obtain ⟨t, ht, hrest⟩ := (run_cons_eq_some _).mp hrun
    exact StepsMeet.cons _ (sendsInOrder_of_noneRejected ht hrest hdone haccepted) ht (ih hrest)

/-- In every run of any number of calls through clones of one client whose counter does not
    wrap: if every send finds no other call about to send a smaller nonce, no request is
    rejected for its nonce; and if no request is rejected in a run that leaves no call about to
    send, every send found it so. -/
theorem noneRejected_iff_sends_in_order (secretOk : Bool) (actions : List Action) (s : State)
    (hrun : run (step .kraken secretOk) State.new actions = some s)
    (hfits : StepsMeet (step .kraken secretOk) (CounterFits .kraken) State.new actions) :
    (StepsMeet (step .kraken secretOk) SendsInOrder State.new actions → NoneRejected s.sent) ∧
      ((∀ call m, (s.calls call).phase ≠ .signed m) → NoneRejected s.sent →
        StepsMeet (step .kraken secretOk) SendsInOrder State.new actions) := by
  refine ⟨fun horder => ?_, fun hdone haccepted => stepsMeet_sendsInOrder hrun hdone haccepted⟩
  have h : SignedInvariant s ∧ OrderInvariant s :=
    run_invariant_of_stepsMeet (step .kraken secretOk)
      (I := fun s => SignedInvariant s ∧ OrderInvariant s)
      (fun _ _ _ h hok hstep =>
        ⟨h.1.step hok.1 hstep, h.2.step h.1 hok.1 hok.2 (step_effect hstep)⟩)
      (hfits.and _ horder) hrun ⟨.new, .new⟩
  exact h.2.accepted

/-! ### Two clones that race -/

/-- The steps of one signing, at 1000 ms. -/
def signing (call : ℕ) : List Action := [.readClock call 1000, .fetchMax call, .fetchAdd call]

/-- Two calls one after the other: each sends what it has signed. -/
def orderedRun : List Action :=
  .start 0 :: signing 0 ++ signing 0 ++ [.send 0, .start 1] ++ signing 1 ++ signing 1 ++ [.send 1]

/-- Two calls send in the order of their nonces, and none is rejected. -/
theorem noneRejected_iff_sends_in_order_orderedRun :
    ∃ s, run (step .kraken true) State.new orderedRun = some s ∧
      s.sent.map Signed.nonce = [1001, 1003] ∧
      StepsMeet (step .kraken true) SendsInOrder State.new orderedRun := by
  have hfits : StepsMeet (step .kraken true) (CounterFits .kraken) State.new orderedRun := by
    refine counterFits_of_readings 1000 _ (fun call clock hmem => ?_) (by decide) (by decide)
    simp only [orderedRun, signing, List.cons_append, List.nil_append, List.mem_cons,
      List.not_mem_nil, Action.readClock.injEq, reduceCtorEq, or_false, false_or] at hmem
    rcases hmem with ⟨_, rfl⟩ | ⟨_, rfl⟩ | ⟨_, rfl⟩ | ⟨_, rfl⟩
    · decide
    · decide
    · decide
    · decide
  have hrun : ∃ s, run (step .kraken true) State.new orderedRun = some s ∧
      s.sent.map Signed.nonce = [1001, 1003] ∧ ∀ call m, (s.calls call).phase ≠ .signed m := by
    -- calls 0 and 1 are in flight, and no other call has started
    refine ⟨_, rfl, rfl, fun call m h => ?_⟩
    rcases call with _ | _ | n
    · cases h
    · cases h
    · cases h
  obtain ⟨s, hs, hsent, hdone⟩ := hrun
  refine ⟨s, hs, hsent, (noneRejected_iff_sends_in_order true orderedRun s hs hfits).2 hdone ?_⟩
  rw [NoneRejected, ← List.pairwise_map (f := Signed.nonce) (R := (· < ·)), hsent]
  simp

/-- Call 1 mints its nonce after call 0 and sends it first. -/
def racingRun : List Action :=
  [.start 0, .start 1] ++ signing 0 ++ signing 1 ++ signing 0 ++ signing 1 ++ [.send 1, .send 0]

/-- The request of call 0 is rejected. -/
theorem not_always_noneRejected :
    ¬ ∀ (secretOk : Bool) (actions : List Action) (s : State),
      run (step .kraken secretOk) State.new actions = some s → NoneRejected s.sent := by
  intro h
  have hrun : ∃ s, run (step .kraken true) State.new racingRun = some s ∧
      s.sent.map Signed.nonce = [1003, 1002] := ⟨_, rfl, rfl⟩
  obtain ⟨s, hs, hsent⟩ := hrun
  have haccepted := h true racingRun s hs
  rw [NoneRejected, ← List.pairwise_map (f := Signed.nonce) (R := (· < ·)), hsent] at haccepted
  simp at haccepted

end ExchangeApiws.Spec
