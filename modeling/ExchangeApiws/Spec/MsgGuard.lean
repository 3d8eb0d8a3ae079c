import ExchangeApiws.ForStd.SlidingWindow
import ExchangeApiws.ForStd.TransitionSystem
import ExchangeApiws.Native.MsgGuard

/-!
# The quota of the rate-limit guard

`WsMsgGuard` limits a connection to 100 messages in 10 seconds. We follow every send time
that a sequence of checks has recorded, on a clock that never goes back and whose readings
may repeat. The guard keeps what may still count, and a check sleeps until the oldest message
it keeps is exactly 10 seconds old. A message of exactly that age is not dropped, though, so
the guard can come to keep more than 100, and then it no longer looks at the message that
decides.

## Key results

- `check_spaced_iff`: when one check keeps the quota
- `now_eq_of_not_room`: the only clock reading at which a check breaks it
- `check_quota_iff`: the quota holds throughout a sequence of checks exactly when every check
  has room
-/

namespace ExchangeApiws.Spec

open Native.MsgGuard Native.Runner TransitionSystem

/-! ## Sequences of checks -/

/-- The guard of a connection, the clock, and all that has been recorded. -/
structure GuardState where
  clock : ℕ
  guard : WsMsgGuard
  /-- Every send time so far, the oldest first. -/
  sends : List ℕ
  deriving DecidableEq, Repr

def GuardState.start (clock : ℕ) : GuardState := ⟨clock, .new, []⟩

/-- A check; `none` when the clock cannot yield its readings. -/
def guardStep (s : GuardState) (call : Check) : Option GuardState :=
  if s.clock ≤ call.now then
    (s.guard.check call).map fun guard => ⟨call.sent, guard, s.sends ++ [call.sent]⟩
  else none

/-- At most 100 recorded send times in every half-open window of 10 seconds. -/
def GuardState.WithinQuota (s : GuardState) : Prop :=
  ∀ a, s.sends.countWindow (· + nanos 10) a ≤ 100

/-- The messages that a check keeps: those no older than 10 seconds at its first reading. -/
def GuardState.kept (s : GuardState) (call : Check) : List ℕ := (s.guard.prune call.now).window

/-- A check has room when it keeps at most 100 messages, or when the 100th last of those it
    keeps has left the window by its second reading. -/
def GuardState.Room (s : GuardState) (call : Check) : Prop :=
  (s.kept call).length ≤ 100 ∨
    ∀ t, (s.kept call)[(s.kept call).length - 100]? = some t → t + nanos 10 ≤ call.sent

/-- A check is made at its time and sends once it has waited, and the guard records the send. -/
theorem guardStep_eq_some {s s' : GuardState} {call : Check} :
    guardStep s call = some s' ↔
      s.clock ≤ call.now ∧
      call.now + (s.guard.prune call.now).wait call.now ≤ call.sent ∧
      s' = ⟨call.sent, (s.guard.prune call.now).push call.sent, s.sends ++ [call.sent]⟩ := by
  unfold guardStep WsMsgGuard.check
  by_cases hnow : s.clock ≤ call.now
  · by_cases hsent : call.now + (s.guard.prune call.now).wait call.now ≤ call.sent
    · simp [hnow, hsent, eq_comm]
    · simp [hnow, hsent]
  · simp [hnow]

/-! ## What the guard keeps -/

/-- The guard holds the newest send times, and what it no longer holds is out of the window. -/
structure GuardState.Tracks (s : GuardState) : Prop where
  maxMsgs : s.guard.maxMsgs = 100
  windowDur : s.guard.windowDur = nanos 10
  sorted : s.sends.Pairwise (· ≤ ·)
  past : ∀ t ∈ s.sends, t ≤ s.clock
  dropped : ∃ old, s.sends = old ++ s.guard.window ∧ ∀ t ∈ old, t + nanos 10 < s.clock

/-- A new guard tracks its sends. -/
theorem tracks_start (clock : ℕ) : (GuardState.start clock).Tracks where
  maxMsgs := rfl
  windowDur := rfl
  sorted := .nil
  past := by simp [GuardState.start]
  dropped := ⟨[], by simp [GuardState.start, WsMsgGuard.new]⟩

/-- Pruning drops a stretch of messages that are older than the window. -/
theorem window_eq_append_prune (guard : WsMsgGuard) (now : ℕ) :
    ∃ old, guard.window = old ++ (guard.prune now).window ∧
      ∀ t ∈ old, t + guard.windowDur < now := by
  refine ⟨guard.window.takeWhile fun t => guard.windowDur < now - t, ?_, ?_⟩
  · rw [WsMsgGuard.prune, List.takeWhile_append_dropWhile]
  · intro t ht
    have hold := List.mem_takeWhile_imp ht
    rw [decide_eq_true_eq] at hold
    omega

/-- What a check keeps is the end of all send times; the rest is out of the window. -/
theorem GuardState.Tracks.sends_eq {s : GuardState} (h : s.Tracks) {call : Check}
    (hnow : s.clock ≤ call.now) :
    ∃ old, s.sends = old ++ s.kept call ∧ ∀ t ∈ old, t + nanos 10 < call.now := by
  obtain ⟨old, hsends, hold⟩ := h.dropped
  obtain ⟨pruned, hwindow, hpruned⟩ := window_eq_append_prune s.guard call.now
  refine ⟨old ++ pruned, ?_, ?_⟩
  · rw [hsends, hwindow, List.append_assoc]
    rfl
  · intro t ht
    rcases List.mem_append.mp ht with ht | ht
    · have hlt := hold t ht
      omega
    · have hlt := hpruned t ht
      rw [h.windowDur] at hlt
      exact hlt

/-- A check keeps the guard in step with the sends. -/
theorem GuardState.Tracks.step {s s' : GuardState} {call : Check} (h : s.Tracks)
    (hstep : guardStep s call = some s') : s'.Tracks := by
  obtain ⟨hnow, hsent, rfl⟩ := guardStep_eq_some.mp hstep
  obtain ⟨old, hsends, hold⟩ := h.sends_eq hnow
  have hclock : s.clock ≤ call.sent := by omega
  constructor
  · exact h.maxMsgs
  · exact h.windowDur
  · rw [List.pairwise_append]
    refine ⟨h.sorted, List.pairwise_singleton _ _, fun t ht u hu => ?_⟩
    obtain rfl := List.mem_singleton.mp hu
    exact (h.past t ht).trans hclock
  · intro t ht
    rcases List.mem_append.mp ht with ht | ht
    · exact (h.past t ht).trans hclock
    · exact (List.mem_singleton.mp ht).le
  · refine ⟨old, ?_, fun t ht => ?_⟩
    · rw [hsends, List.append_assoc]
      rfl
    · have hlt := hold t ht
      show t + nanos 10 < call.sent
      omega

/-! ## One check -/

/-- The sleep of a full guard lasts until its oldest message is 10 seconds old. -/
theorem oldest_le_of_wait {guard : WsMsgGuard} {now sent oldest : ℕ} {rest : List ℕ}
    (hfull : guard.maxMsgs ≤ guard.window.length) (hwindow : guard.window = oldest :: rest)
    (hsent : now + guard.wait now ≤ sent) (holdest : oldest ≤ now) :
    oldest + guard.windowDur ≤ sent := by
  rw [WsMsgGuard.wait, if_pos hfull, hwindow] at hsent
  dsimp only at hsent
  omega

/-- A check keeps the send times spaced exactly when it has room. -/
theorem check_spaced_iff {s s' : GuardState} {call : Check} (h : s.Tracks)
    (hspaced : s.sends.SpacedBy (· + nanos 10) 100) (hstep : guardStep s call = some s') :
    s'.sends.SpacedBy (· + nanos 10) 100 ↔ s.Room call := by
  obtain ⟨hnow, hsent, rfl⟩ := guardStep_eq_some.mp hstep
  obtain ⟨old, hsends, hold⟩ := h.sends_eq hnow
  have hlength : s.sends.length = old.length + (s.kept call).length := by
    rw [hsends, List.length_append]
  rw [List.spacedBy_concat (by decide), and_iff_right hspaced]
  rcases Nat.lt_trichotomy (s.kept call).length 100 with hlt | heq | hgt
  · -- the 100th last message has been dropped
    refine iff_of_true (fun i t hi ht => ?_) (.inl (by omega))
    rw [hsends, List.getElem?_append_left (by omega)] at ht
    have hlate := hold t (List.mem_of_getElem? ht)
    omega
  · -- it is the oldest one kept, and the sleep waits for it
    refine iff_of_true (fun i t hi ht => ?_) (.inl (by omega))
    rw [hsends, List.getElem?_append_right (by omega)] at ht
    have hpast : t ≤ call.now := by
      have hmem : t ∈ s.sends := by
        rw [hsends]
        exact List.mem_append_right _ (List.mem_of_getElem? ht)
      exact (h.past t hmem).trans hnow
    have hzero : i - old.length = 0 := by omega
    rw [hzero] at ht
    cases hkept : s.kept call with
    | nil => simp [hkept] at ht
    | cons oldest rest =>
      rw [hkept, List.getElem?_cons_zero, Option.some.injEq] at ht
      subst ht
      have hfull : (s.guard.prune call.now).maxMsgs ≤
          (s.guard.prune call.now).window.length := by
        show s.guard.maxMsgs ≤ (s.kept call).length
        rw [h.maxMsgs, heq]
      have hle := oldest_le_of_wait hfull hkept hsent hpast
      rw [show (s.guard.prune call.now).windowDur = nanos 10 from h.windowDur] at hle
      exact hle
  · -- it is not the oldest one kept, and nothing waits for it
    have hindex : ∀ t, s.sends[s.sends.length - 100]? = some t ↔
        (s.kept call)[(s.kept call).length - 100]? = some t := by
      intro t
      rw [hlength, hsends, List.getElem?_append_right (by omega)]
      rw [show old.length + (s.kept call).length - 100 - old.length =
        (s.kept call).length - 100 by omega]
    constructor
    · intro hspace
      refine .inr fun t ht => ?_
      exact hspace (s.sends.length - 100) t (by omega) ((hindex t).mpr ht)
    · intro hroom i t hi ht
      rcases hroom with hle | hroom
      · omega
      · refine hroom t ((hindex t).mp ?_)
        rw [show s.sends.length - 100 = i by omega]
        exact ht

/-- A check without room reads the clock when the oldest message it keeps is exactly 10
    seconds old. -/
theorem now_eq_of_not_room {s : GuardState} {call : Check} (h : s.Tracks)
    (hspaced : s.sends.SpacedBy (· + nanos 10) 100) (hnow : s.clock ≤ call.now)
    (hroom : ¬s.Room call) : ∃ oldest ∈ (s.kept call).head?, call.now = oldest + nanos 10 := by
  obtain ⟨old, hsends, -⟩ := h.sends_eq hnow
  have hlength : 100 < (s.kept call).length := by
    by_contra hle
    exact hroom (.inl (by omega))
  obtain ⟨oldest, rest, hkept⟩ :=
    List.exists_cons_of_length_pos (by omega : 0 < (s.kept call).length)
  obtain ⟨late, hlate⟩ : ∃ late, (s.kept call)[100]? = some late :=
    ⟨_, List.getElem?_eq_getElem hlength⟩
  -- the one 100 places later is no longer in its window, and has been sent
  have hend : oldest + nanos 10 ≤ late := by
    refine hspaced old.length oldest late ?_ ?_
    · rw [hsends, List.getElem?_append_right le_rfl, hkept, Nat.sub_self, List.getElem?_cons_zero]
    · rw [hsends, List.getElem?_append_right (by omega), Nat.add_sub_cancel_left]
      exact hlate
  have hsent : late ≤ s.clock := by
    refine h.past late ?_
    rw [hsends]
    exact List.mem_append_right _ (List.mem_of_getElem? hlate)
  -- the oldest one has not been pruned
  have hnew : call.now ≤ oldest + nanos 10 := by
    have hprune := List.head?_dropWhile_not
      (fun t => decide (s.guard.windowDur < call.now - t)) s.guard.window
    rw [show s.guard.window.dropWhile (fun t => decide (s.guard.windowDur < call.now - t)) =
      oldest :: rest from hkept, h.windowDur] at hprune
    simp only [List.head?_cons, decide_eq_false_iff_not] at hprune
    omega
  exact ⟨oldest, by simp [hkept], by omega⟩

/-! ## Runs -/

/-- The quota is met exactly if sends that are a quota apart are a window apart. -/
theorem GuardState.Tracks.withinQuota_iff {s : GuardState} (h : s.Tracks) :
    s.WithinQuota ↔ s.sends.SpacedBy (· + nanos 10) 100 :=
  List.countWindow_le_iff_spacedBy (fun _ _ hle => Nat.add_le_add_right hle _) h.sorted

/-- The quota holds after every check of a sequence exactly when every check has room. -/
theorem check_quota_iff {clock : ℕ} {calls : List Check} {s : GuardState}
    (hrun : run guardStep (.start clock) calls = some s) :
    Throughout guardStep GuardState.WithinQuota (.start clock) calls ↔
      StepsMeet guardStep GuardState.Room (.start clock) calls := by
  refine throughout_iff_stepsMeet guardStep
    (I := fun s => s.Tracks ∧ s.sends.SpacedBy (· + nanos 10) 100) ?_ ?_ ?_ hrun ?_
  · intro s h
    exact h.1.withinQuota_iff.mpr h.2
  · intro s call s' h hroom hstep
    exact ⟨h.1.step hstep, (check_spaced_iff h.1 h.2 hstep).mpr hroom⟩
  · intro s call s' h hroom hstep hquota
    exact hroom ((check_spaced_iff h.1 h.2 hstep).mp
      ((h.1.step hstep).withinQuota_iff.mp hquota))
  · exact ⟨tracks_start clock, List.spacedBy_nil⟩

/-- Three checks, the last one after a pause. -/
theorem check_quota_paused :
    ∃ s, run guardStep (.start 5) [⟨5, 5⟩, ⟨5, 9⟩, ⟨nanos 10 + 6, nanos 10 + 6⟩] = some s ∧
      (Throughout guardStep GuardState.WithinQuota (.start 5)
          [⟨5, 5⟩, ⟨5, 9⟩, ⟨nanos 10 + 6, nanos 10 + 6⟩] ↔
        StepsMeet guardStep GuardState.Room (.start 5)
          [⟨5, 5⟩, ⟨5, 9⟩, ⟨nanos 10 + 6, nanos 10 + 6⟩]) :=
  ⟨⟨nanos 10 + 6, ⟨[9, nanos 10 + 6], 100, nanos 10⟩, [5, 9, nanos 10 + 6]⟩, by decide,
    check_quota_iff (s := ⟨nanos 10 + 6, ⟨[9, nanos 10 + 6], 100, nanos 10⟩,
      [5, 9, nanos 10 + 6]⟩) (by decide)⟩

/-- One message at 0 and 99 just after it; the guard then lets two more go when the first is
    exactly 10 seconds old, and the second of these is one too many for the other 99. -/
theorem check_quota_exceeded :
    ¬ ∀ clock calls s, run guardStep (.start clock) calls = some s → s.WithinQuota := by
  intro h
  have hrun : ((run guardStep (.start 0)
      (⟨0, 0⟩ :: List.replicate 99 ⟨1, 1⟩ ++ List.replicate 2 ⟨nanos 10, nanos 10⟩)).map
        fun s => s.sends.countWindow (· + nanos 10) 1) = some 101 := by
    decide +kernel
  obtain ⟨s, hs, hcount⟩ := Option.map_eq_some_iff.mp hrun
  have hle := h 0 _ s hs 1
  omega

end ExchangeApiws.Spec
