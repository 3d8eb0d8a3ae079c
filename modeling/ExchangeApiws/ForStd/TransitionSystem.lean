import Mathlib.Data.ENat.Lattice
import Mathlib.Data.Option.Basic
import Mathlib.Tactic.Common

/-!
# Runs of a labelled transition system

A system is a partial step function `step : S → A → Option S`: `step s a = none` says
that action `a` is not enabled in `s`. The file gives runs over a list of actions,
reachable states, and the rules by which a fact about one step becomes a fact about a
whole run: the invariant rule, the invariant rule for runs whose steps all meet a
condition, the end of every run and the bound on its length that a decreasing measure
gives, and the invariant rule for what a run puts out.
-/

namespace TransitionSystem

variable {S A : Type*} (step : S → A → Option S)

/-- Run the actions of a list in order; `none` when one of them is not enabled. -/
def run : S → List A → Option S
  | s, [] => some s
  | s, a :: as => (step s a).bind (run · as)

@[simp] theorem run_nil (s : S) : run step s [] = some s := rfl

/-- A run takes its first action and goes on from there. -/
theorem run_cons (s : S) (a : A) (as : List A) :
    run step s (a :: as) = (step s a).bind (run step · as) := rfl

/-- A run of `a :: as` is a step to some state, then a run of `as` from there. -/
theorem run_cons_eq_some {s s' : S} {a : A} {as : List A} :
    run step s (a :: as) = some s' ↔ ∃ t, step s a = some t ∧ run step t as = some s' := by
  rw [run_cons, Option.bind_eq_some_iff]

/-- A run of `as ++ bs` is a run of `as` followed by a run of `bs`. -/
theorem run_append (s : S) (as bs : List A) :
    run step s (as ++ bs) = (run step s as).bind (run step · bs) := by
  induction as generalizing s with
  | nil => rfl
  | cons a as ih =>
    simp only [List.cons_append, run_cons, Option.bind_assoc]
    congr 1
    funext t
    exact ih t

/-- `s'` is reached from `s` by some list of actions. -/
def Reaches (s s' : S) : Prop := ∃ as, run step s as = some s'

/-- A state is reached from itself. -/
theorem Reaches.refl (s : S) : Reaches step s s := ⟨[], rfl⟩

/-- What is reached from a reached state is reached. -/
theorem Reaches.trans {s t u : S} (h₁ : Reaches step s t) (h₂ : Reaches step t u) :
    Reaches step s u := by
  obtain ⟨as, has⟩ := h₁
  obtain ⟨bs, hbs⟩ := h₂
  exact ⟨as ++ bs, by rw [run_append, has]; exact hbs⟩

/-- The invariant rule: what every step preserves, every run preserves. -/
theorem run_invariant {I : S → Prop}
    (hstep : ∀ s a s', I s → step s a = some s' → I s')
    {s s' : S} {as : List A} (hrun : run step s as = some s') (hs : I s) : I s' := by
  induction as generalizing s with
  | nil =>
    simp only [run_nil, Option.some.injEq] at hrun
    exact hrun ▸ hs
  | cons a as ih =>
    obtain ⟨t, ht, hrest⟩ := (run_cons_eq_some step).mp hrun
    exact ih hrest (hstep s a t hs ht)

/-- The invariant rule for reached states. -/
theorem Reaches.invariant {I : S → Prop}
    (hstep : ∀ s a s', I s → step s a = some s' → I s')
    {s s' : S} (h : Reaches step s s') (hs : I s) : I s' := by
  obtain ⟨as, hrun⟩ := h
  exact run_invariant step hstep hrun hs

/-- Every step of the run from `s` meets `ok`, a condition on the state before the step
    and on the action. -/
def StepsMeet (ok : S → A → Prop) : S → List A → Prop
  | _, [] => True
  | s, a :: as => ok s a ∧ ∀ t, step s a = some t → StepsMeet ok t as

@[simp] theorem stepsMeet_nil (ok : S → A → Prop) (s : S) : StepsMeet step ok s [] := trivial

/-- One more step in front that meets the condition. -/
theorem StepsMeet.cons {ok : S → A → Prop} {s t : S} {a : A} {as : List A} (hok : ok s a)
    (hstep : step s a = some t) (h : StepsMeet step ok t as) : StepsMeet step ok s (a :: as) :=
  ⟨hok, fun u hu => by rw [hstep] at hu; cases hu; exact h⟩

/-- Steps that meet two conditions meet both at once. -/
theorem StepsMeet.and {ok ok' : S → A → Prop} {s : S} {as : List A}
    (h : StepsMeet step ok s as) (h' : StepsMeet step ok' s as) :
    StepsMeet step (fun s a => ok s a ∧ ok' s a) s as := by
  induction as generalizing s with
  | nil => trivial
  | cons a as ih => exact ⟨⟨h.1, h'.1⟩, fun t ht => ih (h.2 t ht) (h'.2 t ht)⟩

/-- A condition that every step of a run meets, read at each place where the run splits. -/
theorem stepsMeet_iff_forall_split {ok : S → A → Prop} {s : S} {as : List A} :
    StepsMeet step ok s as ↔
      ∀ before a rest t, as = before ++ a :: rest → run step s before = some t → ok t a := by
  induction as generalizing s with
  | nil => simp
  | cons b as ih =>
    constructor
    · intro h before a rest t hsplit hrun
      cases before with
      | nil =>
        obtain ⟨rfl, -⟩ := List.cons_eq_cons.mp hsplit
        rw [run_nil, Option.some.injEq] at hrun
        exact hrun ▸ h.1
      | cons b' before =>
        obtain ⟨rfl, htail⟩ := List.cons_eq_cons.mp hsplit
        obtain ⟨u, hu, hrest⟩ := (run_cons_eq_some step).mp hrun
        exact ih.mp (h.2 u hu) before a rest t htail hrest
    · intro h
      refine ⟨h [] b as s rfl rfl, fun u hu => ih.mpr ?_⟩
      intro before a rest t hsplit hrun
      refine h (b :: before) a rest t ?_ ?_
      · rw [hsplit, List.cons_append]
      · exact (run_cons_eq_some step).mpr ⟨u, hu, hrun⟩

/-- The invariant rule for runs whose steps all meet a condition. -/
theorem run_invariant_of_stepsMeet {ok : S → A → Prop} {I : S → Prop}
    (hstep : ∀ s a s', I s → ok s a → step s a = some s' → I s')
    {s s' : S} {as : List A} (hok : StepsMeet step ok s as)
    (hrun : run step s as = some s') (hs : I s) : I s' := by
  induction as generalizing s with
  | nil =>
    simp only [run_nil, Option.some.injEq] at hrun
    exact hrun ▸ hs
  | cons a as ih =>
    obtain ⟨t, ht, hrest⟩ := (run_cons_eq_some step).mp hrun
    exact ih (hok.2 t ht) hrest (hstep s a t hs hok.1 ht)

/-- `good` holds in every state that the run from `s` goes through, `s` included. -/
def Throughout (good : S → Prop) : S → List A → Prop
  | s, [] => good s
  | s, a :: as => good s ∧ ∀ t, step s a = some t → Throughout good t as

/-- What holds throughout a run holds where it begins. -/
theorem Throughout.first {good : S → Prop} {s : S} {as : List A}
    (h : Throughout step good s as) : good s := by
  cases as with
  | nil => exact h
  | cons a as => exact h.1

/-- A condition is exact when the steps that meet it keep `I`, which implies `good`, and those
    that do not lead to a state that is not good: then `good` holds throughout a run if and
    only if every step of the run meets the condition. -/
theorem throughout_iff_stepsMeet {ok : S → A → Prop} {I good : S → Prop}
    (hgood : ∀ s, I s → good s)
    (hstep : ∀ s a s', I s → ok s a → step s a = some s' → I s')
    (hbad : ∀ s a s', I s → ¬ ok s a → step s a = some s' → ¬ good s')
    {s s' : S} {as : List A} (hrun : run step s as = some s') (hs : I s) :
    Throughout step good s as ↔ StepsMeet step ok s as := by
  induction as generalizing s with
  | nil => exact iff_of_true (hgood s hs) trivial
  | cons a as ih =>
    obtain ⟨t, ht, hrest⟩ := (run_cons_eq_some step).mp hrun
    constructor
    · intro h
      have hthrough : Throughout step good t as := h.2 t ht
      have hok : ok s a := by
        by_contra hnot
        exact hbad s a t hs hnot ht hthrough.first
      exact StepsMeet.cons step hok ht ((ih hrest (hstep s a t hs hok ht)).mp hthrough)
    · intro h
      refine ⟨hgood s hs, fun u hu => ?_⟩
      obtain rfl : t = u := Option.some.inj (ht.symm.trans hu)
      exact (ih hrest (hstep s a t hs h.1 ht)).mpr (h.2 t ht)

/-- A step that meets the condition leads from `s` to `s'`. -/
def Next (ok : S → A → Prop) (s' s : S) : Prop := ∃ a, ok s a ∧ step s a = some s'

/-- The measure rule: if every step that meets the condition keeps `I` and decreases `μ`, a run
    whose steps all meet it is no longer than the decrease of `μ`. -/
theorem run_measure_of_stepsMeet {ok : S → A → Prop} {I : S → Prop} {μ : S → ℕ∞}
    (hstep : ∀ s a s', I s → ok s a → step s a = some s' → I s' ∧ μ s' < μ s)
    {s s' : S} {as : List A} (hok : StepsMeet step ok s as)
    (hrun : run step s as = some s') (hs : I s) : I s' ∧ as.length + μ s' ≤ μ s := by
  induction as generalizing s with
  | nil =>
    simp only [run_nil, Option.some.injEq] at hrun
    rw [← hrun]
    exact ⟨hs, by simp⟩
  | cons a as ih =>
    obtain ⟨t, ht, hrest⟩ := (run_cons_eq_some step).mp hrun
    -- the first step costs at least one, the rest what the induction gives
    obtain ⟨hI, hlt⟩ := hstep s a t hs hok.1 ht
    obtain ⟨hI', hle⟩ := ih (hok.2 t ht) hrest hI
    refine ⟨hI', ?_⟩
    calc ((a :: as).length : ℕ∞) + μ s' = as.length + μ s' + 1 := by
          rw [List.length_cons, Nat.cast_add, Nat.cast_one, add_right_comm]
      _ ≤ μ t + 1 := by gcongr
      _ ≤ μ s := Order.add_one_le_of_lt hlt

/-- A measure that every step decreases also rules out a run that goes on for ever, even where
    it bounds the length of none. -/
theorem acc_next_of_measure {W : Type*} [Preorder W] [WellFoundedLT W] {ok : S → A → Prop}
    {I : S → Prop} {μ : S → W}
    (hstep : ∀ s a s', I s → ok s a → step s a = some s' → I s' ∧ μ s' < μ s)
    {s : S} (hs : I s) : Acc (Next step ok) s := by
  -- induction on the measure, with the invariant carried along
  induction hm : μ s using WellFoundedLT.induction generalizing s with
  | ind m ih =>
    refine Acc.intro s fun t hnext => ?_
    obtain ⟨a, hok, ht⟩ := hnext
    obtain ⟨hI, hlt⟩ := hstep s a t hs hok ht
    exact ih (μ t) (hm ▸ hlt) hI rfl

/-! ## What a run puts out -/

variable {E : Type*}

/-- What the steps of a run put out, in order; `emit` reads a step off the state before it, its
    action and the state after it. -/
def emitted (emit : S → A → S → List E) : S → List A → List E
  | _, [] => []
  | s, a :: as =>
    match step s a with
    | none => []
    | some t => emit s a t ++ emitted emit t as

@[simp] theorem emitted_nil (emit : S → A → S → List E) (s : S) : emitted step emit s [] = [] := rfl

/-- What a step puts out comes before what the rest of the run puts out. -/
theorem emitted_cons {emit : S → A → S → List E} {s t : S} {a : A} (as : List A)
    (h : step s a = some t) :
    emitted step emit s (a :: as) = emit s a t ++ emitted step emit t as := by
  simp only [emitted, h]

/-- The invariant rule for a state together with what was put out on the way to it. -/
theorem emitted_invariant (emit : S → A → S → List E) {I : S → List E → Prop}
    (hstep : ∀ s a s' log, I s log → step s a = some s' → I s' (log ++ emit s a s'))
    {s s' : S} {as : List A} {log : List E} (hrun : run step s as = some s') (hs : I s log) :
    I s' (log ++ emitted step emit s as) := by
  induction as generalizing s log with
  | nil =>
    simp only [run_nil, Option.some.injEq] at hrun
    rw [emitted_nil, List.append_nil]
    exact hrun ▸ hs
  | cons a as ih =>
    obtain ⟨t, ht, hrest⟩ := (run_cons_eq_some step).mp hrun
    rw [emitted_cons step as ht, ← List.append_assoc]
    exact ih hrest (hstep s a t log hs ht)

end TransitionSystem
