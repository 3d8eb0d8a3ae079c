import Mathlib.Order.Lattice
import Mathlib.Tactic.Common

/-!
# Sliding windows over a sorted list

A window begins at any point `a` and ends before `f a`, for a monotone `f` such as
`(· + 10)`. A sorted list has at most `k` entries in every window exactly when any two
entries `k` places apart do not share one, a condition that appending checks at one place.

## Key results

- `countWindow_le_iff_spacedBy`: at most `k` entries in every window, as spacing
- `spacedBy_concat`: appending an entry looks at the entry `k` places before it
-/

namespace List

variable {α : Type*} [LinearOrder α] {f : α → α} {k : ℕ} {l : List α}

/-- The number of entries in the window that begins at `a`. -/
def countWindow (f : α → α) (a : α) (l : List α) : ℕ :=
  l.countP fun t => decide (a ≤ t ∧ t < f a)

/-- Entries `k` places apart do not share a window. -/
def SpacedBy (f : α → α) (k : ℕ) (l : List α) : Prop :=
  ∀ i s t, l[i]? = some s → l[i + k]? = some t → f s ≤ t

/-- No times are spaced. -/
theorem spacedBy_nil : SpacedBy f k ([] : List α) := by
  intro i s t hs
  simp at hs

/-- The times after the first are spaced as all are. -/
theorem SpacedBy.tail {x : α} (h : SpacedBy f k (x :: l)) : SpacedBy f k l := by
  intro i s t hs ht
  refine h (i + 1) s t ?_ ?_
  · simpa using hs
  · simpa [Nat.add_right_comm i 1 k] using ht

/-- Appending an entry looks at the entry `k` places before it. -/
theorem spacedBy_concat (hk : 0 < k) {x : α} :
    SpacedBy f k (l ++ [x]) ↔
      SpacedBy f k l ∧ ∀ i s, i + k = l.length → l[i]? = some s → f s ≤ x := by
  constructor
  · intro h
    refine ⟨fun i s t hs ht => ?_, fun i s hi hs => ?_⟩
    · have hit : i + k < l.length := (getElem?_eq_some_iff.mp ht).1
      refine h i s t ?_ ?_
      · rwa [getElem?_append_left (by omega)]
      · rwa [getElem?_append_left hit]
    · refine h i s x ?_ ?_
      · rwa [getElem?_append_left (by omega)]
      · rw [hi, getElem?_concat_length]
  · intro h i s t hs ht
    have hle : i + k < (l ++ [x]).length := (getElem?_eq_some_iff.mp ht).1
    rw [length_append, length_singleton] at hle
    rw [getElem?_append_left (by omega)] at hs
    by_cases hit : i + k < l.length
    · rw [getElem?_append_left hit] at ht
      exact h.1 i s t hs ht
    · have hend : i + k = l.length := by omega
      rw [hend, getElem?_concat_length, Option.some.injEq] at ht
      exact ht ▸ h.2 i s hend hs

/-- A sorted list that is spaced has at most `k` entries in every window. -/
theorem SpacedBy.countWindow_le (hf : Monotone f) (h : SpacedBy f k l)
    (hl : l.Pairwise (· ≤ ·)) (a : α) : countWindow f a l ≤ k := by
  induction l with
  | nil => simp [countWindow]
  | cons x l ih =>
    by_cases hx : a ≤ x ∧ x < f a
    · -- from the `k`th entry on all are past the end of the window
      have hlate : countP (fun t => decide (a ≤ t ∧ t < f a)) ((x :: l).drop k) = 0 := by
        rw [countP_eq_zero]
        intro t ht
        obtain ⟨j, hj⟩ := mem_iff_getElem?.mp ht
        rw [getElem?_drop] at hj
        have hlen : k + j < (x :: l).length := (getElem?_eq_some_iff.mp hj).1
        have hkth : (x :: l)[0 + k]? = some (x :: l)[k] := by
          rw [Nat.zero_add, getElem?_eq_getElem]
        have hspaced : f x ≤ (x :: l)[k] := h 0 x _ rfl hkth
        have hsorted : (x :: l)[k] ≤ t := by
          obtain ⟨hlt, rfl⟩ := getElem?_eq_some_iff.mp hj
          rcases Nat.eq_zero_or_pos j with rfl | hpos
          · exact le_rfl
          · exact pairwise_iff_getElem.mp hl k (k + j) _ hlt (by omega)
        have hend : f a ≤ t := (hf hx.1).trans (hspaced.trans hsorted)
        simp [hend]
      rw [countWindow, ← take_append_drop k (x :: l), countP_append, hlate, Nat.add_zero]
      exact Nat.le_trans countP_le_length (length_take_le k _)
    · rw [countWindow, countP_cons_of_neg (by simpa using hx)]
      exact ih h.tail (pairwise_cons.mp hl).2

/-- Two entries `k` places apart in one window have `k + 1` entries in it. -/
theorem spacedBy_of_countWindow_le (h : ∀ a, countWindow f a l ≤ k)
    (hl : l.Pairwise (· ≤ ·)) : SpacedBy f k l := by
  intro i s t hs ht
  by_contra hlt
  have hlen : i + k < l.length := (getElem?_eq_some_iff.mp ht).1
  obtain ⟨_, rfl⟩ := getElem?_eq_some_iff.mp hs
  obtain ⟨_, rfl⟩ := getElem?_eq_some_iff.mp ht
  -- all entries from `i` to `i + k` are in the window that begins at the first of them
  have hall : ∀ u ∈ (l.drop i).take (k + 1), decide (l[i] ≤ u ∧ u < f l[i]) = true := by
    intro u hu
    obtain ⟨j, hj, rfl⟩ := mem_iff_getElem.mp hu
    rw [length_take, length_drop] at hj
    rw [getElem_take, getElem_drop, decide_eq_true_eq]
    constructor
    · rcases Nat.eq_zero_or_pos j with rfl | hpos
      · exact le_rfl
      · exact pairwise_iff_getElem.mp hl i (i + j) _ _ (by omega)
    · refine lt_of_le_of_lt ?_ (not_le.mp hlt)
      rcases Nat.lt_or_ge j k with hjk | hjk
      · exact pairwise_iff_getElem.mp hl (i + j) (i + k) _ _ (by omega)
      · obtain rfl : j = k := by omega
        exact le_rfl
  have hcount : k + 1 ≤ countWindow f l[i] l := by
    have hsub : ((l.drop i).take (k + 1)).Sublist l := (take_sublist _ _).trans (drop_sublist _ _)
    calc k + 1 = ((l.drop i).take (k + 1)).length := by rw [length_take, length_drop]; omega
      _ = countP (fun u => decide (l[i] ≤ u ∧ u < f l[i])) ((l.drop i).take (k + 1)) :=
        (countP_eq_length.mpr hall).symm
      _ ≤ countWindow f l[i] l := hsub.countP_le
  exact absurd (h l[i]) (by omega)

/-- A sorted list has at most `k` entries in every window exactly when it is spaced. -/
theorem countWindow_le_iff_spacedBy (hf : Monotone f) (hl : l.Pairwise (· ≤ ·)) :
    (∀ a, countWindow f a l ≤ k) ↔ SpacedBy f k l := by
  constructor
  · intro h
    exact spacedBy_of_countWindow_le h hl
  · intro h a
    exact h.countWindow_le hf hl a

end List
