import Mathlib

/-!
# Sorting by a key

Sorting a list by a key of its entries. Where no two entries have the same key, the sorted list
does not depend on the order of the list.

## Key results

- `pairwise_sortBy_lt`: distinct keys come out strictly ascending
- `sortBy_eq_of_perm`: two orders of a list with distinct keys sort alike
- `map_sortBy`: sorting commutes with a map that keeps the keys
-/

namespace KeySort

variable {α β κ : Type*} [LinearOrder κ]

/-- The list in ascending order of the keys. -/
def sortBy (key : α → κ) (l : List α) : List α := l.mergeSort fun a b => decide (key a ≤ key b)

/-- Sorting only reorders. -/
theorem sortBy_perm (key : α → κ) (l : List α) : (sortBy key l).Perm l := List.mergeSort_perm l _

/-- A sorted list is in the order of its keys. -/
theorem pairwise_sortBy_le (key : α → κ) (l : List α) :
    (sortBy key l).Pairwise fun a b => key a ≤ key b := by
  have htrans : ∀ a b c : α, decide (key a ≤ key b) = true → decide (key b ≤ key c) = true →
      decide (key a ≤ key c) = true := by
    intro a b c hab hbc
    exact decide_eq_true (le_trans (of_decide_eq_true hab) (of_decide_eq_true hbc))
  have htotal : ∀ a b : α, (decide (key a ≤ key b) || decide (key b ≤ key a)) = true := by
    intro a b
    rw [Bool.or_eq_true, decide_eq_true_eq, decide_eq_true_eq]
    exact le_total _ _
  exact (List.pairwise_mergeSort htrans htotal l).imp of_decide_eq_true

variable {key : α → κ} {l m : List α}

/-- Where the keys are distinct, a sorted list is in the strict order of its keys. -/
theorem pairwise_sortBy_lt (h : (l.map key).Nodup) :
    (sortBy key l).Pairwise fun a b => key a < key b := by
  have hnodup : ((sortBy key l).map key).Nodup := ((sortBy_perm key l).map key).nodup_iff.mpr h
  have hne : (sortBy key l).Pairwise fun a b => key a ≠ key b := List.pairwise_map.mp hnodup
  exact (pairwise_sortBy_le key l).imp₂ (fun _ _ hle hne => lt_of_le_of_ne hle hne) hne

/-- Entries with the same key are the same entry, so the order of the keys is antisymmetric. -/
theorem sortBy_eq_of_perm (h : (l.map key).Nodup) (hperm : l.Perm m) :
    sortBy key l = sortBy key m := by
  have hsorted : (sortBy key l).Perm (sortBy key m) :=
    (sortBy_perm key l).trans (hperm.trans (sortBy_perm key m).symm)
  refine List.Perm.eq_of_pairwise (fun a b ha hb hab hba => ?_) (pairwise_sortBy_le key l)
    (pairwise_sortBy_le key m) hsorted
  have ha' : a ∈ l := (sortBy_perm key l).mem_iff.mp ha
  have hb' : b ∈ l := hperm.mem_iff.mpr ((sortBy_perm key m).mem_iff.mp hb)
  exact List.inj_on_of_nodup_map h ha' hb' (le_antisymm hab hba)

/-- Sorting commutes with a map that keeps the keys. -/
theorem map_sortBy {key' : β → κ} {f : α → β} (hf : ∀ a, key' (f a) = key a) (l : List α) :
    (sortBy key l).map f = sortBy key' (l.map f) := by
  refine List.map_mergeSort fun a _ b _ => ?_
  rw [hf, hf]

end KeySort
