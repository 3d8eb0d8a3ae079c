import Mathlib.Data.List.Basic
import Mathlib.Tactic.Common

/-!
# Interleavings of two lists

`Interleaves xs ys zs` says that `zs` is made of `xs` and `ys`, each in its own order. The
constructors add entries at the end, so that an interleaving grows with a log.

## Key results

- `Interleaves.length`: nothing is lost or added
- `Interleaves.sublist_left`: the first list keeps its order
- `Interleaves.eq_left`: nothing is added by an empty list
-/

namespace List

variable {α : Type*}

/-- The third list is made of the first two, each in its own order. -/
inductive Interleaves : List α → List α → List α → Prop
  | nil : Interleaves [] [] []
  | left {xs ys zs : List α} (a : α) : Interleaves xs ys zs →
      Interleaves (xs ++ [a]) ys (zs ++ [a])
  | right {xs ys zs : List α} (a : α) : Interleaves xs ys zs →
      Interleaves xs (ys ++ [a]) (zs ++ [a])

namespace Interleaves

variable {xs ys zs : List α}

/-- Nothing is lost or added. -/
theorem length (h : Interleaves xs ys zs) : zs.length = xs.length + ys.length := by
  induction h with
  | nil => rfl
  | left a _ ih =>
    rw [length_append, length_append, ih, length_singleton]
    omega
  | right a _ ih =>
    rw [length_append, length_append, ih, length_singleton]
    omega

/-- The first list keeps its order in the interleaving. -/
theorem sublist_left (h : Interleaves xs ys zs) : xs <+ zs := by
  induction h with
  | nil => exact Sublist.refl _
  | left a _ ih => exact ih.append (Sublist.refl _)
  | right a _ ih => exact ih.trans (sublist_append_left _ _)

/-- A list interleaved with nothing is itself. -/
theorem eq_left (h : Interleaves xs ys zs) (hys : ys = []) : zs = xs := by
  have hlen := h.length
  rw [hys, length_nil, Nat.add_zero] at hlen
  exact (h.sublist_left.eq_of_length hlen.symm).symm

end Interleaves

end List
