import Mathlib.Data.List.Basic
import Mathlib.Order.Lattice

/-!
# Tree-map lemmas for the standard library

The smallest and the largest entry of a tree map are the ends of its list of entries. Over a
linear order the list is strictly increasing.

## Key results

- `minEntry?_eq_head?_toList`, `maxEntry?_eq_getLast?_toList`: the ends of the list
- `pairwise_toList_lt`: the list is strictly increasing
-/

namespace Std.DTreeMap.Internal.Impl

variable {α β : Type*}

/-- The least entry of a tree comes first in its list. -/
theorem minEntry?_eq_head?_toList (t : Impl α fun _ => β) :
    Const.minEntry? t = (Const.toList t).head? := by
  rw [Const.toList_eq_toListModel_map]
  induction t with
  | leaf => rw [Const.minEntry?, toListModel_leaf, List.map_nil, List.head?_nil]
  | inner size k v l r ihl ihr =>
    cases l with
    | leaf =>
      rw [Const.minEntry?, toListModel_inner, toListModel_leaf, List.nil_append, List.map_cons,
        List.head?_cons]
    | inner size' k' v' l' r' =>
      -- the left subtree is not empty, so the head of the list is in it
      rw [Const.minEntry?, ihl, toListModel_inner (r := r), List.map_append,
        List.head?_append_of_ne_nil]
      simp

/-- The greatest entry of a tree comes last in its list. -/
theorem maxEntry?_eq_getLast?_toList (t : Impl α fun _ => β) :
    Const.maxEntry? t = (Const.toList t).getLast? := by
  rw [Const.toList_eq_toListModel_map]
  induction t with
  | leaf => rw [Const.maxEntry?, toListModel_leaf, List.map_nil, List.getLast?_nil]
  | inner size k v l r ihl ihr =>
    cases r with
    | leaf =>
      rw [Const.maxEntry?, toListModel_inner, toListModel_leaf, List.map_append, List.map_cons,
        List.map_nil, List.getLast?_concat]
    | inner size' k' v' l' r' =>
      rw [Const.maxEntry?, ihr, toListModel_inner (l := l), List.append_cons, List.map_append,
        List.getLast?_append_of_ne_nil]
      simp

end Std.DTreeMap.Internal.Impl

namespace Std.ExtTreeMap

variable {α β : Type*}

section

variable {cmp : α → α → Ordering} [TransCmp cmp]

/-- The smallest entry comes first. -/
theorem minEntry?_eq_head?_toList (t : ExtTreeMap α β cmp) :
    t.minEntry? = t.toList.head? := by
  unfold minEntry? toList ExtDTreeMap.Const.minEntry? ExtDTreeMap.Const.toList
  exact t.inner.inductionOn fun m => DTreeMap.Internal.Impl.minEntry?_eq_head?_toList m.inner

/-- The largest entry comes last. -/
theorem maxEntry?_eq_getLast?_toList (t : ExtTreeMap α β cmp) :
    t.maxEntry? = t.toList.getLast? := by
  unfold maxEntry? toList ExtDTreeMap.Const.maxEntry? ExtDTreeMap.Const.toList
  exact t.inner.inductionOn fun m => DTreeMap.Internal.Impl.maxEntry?_eq_getLast?_toList m.inner

end

/-- The keys of the entries increase. -/
theorem pairwise_toList_lt [LinearOrder α] [TransCmp (compare : α → α → Ordering)]
    (t : ExtTreeMap α β compare) : t.toList.Pairwise fun a b => a.1 < b.1 :=
  t.ordered_keys_toList.imp compare_lt_iff_lt.mp

end Std.ExtTreeMap
