import Mathlib.Logic.Function.Basic
import Mathlib.Data.Nat.Init
import Mathlib.Tactic.Common

/-!
# Logs of absolute writes

A log numbers its writes `0, 1, 2, …`. Each write assigns absolute values to finitely
many keys (`none` removes the key), so writing the same value again changes nothing.
The file proves the two facts a replica of such a log rests on:

* `assign_eq_after_of_snapshot`: the rows of a full snapshot rebuild the state it was
  taken from;
* `assign_after_of_merge`: rows that carry the values after write `l` of every key
  touched by the writes `f … l` bring any state that is not behind `f - 1` to the state
  after `l`, also when some of these writes are already in it.

For a stream without numbers, `Continues` says what a snapshot or a merge does to the position
of its reader.
-/

namespace AbsoluteLog

variable {K V : Type*} [DecidableEq K]

/-- Assign the rows of a list in order, a later row over an earlier one. -/
def assign (m : K → Option V) (rows : List (K × Option V)) : K → Option V :=
  rows.foldl (fun m row => Function.update m row.1 row.2) m

@[simp] theorem assign_nil (m : K → Option V) : assign m [] = m := rfl

/-- The first row is assigned first, so later rows of its key win. -/
theorem assign_cons (m : K → Option V) (row : K × Option V) (rows : List (K × Option V)) :
    assign m (row :: rows) = assign (Function.update m row.1 row.2) rows := rfl

/-- Rows are assigned in order. -/
theorem assign_append (m : K → Option V) (xs ys : List (K × Option V)) :
    assign m (xs ++ ys) = assign (assign m xs) ys := by
  simp only [assign, List.foldl_append]

/-- A key without a row keeps its value. -/
theorem assign_of_not_mem (m : K → Option V) (rows : List (K × Option V)) {k : K}
    (hk : k ∉ rows.map Prod.fst) : assign m rows k = m k := by
  induction rows generalizing m with
  | nil => rfl
  | cons row rows ih =>
    simp only [List.map_cons, List.mem_cons, not_or] at hk
    rw [assign_cons, ih _ hk.2, Function.update_of_ne hk.1]

/-- A key whose rows all carry `v` ends with the value `v`. -/
theorem assign_of_mem (m : K → Option V) (rows : List (K × Option V)) {k : K} {v : Option V}
    (hk : k ∈ rows.map Prod.fst) (hv : ∀ row ∈ rows, row.1 = k → row.2 = v) :
    assign m rows k = v := by
  induction rows generalizing m with
  | nil => simp at hk
  | cons row rows ih =>
    rw [assign_cons]
    by_cases hrest : k ∈ rows.map Prod.fst
    · exact ih _ hrest fun r hr => hv r (List.mem_cons_of_mem _ hr)
    · -- the first row is the last one for `k`
      have hrow : row.1 = k := by
        simp only [List.map_cons, List.mem_cons] at hk
        exact (hk.resolve_right hrest).symm
      rw [assign_of_not_mem _ _ hrest, ← hrow, Function.update_self]
      exact hv row List.mem_cons_self hrow

end AbsoluteLog

/-- A log of absolute writes: write number `n` assigns the rows `writes n`. -/
structure AbsoluteLog (K V : Type*) where
  writes : ℕ → List (K × Option V)

namespace AbsoluteLog

variable {K V : Type*} [DecidableEq K] (log : AbsoluteLog K V)

/-- The state after write `n`, that is after the writes `0, …, n`. -/
def after : ℕ → K → Option V
  | 0 => assign (fun _ => none) (log.writes 0)
  | n + 1 => assign (after n) (log.writes (n + 1))

/-- Some write with a number in `f … l` assigns `k`. -/
def Touches (f l : ℕ) (k : K) : Prop :=
  ∃ n, f ≤ n ∧ n ≤ l ∧ k ∈ (log.writes n).map Prod.fst

/-- The rows are a full snapshot of the state after write `s`: each carries the value of
    its key there, and every key that has a value there has a row. -/
structure IsSnapshot (s : ℕ) (rows : List (K × Option V)) : Prop where
  value : ∀ row ∈ rows, row.2 = log.after s row.1
  complete : ∀ k, log.after s k ≠ none → k ∈ rows.map Prod.fst

/-- The rows merge the writes `f … l`: each carries the value of its key after `l`, and
    every key that one of these writes assigns has a row. -/
structure IsMerge (f l : ℕ) (rows : List (K × Option V)) : Prop where
  value : ∀ row ∈ rows, row.2 = log.after l row.1
  complete : ∀ k, log.Touches f l k → k ∈ rows.map Prod.fst

/-- A key that no write in `u + 1 … l` assigns has the same value after `l` as after `u`. -/
theorem after_eq_of_not_touches {u l : ℕ} {k : K} (hul : u ≤ l)
    (hk : ¬ log.Touches (u + 1) l k) : log.after l k = log.after u k := by
  induction l, hul using Nat.le_induction with
  | base => rfl
  | succ l hul ih =>
    have hlast : k ∉ (log.writes (l + 1)).map Prod.fst := fun hmem =>
      hk ⟨l + 1, by omega, Nat.le_refl _, hmem⟩
    have hbefore : ¬ log.Touches (u + 1) l k := fun ⟨n, hn, hnl, hmem⟩ =>
      hk ⟨n, hn, by omega, hmem⟩
    calc log.after (l + 1) k = log.after l k := assign_of_not_mem _ _ hlast
      _ = log.after u k := ih hbefore

/-- The rows of a full snapshot, assigned to the empty state, give the state it shows. -/
theorem assign_eq_after_of_snapshot {s : ℕ} {rows : List (K × Option V)}
    (h : log.IsSnapshot s rows) : assign (fun _ => none) rows = log.after s := by
  funext k
  by_cases hk : k ∈ rows.map Prod.fst
  · exact assign_of_mem _ _ hk fun row hrow hkey => hkey ▸ h.value row hrow
  · rw [assign_of_not_mem _ _ hk]
    by_contra hne
    exact hk (h.complete k fun hnone => hne hnone.symm)

/-- Replaying the merge of the writes `f … l` over the state after `u` gives the state
    after `l`, for every `u` with `f ≤ u + 1` and `u ≤ l`: the writes `f … u` that are
    applied a second time do no harm, since the rows are absolute. -/
theorem assign_after_of_merge {f l u : ℕ} {rows : List (K × Option V)}
    (h : log.IsMerge f l rows) (hfu : f ≤ u + 1) (hul : u ≤ l) :
    assign (log.after u) rows = log.after l := by
  funext k
  by_cases hk : k ∈ rows.map Prod.fst
  · exact assign_of_mem _ _ hk fun row hrow hkey => hkey ▸ h.value row hrow
  · have huntouched : ¬ log.Touches (u + 1) l k := fun ⟨n, hn, hnl, hmem⟩ =>
      hk (h.complete k ⟨n, by omega, hnl, hmem⟩)
    rw [assign_of_not_mem _ _ hk, log.after_eq_of_not_touches hul huntouched]

/-! ## Reports without numbers -/

/-- Only the set of the rows matters for a snapshot. -/
theorem IsSnapshot.congr {s : ℕ} {rows rows' : List (K × Option V)}
    (hrows : ∀ row, row ∈ rows' ↔ row ∈ rows) (h : log.IsSnapshot s rows) :
    log.IsSnapshot s rows' where
  value := fun row hrow => h.value row ((hrows row).mp hrow)
  complete := by
    intro k hk
    obtain ⟨row, hrow, hkey⟩ := List.mem_map.mp (h.complete k hk)
    exact List.mem_map.mpr ⟨row, (hrows row).mpr hrow, hkey⟩

/-- Only the set of the rows matters for a merge. -/
theorem IsMerge.congr {f l : ℕ} {rows rows' : List (K × Option V)}
    (hrows : ∀ row, row ∈ rows' ↔ row ∈ rows) (h : log.IsMerge f l rows) :
    log.IsMerge f l rows' where
  value := fun row hrow => h.value row ((hrows row).mp hrow)
  complete := by
    intro k hk
    obtain ⟨row, hrow, hkey⟩ := List.mem_map.mp (h.complete k hk)
    exact List.mem_map.mpr ⟨row, (hrows row).mpr hrow, hkey⟩

/-- The rows take a reader that has read up to write `prev` (none: nothing yet) to write `n`:
    they are a full snapshot there, or the merge of all the writes after `prev`. -/
inductive Continues (prev : Option ℕ) : Bool → List (K × Option V) → ℕ → Prop
  | snapshot {rows : List (K × Option V)} {n : ℕ} :
      log.IsSnapshot n rows → Continues prev true rows n
  | merge {rows : List (K × Option V)} {u n : ℕ} :
      prev = some u → u ≤ n → log.IsMerge (u + 1) n rows → Continues prev false rows n

end AbsoluteLog
