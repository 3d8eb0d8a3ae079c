import ExchangeApiws.ForStd.ExtTreeMap
import ExchangeApiws.Spec.BookExport

/-!
# What a reader sees of a book

A side of a book is read through its best level, its top levels and its depth. Whatever the
messages, these are views of one list, strictly ordered from the best price on, and the two
best levels decide whether the book is crossed.

## Key results

- `SideView.of_list`: the views of a strictly ordered list
- `SideView.best_better`: no stored price is better than that of the best level
- `SideView.crossed_iff`: the best levels of two sides decide about all pairs of levels
- `reachable_views`: the views of every reachable book
-/

namespace ExchangeApiws.Spec

open Native

variable {P Q : Type*}

/-! ## Views of one side -/

/-- The readings of one side of a book: its top levels, its depth and its best level show what
    is stored, from the best price on. -/
structure SideView [BEq Q] [Zero Q] (better : P → P → Prop) (stored : P → Option Q)
    (top : ℕ → List (P × Q)) (depth : ℕ) (best : Option (P × Q)) : Prop where
  nonzero : ∀ p q, stored p = some q → (q == 0) = false
  stored_iff : ∀ p q, stored p = some q ↔ (p, q) ∈ top depth
  ordered : ∀ n, (top n).Pairwise fun a b => better a.1 b.1
  nodup : ∀ n, ((top n).map Prod.fst).Nodup
  top_prefix : ∀ m n, m ≤ n → top m <+: top n
  length : ∀ n, (top n).length = min n depth
  best_eq : best = (top 1).head?

section SideView

variable [BEq Q] [Zero Q] {better : P → P → Prop} {stored : P → Option Q}

/-- The views of a list that is strictly ordered. -/
theorem SideView.of_list (hirrefl : ∀ p, ¬ better p p) {rows : List (P × Q)}
    (hnonzero : ∀ p q, stored p = some q → (q == 0) = false)
    (hstored : ∀ p q, stored p = some q ↔ (p, q) ∈ rows)
    (hrows : rows.Pairwise fun a b => better a.1 b.1) :
    SideView better stored rows.take rows.length rows.head? where
  nonzero := hnonzero
  stored_iff p q := by rw [List.take_length, hstored]
  ordered n := hrows.sublist (List.take_sublist n rows)
  nodup n := by
    rw [List.Nodup, List.pairwise_map]
    refine (hrows.sublist (List.take_sublist n rows)).imp ?_
    rintro a b hbetter heq
    exact hirrefl _ (heq ▸ hbetter)
  top_prefix m n hle := List.take_prefix_take_left hle
  length n := List.length_take
  best_eq := by cases rows <;> rfl

variable {top : ℕ → List (P × Q)} {depth : ℕ} {best : Option (P × Q)}

/-- The best level heads the list of all levels. -/
theorem SideView.best_head (h : SideView better stored top depth best) :
    best = (top depth).head? := by
  rw [h.best_eq]
  cases depth with
  | zero =>
    have hone : (top 1).length = 0 := h.length 1
    have hall : (top 0).length = 0 := h.length 0
    rw [List.length_eq_zero_iff.mp hone, List.length_eq_zero_iff.mp hall]
  | succ depth =>
    obtain ⟨rest, hrest⟩ := h.top_prefix 1 (depth + 1) (Nat.succ_le_succ (Nat.zero_le depth))
    have hne : top 1 ≠ [] := by
      intro hnil
      have hone : (top 1).length = 1 := (h.length 1).trans (Nat.min_eq_left (by omega))
      rw [hnil] at hone
      cases hone
    rw [← hrest, List.head?_append_of_ne_nil _ hne]

/-- The best level is stored. -/
theorem SideView.stored_best (h : SideView better stored top depth best) {row : P × Q}
    (hbest : best = some row) : stored row.1 = some row.2 := by
  rw [h.best_head] at hbest
  exact (h.stored_iff _ _).mpr (List.mem_of_mem_head? hbest)

/-- No stored price is better than that of the best level. -/
theorem SideView.best_better (h : SideView better stored top depth best) {p : P} {q : Q}
    (hstored : stored p = some q) :
    ∃ row, best = some row ∧ (row.1 = p ∨ better row.1 p) := by
  have hmem := (h.stored_iff p q).mp hstored
  have hordered := h.ordered depth
  rw [h.best_head]
  cases hrows : top depth with
  | nil =>
    rw [hrows] at hmem
    cases hmem
  | cons row rows =>
    rw [hrows] at hmem hordered
    refine ⟨row, rfl, ?_⟩
    cases hmem with
    | head => exact .inl rfl
    | tail _ hmem => exact .inr ((List.pairwise_cons.mp hordered).1 _ hmem)

/-- The best levels of the two sides cross when some two levels do. -/
theorem SideView.crossed_iff [LinearOrder P] {bids asks : P → Option Q}
    {topBids topAsks : ℕ → List (P × Q)} {bidDepth askDepth : ℕ} {bestBid bestAsk : Option (P × Q)}
    (hbids : SideView (· > ·) bids topBids bidDepth bestBid)
    (hasks : SideView (· < ·) asks topAsks askDepth bestAsk) :
    (∃ bid ask, bestBid = some bid ∧ bestAsk = some ask ∧ ask.1 ≤ bid.1) ↔
      ∃ p q p' q', bids p = some q ∧ asks p' = some q' ∧ p' ≤ p := by
  constructor
  · rintro ⟨bid, ask, hbid, hask, hle⟩
    exact ⟨_, _, _, _, hbids.stored_best hbid, hasks.stored_best hask, hle⟩
  · rintro ⟨p, q, p', q', hp, hp', hle⟩
    obtain ⟨bid, hbid, hbetter⟩ := hbids.best_better hp
    obtain ⟨ask, hask, hbetter'⟩ := hasks.best_better hp'
    -- the best ask is at most `p'` and the best bid at least `p`
    have hup : p ≤ bid.1 := hbetter.elim (fun h => h ▸ le_refl _) le_of_lt
    have hdown : ask.1 ≤ p' := hbetter'.elim (fun h => h ▸ le_refl _) le_of_lt
    exact ⟨bid, ask, hbid, hask, hdown.trans (hle.trans hup)⟩

end SideView

/-! ## The sides of a book -/

section Book

variable [LinearOrder P] [Zero Q] [BEq Q]

/-- The bids of a book without empty levels, read from the highest on. -/
theorem bids_sideView {book : LocalOrderBook P Q} (h : NoEmptyLevels book) :
    SideView (· > ·) (fun p => book.bids[p]?) book.topBids book.bidDepth book.bestBid := by
  have hview : SideView (· > ·) (fun p => book.bids[p]?) book.bids.toList.reverse.take
      book.bids.toList.reverse.length book.bids.toList.reverse.head? := by
    have hirrefl : ∀ p : P, ¬ p > p := fun p => lt_irrefl p
    refine SideView.of_list hirrefl h.bids ?_ ?_
    · intro p q
      rw [List.mem_reverse]
      exact Std.ExtTreeMap.mem_toList_iff_getElem?_eq_some.symm
    · exact List.pairwise_reverse.mpr book.bids.pairwise_toList_lt
  have hdepth : book.bids.toList.reverse.length = book.bidDepth := by
    rw [List.length_reverse, Std.ExtTreeMap.length_toList]
    rfl
  have hbest : book.bids.toList.reverse.head? = book.bestBid := by
    rw [List.head?_reverse, ← Std.ExtTreeMap.maxEntry?_eq_getLast?_toList]
    rfl
  rw [hdepth, hbest] at hview
  exact hview

/-- The asks of a book without empty levels, read from the lowest on. -/
theorem asks_sideView {book : LocalOrderBook P Q} (h : NoEmptyLevels book) :
    SideView (· < ·) (fun p => book.asks[p]?) book.topAsks book.askDepth book.bestAsk := by
  have hview : SideView (· < ·) (fun p => book.asks[p]?) book.asks.toList.take
      book.asks.toList.length book.asks.toList.head? := by
    refine SideView.of_list lt_irrefl h.asks ?_ book.asks.pairwise_toList_lt
    exact fun p q => Std.ExtTreeMap.mem_toList_iff_getElem?_eq_some.symm
  have hdepth : book.asks.toList.length = book.askDepth := Std.ExtTreeMap.length_toList
  have hbest : book.asks.toList.head? = book.bestAsk :=
    (Std.ExtTreeMap.minEntry?_eq_head?_toList book.asks).symm
  rw [hdepth, hbest] at hview
  exact hview

omit [Zero Q] [BEq Q] in
/-- A book is crossed exactly if its best ask is no higher than its best bid. -/
theorem isCrossed_iff_best (book : LocalOrderBook P Q) :
    book.isCrossed = true ↔
      ∃ bid ask, book.bestBid = some bid ∧ book.bestAsk = some ask ∧ ask.1 ≤ bid.1 := by
  unfold LocalOrderBook.isCrossed
  cases book.bestBid with
  | none => simp
  | some bid =>
    cases book.bestAsk with
    | none => simp
    | some ask => simp

/-- The views of every reachable book. -/
theorem reachable_views (msgs : List (OrderBookData P Q)) :
    let book : LocalOrderBook P Q := LocalOrderBook.new.applyAll msgs
    SideView (· > ·) (fun p => book.bids[p]?) book.topBids book.bidDepth book.bestBid ∧
      SideView (· < ·) (fun p => book.asks[p]?) book.topAsks book.askDepth book.bestAsk ∧
      (book.isCrossed = true ↔ ∃ (p : P) (q : Q) (p' : P) (q' : Q),
        book.bids[p]? = some q ∧ book.asks[p']? = some q' ∧ p' ≤ p) := by
  intro book
  have hlevels : NoEmptyLevels book := NoEmptyLevels.new.applyAll msgs
  have hbids := bids_sideView hlevels
  have hasks := asks_sideView hlevels
  refine ⟨hbids, hasks, ?_⟩
  rw [isCrossed_iff_best]
  exact hbids.crossed_iff hasks

end Book

end ExchangeApiws.Spec
