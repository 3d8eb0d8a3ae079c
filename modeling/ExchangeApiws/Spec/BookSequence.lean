import ExchangeApiws.ForStd.UInt64
import ExchangeApiws.Spec.BookExport

/-!
# Sequencing of deltas

A synced book takes every delta that starts at most one past the ids it has seen, whatever
the mixture of stale, repeated, overlapping and contiguous ranges, and stops at the first
one that starts later.

## Key results

- `apply_eq_stale`, `apply_eq_delta`, `apply_eq_gap`: the three outcomes of a delta by its range
- `applyAll_inSequence`: a book at id `s` is at the largest id seen after deltas in sequence
- `deltas_applied_in_sequence`: no false gap, and nothing changes after a true one
-/

namespace ExchangeApiws.Spec

open Native

variable {P Q : Type*} [LinearOrder P] [Zero Q] [BEq Q]

/-- A delta over the update ids `first … last`. The largest id of a `u64` is left out: no
    delta can follow it. -/
structure RangeDelta (P Q : Type*) where
  msg : OrderBookData P Q
  first : UInt64
  last : UInt64
  isSnapshot_eq : msg.isSnapshot = false
  firstUpdateId_eq : msg.firstUpdateId = some first
  lastUpdateId_eq : msg.lastUpdateId = some last
  first_le_last : first ≤ last
  last_lt_max : last.toNat < 2 ^ 64 - 1

/-- The messages of a list of deltas. -/
def messages (deltas : List (RangeDelta P Q)) : List (OrderBookData P Q) :=
  deltas.map RangeDelta.msg

/-- The largest of `s` and the last ids of the deltas. -/
def largestId (s : UInt64) (deltas : List (RangeDelta P Q)) : UInt64 :=
  deltas.foldl (fun u delta => max u delta.last) s

/-- Every delta starts at most one past the largest of `s` and the ids before it. -/
def InSequence (s : UInt64) (deltas : List (RangeDelta P Q)) : Prop :=
  ∀ before delta after, deltas = before ++ delta :: after →
    delta.first.toNat ≤ 1 + (largestId s before).toNat

omit [LinearOrder P] [Zero Q] [BEq Q] in
/-- No deltas are in sequence. -/
theorem inSequence_nil (s : UInt64) : InSequence s ([] : List (RangeDelta P Q)) := by
  intro before delta after heq
  simp at heq

omit [LinearOrder P] [Zero Q] [BEq Q] in
/-- One more delta in front, which begins no later than after `s`. -/
theorem InSequence.cons {s : UInt64} {delta : RangeDelta P Q} {deltas : List (RangeDelta P Q)}
    (hfirst : delta.first.toNat ≤ 1 + s.toNat) (h : InSequence (max s delta.last) deltas) :
    InSequence s (delta :: deltas) := by
  intro before d after heq
  cases before with
  | nil =>
    obtain ⟨rfl, _⟩ := List.cons.inj heq
    exact hfirst
  | cons d' before =>
    obtain ⟨rfl, htail⟩ := List.cons.inj heq
    exact h before d after htail

omit [LinearOrder P] [Zero Q] [BEq Q] in
/-- The first delta begins no later than after `s`. -/
theorem InSequence.head {s : UInt64} {delta : RangeDelta P Q} {deltas : List (RangeDelta P Q)}
    (h : InSequence s (delta :: deltas)) : delta.first.toNat ≤ 1 + s.toNat :=
  h [] delta deltas rfl

omit [LinearOrder P] [Zero Q] [BEq Q] in
/-- The deltas after the first are in sequence after it. -/
theorem InSequence.tail {s : UInt64} {delta : RangeDelta P Q} {deltas : List (RangeDelta P Q)}
    (h : InSequence s (delta :: deltas)) : InSequence (max s delta.last) deltas := by
  intro before d after heq
  exact h (delta :: before) d after (congrArg (delta :: ·) heq)

omit [LinearOrder P] [Zero Q] [BEq Q] in
/-- What comes before a delta of a sequence is in sequence. -/
theorem InSequence.before {s : UInt64} {before after : List (RangeDelta P Q)}
    (h : InSequence s (before ++ after)) : InSequence s before := by
  intro before' d after' heq
  exact h before' d (after' ++ after) (by rw [heq, List.append_assoc, List.cons_append])

/-! ## One delta -/

section

variable {book : LocalOrderBook P Q} {u : UInt64} {delta : RangeDelta P Q}

/-- A delta whose ids are all covered is skipped. -/
theorem apply_eq_stale (hsync : book.synced = true) (hid : book.lastUpdateId = some u)
    (hle : delta.last ≤ u) : book.apply delta.msg = (book, .stale) := by
  simp only [LocalOrderBook.apply, delta.isSnapshot_eq, delta.lastUpdateId_eq, hsync, hid,
    if_pos hle]
  rfl

/-- A later delta that starts at most one past the book's id is applied. -/
theorem apply_eq_delta (hsync : book.synced = true) (hid : book.lastUpdateId = some u)
    (hlt : u < delta.last) (hfirst : delta.first.toNat ≤ 1 + u.toNat) :
    book.apply delta.msg = (book.applyDelta delta.msg, .delta) := by
  have hle : ¬ delta.last ≤ u := UInt64.not_le.mpr hlt
  -- `u + 1` does not wrap below the last id of a delta
  have hnext : ¬ u + 1 < delta.first := by
    rw [UInt64.lt_iff_toNat_lt, LocalOrderBook.toNat_prev_add_one hlt]
    omega
  simp only [LocalOrderBook.apply, delta.isSnapshot_eq, delta.lastUpdateId_eq,
    delta.firstUpdateId_eq, hsync, hid, if_neg hle, Option.getD_some, if_neg hnext]
  rfl

/-- A delta that starts later unsyncs the book and changes nothing else. -/
theorem apply_eq_gap (hsync : book.synced = true) (hid : book.lastUpdateId = some u)
    (hfirst : 1 + u.toNat < delta.first.toNat) :
    book.apply delta.msg = ({ book with synced := false }, .gap (u + 1) delta.first) ∧
      (u + 1).toNat = u.toNat + 1 := by
  -- a gap is never stale: the last id is past the first one
  have hlt : u < delta.last := by
    have hle := UInt64.le_iff_toNat_le.mp delta.first_le_last
    rw [UInt64.lt_iff_toNat_lt]
    omega
  have hle : ¬ delta.last ≤ u := UInt64.not_le.mpr hlt
  have hsucc := LocalOrderBook.toNat_prev_add_one hlt
  have hnext : u + 1 < delta.first := by
    rw [UInt64.lt_iff_toNat_lt, hsucc]
    omega
  refine ⟨?_, hsucc⟩
  simp only [LocalOrderBook.apply, delta.isSnapshot_eq, delta.lastUpdateId_eq,
    delta.firstUpdateId_eq, hsync, hid, if_neg hle, Option.getD_some, if_pos hnext]
  rfl

end

/-- A book that is not synced ignores every delta. -/
theorem apply_eq_awaitingSnapshot {book : LocalOrderBook P Q} {msg : OrderBookData P Q}
    (hsync : book.synced = false) (hmsg : msg.isSnapshot = false) :
    book.apply msg = (book, .awaitingSnapshot) := by
  simp [LocalOrderBook.apply, hsync, hmsg]

/-- A book that is not synced is left alone until a snapshot comes. -/
theorem unsynced_ignores {book : LocalOrderBook P Q} (hsync : book.synced = false)
    (msgs : List (OrderBookData P Q)) (hmsgs : ∀ msg ∈ msgs, msg.isSnapshot = false) :
    book.applyAll msgs = book ∧ ∀ outcome ∈ outcomes book msgs, outcome = .awaitingSnapshot := by
  induction msgs with
  | nil => exact ⟨rfl, fun _ h => absurd h List.not_mem_nil⟩
  | cons msg msgs ih =>
    have happly := apply_eq_awaitingSnapshot hsync (hmsgs msg List.mem_cons_self)
    obtain ⟨hbook, hout⟩ := ih fun m hm => hmsgs m (List.mem_cons_of_mem _ hm)
    constructor
    · rw [LocalOrderBook.applyAll, List.foldl_cons, happly]
      exact hbook
    · rw [outcomes, happly]
      exact List.forall_mem_cons.mpr ⟨rfl, hout⟩

/-! ## Deltas in sequence -/

/-- A delta in sequence keeps the book synced and brings it to the larger of the two ids. -/
theorem apply_inSequence {book : LocalOrderBook P Q} {u : UInt64} {delta : RangeDelta P Q}
    (hsync : book.synced = true) (hid : book.lastUpdateId = some u)
    (hfirst : delta.first.toNat ≤ 1 + u.toNat) :
    (book.apply delta.msg).1.synced = true ∧
      (book.apply delta.msg).1.lastUpdateId = some (max u delta.last) := by
  by_cases hle : delta.last ≤ u
  · rw [apply_eq_stale hsync hid hle, UInt64.max_eq_left_of_le hle]
    exact ⟨hsync, hid⟩
  · have hlt : u < delta.last := UInt64.not_le.mp hle
    rw [apply_eq_delta hsync hid hlt hfirst, UInt64.max_eq_right_of_lt hlt]
    exact ⟨by simp [hsync], by simp [delta.lastUpdateId_eq]⟩

/-- Deltas in sequence keep the book synced and bring it to the largest id. -/
theorem applyAll_inSequence {book : LocalOrderBook P Q} {s : UInt64}
    (hsync : book.synced = true) (hid : book.lastUpdateId = some s)
    {deltas : List (RangeDelta P Q)} (h : InSequence s deltas) :
    (book.applyAll (messages deltas)).synced = true ∧
      (book.applyAll (messages deltas)).lastUpdateId = some (largestId s deltas) := by
  induction deltas generalizing book s with
  | nil => exact ⟨hsync, hid⟩
  -- the induction carries the id: the book after the first delta is at `max s delta.last`
  | cons delta deltas ih =>
    obtain ⟨hsync', hid'⟩ := apply_inSequence hsync hid h.head
    exact ih hsync' hid' h.tail

/-- What a delta in sequence does to a book at id `u`. -/
structure AppliedInSequence (book : LocalOrderBook P Q) (u : UInt64) (delta : RangeDelta P Q) :
    Prop where
  synced : book.isSynced = true ∧ book.lastUpdateId = some u
  /-- A delta that is covered is reported as stale and leaves the whole book alone. -/
  skipped : delta.last ≤ u → book.apply delta.msg = (book, .stale)
  /-- Any other raises the id to its own. -/
  applied : u < delta.last → (book.apply delta.msg).2 = .delta ∧
    (book.apply delta.msg).1.lastUpdateId = some delta.last
  staysSynced : (book.apply delta.msg).1.isSynced = true

/-- What the first delta that is not in sequence does to a book at id `u`. -/
structure StopsAtGap (book : LocalOrderBook P Q) (u : UInt64) (delta : RangeDelta P Q) :
    Prop where
  synced : book.isSynced = true ∧ book.lastUpdateId = some u
  gap : ∃ expected, (book.apply delta.msg).2 = .gap expected delta.first ∧
    expected.toNat = u.toNat + 1
  /-- Bids, asks, id, symbol, exchange and timestamp are as before. -/
  unchanged : (book.apply delta.msg).1 = { book with synced := false }
  /-- Until the next snapshot every delta is ignored. -/
  stopped : ∀ msgs : List (OrderBookData P Q), (∀ msg ∈ msgs, msg.isSnapshot = false) →
    (book.apply delta.msg).1.applyAll msgs = (book.apply delta.msg).1 ∧
      ∀ outcome ∈ outcomes (book.apply delta.msg).1 msgs, outcome = .awaitingSnapshot

/-- A synced book applies the delta if its ids leave no gap. -/
theorem AppliedInSequence.of_id {book : LocalOrderBook P Q} {u : UInt64}
    {delta : RangeDelta P Q} (hsync : book.synced = true) (hid : book.lastUpdateId = some u)
    (hfirst : delta.first.toNat ≤ 1 + u.toNat) : AppliedInSequence book u delta where
  synced := ⟨hsync, hid⟩
  skipped := apply_eq_stale hsync hid
  applied hlt := by
    rw [apply_eq_delta hsync hid hlt hfirst]
    exact ⟨rfl, by simp [delta.lastUpdateId_eq]⟩
  staysSynced := (apply_inSequence hsync hid hfirst).1

/-- A synced book stops at a delta whose ids leave a gap. -/
theorem StopsAtGap.of_id {book : LocalOrderBook P Q} {u : UInt64} {delta : RangeDelta P Q}
    (hsync : book.synced = true) (hid : book.lastUpdateId = some u)
    (hfirst : 1 + u.toNat < delta.first.toNat) : StopsAtGap book u delta := by
  obtain ⟨happly, hsucc⟩ := apply_eq_gap hsync hid hfirst
  refine ⟨⟨hsync, hid⟩, ⟨u + 1, by rw [happly], hsucc⟩, by rw [happly], fun msgs hmsgs => ?_⟩
  rw [happly]
  exact unsynced_ignores rfl msgs hmsgs

/-- A book that has just applied a snapshot at id `s` takes every delta of a sequence without
    a gap and ends synced at the largest id; a delta that is not in sequence after such deltas
    is a gap, and from then on nothing changes until a snapshot. -/
theorem deltas_applied_in_sequence (book : LocalOrderBook P Q) (snap : OrderBookData P Q)
    (s : UInt64) (hsnap : snap.isSnapshot = true) (hs : snap.lastUpdateId = some s)
    (deltas : List (RangeDelta P Q)) (hdeltas : InSequence s deltas) :
    (∀ before delta after, deltas = before ++ delta :: after →
      AppliedInSequence ((book.apply snap).1.applyAll (messages before)) (largestId s before)
        delta) ∧
    ((book.apply snap).1.applyAll (messages deltas)).isSynced = true ∧
    ((book.apply snap).1.applyAll (messages deltas)).lastUpdateId = some (largestId s deltas) ∧
    ∀ delta : RangeDelta P Q, 1 + (largestId s deltas).toNat < delta.first.toNat →
      StopsAtGap ((book.apply snap).1.applyAll (messages deltas)) (largestId s deltas) delta := by
  have hstart : (book.apply snap).1 = book.applySnapshot snap := by
    rw [LocalOrderBook.apply, if_pos hsnap]
  have hsync : (book.apply snap).1.synced = true := by rw [hstart]; simp
  have hid : (book.apply snap).1.lastUpdateId = some s := by rw [hstart]; simp [hs]
  obtain ⟨hsync', hid'⟩ := applyAll_inSequence hsync hid hdeltas
  refine ⟨fun before delta after heq => ?_, hsync', hid', fun delta hfirst => ?_⟩
  -- a prefix of a sequence is a sequence, so the book before each delta is at its largest id
  · obtain ⟨hsyncb, hidb⟩ := applyAll_inSequence hsync hid (heq ▸ hdeltas).before
    exact .of_id hsyncb hidb (hdeltas before delta after heq)
  · exact .of_id hsync' hid' hfirst

/-! ### Deltas after a snapshot at id 5 -/

/-- A delta over the ids `first … last`. -/
def exampleDelta (first last : UInt64) (h : first ≤ last) (hmax : last.toNat < 2 ^ 64 - 1) :
    RangeDelta ℤ ℤ :=
  ⟨exampleMessage false [(100, 7)] [] first last, first, last, rfl, rfl, rfl, h, hmax⟩

/-- A stale, an overlapping and a contiguous delta. -/
def exampleDeltas : List (RangeDelta ℤ ℤ) :=
  [exampleDelta 3 5 (by decide) (by decide), exampleDelta 4 8 (by decide) (by decide),
    exampleDelta 9 9 (by decide) (by decide)]

/-- The deltas of the example take the book to the last of their ids. -/
theorem deltas_applied_in_sequence_example :
    ((LocalOrderBook.new.apply (exampleMessage true [(100, 5)] [] 5 5)).1.applyAll
      (messages exampleDeltas)).lastUpdateId = some 9 := by
  have hseq : InSequence 5 exampleDeltas :=
    .cons (by decide) (.cons (by decide) (.cons (by decide) (inSequence_nil _)))
  exact (deltas_applied_in_sequence LocalOrderBook.new (exampleMessage true [(100, 5)] [] 5 5) 5
    rfl rfl exampleDeltas hseq).2.2.1

end ExchangeApiws.Spec
