import ExchangeApiws.ForStd.AbsoluteLog
import ExchangeApiws.Native.Book
import ExchangeApiws.Native.Json

/-!
# The local order book mirrors the venue's book

The venue's book is a log of absolute writes: update id `k` sets the sizes of finitely
many levels, size zero removing the level. A message is true when it is a full snapshot
of the venue's book at some id or a merged delta over some range of ids. Whatever the
order in which true messages arrive, and whichever of them are lost or repeated, a book
that says it is synced at id `u` holds exactly the venue's levels after `u`.

## Key results

- `LocalOrderBook.apply_outcome`: everything one call of `apply` can do
- `levels_applyDelta`: `applyLevels` assigns the rows of a message to the levels
- `Mirrors.apply`: a true message keeps the correspondence with the venue's book
- `synced_book_is_venue_book`: the correspondence in every reachable state
-/

namespace ExchangeApiws.Native.LocalOrderBook

open Std (ExtTreeMap)

variable {P Q : Type*} [LinearOrder P] [Zero Q] [BEq Q]

/-! ## What `apply` does -/

/-- The outcomes of `apply`, one constructor for each of its branches. -/
inductive ApplyOutcome (book : LocalOrderBook P Q) (msg : OrderBookData P Q) :
    LocalOrderBook P Q × BookApply → Prop where
  | snapshot (hsnap : msg.isSnapshot = true) :
      ApplyOutcome book msg (book.applySnapshot msg, .snapshot)
  | awaiting (hsnap : msg.isSnapshot = false) (hsync : book.synced = false) :
      ApplyOutcome book msg (book, .awaitingSnapshot)
  | stale (hsnap : msg.isSnapshot = false) (hsync : book.synced = true) {prev last : UInt64}
      (hprev : book.lastUpdateId = some prev) (hlast : msg.lastUpdateId = some last)
      (hle : last ≤ prev) :
      ApplyOutcome book msg (book, .stale)
  | gap (hsnap : msg.isSnapshot = false) (hsync : book.synced = true) {prev last : UInt64}
      (hprev : book.lastUpdateId = some prev) (hlast : msg.lastUpdateId = some last)
      (hlt : prev < last) (hgap : prev + 1 < msg.firstUpdateId.getD last) :
      ApplyOutcome book msg ({ book with synced := false },
        .gap (prev + 1) (msg.firstUpdateId.getD last))
  | delta (hsnap : msg.isSnapshot = false) (hsync : book.synced = true) {prev last : UInt64}
      (hprev : book.lastUpdateId = some prev) (hlast : msg.lastUpdateId = some last)
      (hlt : prev < last) (hfirst : msg.firstUpdateId.getD last ≤ prev + 1) :
      ApplyOutcome book msg (book.applyDelta msg, .delta)
  | unchecked (hsnap : msg.isSnapshot = false) (hsync : book.synced = true)
      (hnone : book.lastUpdateId = none ∨ msg.lastUpdateId = none) :
      ApplyOutcome book msg (book.applyDelta msg, .delta)

/-- Every call of `apply` has one of the outcomes. -/
theorem apply_outcome (book : LocalOrderBook P Q) (msg : OrderBookData P Q) :
    ApplyOutcome book msg (book.apply msg) := by
  unfold apply
  -- the branches of `apply`, in its order
  split
  · exact .snapshot ‹_›
  rename_i hsnap
  have hsnap : msg.isSnapshot = false := by simpa using hsnap
  split
  · rename_i hsync
    exact .awaiting hsnap (by simpa using hsync)
  rename_i hsync
  have hsync : book.synced = true := by simpa using hsync
  split
  · rename_i prev last hprev hlast
    split
    · exact .stale hsnap hsync hprev hlast ‹_›
    · rename_i hle
      have hlt : prev < last := UInt64.not_le.mp hle
      dsimp only
      split
      · exact .gap hsnap hsync hprev hlast hlt ‹_›
      · rename_i hnogap
        exact .delta hsnap hsync hprev hlast hlt (UInt64.not_lt.mp hnogap)
  · -- one of the two ids is missing, so nothing is compared
    rename_i hids
    refine .unchecked hsnap hsync ?_
    cases hb : book.lastUpdateId with
    | none => exact Or.inl rfl
    | some prev =>
      cases hm : msg.lastUpdateId with
      | none => exact Or.inr rfl
      | some last => exact (hids prev last hb hm).elim

/-- When `apply` compares ids, the `prev + 1` it computes does not wrap: a later id exists. -/
theorem toNat_prev_add_one {prev last : UInt64} (hlt : prev < last) :
    (prev + 1).toNat = prev.toNat + 1 := by
  have h : prev.toNat < last.toNat := UInt64.lt_iff_toNat_lt.mp hlt
  have hmax : last.toNat < 2 ^ 64 := last.toNat_lt
  rw [UInt64.toNat_add, UInt64.toNat_one]
  exact Nat.mod_eq_of_lt (by omega)

end ExchangeApiws.Native.LocalOrderBook

namespace ExchangeApiws.Spec

open Std (ExtTreeMap)
open Native

variable {P Q : Type*} [LinearOrder P] [Zero Q] [BEq Q]

/-! ## The venue's book -/

/-- The two sides of a book. -/
inductive BookSide where
  | bid
  | ask
  deriving DecidableEq, Repr

/-- The content of a level set to size `q`: nothing when `q` is zero. -/
def levelOf (q : Q) : Option Q := if q == 0 then none else some q

/-- A venue's update history: update `k` sets absolute sizes on finitely many levels. -/
structure VenueHistory (P Q : Type*) where
  updates : ℕ → List ((BookSide × P) × Q)

/-- The history as a log of absolute writes. -/
def VenueHistory.log (venue : VenueHistory P Q) : AbsoluteLog (BookSide × P) Q where
  writes k := (venue.updates k).map fun (level, qty) => (level, levelOf qty)

/-- The venue's book after update id `u`: the size of each level that has one. -/
def VenueHistory.bookAfter (venue : VenueHistory P Q) (u : UInt64) : BookSide × P → Option Q :=
  venue.log.after u.toNat

/-- The rows of one side of a message, as assignments to the levels of that side. -/
def sideRows (side : BookSide) (levels : List (P × Q)) : List ((BookSide × P) × Option Q) :=
  levels.map fun (price, qty) => ((side, price), levelOf qty)

/-- The rows of a message: its bids, then its asks. -/
def rows (msg : OrderBookData P Q) : List ((BookSide × P) × Option Q) :=
  sideRows .bid msg.bids ++ sideRows .ask msg.asks

/-- `msg` is a full snapshot of the venue's book at the id it carries. -/
def VenueHistory.IsTrueSnapshot (venue : VenueHistory P Q) (msg : OrderBookData P Q) : Prop :=
  msg.isSnapshot = true ∧
    ∃ s : UInt64, msg.lastUpdateId = some s ∧ venue.log.IsSnapshot s.toNat (rows msg)

/-- `msg` is the merged delta over the ids `f … l` it carries: it has the value after `l`
    of every level that one of these updates touches. -/
def VenueHistory.IsTrueDelta (venue : VenueHistory P Q) (msg : OrderBookData P Q) : Prop :=
  msg.isSnapshot = false ∧
    ∃ f l : UInt64, f ≤ l ∧ msg.firstUpdateId = some f ∧ msg.lastUpdateId = some l ∧
      venue.log.IsMerge f.toNat l.toNat (rows msg)

/-- `msg` is a true message of the venue. -/
def VenueHistory.IsTrue (venue : VenueHistory P Q) (msg : OrderBookData P Q) : Prop :=
  venue.IsTrueSnapshot msg ∨ venue.IsTrueDelta msg

/-! ## The levels of a local book -/

/-- The content of every level of a local book. -/
def levels (book : LocalOrderBook P Q) : BookSide × P → Option Q
  | (.bid, price) => book.bids[price]?
  | (.ask, price) => book.asks[price]?

/-- One row of `applyLevels`, seen as a function of the price. -/
theorem getElem?_applyLevel (side : ExtTreeMap P Q compare) (price : P) (qty : Q) (p : P) :
    (if qty == 0 then side.erase price else side.insert price qty)[p]? =
      Function.update (fun p => side[p]?) price (levelOf qty) p := by
  by_cases hp : p = price
  · subst hp
    rw [Function.update_self]
    unfold levelOf
    split
    · exact ExtTreeMap.getElem?_erase_self
    · exact ExtTreeMap.getElem?_insert_self
  · -- another price: neither the erase nor the insert touches it
    rw [Function.update_of_ne hp]
    have hne : compare price p ≠ .eq := fun h => hp (Std.LawfulEqOrd.eq_of_compare h).symm
    split
    · rw [ExtTreeMap.getElem?_erase, if_neg hne]
    · rw [ExtTreeMap.getElem?_insert, if_neg hne]

/-- A level that is stored after a row was stored before it, or is the row. -/
theorem stored_applyLevel {side : ExtTreeMap P Q compare} {price p : P} {qty q : Q}
    (h : (if qty == 0 then side.erase price else side.insert price qty)[p]? = some q) :
    side[p]? = some q ∨ price = p ∧ (qty == 0) = false ∧ qty = q := by
  rw [getElem?_applyLevel] at h
  by_cases hp : p = price
  · subst hp
    rw [Function.update_self, levelOf] at h
    split at h
    · cases h
    · rename_i hqty
      exact .inr ⟨rfl, Bool.eq_false_iff.mpr hqty, Option.some.inj h⟩
  · rw [Function.update_of_ne hp] at h
    exact .inl h

/-- `applyLevels` assigns its rows, in order, to the levels of the side. -/
theorem getElem?_applyLevels (side : ExtTreeMap P Q compare) (rows : List (P × Q)) (p : P) :
    (applyLevels side rows)[p]? =
      AbsoluteLog.assign (fun p => side[p]?)
        (rows.map fun (price, qty) => (price, levelOf qty)) p := by
  induction rows generalizing side with
  | nil => rfl
  | cons row rows ih =>
    obtain ⟨price, qty⟩ := row
    rw [List.map_cons, AbsoluteLog.assign_cons]
    have hside : (fun p => (if qty == 0 then side.erase price else side.insert price qty)[p]?) =
        Function.update (fun p => side[p]?) price (levelOf qty) :=
      funext (getElem?_applyLevel side price qty)
    rw [← hside]
    exact ih _

omit [LinearOrder P] in
/-- Rows of one side leave the other side alone and act on their own as on a single map. -/
theorem assign_sideRows [DecidableEq P] (m : BookSide × P → Option Q) (side : BookSide)
    (ls : List (P × Q)) (level : BookSide × P) :
    AbsoluteLog.assign m (sideRows side ls) level =
      if level.1 = side then
        AbsoluteLog.assign (fun p => m (side, p))
          (ls.map fun (price, qty) => (price, levelOf qty)) level.2
      else m level := by
  induction ls generalizing m with
  | nil =>
    obtain ⟨s, p⟩ := level
    simp only [sideRows, List.map_nil, AbsoluteLog.assign_nil]
    split
    · rename_i h; rw [show s = side from h]
    · rfl
  | cons row ls ih =>
    obtain ⟨price, qty⟩ := row
    rw [sideRows, List.map_cons, AbsoluteLog.assign_cons]
    rw [show ls.map (fun (price, qty) => ((side, price), levelOf qty)) = sideRows side ls from rfl,
      ih]
    split
    · -- on the side of the row, the update of the level is the update of its price
      rw [List.map_cons, AbsoluteLog.assign_cons]
      congr 1
      funext p
      by_cases hp : p = price
      · rw [hp, Function.update_self, Function.update_self]
      · rw [Function.update_of_ne hp, Function.update_of_ne (fun h => hp (Prod.mk.inj h).2)]
    · -- a level of the other side is not the one that the row sets
      rename_i hne
      exact Function.update_of_ne (fun h => hne (by rw [h])) _ _

/-- Setting the levels of a message assigns its rows. -/
theorem levels_applyLevels (book book' : LocalOrderBook P Q) (msg : OrderBookData P Q)
    (hbids : book'.bids = applyLevels book.bids msg.bids)
    (hasks : book'.asks = applyLevels book.asks msg.asks) :
    levels book' = AbsoluteLog.assign (levels book) (rows msg) := by
  funext level
  obtain ⟨side, price⟩ := level
  rw [rows, AbsoluteLog.assign_append, assign_sideRows]
  cases side with
  | bid =>
    rw [if_neg (by simp), assign_sideRows, if_pos rfl]
    simp only [levels, hbids]
    exact getElem?_applyLevels _ _ _
  | ask =>
    rw [if_pos rfl]
    simp only [assign_sideRows, reduceCtorEq, if_false, levels, hasks]
    exact getElem?_applyLevels _ _ _

/-- A delta that is applied assigns its rows to the levels of the book. -/
theorem levels_applyDelta (book : LocalOrderBook P Q) (msg : OrderBookData P Q) :
    levels (book.applyDelta msg) = AbsoluteLog.assign (levels book) (rows msg) :=
  levels_applyLevels book _ msg (by simp) (by simp)

omit [Zero Q] [BEq Q] in
/-- A new book has no levels. -/
theorem levels_new : levels (LocalOrderBook.new : LocalOrderBook P Q) = fun _ => none := by
  funext level
  obtain ⟨side, price⟩ := level
  cases side <;> exact ExtTreeMap.getElem?_empty

/-- A snapshot that is applied assigns its rows to the empty book. -/
theorem levels_applySnapshot (book : LocalOrderBook P Q) (msg : OrderBookData P Q) :
    levels (book.applySnapshot msg) = AbsoluteLog.assign (fun _ => none) (rows msg) := by
  -- `applySnapshot` starts from empty maps, as a delta on the new book would
  rw [← levels_new]
  exact levels_applyLevels LocalOrderBook.new _ msg (by simp [LocalOrderBook.new])
    (by simp [LocalOrderBook.new])

/-! ## The correspondence -/

/-- A synced book is at some id, and its levels are the venue's book after that id. -/
def Mirrors (venue : VenueHistory P Q) (book : LocalOrderBook P Q) : Prop :=
  book.synced = true → ∃ u, book.lastUpdateId = some u ∧ levels book = venue.bookAfter u

/-- The new book is not synced, so there is nothing to mirror. -/
theorem Mirrors.new (venue : VenueHistory P Q) : Mirrors venue LocalOrderBook.new :=
  fun h => absurd h (by simp [LocalOrderBook.new])

/-- A true message keeps the correspondence, in each branch of `apply`. -/
theorem Mirrors.apply {venue : VenueHistory P Q} {book : LocalOrderBook P Q}
    {msg : OrderBookData P Q} (hbook : Mirrors venue book) (hmsg : venue.IsTrue msg) :
    Mirrors venue (book.apply msg).1 := by
  have hout := book.apply_outcome msg
  generalize book.apply msg = r at hout
  cases hout with
  | snapshot hsnap =>
    -- whatever the book held is replaced
    intro _
    obtain ⟨_, s, hs, hrows⟩ | ⟨hdelta, _⟩ := hmsg
    · refine ⟨s, by rw [LocalOrderBook.applySnapshot_lastUpdateId, hs], ?_⟩
      rw [levels_applySnapshot]
      exact venue.log.assign_eq_after_of_snapshot hrows
    · simp [hsnap] at hdelta
  | awaiting _ _ => exact hbook
  | stale _ _ _ _ _ => exact hbook
  | gap _ _ _ _ _ _ =>
    -- the book is no longer synced, so it makes no promise
    intro h
    cases h
  | delta hsnap hsync hprev hlast hlt hfirst =>
    rename_i prev last
    intro _
    obtain ⟨hs, _⟩ | ⟨_, f, l, hfl, hf, hl, hrows⟩ := hmsg
    · simp [hsnap] at hs
    obtain ⟨u, hu, hlevels⟩ := hbook hsync
    -- the ids that `apply` compared are those of the correspondence and of the message
    have hprevu : prev = u := Option.eq_some_unique hprev hu
    have hlastl : last = l := Option.eq_some_unique hlast hl
    subst hprevu hlastl
    refine ⟨last, by simp [LocalOrderBook.applyDelta_lastUpdateId, hlast], ?_⟩
    rw [levels_applyDelta, hlevels]
    refine venue.log.assign_after_of_merge hrows ?_ ?_
    · -- the delta starts at most one past the book's id
      rw [hf, Option.getD_some, UInt64.le_iff_toNat_le,
        LocalOrderBook.toNat_prev_add_one hlt] at hfirst
      exact hfirst
    · exact Nat.le_of_lt (UInt64.lt_iff_toNat_lt.mp hlt)
  | unchecked hsnap hsync hnone =>
    -- a synced book fed with true messages has an id, and so has a true delta
    obtain ⟨hs, _⟩ | ⟨_, f, l, _, _, hl, _⟩ := hmsg
    · simp [hsnap] at hs
    obtain ⟨u, hu, _⟩ := hbook hsync
    rcases hnone with h | h
    · simp [h] at hu
    · simp [h] at hl

/-- A run of true messages keeps the correspondence. -/
theorem Mirrors.applyAll {venue : VenueHistory P Q} (msgs : List (OrderBookData P Q))
    (hmsgs : ∀ msg ∈ msgs, venue.IsTrue msg) {book : LocalOrderBook P Q}
    (hbook : Mirrors venue book) : Mirrors venue (book.applyAll msgs) := by
  induction msgs generalizing book with
  | nil => exact hbook
  | cons msg msgs ih =>
    exact ih (fun m hm => hmsgs m (List.mem_cons_of_mem _ hm))
      (hbook.apply (hmsgs msg List.mem_cons_self))

/-- Feed a new book any finite sequence of true messages, in any order and with any of them
    lost or repeated. Whenever it is synced at id `u`, its levels are the venue's book
    after `u`: none is stale, missing or extra. -/
theorem synced_book_is_venue_book (venue : VenueHistory P Q) (msgs : List (OrderBookData P Q))
    (hmsgs : ∀ msg ∈ msgs, venue.IsTrue msg) (u : UInt64)
    (hsync : (LocalOrderBook.new.applyAll msgs).isSynced = true)
    (hid : (LocalOrderBook.new.applyAll msgs).lastUpdateId = some u) :
    levels (LocalOrderBook.new.applyAll msgs) = venue.bookAfter u := by
  obtain ⟨u', hu', hlevels⟩ := Mirrors.applyAll msgs hmsgs (Mirrors.new venue) hsync
  rw [hid] at hu'
  rw [Option.some.inj hu']
  exact hlevels

/-! ### A concrete run -/

/-- A venue that opens with one bid, then moves it to the other side. -/
def exampleVenue : VenueHistory ℤ ℤ where
  updates
    | 0 => [((.bid, 100), 5)]
    | 1 => [((.bid, 100), 0), ((.ask, 101), 2)]
    | _ => []

/-- A message of `exampleVenue` with the given levels and ids. -/
def exampleMessage (isSnapshot : Bool) (bids asks : List (ℤ × ℤ)) (first last : UInt64) :
    OrderBookData ℤ ℤ where
  symbol := "BTC-USDT"
  exchange := "okx"
  asks := asks
  bids := bids
  exchangeTs := 1
  receiptTs := 2
  isSnapshot := isSnapshot
  firstUpdateId := some first
  lastUpdateId := some last

/-- The venue's book at id 0, delivered twice around the delta `0 … 1`, which straddles it. -/
def exampleRun : List (OrderBookData ℤ ℤ) :=
  [exampleMessage true [(100, 5)] [] 0 0, exampleMessage false [(100, 0)] [(101, 2)] 0 1,
    exampleMessage true [(100, 5)] [] 0 0, exampleMessage false [(100, 0)] [(101, 2)] 0 1]

/-- The messages of the example are true of its venue. -/
theorem exampleRun_isTrue : ∀ msg ∈ exampleRun, exampleVenue.IsTrue msg := by
  have hsnap : exampleVenue.IsTrue (exampleMessage true [(100, 5)] [] 0 0) := by
    refine Or.inl ⟨rfl, 0, rfl, ⟨by decide, ?_⟩⟩
    -- a level that the rows change is one of the rows
    intro k hk
    by_contra hmem
    exact hk (AbsoluteLog.assign_of_not_mem _ _ hmem)
  have hdelta : exampleVenue.IsTrue (exampleMessage false [(100, 0)] [(101, 2)] 0 1) := by
    refine Or.inr ⟨rfl, 0, 1, by decide, rfl, rfl, ⟨by decide, ?_⟩⟩
    rintro k ⟨n, -, hn, hmem⟩
    -- the only level that update 0 touches is also touched by update 1
    rcases n with _ | _ | n
    · have hkey : k = (.bid, 100) := by simpa [VenueHistory.log, exampleVenue] using hmem
      subst hkey
      decide
    · exact hmem
    · simp at hn
  intro msg hmsg
  simp only [exampleRun, List.mem_cons, List.not_mem_nil, or_false] at hmsg
  rcases hmsg with rfl | rfl | rfl | rfl
  · exact hsnap
  · exact hdelta
  · exact hsnap
  · exact hdelta

/-- After the run the book is the venue's at the last id. -/
theorem synced_book_is_venue_book_exampleRun :
    levels (LocalOrderBook.new.applyAll exampleRun) = exampleVenue.bookAfter 1 :=
  synced_book_is_venue_book exampleVenue exampleRun exampleRun_isTrue 1 (by decide) (by decide)

end ExchangeApiws.Spec
