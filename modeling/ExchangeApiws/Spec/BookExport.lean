import ExchangeApiws.ForStd.TransitionSystem
import ExchangeApiws.Spec.BookCorrect

/-!
# Exporting a book

`snapshot` exports the state of a book as a message that another book can be seeded from.
A book that is synced is rebuilt from its export without loss. An export always claims to
be a full snapshot, also when the book has never seen one, so a replica seeded from exports
shows the venue's book only as long as it does not build on such an empty export.

## Key results

- `StoresOnly.applyAll`: a book stores only levels of its messages
- `applyLevels_rows`: the rows of a side, in any order, rebuild the side
- `apply_snapshot_new`: a new book that applies the export of a synced book is that book
- `snapshot_bisimilar`: it behaves like that book under every later sequence of messages
- `replica_shows_venue_iff`: when a replica seeded from exports shows the venue's book
-/

namespace ExchangeApiws.Spec

open Std (ExtTreeMap)
open Native TransitionSystem

variable {P Q : Type*} [LinearOrder P] [Zero Q] [BEq Q]

/-! ## What a book stores -/

/-- Every level that the side stores satisfies `R`. -/
def SideStoresOnly (R : P × Q → Prop) (side : ExtTreeMap P Q compare) : Prop :=
  ∀ p q, side[p]? = some q → R (p, q)

/-- Both sides of the book store only levels that satisfy `R`. -/
structure StoresOnly (R : P × Q → Prop) (book : LocalOrderBook P Q) : Prop where
  bids : SideStoresOnly R book.bids
  asks : SideStoresOnly R book.asks

/-- The rows of a message that are stored, those whose size is not zero, satisfy `R`. -/
def RowsSatisfy (R : P × Q → Prop) (rows : List (P × Q)) : Prop :=
  ∀ row ∈ rows, (row.2 == 0) = false → R row

section StoresOnly

variable {R : P × Q → Prop}

omit [Zero Q] [BEq Q] in
/-- An empty side stores nothing. -/
theorem sideStoresOnly_empty : SideStoresOnly R (∅ : ExtTreeMap P Q compare) := by
  intro p q h
  rw [ExtTreeMap.getElem?_empty] at h
  cases h

/-- Rows that satisfy `R` add only levels that do. -/
theorem SideStoresOnly.applyLevels {side : ExtTreeMap P Q compare} (h : SideStoresOnly R side)
    {rows : List (P × Q)} (hrows : RowsSatisfy R rows) :
    SideStoresOnly R (applyLevels side rows) := by
  induction rows generalizing side with
  | nil => exact h
  | cons row rows ih =>
    obtain ⟨price, qty⟩ := row
    obtain ⟨hrow, hrows⟩ := List.forall_mem_cons.mp hrows
    have hside : SideStoresOnly R
        (if qty == 0 then side.erase price else side.insert price qty) := by
      intro p q hq
      cases stored_applyLevel hq with
      | inl hold => exact h p q hold
      | inr hset => exact hset.1 ▸ hset.2.2 ▸ hrow hset.2.1
    exact ih hside hrows

omit [Zero Q] [BEq Q] in
/-- A new book stores nothing. -/
theorem StoresOnly.new : StoresOnly R (LocalOrderBook.new : LocalOrderBook P Q) :=
  ⟨sideStoresOnly_empty, sideStoresOnly_empty⟩

/-- A message stores only its own levels, whatever branch of `apply` it takes. -/
theorem StoresOnly.apply {book : LocalOrderBook P Q} (h : StoresOnly R book)
    {msg : OrderBookData P Q} (hbids : RowsSatisfy R msg.bids) (hasks : RowsSatisfy R msg.asks) :
    StoresOnly R (book.apply msg).1 := by
  have hdelta : StoresOnly R (book.applyDelta msg) := by
    constructor
    · rw [LocalOrderBook.applyDelta_bids]
      exact h.bids.applyLevels hbids
    · rw [LocalOrderBook.applyDelta_asks]
      exact h.asks.applyLevels hasks
  have hout := book.apply_outcome msg
  generalize book.apply msg = r at hout
  cases hout with
  | snapshot _ =>
    -- a snapshot is built on two empty sides
    constructor
    · rw [LocalOrderBook.applySnapshot_bids]
      exact sideStoresOnly_empty.applyLevels hbids
    · rw [LocalOrderBook.applySnapshot_asks]
      exact sideStoresOnly_empty.applyLevels hasks
  | awaiting _ _ => exact h
  | stale _ _ _ _ _ => exact h
  | gap _ _ _ _ _ _ => exact ⟨h.bids, h.asks⟩
  | delta _ _ _ _ _ _ => exact hdelta
  | unchecked _ _ _ => exact hdelta

/-- Messages whose rows satisfy `R` add only levels that do. -/
theorem StoresOnly.applyAll {book : LocalOrderBook P Q} (h : StoresOnly R book)
    {msgs : List (OrderBookData P Q)}
    (hmsgs : ∀ msg ∈ msgs, RowsSatisfy R msg.bids ∧ RowsSatisfy R msg.asks) :
    StoresOnly R (book.applyAll msgs) := by
  induction msgs generalizing book with
  | nil => exact h
  | cons msg msgs ih =>
    obtain ⟨⟨hbids, hasks⟩, hmsgs⟩ := List.forall_mem_cons.mp hmsgs
    exact ih (h.apply hbids hasks) hmsgs

end StoresOnly

/-! ## Sides without empty levels -/

/-- No level of the side has a size equal to zero. -/
def NoEmptyLevel (side : ExtTreeMap P Q compare) : Prop :=
  ∀ (p : P) (q : Q), side[p]? = some q → (q == 0) = false

/-- The rows of a side, in any order, rebuild the side. -/
theorem applyLevels_rows {side : ExtTreeMap P Q compare} (hside : NoEmptyLevel side)
    {rows : List (P × Q)} (hrows : ∀ p q, (p, q) ∈ rows ↔ side[p]? = some q) :
    applyLevels ∅ rows = side := by
  refine ExtTreeMap.ext_getElem? fun p => ?_
  rw [getElem?_applyLevels]
  cases hp : side[p]? with
  | some q =>
    have hmem : (p, q) ∈ rows := (hrows p q).mpr hp
    refine AbsoluteLog.assign_of_mem _ _ ?_ ?_
    · simp only [List.map_map, List.mem_map]
      exact ⟨(p, q), hmem, rfl⟩
    · -- a row of the same price carries the size of the side, which is not zero
      simp only [List.mem_map]
      rintro row ⟨⟨p', q'⟩, hrow, rfl⟩ hkey
      obtain rfl : p' = p := hkey
      have hq : side[p']? = some q' := (hrows p' q').mp hrow
      rw [← hp, hq, levelOf, if_neg (by simp [hside p' q' hq])]
  | none =>
    rw [AbsoluteLog.assign_of_not_mem, ExtTreeMap.getElem?_empty]
    simp only [List.map_map, List.mem_map, not_exists, not_and]
    intro row hrow hkey
    have hsome : side[p]? = some row.2 := (hrows p row.2).mp (hkey ▸ hrow)
    rw [hp] at hsome
    cases hsome

/-- Neither side of the book has an empty level. -/
structure NoEmptyLevels (book : LocalOrderBook P Q) : Prop where
  bids : NoEmptyLevel book.bids
  asks : NoEmptyLevel book.asks

/-- No size equal to zero is ever stored: it removes its level. -/
theorem noEmptyLevels_iff {book : LocalOrderBook P Q} :
    NoEmptyLevels book ↔ StoresOnly (fun level => (level.2 == 0) = false) book :=
  ⟨fun h => ⟨h.bids, h.asks⟩, fun h => ⟨h.bids, h.asks⟩⟩

/-- A new book has no level, and so no empty one. -/
theorem NoEmptyLevels.new : NoEmptyLevels (LocalOrderBook.new : LocalOrderBook P Q) :=
  noEmptyLevels_iff.mpr StoresOnly.new

/-- A message leaves no empty level. -/
theorem NoEmptyLevels.apply {book : LocalOrderBook P Q} (h : NoEmptyLevels book)
    (msg : OrderBookData P Q) : NoEmptyLevels (book.apply msg).1 :=
  noEmptyLevels_iff.mpr
    ((noEmptyLevels_iff.mp h).apply (fun _ _ hqty => hqty) fun _ _ hqty => hqty)

/-- No run of messages leaves an empty level. -/
theorem NoEmptyLevels.applyAll {book : LocalOrderBook P Q} (h : NoEmptyLevels book)
    (msgs : List (OrderBookData P Q)) : NoEmptyLevels (book.applyAll msgs) := by
  induction msgs generalizing book with
  | nil => exact h
  | cons msg msgs ih => exact ih (h.apply msg)

/-! ## A synced book and its export -/

/-- The export has the rows of both sides, so applying it rebuilds them. -/
theorem applyLevels_snapshot {book : LocalOrderBook P Q} (h : NoEmptyLevels book) (now : Int64) :
    applyLevels ∅ (book.snapshot now).bids = book.bids ∧
      applyLevels ∅ (book.snapshot now).asks = book.asks := by
  constructor
  · refine applyLevels_rows h.bids fun p q => ?_
    rw [LocalOrderBook.snapshot, List.mem_reverse, ExtTreeMap.mem_toList_iff_getElem?_eq_some]
  · refine applyLevels_rows h.asks fun p q => ?_
    rw [LocalOrderBook.snapshot, ExtTreeMap.mem_toList_iff_getElem?_eq_some]

/-- A new book that applies the export of a synced book is that book. -/
theorem apply_snapshot_new {book : LocalOrderBook P Q} (h : NoEmptyLevels book)
    (hsync : book.synced = true) (now : Int64) :
    LocalOrderBook.new.apply (book.snapshot now) = (book, .snapshot) := by
  obtain ⟨hbids, hasks⟩ := applyLevels_snapshot h now
  have hbook : LocalOrderBook.new.applySnapshot (book.snapshot now) = book := by
    rw [LocalOrderBook.applySnapshot, hbids, hasks, ← hsync]
    rfl
  -- an export is a snapshot, so `apply` replaces whatever the book holds
  rw [LocalOrderBook.apply, if_pos (show (book.snapshot now).isSnapshot = true from rfl), hbook]

/-- What `apply` reports for each message of a sequence. -/
def outcomes (book : LocalOrderBook P Q) : List (OrderBookData P Q) → List BookApply
  | [] => []
  | msg :: msgs => (book.apply msg).2 :: outcomes (book.apply msg).1 msgs

/-- Two books that a reader cannot tell apart. -/
structure SameView (book book' : LocalOrderBook P Q) : Prop where
  bids : ∀ depth, book.topBids depth = book'.topBids depth
  asks : ∀ depth, book.topAsks depth = book'.topAsks depth
  lastUpdateId : book.lastUpdateId = book'.lastUpdateId
  isSynced : book.isSynced = book'.isSynced
  /-- Symbol, exchange and exchange timestamp show in the exports. -/
  snapshot : ∀ now, book.snapshot now = book'.snapshot now

/-- Under every later sequence of messages the two books report the same outcomes and stay
    indistinguishable. -/
def Bisimilar (book book' : LocalOrderBook P Q) : Prop :=
  ∀ msgs, outcomes book msgs = outcomes book' msgs ∧
    SameView (book.applyAll msgs) (book'.applyAll msgs)

/-- A book is bisimilar to itself. -/
theorem Bisimilar.refl (book : LocalOrderBook P Q) : Bisimilar book book :=
  fun _ => ⟨rfl, fun _ => rfl, fun _ => rfl, rfl, rfl, fun _ => rfl⟩

/-- A new book seeded from the export of a reachable synced book reports a snapshot and is
    bisimilar to it. -/
theorem snapshot_bisimilar (msgs : List (OrderBookData P Q)) (now : Int64)
    (hsync : (LocalOrderBook.new.applyAll msgs).isSynced = true) :
    (LocalOrderBook.new.apply ((LocalOrderBook.new.applyAll msgs).snapshot now)).2 = .snapshot ∧
      Bisimilar (LocalOrderBook.new.apply ((LocalOrderBook.new.applyAll msgs).snapshot now)).1
        (LocalOrderBook.new.applyAll msgs) := by
  rw [apply_snapshot_new (NoEmptyLevels.new.applyAll msgs) hsync now]
  exact ⟨rfl, .refl _⟩

/-- The replica of the example's book behaves as the book. -/
theorem snapshot_bisimilar_exampleRun :
    (LocalOrderBook.new.apply ((LocalOrderBook.new.applyAll exampleRun).snapshot 7)).2 =
        .snapshot ∧
      Bisimilar (LocalOrderBook.new.apply ((LocalOrderBook.new.applyAll exampleRun).snapshot 7)).1
        (LocalOrderBook.new.applyAll exampleRun) :=
  snapshot_bisimilar exampleRun 7 (by decide)

/-! ## A replica seeded from exports -/

/-- A message of the venue, with the proof that it is one. -/
def TrueMessage (venue : VenueHistory P Q) : Type _ :=
  { msg : OrderBookData P Q // venue.IsTrue msg }

/-- Two books of one stream. -/
structure Pair (P Q : Type*) [LinearOrder P] where
  primary : LocalOrderBook P Q
  replica : LocalOrderBook P Q

/-- What can happen to a primary and its replica: a message reaches one of them, or the
    primary is exported and the export is applied to the replica. A message that is lost
    reaches none, one that is repeated reaches its book again. -/
inductive PairAction (venue : VenueHistory P Q) where
  | toPrimary (msg : TrueMessage venue)
  | toReplica (msg : TrueMessage venue)
  | seed (now : Int64)

/-- Two new books. -/
def Pair.new : Pair P Q := ⟨LocalOrderBook.new, LocalOrderBook.new⟩

/-- One step of the two books; all are enabled at any time. -/
def Pair.step {venue : VenueHistory P Q} (s : Pair P Q) : PairAction venue → Option (Pair P Q)
  | .toPrimary msg => some { s with primary := (s.primary.apply msg.1).1 }
  | .toReplica msg => some { s with replica := (s.replica.apply msg.1).1 }
  | .seed now => some { s with replica := (s.replica.apply (s.primary.snapshot now)).1 }

/-- If the book is synced and has an id, its levels are the venue's book after that id. -/
def ShowsVenue (venue : VenueHistory P Q) (book : LocalOrderBook P Q) : Prop :=
  book.isSynced = true → ∀ u, book.lastUpdateId = some u → levels book = venue.bookAfter u

/-- A book with an id holds the venue's book after that id, one without an id holds nothing,
    synced or not. -/
structure Tracks (venue : VenueHistory P Q) (book : LocalOrderBook P Q) : Prop where
  withId : ∀ u, book.lastUpdateId = some u → levels book = venue.bookAfter u
  withoutId : book.lastUpdateId = none → levels book = fun _ => none

/-- The delta has a row for every level that the venue's book has after its last id. -/
def CoversVenue (venue : VenueHistory P Q) (msg : OrderBookData P Q) : Prop :=
  ∀ u, msg.lastUpdateId = some u →
    ∀ level, venue.bookAfter u level ≠ none → level ∈ (rows msg).map Prod.fst

/-- A message does not build on an empty export: a delta that reaches the book while it is
    synced without an id covers the venue's whole book. -/
def BuildsOnBook (venue : VenueHistory P Q) (book : LocalOrderBook P Q)
    (msg : OrderBookData P Q) : Prop :=
  book.isSynced = true → book.lastUpdateId = none → msg.isSnapshot = false →
    CoversVenue venue msg

/-- No message that reaches the replica builds on an empty export. -/
def ReplicaBuildsOnBook {venue : VenueHistory P Q} (s : Pair P Q) : PairAction venue → Prop
  | .toReplica msg => BuildsOnBook venue s.replica msg.1
  | _ => True

/-- A new book tracks every venue. -/
theorem Tracks.new (venue : VenueHistory P Q) : Tracks venue LocalOrderBook.new where
  withId _ h := by cases h
  withoutId _ := levels_new

/-- A book that tracks the venue shows it wherever it is synced. -/
theorem Tracks.showsVenue {venue : VenueHistory P Q} {book : LocalOrderBook P Q}
    (h : Tracks venue book) : ShowsVenue venue book := fun _ => h.withId

/-- A book at id `l` with the venue's levels after `l` is tracked. -/
theorem Tracks.of_some {venue : VenueHistory P Q} {book : LocalOrderBook P Q} {l : UInt64}
    (hid : book.lastUpdateId = some l) (hlevels : levels book = venue.bookAfter l) :
    Tracks venue book where
  withId u hu := by rw [hlevels, Option.eq_some_unique hid hu]
  withoutId h := by
    rw [hid] at h
    cases h

/-- A delta over the ids up to `l` that brings the book to the venue's book after `l`. -/
theorem Tracks.applyDelta {venue : VenueHistory P Q} {book : LocalOrderBook P Q}
    {msg : OrderBookData P Q} {l : UInt64} (hl : msg.lastUpdateId = some l)
    (hlevels : AbsoluteLog.assign (levels book) (rows msg) = venue.bookAfter l) :
    Tracks venue (book.applyDelta msg) :=
  .of_some (by simp [hl]) ((levels_applyDelta book msg).trans hlevels)

/-- A true message keeps the book on the venue's book, unless it builds on an empty export. -/
theorem Tracks.apply {venue : VenueHistory P Q} {book : LocalOrderBook P Q}
    {msg : OrderBookData P Q} (h : Tracks venue book) (hmsg : venue.IsTrue msg)
    (hok : BuildsOnBook venue book msg) : Tracks venue (book.apply msg).1 := by
  have hout := book.apply_outcome msg
  generalize book.apply msg = r at hout
  cases hout with
  | snapshot hsnap =>
    -- a true snapshot carries all levels that the venue has at its id
    obtain ⟨_, s, hs, hrows⟩ | ⟨hdelta, _⟩ := hmsg
    · refine Tracks.of_some (l := s) (by simp [hs]) ?_
      rw [levels_applySnapshot]
      exact venue.log.assign_eq_after_of_snapshot hrows
    · simp [hsnap] at hdelta
  | awaiting _ _ => exact h
  | stale _ _ _ _ _ => exact h
  | gap _ _ _ _ _ _ => exact ⟨h.withId, h.withoutId⟩
  | delta hsnap hsync hprev hlast hlt hfirst =>
    rename_i prev last
    obtain ⟨hs, _⟩ | ⟨_, f, l, hfl, hf, hl, hrows⟩ := hmsg
    · simp [hsnap] at hs
    obtain rfl : last = l := Option.eq_some_unique hlast hl
    refine Tracks.applyDelta hlast ?_
    rw [h.withId prev hprev]
    -- the delta starts at most one past the book and ends after it, so no update is missing
    refine venue.log.assign_after_of_merge hrows ?_ ?_
    · rw [hf, Option.getD_some, UInt64.le_iff_toNat_le,
        LocalOrderBook.toNat_prev_add_one hlt] at hfirst
      exact hfirst
    · exact Nat.le_of_lt (UInt64.lt_iff_toNat_lt.mp hlt)
  | unchecked hsnap hsync hnone =>
    obtain ⟨hs, _⟩ | ⟨_, f, l, _, _, hl, hrows⟩ := hmsg
    · simp [hsnap] at hs
    -- a true delta has an id, so it is the book that has none: it holds nothing
    have hid : book.lastUpdateId = none := hnone.resolve_right (by simp [hl])
    refine Tracks.applyDelta hl ?_
    rw [h.withoutId hid]
    -- the rows carry the venue's sizes and leave out only levels that the venue does not have
    exact venue.log.assign_eq_after_of_snapshot ⟨hrows.value, hok hsync hid hsnap l hl⟩

/-- A delta that builds on an empty export without covering the venue's book leaves the book
    synced at an id with a level missing. -/
theorem not_showsVenue_of_not_buildsOnBook {venue : VenueHistory P Q}
    {book : LocalOrderBook P Q} {msg : OrderBookData P Q} (h : Tracks venue book)
    (hok : ¬ BuildsOnBook venue book msg) : ¬ ShowsVenue venue (book.apply msg).1 := by
  simp only [BuildsOnBook, CoversVenue, Classical.not_imp, not_forall] at hok
  obtain ⟨hsync, hid, hsnap, l, hl, level, hlevel, hrow⟩ := hok
  have happly : (book.apply msg).1 = book.applyDelta msg := by
    have hsync' : book.synced = true := hsync
    simp [LocalOrderBook.apply, hsnap, hsync', hid]
  intro hshows
  rw [happly] at hshows
  have hsynced : (book.applyDelta msg).isSynced = true := by
    rw [LocalOrderBook.isSynced, LocalOrderBook.applyDelta_synced]
    exact hsync
  have hlevels := hshows hsynced l (by simp [hl])
  rw [levels_applyDelta, h.withoutId hid] at hlevels
  -- the level has no row, so nothing put it into the book
  apply hlevel
  rw [← hlevels, AbsoluteLog.assign_of_not_mem _ _ hrow]

/-- What holds of the two books while no message builds on an empty export. -/
structure PairInvariant (venue : VenueHistory P Q) (s : Pair P Q) : Prop where
  primary : Tracks venue s.primary
  primaryLevels : NoEmptyLevels s.primary
  primaryMirrors : Mirrors venue s.primary
  replica : Tracks venue s.replica

/-- A new pair of books satisfies the invariant. -/
theorem PairInvariant.new (venue : VenueHistory P Q) : PairInvariant venue Pair.new where
  primary := Tracks.new venue
  primaryLevels := NoEmptyLevels.new
  primaryMirrors := Mirrors.new venue
  replica := Tracks.new venue

/-- A book that mirrors the venue never builds on an empty export: it has an id when it is
    synced. -/
theorem Mirrors.buildsOnBook {venue : VenueHistory P Q} {book : LocalOrderBook P Q}
    (h : Mirrors venue book) (msg : OrderBookData P Q) : BuildsOnBook venue book msg := by
  intro hsync hid
  obtain ⟨u, hu, _⟩ := h hsync
  simp [hid] at hu

/-- A book that applies the export of another one gets its levels and its id. -/
theorem Tracks.seed {venue : VenueHistory P Q} {primary : LocalOrderBook P Q}
    (h : Tracks venue primary) (hlevels : NoEmptyLevels primary)
    (replica : LocalOrderBook P Q) (now : Int64) :
    Tracks venue (replica.apply (primary.snapshot now)).1 := by
  obtain ⟨hbids, hasks⟩ := applyLevels_snapshot hlevels now
  -- the export replaces the replica's levels and its id, whatever they were
  have heq : levels (replica.apply (primary.snapshot now)).1 = levels primary := by
    funext level
    obtain ⟨side, price⟩ := level
    cases side with
    | bid => exact congrArg (·[price]?) ((replica.applySnapshot_bids _).trans hbids)
    | ask => exact congrArg (·[price]?) ((replica.applySnapshot_asks _).trans hasks)
  have hid : (replica.apply (primary.snapshot now)).1.lastUpdateId = primary.lastUpdateId :=
    replica.applySnapshot_lastUpdateId _
  constructor
  · intro u hu
    rw [heq]
    exact h.withId u (hid ▸ hu)
  · intro hnone
    rw [heq]
    exact h.withoutId (hid ▸ hnone)

/-- One step keeps the invariant unless the replica builds on an empty export. -/
theorem PairInvariant.step {venue : VenueHistory P Q} {s s' : Pair P Q}
    {a : PairAction venue} (h : PairInvariant venue s) (hok : ReplicaBuildsOnBook s a)
    (hstep : s.step a = some s') : PairInvariant venue s' := by
  cases a with
  | toPrimary msg =>
    cases hstep
    -- the primary applies no export, so it has an id whenever it is synced
    exact ⟨h.primary.apply msg.2 (h.primaryMirrors.buildsOnBook msg.1),
      h.primaryLevels.apply msg.1, h.primaryMirrors.apply msg.2, h.replica⟩
  | toReplica msg =>
    cases hstep
    exact ⟨h.primary, h.primaryLevels, h.primaryMirrors, h.replica.apply msg.2 hok⟩
  | seed now =>
    cases hstep
    exact ⟨h.primary, h.primaryLevels, h.primaryMirrors,
      h.primary.seed h.primaryLevels s.replica now⟩

/-- Every action is enabled, so every list of actions is a run. -/
theorem Pair.exists_run {venue : VenueHistory P Q} (s : Pair P Q)
    (actions : List (PairAction venue)) : ∃ s', run Pair.step s actions = some s' := by
  induction actions generalizing s with
  | nil => exact ⟨s, rfl⟩
  | cons a actions ih =>
    rw [run_cons]
    cases a with
    | toPrimary msg => exact ih _
    | toReplica msg => exact ih _
    | seed now => exact ih _

/-- Feed two new books true messages of one venue in any order, with any of them lost or
    repeated, and apply exports of the first to the second at any time. Throughout the run
    the second shows the venue's book when it is synced at an id, if and only if no delta
    reaches it while it is synced without an id, unless the delta covers the whole book. -/
theorem replica_shows_venue_iff (venue : VenueHistory P Q) (actions : List (PairAction venue)) :
    Throughout Pair.step (fun s => ShowsVenue venue s.replica) Pair.new actions ↔
      StepsMeet Pair.step ReplicaBuildsOnBook Pair.new actions := by
  obtain ⟨s', hrun⟩ := Pair.exists_run Pair.new actions
  refine throughout_iff_stepsMeet Pair.step (I := PairInvariant venue)
    (fun s h => h.replica.showsVenue) (fun s a s' h hok hstep => h.step hok hstep) ?_ hrun
    (.new venue)
  intro s a s' h hok hstep
  cases a with
  | toReplica msg =>
    cases hstep
    exact not_showsVenue_of_not_buildsOnBook h.replica hok
  | toPrimary msg => exact absurd trivial hok
  | seed now => exact absurd trivial hok

/-! ### An empty export -/

/-- A venue with a resting bid that gets an ask. -/
def restingVenue : VenueHistory ℤ ℤ where
  updates
    | 0 => [((.bid, 100), 5)]
    | 1 => [((.ask, 101), 2)]
    | _ => []

/-- The delta that sets the resting level again is true of the venue. -/
theorem isTrue_restingDelta :
    restingVenue.IsTrue (exampleMessage false [] [(101, 2)] 1 1) := by
  refine Or.inr ⟨rfl, 1, 1, by decide, rfl, rfl, by decide, ?_⟩
  rintro k ⟨n, hn, hn', hmem⟩
  obtain rfl : n = 1 := Nat.le_antisymm hn' hn
  exact hmem

/-- The delta of the ask. -/
def restingDelta : TrueMessage restingVenue := ⟨_, isTrue_restingDelta⟩

/-- Seeded from a primary that has seen no message, the replica takes the next delta for the
    whole book and is synced at id 1 without the bid. -/
theorem not_always_showsVenue :
    ¬ ∀ (venue : VenueHistory ℤ ℤ) (actions : List (PairAction venue)),
      Throughout Pair.step (fun s => ShowsVenue venue s.replica) Pair.new actions := by
  intro h
  have hrun := h restingVenue [.seed 7, .toReplica restingDelta]
  have hshows := (hrun.2 _ rfl).2 _ rfl
  have hlevels := congrFun (hshows (by decide) 1 (by decide)) (.bid, 100)
  revert hlevels
  decide

end ExchangeApiws.Spec
