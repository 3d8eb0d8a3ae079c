import Mathlib.Data.List.Lookmap
import Mathlib.Data.List.Nodup
import ExchangeApiws.ForStd.List

/-!
# Formats of records

A record is written as a list of keyed values and read by looking its keys up, so that the order
of the entries, and entries with other keys, make no difference. A format is built up field by
field, and what comes back from reading what was written is computed field by field, too.

## Key results

- `read_of_perm`: order and other entries do not matter
- `readBack_field`, `readBack_nullable`, `readBack_skippable`: what comes back of one more field
-/

/-- How a value is written into a carrier, and how it is read. -/
structure ValueFormat (V A : Type*) where
  write : A → V
  read : V → Option A

namespace ValueFormat

variable {V A B : Type*}

/-- What was written is read as itself if it satisfies `p`, and not at all otherwise. -/
def Exact (value : ValueFormat V A) (p : A → Prop) : Prop :=
  ∀ a, (p a → value.read (value.write a) = some a) ∧ (¬p a → value.read (value.write a) = none)

/-- What an exact format reads back, as one expression. -/
theorem Exact.read_eq_ite {value : ValueFormat V A} {p : A → Prop} [DecidablePred p]
    (h : value.Exact p) (a : A) :
    value.read (value.write a) = if p a then some a else none := by
  split
  · exact (h a).1 ‹_›
  · exact (h a).2 ‹_›

/-- A list, entry by entry. -/
def list (value : ValueFormat V A) : ValueFormat (List V) (List A) where
  write := List.map value.write
  read := List.mapM value.read

/-- A list comes back if each of its entries does, and not at all otherwise. -/
theorem Exact.list {value : ValueFormat V A} {p : A → Prop} (h : value.Exact p) :
    value.list.Exact fun l => ∀ a ∈ l, p a := by
  intro l
  induction l with
  | nil => exact ⟨fun _ => rfl, fun hnot => absurd (by simp) hnot⟩
  | cons a l ih =>
    have hcons : value.list.read (value.list.write (a :: l)) =
        (value.read (value.write a)).bind fun b =>
          (value.list.read (value.list.write l)).map (b :: ·) := by
      simp only [ValueFormat.list, List.map_cons, List.mapM_cons, Option.bind_eq_bind,
        Option.pure_def, Option.map_eq_bind, Function.comp_def]
    constructor
    · intro hall
      obtain ⟨ha, hl⟩ := List.forall_mem_cons.mp hall
      rw [hcons, (h a).1 ha, ih.1 hl, Option.bind_some, Option.map_some]
    · intro hnot
      rw [hcons]
      by_cases ha : p a
      · have hl : ¬∀ b ∈ l, p b := fun hl => hnot (List.forall_mem_cons.mpr ⟨ha, hl⟩)
        simp [ih.2 hl]
      · rw [(h a).2 ha, Option.bind_none]

end ValueFormat

/-- A carrier with a value that stands for an absent one. -/
class NullValue (V : Type*) where
  null : V
  isNull : V → Bool
  isNull_null : isNull null = true

/-- How the fields of an `R` are written, and how an `A` is read from them. -/
structure RecordFormat (K V R A : Type*) where
  keys : List K
  write : R → List (K × V)
  read : (K → Option V) → Option A
  write_keys : ∀ r, ∀ entry ∈ write r, entry.1 ∈ keys
  write_nodup : ∀ r, ((write r).map Prod.fst).Nodup
  /-- Reading looks at the keys of the format only. -/
  read_congr : ∀ look look', (∀ k ∈ keys, look k = look' k) → read look = read look'

namespace RecordFormat

variable {K V R A B : Type*}

/-- No fields yet. -/
def pure (a : A) : RecordFormat K V R A where
  keys := []
  write _ := []
  read _ := some a
  write_keys _ _ h := by cases h
  write_nodup _ := List.nodup_nil
  read_congr _ _ _ := rfl

@[simp] theorem keys_pure (a : A) : (pure a : RecordFormat K V R A).keys = [] := rfl

/-- One more field, written by `write` and read by `read` from what its key holds. -/
def addField (format : RecordFormat K V R (A → B)) (k : K) (write : R → Option V)
    (read : Option V → Option A) (h : k ∉ format.keys) : RecordFormat K V R B where
  keys := format.keys ++ [k]
  write r := format.write r ++ ((write r).map fun v => (k, v)).toList
  read look := (format.read look).bind fun f => (read (look k)).map f
  write_keys r entry hmem := by
    rcases List.mem_append.mp hmem with hmem | hmem
    · exact List.mem_append_left _ (format.write_keys r entry hmem)
    · obtain ⟨v, -, rfl⟩ := Option.map_eq_some_iff.mp (Option.mem_toList.mp hmem)
      exact List.mem_append_right _ List.mem_cons_self
  write_nodup r := by
    rw [List.map_append]
    refine List.Nodup.append (format.write_nodup r) ?_ ?_
    · cases write r <;> simp
    · intro k' hk' hk
      obtain ⟨entry, hentry, rfl⟩ := List.mem_map.mp hk'
      obtain ⟨entry', hentry', heq⟩ := List.mem_map.mp hk
      obtain ⟨v, -, rfl⟩ := Option.map_eq_some_iff.mp (Option.mem_toList.mp hentry')
      exact h ((show entry.1 = k from heq.symm) ▸ format.write_keys r entry hentry)
  read_congr look look' heq := by
    rw [format.read_congr look look' fun k' hk' => heq k' (List.mem_append_left _ hk'),
      heq k (List.mem_append_right _ List.mem_cons_self)]

/-- A field that is always written and has to be there. -/
def field (format : RecordFormat K V R (A → B)) (k : K) (value : ValueFormat V A) (proj : R → A)
    (h : k ∉ format.keys := by simp) : RecordFormat K V R B :=
  format.addField k (fun r => some (value.write (proj r))) (·.bind value.read) h

/-- A field adds its key. -/
@[simp] theorem keys_field (format : RecordFormat K V R (A → B)) (k : K)
    (value : ValueFormat V A) (proj : R → A) (h : k ∉ format.keys) :
    (format.field k value proj h).keys = format.keys ++ [k] := rfl

/-- A field that may be missing: an absent one, or one that holds a null, is `none`. `blank` is
    what is written for `none`, if anything. -/
def option [NullValue V] (format : RecordFormat K V R (Option A → B)) (blank : Option V) (k : K)
    (value : ValueFormat V A) (proj : R → Option A) (h : k ∉ format.keys) : RecordFormat K V R B :=
  format.addField k
    (fun r => match proj r with
      | some a => some (value.write a)
      | none => blank)
    (fun found => match found with
      | none => some none
      | some v => if NullValue.isNull v then some none else (value.read v).map some) h

/-- A field that is written as a null where it is `none`. -/
def nullable [NullValue V] (format : RecordFormat K V R (Option A → B)) (k : K)
    (value : ValueFormat V A) (proj : R → Option A) (h : k ∉ format.keys := by simp) :
    RecordFormat K V R B :=
  format.option (some NullValue.null) k value proj h

@[simp] theorem keys_nullable [NullValue V] (format : RecordFormat K V R (Option A → B)) (k : K)
    (value : ValueFormat V A) (proj : R → Option A) (h : k ∉ format.keys) :
    (format.nullable k value proj h).keys = format.keys ++ [k] := rfl

/-- A field that is not written where it is `none`. -/
def skippable [NullValue V] (format : RecordFormat K V R (Option A → B)) (k : K)
    (value : ValueFormat V A) (proj : R → Option A) (h : k ∉ format.keys := by simp) :
    RecordFormat K V R B :=
  format.option none k value proj h

@[simp] theorem keys_skippable [NullValue V] (format : RecordFormat K V R (Option A → B)) (k : K)
    (value : ValueFormat V A) (proj : R → Option A) (h : k ∉ format.keys) :
    (format.skippable k value proj h).keys = format.keys ++ [k] := rfl

/-! ## Reading what was written -/

variable [BEq K] [LawfulBEq K]

/-- What reading what was written gives. -/
def readBack (format : RecordFormat K V R A) (r : R) : Option A :=
  format.read ((format.write r).lookup ·)

omit [LawfulBEq K] in
@[simp] theorem readBack_pure (a : A) (r : R) :
    (pure a : RecordFormat K V R A).readBack r = some a := rfl

/-- A key that no entry has is not found. -/
theorem lookup_eq_none_of_notMem {k : K} {entries : List (K × V)}
    (h : k ∉ entries.map Prod.fst) : entries.lookup k = none := by
  rw [List.lookup_eq_none_iff]
  intro entry hentry
  rw [bne_iff_ne]
  rintro rfl
  exact h (List.mem_map_of_mem hentry)

/-- What comes back of one more field. -/
theorem readBack_addField (format : RecordFormat K V R (A → B)) (k : K) (write : R → Option V)
    (read : Option V → Option A) (h : k ∉ format.keys) (r : R) :
    (format.addField k write read h).readBack r =
      (format.readBack r).bind fun f => (read (write r)).map f := by
  -- the new key finds the new entry, and every other key what it found before
  have hnew : k ∉ (format.write r).map Prod.fst := by
    intro hmem
    obtain ⟨entry, hentry, rfl⟩ := List.mem_map.mp hmem
    exact h (format.write_keys r entry hentry)
  have hlast : ((format.addField k write read h).write r).lookup k = write r := by
    show (format.write r ++ ((write r).map fun v => (k, v)).toList).lookup k = write r
    rw [List.lookup_append, lookup_eq_none_of_notMem hnew, Option.none_or]
    cases write r <;> simp
  have hrest : format.read (((format.addField k write read h).write r).lookup ·) =
      format.readBack r := by
    refine format.read_congr _ _ fun k' hk' => ?_
    show (format.write r ++ ((write r).map fun v => (k, v)).toList).lookup k' = _
    rw [List.lookup_append]
    have hother : (((write r).map fun v => (k, v)).toList).lookup k' = none := by
      apply lookup_eq_none_of_notMem
      cases write r with
      | none => simp
      | some v =>
        simp only [Option.map_some, Option.toList_some, List.map_cons, List.map_nil,
          List.mem_singleton]
        rintro rfl
        exact h hk'
    rw [hother, Option.or_none]
  calc (format.addField k write read h).readBack r
      = (format.read (((format.addField k write read h).write r).lookup ·)).bind fun f =>
          (read (((format.addField k write read h).write r).lookup k)).map f := rfl
    _ = _ := by rw [hrest, hlast]

/-- What comes back with one more required field. -/
@[simp] theorem readBack_field (format : RecordFormat K V R (A → B)) (k : K)
    (value : ValueFormat V A) (proj : R → A) (h : k ∉ format.keys) (r : R) :
    (format.field k value proj h).readBack r =
      (format.readBack r).bind fun f => (value.read (value.write (proj r))).map f :=
  readBack_addField format k _ _ h r

/-- What comes back of an optional field: one that is written as a null is lost. -/
def readBackOption [NullValue V] (value : ValueFormat V A) : Option A → Option (Option A)
  | none => some none
  | some a => if NullValue.isNull (value.write a) then some none
    else (value.read (value.write a)).map some

/-- What comes back with one more optional field that is written as a null. -/
@[simp] theorem readBack_nullable [NullValue V] (format : RecordFormat K V R (Option A → B)) (k : K)
    (value : ValueFormat V A) (proj : R → Option A) (h : k ∉ format.keys) (r : R) :
    (format.nullable k value proj h).readBack r =
      (format.readBack r).bind fun f => (readBackOption value (proj r)).map f := by
  rw [nullable, option, readBack_addField]
  cases proj r with
  | some a => rfl
  | none => simp only [NullValue.isNull_null, if_true, readBackOption]

/-- What comes back with one more optional field that is left out. -/
@[simp] theorem readBack_skippable [NullValue V] (format : RecordFormat K V R (Option A → B))
    (k : K) (value : ValueFormat V A) (proj : R → Option A) (h : k ∉ format.keys) (r : R) :
    (format.skippable k value proj h).readBack r =
      (format.readBack r).bind fun f => (readBackOption value (proj r)).map f := by
  rw [skippable, option, readBack_addField]
  cases proj r with
  | some a => rfl
  | none => rfl

/-- Entries in any order, and with entries under other keys, read as those that were written. -/
theorem read_of_perm (format : RecordFormat K V R A) {r : R} {entries others : List (K × V)}
    (hperm : entries.Perm (format.write r ++ others)) (hnodup : (entries.map Prod.fst).Nodup)
    (hothers : ∀ entry ∈ others, entry.1 ∉ format.keys) :
    format.read (entries.lookup ·) = format.readBack r := by
  refine format.read_congr _ _ fun k hk => ?_
  cases hlookup : (format.write r).lookup k with
  | some v =>
    have hmem : (k, v) ∈ entries :=
      hperm.mem_iff.mpr (List.mem_append_left _ (List.mem_of_lookup_eq_some hlookup))
    exact List.lookup_eq_some_of_mem hnodup hmem
  | none =>
    apply lookup_eq_none_of_notMem
    intro hmem
    obtain ⟨entry, hentry, rfl⟩ := List.mem_map.mp hmem
    rcases List.mem_append.mp (hperm.mem_iff.mp hentry) with hwritten | hother
    · have hne := List.lookup_eq_none_iff.mp hlookup entry hwritten
      simp at hne
    · exact hothers entry hother hk

end RecordFormat
