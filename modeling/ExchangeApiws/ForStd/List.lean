import Mathlib.Data.List.Forall2
import Mathlib.Data.List.Nodup

/-!
# List lemmas for the standard library

Modifying several entries of a list, one after the other, relating lists entry by entry, looking
for a list inside a joined one, looking up a key that occurs once, and keeping the first entry of
every key.

## Key results

- `getElem?_foldl_modify`: a fold of modifications reads as one conditional map
- `Forall₂.congr_forall`: one relation between two lists, given another
- `infix_append_cons_iff`: a part of a joined list without the separator is in one side of it
- `nodup_keys_keepFirst`: no two entries kept share a key
- `mem_keys_keepFirst`: every key of the list is kept, unless it was seen before
-/

namespace List

variable {α κ : Type*}

/-- Modifying one entry changes the lookup at its index only. -/
theorem getElem?_modify_eq_ite (f : α → α) (i j : ℕ) (l : List α) :
    (l.modify i f)[j]? = if i = j then l[j]?.map f else l[j]? := by
  rw [getElem?_modify]
  by_cases h : i = j
  · simp [h]
  · simp [h]

/-- A fold that modifies the entries named by `ids` with an idempotent function modifies each
    of them once. -/
theorem getElem?_foldl_modify {f : α → α} (hf : ∀ a, f (f a) = f a) (ids : List (κ × ℕ))
    (l : List α) (j : ℕ) :
    (ids.foldl (fun l id => l.modify id.2 f) l)[j]? =
      if j ∈ ids.map Prod.snd then l[j]?.map f else l[j]? := by
  induction ids generalizing l with
  | nil => simp
  | cons id ids ih =>
    rw [foldl_cons, ih, getElem?_modify_eq_ite, map_cons]
    by_cases hid : id.2 = j
    · -- the entry is modified here and perhaps again: `f` is idempotent
      have hmem : j ∈ id.2 :: ids.map Prod.snd := hid ▸ mem_cons_self
      rw [if_pos hid, if_pos (c := j ∈ id.2 :: ids.map Prod.snd) hmem, Option.map_map]
      split
      · congr 1
        funext a
        exact hf a
      · rfl
    · have hmem : j ∈ id.2 :: ids.map Prod.snd ↔ j ∈ ids.map Prod.snd := by
        simp [Ne.symm hid]
      simp only [if_neg hid, hmem]

/-- Where related entries stand in a second relation exactly when a property holds of the
    first one, the lists do exactly when it holds of every entry of the first list. -/
theorem Forall₂.congr_forall {β : Type*} {R S : α → β → Prop} {p : α → Prop} {l : List α}
    {m : List β} (h : Forall₂ R l m) (hiff : ∀ {a b}, R a b → (S a b ↔ p a)) :
    Forall₂ S l m ↔ ∀ a ∈ l, p a := by
  induction h with
  | nil => simp
  | cons hab _ ih => rw [forall₂_cons, hiff hab, ih, forall_mem_cons]

/-- An entry of the second list is related to one of the first. -/
theorem Forall₂.exists_left {β : Type*} {R : α → β → Prop} {l : List α} {m : List β}
    (h : Forall₂ R l m) {b : β} (hb : b ∈ m) : ∃ a ∈ l, R a b := by
  induction h with
  | nil => cases hb
  | cons hab _ ih =>
    rcases mem_cons.mp hb with rfl | hb
    · exact ⟨_, mem_cons_self, hab⟩
    · obtain ⟨a, ha, hab⟩ := ih hb
      exact ⟨a, mem_cons_of_mem _ ha, hab⟩

/-- Lists of one length whose entries agree under two maps have the same image. -/
theorem map_eq_map_of_zip {β γ : Type*} {f : α → γ} {g : β → γ} {l : List α} {m : List β}
    (hlen : l.length = m.length) (h : ∀ pair ∈ l.zip m, f pair.1 = g pair.2) :
    l.map f = m.map g := by
  induction l generalizing m with
  | nil =>
    cases m with
    | nil => rfl
    | cons b m => cases hlen
  | cons a l ih =>
    cases m with
    | nil => cases hlen
    | cons b m =>
      rw [zip_cons_cons, forall_mem_cons] at h
      rw [map_cons, map_cons, h.1, ih (Nat.succ.inj hlen) h.2]

/-- What is looked up is an entry of the list. -/
theorem mem_of_lookup_eq_some {β : Type*} [BEq κ] [LawfulBEq κ] {l : List (κ × β)} {k : κ} {b : β}
    (h : l.lookup k = some b) : (k, b) ∈ l := by
  obtain ⟨before, after, hl, -⟩ := lookup_eq_some_iff.mp h
  exact hl ▸ mem_append_right _ mem_cons_self

/-- Where no key occurs twice, every entry is found under its key. -/
theorem lookup_eq_some_of_mem {β : Type*} [BEq κ] [LawfulBEq κ] {l : List (κ × β)}
    (hnodup : (l.map Prod.fst).Nodup) {k : κ} {b : β} (h : (k, b) ∈ l) : l.lookup k = some b := by
  cases hlookup : l.lookup k with
  | none =>
    have hne := lookup_eq_none_iff.mp hlookup (k, b) h
    simp at hne
  | some c =>
    have heq := inj_on_of_nodup_map hnodup h (mem_of_lookup_eq_some hlookup) rfl
    rw [(Prod.mk.inj heq).2]


/-- Where every entry has a value, leaving out the entries without one leaves out nothing. -/
theorem filterMap_eq_of_mapM_eq_some {β : Type*} {f : α → Option β} {l : List α} {m : List β}
    (h : l.mapM f = some m) : l.filterMap f = m := by
  induction l generalizing m with
  | nil => simpa using h
  | cons a l ih =>
    rw [mapM_cons, Option.bind_eq_bind, Option.bind_eq_some_iff] at h
    obtain ⟨b, hb, h⟩ := h
    rw [Option.bind_eq_bind, Option.bind_eq_some_iff] at h
    obtain ⟨m', hm', h⟩ := h
    obtain rfl := Option.some.inj h
    rw [filterMap_cons_some hb, ih hm']

/-! ## Parts of a joined list -/

/-- A list maps as a whole if every element does. -/
theorem isSome_mapM {β : Type*} (f : α → Option β) (l : List α) :
    (l.mapM f).isSome = l.all fun a => (f a).isSome := by
  induction l with
  | nil => rfl
  | cons a l ih =>
    rw [mapM_cons, all_cons, ← ih]
    cases f a with
    | none => rfl
    | some b => cases l.mapM f <;> rfl

/-- A part of a joined list that does not hold the separator is in one side of it. -/
theorem infix_append_cons_iff {p a b : List α} {sep : α} (hsep : sep ∉ p) :
    p <:+: a ++ sep :: b ↔ p <:+: a ∨ p <:+: b := by
  constructor
  · rintro ⟨s, t, h⟩
    rcases append_eq_append_iff.mp h with ⟨x, rfl, -⟩ | ⟨x, hsp, hx⟩
    · exact Or.inl ⟨s, x, rfl⟩
    · -- `x` is what of the part and its beginning is behind `a`
      cases x with
      | nil => exact Or.inl ⟨s, [], by rw [hsp, append_nil, append_nil]⟩
      | cons c x =>
        obtain ⟨rfl, rfl⟩ := cons.inj hx
        rcases append_eq_append_iff.mp hsp with ⟨y, -, hp⟩ | ⟨y, -, hy⟩
        · exact absurd (hp ▸ mem_append_right y mem_cons_self) hsep
        · cases y with
          | nil =>
            rw [nil_append] at hy
            exact absurd (hy ▸ mem_cons_self) hsep
          | cons c y =>
            obtain ⟨-, rfl⟩ := cons.inj hy
            exact Or.inr ⟨y, t, rfl⟩
  · rintro (h | h)
    · exact h.trans (prefix_append a _).isInfix
    · exact h.trans ((suffix_cons sep b).trans (suffix_append a _)).isInfix

/-! ## The first entry of every key -/

variable [DecidableEq κ]

/-- The entries whose key was not seen before them; entries without a key are dropped. -/
def keepFirst (key : α → Option κ) : List κ → List α → List α
  | _, [] => []
  | seen, a :: l =>
    match key a with
    | none => keepFirst key seen l
    | some k => if k ∈ seen then keepFirst key seen l else a :: keepFirst key (k :: seen) l

variable {key : α → Option κ} {seen : List κ} {a : α} {l : List α} {k : κ}

/-- An element without a key is dropped. -/
theorem keepFirst_cons_of_none (h : key a = none) :
    keepFirst key seen (a :: l) = keepFirst key seen l := by
  simp only [keepFirst, h]

/-- An element whose key was seen before is dropped. -/
theorem keepFirst_cons_of_mem (h : key a = some k) (hmem : k ∈ seen) :
    keepFirst key seen (a :: l) = keepFirst key seen l := by
  simp only [keepFirst, h, if_pos hmem]

/-- An element with a new key is kept, and its key has been seen. -/
theorem keepFirst_cons_of_notMem (h : key a = some k) (hmem : k ∉ seen) :
    keepFirst key seen (a :: l) = a :: keepFirst key (k :: seen) l := by
  simp only [keepFirst, h, if_neg hmem]

/-- What is kept is in the order of the list. -/
theorem keepFirst_sublist (key : α → Option κ) (seen : List κ) (l : List α) :
    (keepFirst key seen l).Sublist l := by
  induction l generalizing seen with
  | nil => exact Sublist.slnil
  | cons a l ih =>
    cases hkey : key a with
    | none =>
      rw [keepFirst_cons_of_none hkey]
      exact (ih seen).cons a
    | some k =>
      by_cases hmem : k ∈ seen
      · rw [keepFirst_cons_of_mem hkey hmem]
        exact (ih seen).cons a
      · rw [keepFirst_cons_of_notMem hkey hmem]
        exact (ih (k :: seen)).cons_cons a

/-- What is kept has a key, and a new one. -/
theorem exists_key_of_mem_keepFirst (hmem : a ∈ keepFirst key seen l) :
    ∃ k, key a = some k ∧ k ∉ seen := by
  induction l generalizing seen with
  | nil => simp [keepFirst] at hmem
  | cons b l ih =>
    cases hb : key b with
    | none =>
      rw [keepFirst_cons_of_none hb] at hmem
      exact ih hmem
    | some k' =>
      by_cases hseen : k' ∈ seen
      · rw [keepFirst_cons_of_mem hb hseen] at hmem
        exact ih hmem
      · rw [keepFirst_cons_of_notMem hb hseen] at hmem
        rcases List.mem_cons.mp hmem with rfl | hmem
        · exact ⟨k', hb, hseen⟩
        · obtain ⟨k, hk, hnot⟩ := ih hmem
          exact ⟨k, hk, fun h => hnot (mem_cons_of_mem k' h)⟩

/-- The keys kept are new. -/
theorem notMem_seen_of_mem_keepFirst (hmem : a ∈ keepFirst key seen l) (hkey : key a = some k) :
    k ∉ seen := by
  obtain ⟨k', hk', hnot⟩ := exists_key_of_mem_keepFirst hmem
  rw [hkey, Option.some_inj] at hk'
  exact hk' ▸ hnot

/-- No two entries kept share a key. -/
theorem nodup_keys_keepFirst (key : α → Option κ) (seen : List κ) (l : List α) :
    ((keepFirst key seen l).map key).Nodup := by
  induction l generalizing seen with
  | nil => exact nodup_nil
  | cons a l ih =>
    cases hkey : key a with
    | none =>
      rw [keepFirst_cons_of_none hkey]
      exact ih seen
    | some k =>
      by_cases hmem : k ∈ seen
      · rw [keepFirst_cons_of_mem hkey hmem]
        exact ih seen
      · rw [keepFirst_cons_of_notMem hkey hmem, map_cons, nodup_cons]
        refine ⟨?_, ih (k :: seen)⟩
        rintro hdup
        obtain ⟨b, hb, hbk⟩ := List.mem_map.mp hdup
        exact notMem_seen_of_mem_keepFirst hb (hbk.trans hkey) mem_cons_self

/-- Every key of the list was seen before or is kept. -/
theorem mem_keys_keepFirst (hmem : a ∈ l) (hkey : key a = some k) :
    k ∈ seen ∨ some k ∈ (keepFirst key seen l).map key := by
  induction l generalizing seen with
  | nil => simp at hmem
  | cons b l ih =>
    cases hb : key b with
    | none =>
      rw [keepFirst_cons_of_none hb]
      rcases List.mem_cons.mp hmem with rfl | hmem
      · simp [hb] at hkey
      · exact ih hmem
    | some k' =>
      by_cases hseen : k' ∈ seen
      · rw [keepFirst_cons_of_mem hb hseen]
        rcases List.mem_cons.mp hmem with rfl | hmem
        · rw [hb, Option.some_inj] at hkey
          exact Or.inl (hkey ▸ hseen)
        · exact ih hmem
      · rw [keepFirst_cons_of_notMem hb hseen, map_cons, mem_cons]
        rcases List.mem_cons.mp hmem with rfl | hmem
        · exact Or.inr (Or.inl hkey.symm)
        · have hrest : k ∈ k' :: seen ∨ some k ∈ (keepFirst key (k' :: seen) l).map key := ih hmem
          rcases hrest with hin | hin
          · rcases List.mem_cons.mp hin with rfl | hin
            · exact Or.inr (Or.inl hb.symm)
            · exact Or.inl hin
          · exact Or.inr (Or.inr hin)

end List
