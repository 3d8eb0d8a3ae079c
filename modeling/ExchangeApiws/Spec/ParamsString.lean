import ExchangeApiws.Native.CryptocomAuth

/-!
# The params string

The signature of a request covers its params as one string. The string goes through the keys of
every object in ascending order, so it does not depend on the order they came in.

## Key results

- `buildParamsString_object`: the string of an object, key by key
- `SameUpToKeyOrder.buildParamsString_eq`: the string does not depend on the order of keys
- `params_string_canonical`: the string and the signature, for all values
-/

namespace ExchangeApiws.Spec

open Native Native.Cryptocom KeySort

variable {F : Type}

/-! ## Values and the order of their keys -/

/-- Induction over a value, through the values inside it. -/
theorem Value.nested_induction {motive : Value F → Prop} (null : motive .null)
    (bool : ∀ b, motive (.bool b)) (number : ∀ n, motive (.number n))
    (string : ∀ s, motive (.string s))
    (array : ∀ xs : List (Value F), (∀ x ∈ xs, motive x) → motive (.array xs))
    (object : ∀ fields : List (String × Value F), (∀ field ∈ fields, motive field.2) →
      motive (.object fields)) : ∀ v, motive v
  | .null => null
  | .bool b => bool b
  | .number n => number n
  | .string s => string s
  | .array xs => array xs fun x _ => nested_induction null bool number string array object x
  | .object fields => object fields fun field _ =>
    nested_induction null bool number string array object field.2
termination_by v => sizeOf v
decreasing_by
  · rename_i hx
    have := List.sizeOf_lt_of_mem hx
    simp only [Value.array.sizeOf_spec]
    omega
  · rename_i hfield
    have := List.sizeOf_lt_of_mem hfield
    obtain ⟨key, value⟩ := field
    simp only [Value.object.sizeOf_spec, Prod.mk.sizeOf_spec] at this ⊢
    omega

/-- No object in the value has a key twice. -/
inductive DistinctKeys : Value F → Prop where
  | null : DistinctKeys .null
  | bool (b : Bool) : DistinctKeys (.bool b)
  | number (n : Number F) : DistinctKeys (.number n)
  | string (s : String) : DistinctKeys (.string s)
  | array {xs : List (Value F)} : (∀ x ∈ xs, DistinctKeys x) → DistinctKeys (.array xs)
  | object {fields : List (String × Value F)} : (fields.map Prod.fst).Nodup →
      (∀ field ∈ fields, DistinctKeys field.2) → DistinctKeys (.object fields)

/-- The values differ only by the order of the keys inside objects, at any depth. An object is
    changed inside its fields and its fields are then reordered. -/
inductive SameUpToKeyOrder : Value F → Value F → Prop where
  | refl (v : Value F) : SameUpToKeyOrder v v
  | array {xs ys : List (Value F)} : xs.length = ys.length →
      (∀ pair ∈ xs.zip ys, SameUpToKeyOrder pair.1 pair.2) →
      SameUpToKeyOrder (.array xs) (.array ys)
  | object {fields others reordered : List (String × Value F)} :
      fields.length = others.length →
      (∀ pair ∈ fields.zip others, pair.1.1 = pair.2.1) →
      (∀ pair ∈ fields.zip others, SameUpToKeyOrder pair.1.2 pair.2.2) →
      others.Perm reordered → SameUpToKeyOrder (.object fields) (.object reordered)

/-- The fields of one object, reordered. -/
theorem SameUpToKeyOrder.of_perm {fields reordered : List (String × Value F)}
    (h : fields.Perm reordered) : SameUpToKeyOrder (.object fields) (.object reordered) := by
  have hself : ∀ pair ∈ fields.zip fields, pair.1 = pair.2 := by
    intro pair hpair
    have hzip := List.zip_map' (f := id) (g := id) (l := fields)
    rw [List.map_id] at hzip
    rw [hzip] at hpair
    obtain ⟨field, -, rfl⟩ := List.mem_map.mp hpair
    rfl
  exact .object rfl (fun pair hpair => congrArg Prod.fst (hself pair hpair))
    (fun pair hpair => hself pair hpair ▸ .refl _) h

/-! ## The accumulator -/

variable [F64Arith F]

/-- A fold that appends a text for each element is the concatenation of the texts. -/
theorem foldl_append {A : Type} {f : String → A → String} {g : A → String} {xs : List A}
    (h : ∀ out, ∀ x ∈ xs, f out x = out ++ g x) (out : String) :
    xs.foldl f out = out ++ String.join (xs.map g) := by
  induction xs generalizing out with
  | nil => simp
  | cons x xs ih =>
    rw [List.foldl_cons, h out x List.mem_cons_self, ih fun out y hy => h out y (.tail x hy),
      List.map_cons, String.join_cons, String.append_assoc]

/-- A label goes in front of its value. -/
theorem appendValue_label (out label : String) (v : Value F) :
    appendValue out v (some label) = appendValue (out ++ label) v none := by
  rw [appendValue.eq_def, appendValue.eq_def (out ++ label)]

/-- The field of a key, as it is appended. -/
def fieldString (fields : List (String × Value F)) (key : String) : String :=
  ((fields.lookup key).map fun v => key ++ buildParamsString v).getD ""

/-- An array is the concatenation of its elements. -/
theorem appendValue_array {xs : List (Value F)}
    (h : ∀ x ∈ xs, ∀ out, appendValue out x none = out ++ buildParamsString x) (out : String) :
    appendValue out (.array xs) none = out ++ String.join (xs.map buildParamsString) := by
  rw [appendValue]
  exact foldl_append (fun out x hx => h x hx out) out

/-- An object is its fields in the order of the keys. -/
theorem appendValue_object {fields : List (String × Value F)}
    (h : ∀ field ∈ fields, ∀ out,
      appendValue out field.2 none = out ++ buildParamsString field.2) (out : String) :
    appendValue out (.object fields) none =
      out ++ String.join ((sortKeys (fields.map Prod.fst)).map (fieldString fields)) := by
  rw [appendValue]
  -- Each key is looked up again; one that is not found would add nothing.
  refine foldl_append (fun out k _ => ?_) out
  unfold fieldString
  split
  · rename_i v hlookup
    rw [hlookup, appendValue_label, h (k, v) (List.mem_of_lookup_eq_some hlookup),
      String.append_assoc]
    rfl
  · rename_i hlookup
    rw [hlookup]
    exact String.append_empty.symm

/-- The accumulator is kept, and what a value appends does not depend on it. -/
theorem appendValue_none (v : Value F) (out : String) :
    appendValue out v none = out ++ buildParamsString v := by
  -- Induction on the value: the accumulator of a field or an element is whatever came before it.
  induction v using Value.nested_induction generalizing out with
  | null => simp [appendValue, buildParamsString]
  | bool b => simp [appendValue, buildParamsString]
  | number n => simp [appendValue, buildParamsString]
  | string s => simp [appendValue, buildParamsString]
  | array xs ih =>
    rw [buildParamsString, appendValue_array ih, appendValue_array ih, String.empty_append]
  | object fields ih =>
    rw [buildParamsString, appendValue_object ih, appendValue_object ih, String.empty_append]

/-- A null is the empty text. -/
theorem buildParamsString_null : buildParamsString (.null : Value F) = "" := by
  rw [buildParamsString, appendValue]

/-- An array is the concatenation of its elements, without separators. -/
theorem buildParamsString_array (xs : List (Value F)) :
    buildParamsString (.array xs) = String.join (xs.map buildParamsString) := by
  rw [buildParamsString, appendValue_array fun x _ => appendValue_none x, String.empty_append]

/-- The fields of an object in ascending order of the bytes of their keys. -/
def sortedFields {A : Type} (fields : List (String × A)) : List (String × A) :=
  sortBy (fun field => keyBytes field.1) fields

/-- The string of an object, key by key in ascending order. -/
theorem buildParamsString_object {fields : List (String × Value F)}
    (hkeys : (fields.map Prod.fst).Nodup) :
    buildParamsString (.object fields) = String.join
      ((sortedFields fields).map fun field => field.1 ++ buildParamsString field.2) := by
  have hsort : sortKeys (fields.map Prod.fst) = (sortedFields fields).map Prod.fst :=
    (map_sortBy (fun _ => rfl) fields).symm
  rw [buildParamsString, appendValue_object fun field _ => appendValue_none field.2,
    String.empty_append, hsort, List.map_map]
  refine congrArg String.join (List.map_congr_left fun field hfield => ?_)
  have hmem : field ∈ fields := (sortBy_perm _ fields).mem_iff.mp hfield
  show fieldString fields field.1 = _
  rw [fieldString, List.lookup_eq_some_of_mem hkeys hmem]
  rfl

/-! ## The order of keys -/

/-- Keys with the same bytes are the same. -/
theorem keyBytes_injective : Function.Injective keyBytes := by
  intro s t h
  have hutf8 : PercentEncoding.utf8 s.toList = PercentEncoding.utf8 t.toList :=
    List.map_injective_iff.mpr (fun _ _ h => UInt8.toNat_inj.mp h) h
  rw [← String.toByteArray_inj, ← PercentEncoding.toByteArray_utf8,
    ← PercentEncoding.toByteArray_utf8, hutf8]

/-- Distinct keys have distinct bytes. -/
theorem nodup_keyBytes {A : Type} {fields : List (String × A)} (h : (fields.map Prod.fst).Nodup) :
    (fields.map fun field => keyBytes field.1).Nodup := by
  have hbytes := h.map keyBytes_injective
  rw [List.map_map] at hbytes
  exact hbytes

/-- The fields of an object with the strings of their values. -/
def rendered (fields : List (String × Value F)) : List (String × String) :=
  fields.map fun field => (field.1, buildParamsString field.2)

/-- An object is the concatenation of its rendered fields, sorted by key. -/
theorem buildParamsString_rendered {fields : List (String × Value F)}
    (hkeys : (fields.map Prod.fst).Nodup) :
    buildParamsString (.object fields) =
      String.join ((sortedFields (rendered fields)).map fun row => row.1 ++ row.2) := by
  have hsort : sortedFields (rendered fields) =
      (sortedFields fields).map fun field => (field.1, buildParamsString field.2) :=
    (map_sortBy (fun _ => rfl) fields).symm
  rw [buildParamsString_object hkeys, hsort, List.map_map]
  rfl

/-- Values that differ in the order of their keys only have the same text. -/
theorem SameUpToKeyOrder.buildParamsString_eq {v w : Value F} (h : SameUpToKeyOrder v w)
    (hv : DistinctKeys v) : buildParamsString v = buildParamsString w := by
  induction h with
  | refl v => rfl
  | array hlen _ ih =>
    cases hv with
    | array hxs =>
      rw [buildParamsString_array, buildParamsString_array]
      refine congrArg String.join (List.map_eq_map_of_zip hlen fun pair hpair => ?_)
      exact ih pair hpair (hxs _ (List.of_mem_zip hpair).1)
  | @object fields others reordered hlen hkeys _ hperm ih =>
    cases hv with
    | object hnodup hfields =>
      have hsame : fields.map Prod.fst = others.map Prod.fst :=
        List.map_eq_map_of_zip hlen hkeys
      -- Inside the fields nothing changes the string, by induction.
      have hrendered : rendered fields = rendered others := by
        refine List.map_eq_map_of_zip hlen fun pair hpair => ?_
        have hvalue := ih pair hpair (hfields _ (List.of_mem_zip hpair).1)
        exact Prod.ext (hkeys pair hpair) hvalue
      have hnodup' : (reordered.map Prod.fst).Nodup :=
        (hperm.map Prod.fst).nodup_iff.mp (hsame ▸ hnodup)
      have hrows : ((rendered others).map Prod.fst).Nodup := by
        rw [← hrendered, rendered, List.map_map]
        exact hnodup
      -- the rows are the same and their keys are distinct, so they sort alike
      rw [buildParamsString_rendered hnodup, buildParamsString_rendered hnodup', hrendered,
        sortedFields, sortBy_eq_of_perm (nodup_keyBytes hrows) (hperm.map _)]
      rfl

/-! ## All values -/

/-- The params string does not depend on the order of keys, and neither does the signature. It
    goes through the keys of an object in ascending order of their bytes and through an array
    in order, and `null` adds nothing to it. -/
theorem params_string_canonical :
    (∀ v w : Value F, DistinctKeys v → SameUpToKeyOrder v w →
      buildParamsString v = buildParamsString w ∧
      ∀ newFromSlice method id apiKey nonce apiSecret,
        signCryptocomRequest newFromSlice method id apiKey v nonce apiSecret =
          signCryptocomRequest newFromSlice method id apiKey w nonce apiSecret) ∧
    (∀ fields : List (String × Value F), (fields.map Prod.fst).Nodup →
      ∃ sorted : List (String × Value F), sorted.Perm fields ∧
        (sorted.Pairwise fun a b => keyBytes a.1 < keyBytes b.1) ∧
        buildParamsString (.object fields) =
          String.join (sorted.map fun field => field.1 ++ buildParamsString field.2)) ∧
    (∀ xs : List (Value F),
      buildParamsString (.array xs) = String.join (xs.map buildParamsString)) ∧
    buildParamsString (.null : Value F) = "" := by
  refine ⟨fun v w hv hsame => ?_, fun fields hkeys => ?_, buildParamsString_array,
    buildParamsString_null⟩
  · have heq := hsame.buildParamsString_eq hv
    refine ⟨heq, fun _ _ _ _ _ _ => ?_⟩
    unfold signCryptocomRequest
    rw [heq]
  · exact ⟨sortedFields fields, sortBy_perm _ fields, pairwise_sortBy_lt (nodup_keyBytes hkeys),
      buildParamsString_object hkeys⟩

/-! ## A concrete request -/

/-- The params of an order, with its legs in either order of keys. -/
def exampleParams (leg : List (String × Value ℤ)) : List (String × Value ℤ) :=
  [("type", .string "LIMIT"), ("legs", .array [.object leg]), ("note", .null)]

def legFields : List (String × Value ℤ) :=
  [("side", .string "BUY"), ("qty", .number (.posInt 2))]

/-- The legs of the example's order, with the keys of one of them the other way round. -/
theorem params_string_canonical_example :
    let v : Value ℤ := .object (exampleParams legFields)
    let w : Value ℤ := .object (exampleParams legFields.reverse).reverse
    (buildParamsString v = buildParamsString w ∧
      signCryptocomRequest (fun key => .ok (key ++ ·)) "private/create-order" 1 "key" v 7 "secret" =
        signCryptocomRequest (fun key => .ok (key ++ ·)) "private/create-order" 1 "key" w 7
          "secret") ∧
      ∃ sorted : List (String × Value ℤ), sorted.Perm legFields ∧
        (sorted.Pairwise fun a b => keyBytes a.1 < keyBytes b.1) ∧
        buildParamsString (.object legFields) =
          String.join (sorted.map fun field => field.1 ++ buildParamsString field.2) := by
  intro v w
  have hleg : DistinctKeys (.object legFields) := by
    refine .object (by decide) fun field hfield => ?_
    simp only [legFields, List.mem_cons, List.not_mem_nil, or_false] at hfield
    obtain rfl | rfl := hfield
    · exact .string _
    · exact .number _
  have hv : DistinctKeys v := by
    refine .object (by decide) fun field hfield => ?_
    simp only [exampleParams, List.mem_cons, List.not_mem_nil, or_false] at hfield
    obtain rfl | rfl | rfl := hfield
    · exact .string _
    · exact .array fun x hx => List.mem_singleton.mp hx ▸ hleg
    · exact .null
  -- the legs differ in the order of their keys, and so do the parameters around them
  have hlegs :
      SameUpToKeyOrder (.array [.object legFields]) (.array [.object legFields.reverse]) := by
    refine .array rfl fun pair hpair => ?_
    obtain rfl := List.mem_singleton.mp hpair
    exact .of_perm (List.reverse_perm legFields).symm
  have hsame : SameUpToKeyOrder v w := by
    have hlen : (exampleParams legFields).length = (exampleParams legFields.reverse).length := rfl
    refine .object hlen (by simp [exampleParams]) (fun pair hpair => ?_) (List.reverse_perm _).symm
    simp only [exampleParams, List.zip_cons_cons, List.zip_nil_left, List.mem_cons,
      List.not_mem_nil, or_false] at hpair
    obtain rfl | rfl | rfl := hpair
    · exact .refl _
    · exact hlegs
    · exact .refl _
  obtain ⟨heq, hsign⟩ := params_string_canonical.1 v w hv hsame
  exact ⟨⟨heq, hsign _ _ _ _ _ _⟩, params_string_canonical.2.1 legFields (by decide)⟩

end ExchangeApiws.Spec
