import ExchangeApiws.Native.KucoinRest
import ExchangeApiws.Native.PublicRest
import ExchangeApiws.Native.SignedRest
import ExchangeApiws.Spec.Heartbeat

/-!
# Success markers of envelopes

A call has succeeded when its envelope says so. Three of the four envelope functions return a
payload exactly then; Kraken's takes whatever is no list of error texts for a success.

## Key results

- `RestEnvelope.unwrap_eq_ok_iff`: when an envelope function returns a payload, and which
- `RestEnvelope.unwrap_sound_iff`: when a payload means that the marker says success
-/

namespace ExchangeApiws.Spec

open Native

variable {F T : Type}

/-- The envelopes of the four venues. -/
inductive RestEnvelope where
  | kucoin
  | bybit
  | cryptocom
  | kraken
  deriving DecidableEq, Repr

namespace RestEnvelope

/-- The envelope function. -/
def unwrap (decode : Value F → Except String T) (raw : Value F) : RestEnvelope → Result T
  | .kucoin => Kucoin.unwrapEnvelope decode raw
  | .bybit => Bybit.unwrapBybitEnvelope decode raw
  | .cryptocom => Cryptocom.unwrapCryptocomEnvelope decode raw
  | .kraken => Kraken.unwrapKrakenEnvelope decode raw

/-- The success marker is present and says success. -/
def Succeeded (raw : Value F) : RestEnvelope → Prop
  | .kucoin => raw.get "code" = some (.string "200000")
  | .bybit => (raw.get "retCode").bind asInteger = some 0
  | .cryptocom => (raw.get "code").bind asInteger = some 0
  | .kraken => raw.get "error" = some (.array [])

/-- What the envelope carries. -/
def payload (raw : Value F) : RestEnvelope → Value F
  | .kucoin => (raw.get "data").getD .null
  | .bybit | .cryptocom | .kraken => (raw.get "result").getD .null

/-- An array of errors that has a text in it. -/
def HasErrorText (raw : Value F) : Prop :=
  ∃ errors s, raw.get "error" = some (.array errors) ∧ Value.string s ∈ errors

/-- The test that the envelope function makes. -/
def Accepts (raw : Value F) : RestEnvelope → Prop
  | .kucoin => Succeeded raw .kucoin
  | .bybit => Succeeded raw .bybit
  | .cryptocom => Succeeded raw .cryptocom
  | .kraken => ¬ HasErrorText raw

/-! ## The tests -/

/-- An integer code that defaults to an error is zero when it is there and is zero. -/
theorem code_eq_zero_iff (code : Option (Value F)) :
    (code.bind Value.asI64).getD (-1) = 0 ↔ code.bind asInteger = some 0 := by
  cases code with
  | none => simp
  | some v =>
    have hv : v.asI64.map Int64.toInt = some 0 ↔ asInteger v = some 0 := by
      rw [asI64_map_toInt]
      exact and_iff_left (by decide)
    rw [Option.bind_some, Option.bind_some, ← hv]
    cases v.asI64 with
    | none => simp
    | some i =>
      rw [Option.getD_some, Option.map_some, Option.some_inj]
      exact Int64.toInt_inj.symm

/-- A text code that defaults to an error is `200000` when it is there and is that text. -/
theorem code_eq_200000_iff (code : Option (Value F)) :
    (code.bind Value.asStr).getD "unknown" = "200000" ↔ code = some (.string "200000") := by
  cases code with
  | none => simp
  | some v => cases v <;> simp [Value.asStr]

/-- The texts of the errors are not empty when one of the errors is a text. -/
theorem errorTexts_ne_nil_iff (raw : Value F) :
    (((raw.get "error").bind Value.asArray).getD []).filterMap Value.asStr ≠ [] ↔
      HasErrorText raw := by
  -- Only an array of errors has texts; any other shape counts as no error at all.
  rw [Ne, List.filterMap_eq_nil_iff]
  constructor
  · intro htexts
    obtain ⟨v, hv, hs⟩ := not_forall₂.mp htexts
    cases herror : raw.get "error" with
    | none => simp [herror] at hv
    | some error =>
      rw [herror] at hv
      cases error with
      | array errors =>
        cases v with
        | string s => exact ⟨errors, s, herror, hv⟩
        | _ => exact absurd rfl hs
      | _ => cases hv
  · rintro ⟨errors, s, herror, hs⟩ htexts
    rw [herror] at htexts
    cases htexts _ hs

/-- A check in front of decoding a payload. -/
theorem checked_eq_ok_iff {c : Prop} [Decidable c] {e : ExchangeError} {x : Except String T}
    {t : T} : (if c then .error e else x.mapError .json : Result T) = .ok t ↔ ¬ c ∧ x = .ok t := by
  by_cases hc : c
  · simp [hc]
  · rw [if_neg hc]
    cases x <;> simp [hc, Except.mapError]

/-- An envelope function returns the decoded payload of what it accepts. -/
theorem unwrap_eq_ok_iff (envelope : RestEnvelope) (decode : Value F → Except String T)
    (raw : Value F) (t : T) :
    envelope.unwrap decode raw = .ok t ↔
      envelope.Accepts raw ∧ decode (envelope.payload raw) = .ok t := by
  cases envelope with
  | kucoin =>
    exact checked_eq_ok_iff.trans (and_congr_left' (not_not.trans (code_eq_200000_iff _)))
  | bybit =>
    exact checked_eq_ok_iff.trans (and_congr_left' (not_not.trans (code_eq_zero_iff _)))
  | cryptocom =>
    exact checked_eq_ok_iff.trans (and_congr_left' (not_not.trans (code_eq_zero_iff _)))
  | kraken =>
    exact checked_eq_ok_iff.trans (and_congr_left' (not_congr (errorTexts_ne_nil_iff raw)))

/-- A payload means success for KuCoin, Bybit and Crypto.com. For Kraken it does when the errors
    are an empty array or have a text among them, or when the result does not decode. -/
theorem unwrap_sound_iff (envelope : RestEnvelope) (decode : Value F → Except String T)
    (raw : Value F) :
    ((∃ t, envelope.unwrap decode raw = .ok t) → envelope.Succeeded raw) ↔
      (envelope = .kraken → raw.get "error" = some (.array []) ∨ HasErrorText raw ∨
        ∃ e, decode ((raw.get "result").getD .null) = .error e) := by
  simp only [unwrap_eq_ok_iff]
  cases envelope with
  | kraken =>
    show ((∃ t, ¬ HasErrorText raw ∧ decode ((raw.get "result").getD .null) = .ok t) →
      raw.get "error" = some (.array [])) ↔ _
    -- A payload is returned unless there is an error text, whatever else is in the field.
    cases decode ((raw.get "result").getD .null) with
    | error e => exact iff_of_true (fun ⟨_, _, h⟩ => by cases h) (fun _ => .inr (.inr ⟨e, rfl⟩))
    | ok t =>
      constructor
      · intro h _
        by_cases herror : HasErrorText raw
        · exact .inr (.inl herror)
        · exact .inl (h ⟨t, herror, rfl⟩)
      · intro h ⟨_, herror, _⟩
        cases h rfl with
        | inl hempty => exact hempty
        | inr h =>
          cases h with
          | inl htext => exact absurd htext herror
          | inr hresult => cases hresult.choose_spec
  | _ => exact iff_of_true (fun h => h.elim fun _ h => h.1) (fun h => by cases h)

/-! ## Concrete envelopes -/

/-- A result without an `error` field, or with the given one. -/
def krakenResult (error : Option (Value ℤ)) : Value ℤ :=
  .object ((error.map fun error => ("error", error)).toList ++ [("result", .string "2")])

/-- Kraken envelopes without an `error` field, with one that is no array, and with an array
    without a text all pass for a success, and their result is returned. -/
theorem krakenResult_ok :
    (RestEnvelope.kraken.unwrap .ok (krakenResult none) = .ok (.string "2") ∧
      ¬ RestEnvelope.kraken.Succeeded (krakenResult none)) ∧
    (RestEnvelope.kraken.unwrap .ok (krakenResult (some (.string "EAPI:Invalid key"))) =
        .ok (.string "2") ∧
      ¬ RestEnvelope.kraken.Succeeded (krakenResult (some (.string "EAPI:Invalid key")))) ∧
    RestEnvelope.kraken.unwrap .ok (krakenResult (some (.array [.object []]))) =
        .ok (.string "2") ∧
      ¬ RestEnvelope.kraken.Succeeded (krakenResult (some (.array [.object []]))) := by
  refine ⟨⟨rfl, fun h => ?_⟩, ⟨rfl, fun h => ?_⟩, rfl, fun h => ?_⟩
  · cases (show none = some (Value.array []) from h)
  · cases (show some (Value.string _) = some (Value.array []) from h)
  · cases (show some (Value.array [_]) = some (Value.array []) from h)

end RestEnvelope

end ExchangeApiws.Spec
