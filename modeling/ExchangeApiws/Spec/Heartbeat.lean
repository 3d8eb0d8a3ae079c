import ExchangeApiws.ForStd.UInt64
import ExchangeApiws.Native.PrivateWs

/-!
# Heartbeats of the Crypto.com connectors

Both connectors answer a `public/heartbeat` frame by echoing its `id`. Before they parse a
frame they look for the method's name in its text, and JSON may spell that name in other ways;
and they read the `id` as an `i64`, while a JSON integer may be larger.

## Key results

- `respondHeartbeat_eq_some`: when `response_for` replies
- `response_for_iff`: the frames on which both connectors answer exactly the heartbeats
-/

namespace ExchangeApiws.Spec

open Native

variable {F : Type}

/-- The value of a JSON integer. -/
def asInteger : Value F → Option ℤ
  | .number (.posInt n) => some n.toNat
  | .number (.negInt i) => some i.toInt
  | _ => none

/-- The `id` of a frame that the parsed test recognises as a heartbeat. -/
def heartbeatId (fromStr : String → Result (Value F)) (raw : String) : Option ℤ :=
  (fromStr raw).toOption.bind fun json =>
    if (json.get "method").bind Value.asStr = some "public/heartbeat" then
      (json.get "id").bind asInteger
    else none

/-- The connector answers the frame exactly when it is a heartbeat, with its `id`. -/
def AnswersHeartbeat (responseFor : String → Option String)
    (fromStr : String → Result (Value F)) (raw : String) : Prop :=
  ∀ reply, responseFor raw = some reply ↔
    ∃ id, heartbeatId fromStr raw = some id ∧ reply = Cryptocom.heartbeatResponse id

/-- `as_i64` reads the integers below `2 ^ 63`; a negative one always fits. -/
theorem asI64_map_toInt {v : Value F} {id : ℤ} :
    v.asI64.map Int64.toInt = some id ↔ asInteger v = some id ∧ id < 2 ^ 63 := by
  match v with
  | .number (.posInt n) =>
    simp only [Value.asI64, asInteger, Option.some.injEq]
    split
    · rename_i hlt
      rw [Option.map_some, UInt64.toInt_toInt64_of_lt hlt, Option.some.injEq]
      constructor
      · rintro rfl
        exact ⟨rfl, by exact_mod_cast hlt⟩
      · exact And.left
    · rename_i hge
      simp only [Option.map_none, reduceCtorEq, false_iff, not_and]
      rintro rfl
      omega
  | .number (.negInt i) =>
    have hlt := i.toInt_lt
    simp only [Value.asI64, asInteger, Option.map_some, Option.some.injEq]
    constructor
    · rintro rfl
      exact ⟨rfl, hlt⟩
    · exact And.left
  | .number (.float _) | .null | .bool _ | .string _ | .array _ | .object _ =>
    simp [Value.asI64, asInteger]

/-- `response_for` replies to the heartbeats that spell out the method's name and whose `id` is
    an `i64`. -/
theorem respondHeartbeat_eq_some {fromStr : String → Result (Value F)} {raw reply : String} :
    Cryptocom.respondHeartbeat fromStr raw = some reply ↔
      contains raw "public/heartbeat" = true ∧
        ∃ id, heartbeatId fromStr raw = some id ∧ id < 2 ^ 63 ∧
          reply = Cryptocom.heartbeatResponse id := by
  unfold Cryptocom.respondHeartbeat heartbeatId
  by_cases hcontains : contains raw "public/heartbeat" = true
  · rw [if_pos hcontains, and_iff_right hcontains]
    cases (fromStr raw).toOption with
    | none => simp
    | some json =>
      simp only [Option.bind_eq_bind, Option.bind_some, Option.pure_def]
      by_cases hmethod : (json.get "method").bind Value.asStr = some "public/heartbeat"
      · rw [hmethod, if_pos rfl, Option.bind_some, if_neg (not_not.mpr rfl),
          Option.bind_eq_some_iff]
        cases json.get "id" with
        | none => simp
        | some v =>
          simp only [Option.bind_some]
          constructor
          · rintro ⟨i, hi, hreply⟩
            obtain ⟨hid, hlt⟩ := asI64_map_toInt.mp (congrArg (Option.map Int64.toInt) hi)
            exact ⟨i.toInt, hid, hlt, (Option.some.inj hreply).symm⟩
          · rintro ⟨id, hid, hlt, rfl⟩
            obtain ⟨i, hi, rfl⟩ := Option.map_eq_some_iff.mp (asI64_map_toInt.mpr ⟨hid, hlt⟩)
            exact ⟨i, hi, rfl⟩
      · -- not a heartbeat for either test
        simp only [if_neg hmethod, reduceCtorEq, false_and, exists_false, iff_false]
        cases hname : (json.get "method").bind Value.asStr with
        | none => simp
        | some method =>
          have hne : method ≠ "public/heartbeat" := by
            rintro rfl
            exact hmethod hname
          simp [hne]
  · simp [hcontains]

/-- For every frame, both connectors answer exactly the heartbeats if and only if, when the frame
    is a heartbeat with an integer `id`, its text spells out the method's name and the `id` is
    below `2 ^ 63`. -/
theorem response_for_iff (reader : Reader F) (raw : String) :
    (AnswersHeartbeat (Cryptocom.responseFor reader.json) reader.json raw ∧
        AnswersHeartbeat (CryptocomUser.responseFor reader) reader.json raw) ↔
      ∀ id, heartbeatId reader.json raw = some id →
        contains raw "public/heartbeat" = true ∧ id < 2 ^ 63 := by
  -- the two connectors share the body
  have hboth : AnswersHeartbeat (CryptocomUser.responseFor reader) reader.json raw ↔
      AnswersHeartbeat (Cryptocom.responseFor reader.json) reader.json raw := Iff.rfl
  rw [hboth, and_self_iff]
  constructor
  · intro h id hid
    have hreply := (h (Cryptocom.heartbeatResponse id)).mpr ⟨id, hid, rfl⟩
    obtain ⟨hcontains, id', hid', hlt, -⟩ := respondHeartbeat_eq_some.mp hreply
    rw [hid, Option.some.injEq] at hid'
    exact ⟨hcontains, hid' ▸ hlt⟩
  · intro h reply
    rw [Cryptocom.responseFor, respondHeartbeat_eq_some]
    constructor
    · rintro ⟨-, id, hid, -, hreply⟩
      exact ⟨id, hid, hreply⟩
    · rintro ⟨id, hid, hreply⟩
      obtain ⟨hcontains, hlt⟩ := h id hid
      exact ⟨hcontains, id, hid, hlt, hreply⟩

/-- A heartbeat with this `id`, as any JSON reader gives it. -/
def heartbeat (id : UInt64) : Reader ℤ where
  json _ := .ok (.object [("id", .number (.posInt id)), ("method", .string "public/heartbeat")])
  wsMessage _ := .error (.json "missing field")
  toLowercase s := s
  rfc3339 _ := none

/-- Neither a heartbeat with an escaped slash nor one with the `id` `2 ^ 63` is answered. -/
theorem not_answersHeartbeat :
    ¬ AnswersHeartbeat (Cryptocom.responseFor (heartbeat 1).json) (heartbeat 1).json
        "\x7b\"id\":1,\"method\":\"public\\/heartbeat\"\x7d" ∧
      ¬ AnswersHeartbeat (CryptocomUser.responseFor (heartbeat 9223372036854775808))
        (heartbeat 9223372036854775808).json
        "\x7b\"id\":9223372036854775808,\"method\":\"public/heartbeat\"\x7d" := by
  constructor
  · intro h
    have hreply := (h _).mpr ⟨1, rfl, rfl⟩
    revert hreply
    decide
  · intro h
    have hreply := (h _).mpr ⟨9223372036854775808, rfl, rfl⟩
    revert hreply
    decide

end ExchangeApiws.Spec
