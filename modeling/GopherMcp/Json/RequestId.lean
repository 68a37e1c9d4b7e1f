import GopherMcp.Core.RequestId
import GopherMcp.Json.Value

/-!
# Request ids on the wire

An id is declared 64 bits wide, and it is written through a visitor that takes an `int` and read back
through an accessor that returns one. So an id survives exactly when it is a string or fits 32 bits,
and two integers are written alike exactly when their low 32 bits agree.
-/

namespace GopherMcp

/-- The visitor for the integer alternative takes an `int`, which keeps the low 32 bits. -/
def serializeRequestId : RequestId → JsonValue
  | .string text => .string text
  | .number value => JsonValue.ofInt value.toInt32

def deserializeRequestId (json : JsonValue) : Except Bytes RequestId :=
  match json with
  | .string text => .ok (.string text)
  | json =>
      if h : json.isInteger then .ok (.number (json.getInt h).toInt64)
      else .error (ascii "Invalid RequestId type")

/-- The id a response carries: the request's id as the server read it, written again. -/
def responseIdOf (requestId : JsonValue) : Except Bytes JsonValue :=
  (deserializeRequestId requestId).map serializeRequestId

/-- A string, or an integer an `int` can hold. -/
def FitsInt : RequestId → Prop
  | .string _ => True
  | .number value => -2 ^ 31 ≤ value.toInt ∧ value.toInt < 2 ^ 31

/-- Two integer ids with the same low 32 bits. -/
def SameLowBits : RequestId → RequestId → Prop
  | .number left, .number right => left.toInt % 2 ^ 32 = right.toInt % 2 ^ 32
  | _, _ => False

theorem toInt32_toInt64_eq_iff (value : Int64) :
    value.toInt32.toInt64 = value ↔ -2 ^ 31 ≤ value.toInt ∧ value.toInt < 2 ^ 31 := by
  rw [← Int64.toInt_inj, Int32.toInt_toInt64, Int64.toInt_toInt32]
  constructor
  · intro h
    have hlow := value.toInt32.le_toInt
    have hhigh := value.toInt32.toInt_lt
    rw [Int64.toInt_toInt32, h] at hlow hhigh
    exact ⟨hlow, hhigh⟩
  · rintro ⟨hlow, hhigh⟩
    exact Int.bmod_eq_of_le (by omega) (by omega)

theorem toInt32_eq_iff (left right : Int64) :
    left.toInt32 = right.toInt32 ↔ left.toInt % 2 ^ 32 = right.toInt % 2 ^ 32 := by
  rw [← Int32.toInt_inj, Int64.toInt_toInt32, Int64.toInt_toInt32]
  constructor
  · intro h
    have hmod := congrArg (fun n => n % ((2 ^ 32 : Nat) : Int)) h
    rw [Int.bmod_emod, Int.bmod_emod] at hmod
    exact_mod_cast hmod
  · intro h
    have hmod : left.toInt % ((2 ^ 32 : Nat) : Int) = right.toInt % ((2 ^ 32 : Nat) : Int) := by
      exact_mod_cast h
    have hbmod := congrArg (fun n => Int.bmod n (2 ^ 32)) hmod
    rwa [Int.emod_bmod, Int.emod_bmod] at hbmod

theorem ofInt_inj {left right : Int32} :
    JsonValue.ofInt left = JsonValue.ofInt right ↔ left = right := by
  constructor
  · intro h
    have hwide : left.toInt64 = right.toInt64 := JsonValue.integer.inj h
    rw [← Int32.toInt32_toInt64 left, hwide, Int32.toInt32_toInt64]
  · exact congrArg JsonValue.ofInt

@[simp] theorem deserialize_ofInt (value : Int32) :
    deserializeRequestId (JsonValue.ofInt value) = .ok (.number value.toInt64.toInt32.toInt64) := rfl

theorem deserialize_serialize_iff (id : RequestId) :
    deserializeRequestId (serializeRequestId id) = .ok id ↔ FitsInt id := by
  cases id with
  | string text => simp [serializeRequestId, deserializeRequestId, FitsInt]
  | number value =>
      simp only [serializeRequestId, deserialize_ofInt, Except.ok.injEq, RequestId.number.injEq,
        Int32.toInt32_toInt64, FitsInt]
      exact toInt32_toInt64_eq_iff value

theorem serialize_eq_iff {left right : RequestId} (hne : left ≠ right) :
    serializeRequestId left = serializeRequestId right ↔ SameLowBits left right := by
  cases left with
  | string left =>
      cases right with
      | string right => simpa [serializeRequestId, SameLowBits] using hne
      | number right => simp [serializeRequestId, JsonValue.ofInt, SameLowBits]
  | number left =>
      cases right with
      | string right => simp [serializeRequestId, JsonValue.ofInt, SameLowBits]
      | number right =>
          rw [serializeRequestId, serializeRequestId, ofInt_inj]
          exact toInt32_eq_iff left right

/-- **When ids survive.** An id is read back as itself exactly when it is a string or fits an `int`, and
it is told apart from another exactly when the two are not integers with the same low bits. -/
theorem requestId_survives_iff (id other : RequestId) :
    (deserializeRequestId (serializeRequestId id) = .ok id ↔ FitsInt id) ∧
      ((id ≠ other → serializeRequestId id ≠ serializeRequestId other) ↔
        (id ≠ other → ¬ SameLowBits id other)) :=
  ⟨deserialize_serialize_iff id,
    forall_congr' fun hne => not_congr (serialize_eq_iff hne)⟩

/-- The id `2 ^ 32` comes back as `0`, and is written as `0` is. -/
theorem requestId_wide_lost :
    ¬ ((∀ id, deserializeRequestId (serializeRequestId id) = .ok id) ∧
      ∀ left right, left ≠ right → serializeRequestId left ≠ serializeRequestId right) := by
  rintro ⟨_, hdistinct⟩
  exact hdistinct (.number 0x100000000) (.number 0) (by decide) rfl

/-- The id of a response is the id of its request exactly when that id survives. -/
theorem responseIdOf_eq_iff (id : RequestId) :
    (responseIdOf (serializeRequestId id)).bind deserializeRequestId = .ok id ↔ FitsInt id := by
  rw [← deserialize_serialize_iff]
  cases id with
  | string text => rfl
  | number value =>
      simp only [responseIdOf, serializeRequestId, deserialize_ofInt, Except.map, Except.bind,
        Int32.toInt32_toInt64]

end GopherMcp
