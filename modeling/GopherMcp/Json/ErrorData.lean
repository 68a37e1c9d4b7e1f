import GopherMcp.Core.Error
import GopherMcp.Json.Value

/-!
# The data of an error on the wire

An error may carry any JSON. The simple shapes have alternatives of their own, and reading prefers one of
these whenever it holds the value exactly; everything else is kept as the JSON it arrived as.
-/

namespace GopherMcp

inductive ErrorData where
  | null
  | boolean (value : Bool)
  | integer (value : Int32)
  | double (bits : UInt64)
  | string (text : Bytes)
  | strings (texts : List Bytes)
  | map (texts : OrdMap Bytes Bytes)
  | json (value : JsonValue)

/-- An error with its data. -/
structure WireError where
  code : Int32
  message : Bytes
  data : Option ErrorData

namespace ErrorData

/-- The fields of a map are already in key order. -/
def serialize : ErrorData → JsonValue
  | .null => .null
  | .boolean value => .boolean value
  | .integer value => JsonValue.ofInt value
  | .double bits => .float bits
  | .string text => .string text
  | .strings texts => .array (texts.map .string)
  | .map texts => .object (texts.entries.map fun entry => (entry.1, .string entry.2))
  | .json value => value

def stringOf : JsonValue → Option Bytes
  | .string text => some text
  | _ => none

/-- Within the range of an `int`. -/
def fitsInt (value : Int64) : Bool := -2147483648 ≤ value.toInt && value.toInt ≤ 2147483647

def ofInteger (json : JsonValue) (value : Int64) : ErrorData :=
  if fitsInt value then .integer value.toInt32 else .json json

def deserialize (json : JsonValue) : ErrorData :=
  match json with
  | .null => .null
  | .boolean value => .boolean value
  | .integer value => ofInteger json value
  | .unsignedInteger value => ofInteger json value.toInt64
  | .float bits => .double bits
  | .string text => .string text
  | .array items =>
      match items.mapM stringOf with
      | some texts => .strings texts
      | none => .json json
  | .object fields =>
      match fields.mapM fun field => (stringOf field.2).map fun text => (field.1, text) with
      | some texts => .map (OrdMap.ofEntries texts)
      | none => .json json

/-! ### What is read back as it was -/

/-- No simple alternative holds the value. An unsigned integer that reads as a negative `int` is not looked
at here. -/
def Beyond : JsonValue → Prop
  | .integer value => ¬ fitsInt value = true
  | .unsignedInteger value => 2 ^ 31 ≤ value.toNat ∧ value.toNat < 2 ^ 64 - 2 ^ 31
  | .array items => ∃ item ∈ items, stringOf item = none
  | .object fields => ∃ field ∈ fields, stringOf field.2 = none
  | _ => False

/-- Data in an alternative that is the only one for it. -/
def Settled : ErrorData → Prop
  | .json value => Beyond value
  | _ => True

theorem fitsInt_toInt64 (value : Int32) : fitsInt value.toInt64 = true := by
  have hlow := value.le_toInt
  have hhigh := value.toInt_lt
  rw [fitsInt, Int32.toInt_toInt64, Bool.and_eq_true, decide_eq_true_eq, decide_eq_true_eq]
  omega

theorem mapM_eq_none {α β : Type} {f : α → Option β} {items : List α} (h : ∃ item ∈ items, f item = none) :
    items.mapM f = none := by
  induction items with
  | nil =>
      obtain ⟨item, hitem, -⟩ := h
      exact absurd hitem List.not_mem_nil
  | cons first rest ih =>
      obtain ⟨item, hitem, hnone⟩ := h
      rw [List.mapM_cons]
      obtain rfl | hrest := List.mem_cons.mp hitem
      · rw [hnone]
        rfl
      · cases f first with
        | none => rfl
        | some value => rw [ih ⟨item, hrest, hnone⟩]; rfl

theorem mapM_map {α β : Type} {f : α → Option β} {g : β → α} (h : ∀ value, f (g value) = some value)
    (values : List β) : (values.map g).mapM f = some values := by
  induction values with
  | nil => rfl
  | cons value rest ih => rw [List.map_cons, List.mapM_cons, h, ih]; rfl

theorem deserialize_serialize {data : ErrorData} (h : Settled data) : deserialize data.serialize = data := by
  cases data with
  | null => rfl
  | boolean value => rfl
  | integer value =>
      rw [serialize, JsonValue.ofInt, deserialize, ofInteger, if_pos (fitsInt_toInt64 value),
        Int32.toInt32_toInt64]
  | double bits => rfl
  | string text => rfl
  | strings texts =>
      have hread := mapM_map (f := stringOf) (g := JsonValue.string) (fun _ => rfl) texts
      simp only [serialize, deserialize, hread]
  | map texts =>
      have hread := mapM_map
        (f := fun field : Bytes × JsonValue => (stringOf field.2).map fun text => (field.1, text))
        (g := fun entry : Bytes × Bytes => (entry.1, JsonValue.string entry.2)) (fun _ => rfl) texts.entries
      simp only [serialize, deserialize, hread, OrdMap.ofEntries_entries]
  | json value =>
      cases value with
      | integer value =>
          rw [serialize, deserialize, ofInteger, if_neg h]
      | unsignedInteger value =>
          obtain ⟨hlow, hhigh⟩ := h
          have hnot : ¬ fitsInt value.toInt64 = true := by
            have hvalue : value.toInt64.toInt = value.toBitVec.toInt := rfl
            rw [fitsInt, hvalue, BitVec.toInt_eq_toNat_cond, UInt64.toNat_toBitVec, Bool.and_eq_true,
              decide_eq_true_eq, decide_eq_true_eq]
            split_ifs <;> omega
          rw [serialize, deserialize, ofInteger, if_neg hnot]
      | array items =>
          have hnone := mapM_eq_none h
          simp only [serialize, deserialize, hnone]
      | object fields =>
          have hnone : (fields.mapM fun field => (stringOf field.2).map fun text => (field.1, text)) = none := by
            obtain ⟨field, hfield, hstring⟩ := h
            apply mapM_eq_none
            exact ⟨field, hfield, by rw [hstring]; rfl⟩
          simp only [serialize, deserialize, hnone]
      | _ => exact h.elim

end ErrorData

namespace WireError

def kCode : Bytes := ascii "code"
def kMessage : Bytes := ascii "message"
def kData : Bytes := ascii "data"

def fields (error : WireError) : List (Bytes × Option JsonValue) :=
  [(kCode, some (JsonValue.ofInt error.code)), (kMessage, some (.string error.message)),
    (kData, error.data.map ErrorData.serialize)]

def serialize (error : WireError) : JsonValue := JsonValue.ofFields error.fields

end WireError

end GopherMcp
