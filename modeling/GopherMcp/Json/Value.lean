import GopherMcp.Core.Bytes
import GopherMcp.Lib.OrdMap

/-!
# JSON values

`JsonValue` wraps the values of the JSON library underneath: integers are kept as signed or as
unsigned 64-bit values and both count as integers, floats are kept as their binary64 bits, and an
object is its fields in key order. Reading a missing field yields null.
-/

namespace GopherMcp

inductive JsonValue where
  | null
  | boolean (value : Bool)
  | integer (value : Int64)
  | unsignedInteger (value : UInt64)
  | float (bits : UInt64)
  | string (text : Bytes)
  | array (items : List JsonValue)
  | object (fields : List (Bytes × JsonValue))

namespace JsonValue

def isString : JsonValue → Bool
  | string _ => true
  | _ => false

def isBoolean : JsonValue → Bool
  | boolean _ => true
  | _ => false

def isFloat : JsonValue → Bool
  | float _ => true
  | _ => false

def isNull : JsonValue → Bool
  | null => true
  | _ => false

def isArray : JsonValue → Bool
  | array _ => true
  | _ => false

def isInteger : JsonValue → Bool
  | integer _ | unsignedInteger _ => true
  | _ => false

def isObject : JsonValue → Bool
  | object _ => true
  | _ => false

/-- `getInt` on an integer: whatever is stored is cast to the 32-bit `int`. -/
def getInt : (json : JsonValue) → json.isInteger → Int32
  | integer value, _ => value.toInt32
  | unsignedInteger value, _ => value.toUInt32.toInt32

/-- `getInt64` on an integer. -/
def getInt64 : (json : JsonValue) → json.isInteger → Int64
  | integer value, _ => value
  | unsignedInteger value, _ => value.toInt64

/-- `JsonValue(int)`: the library stores it widened. -/
def ofInt (value : Int32) : JsonValue := integer value.toInt64

/-! ### Objects -/

def emptyObject : JsonValue := object []

def keys : JsonValue → List Bytes
  | object fields => fields.map Prod.fst
  | _ => []

def contains (json : JsonValue) (key : Bytes) : Bool :=
  match json with
  | object fields => (OrdMap.findEntry key fields).isSome
  | _ => false

/-- `operator[]` on a key. -/
def get (json : JsonValue) (key : Bytes) : JsonValue :=
  match json with
  | object fields => (OrdMap.findEntry key fields).getD null
  | _ => null

/-- `set`: a null becomes an object first. On anything else that is no object the source throws, and
no caller embedded here sets a field of one; the value is then left as it is. -/
def set (json : JsonValue) (key : Bytes) (value : JsonValue) : JsonValue :=
  match json with
  | null => object [(key, value)]
  | object fields => object (OrdMap.insertEntry key value fields)
  | other => other

@[simp] theorem keys_emptyObject : emptyObject.keys = [] := rfl

@[simp] theorem keys_null : null.keys = [] := rfl

theorem isObject_set {json : JsonValue} (h : json.isObject) (key : Bytes) (value : JsonValue) :
    (json.set key value).isObject := by
  cases json <;> simp_all [isObject, set]

/-- The keys after a field is set. -/
theorem mem_keys_set {json : JsonValue} (h : json.isObject) (key other : Bytes)
    (value : JsonValue) :
    other ∈ (json.set key value).keys ↔ other = key ∨ other ∈ json.keys := by
  cases json with
  | object fields => exact OrdMap.mem_keys_insertEntry key other value fields
  | _ => simp [isObject] at h

theorem contains_iff_mem_keys (json : JsonValue) (key : Bytes) :
    json.contains key ↔ key ∈ json.keys := by
  cases json with
  | object fields =>
      rw [contains, keys, Option.isSome_iff_ne_none, ne_eq, OrdMap.findEntry_eq_none_iff, not_not]
  | _ => simp [contains, keys]

/-- The value under a key, if there is one. -/
def get? (json : JsonValue) (key : Bytes) : Option JsonValue :=
  match json with
  | object fields => OrdMap.findEntry key fields
  | _ => none

theorem get_eq (json : JsonValue) (key : Bytes) : json.get key = (json.get? key).getD null := by
  cases json <;> rfl

theorem contains_eq (json : JsonValue) (key : Bytes) : json.contains key = (json.get? key).isSome := by
  cases json <;> rfl

theorem get?_set {json : JsonValue} (h : json.isObject) (key other : Bytes) (value : JsonValue) :
    (json.set key value).get? other = if other = key then some value else json.get? other := by
  cases json with
  | object fields =>
      rw [set, get?, get?]
      split_ifs with hother
      · rw [hother, OrdMap.findEntry_insertEntry_self]
      · rw [OrdMap.findEntry_insertEntry_of_ne hother]
  | _ => simp [isObject] at h

/-- The text under a key, if that is what is there. -/
def stringAt (json : JsonValue) (key : Bytes) : Option Bytes :=
  match json.get key with
  | string text => some text
  | _ => none

theorem stringAt_of_get? {json : JsonValue} {key : Bytes} {text : Option Bytes}
    (h : json.get? key = text.map string) : json.stringAt key = text := by
  unfold stringAt
  rw [get_eq, h]
  cases text <;> rfl

/-! ### Objects built field by field -/

/-- A field is set if it has a value. -/
def setField (json : JsonValue) (field : Bytes × Option JsonValue) : JsonValue :=
  match field.2 with
  | some value => json.set field.1 value
  | none => json

/-- Fields set one after another, those that have a value. -/
def ofFields (fields : List (Bytes × Option JsonValue)) : JsonValue := fields.foldl setField emptyObject

theorem isObject_setField {json : JsonValue} (h : json.isObject) (field : Bytes × Option JsonValue) :
    (json.setField field).isObject := by
  obtain ⟨key, _ | value⟩ := field
  · exact h
  · exact isObject_set h key value

theorem isObject_ofFields (fields : List (Bytes × Option JsonValue)) : (ofFields fields).isObject := by
  have hfold (fields : List (Bytes × Option JsonValue)) (json : JsonValue) (h : json.isObject) :
      (fields.foldl setField json).isObject := by
    induction fields generalizing json with
    | nil => exact h
    | cons field rest ih => exact ih _ (isObject_setField h field)
  exact hfold fields emptyObject rfl

theorem get?_foldl_of_not_mem {json : JsonValue} (h : json.isObject) {key : Bytes}
    {fields : List (Bytes × Option JsonValue)} (hkey : key ∉ fields.map Prod.fst) :
    (fields.foldl setField json).get? key = json.get? key := by
  induction fields generalizing json with
  | nil => rfl
  | cons field rest ih =>
      rw [List.map_cons, List.mem_cons, not_or] at hkey
      rw [List.foldl_cons, ih (isObject_setField h field) hkey.2]
      obtain ⟨first, _ | value⟩ := field
      · rfl
      · rw [setField, get?_set h, if_neg hkey.1]

/-- Under keys that differ, each field has its own value. -/
theorem get?_ofFields {key : Bytes} {value : Option JsonValue} {fields : List (Bytes × Option JsonValue)}
    (hnodup : (fields.map Prod.fst).Nodup) (hfield : (key, value) ∈ fields) :
    (ofFields fields).get? key = value := by
  obtain ⟨before, after, rfl⟩ := List.append_of_mem hfield
  rw [List.map_append, List.map_cons, List.nodup_append] at hnodup
  obtain ⟨-, hafter, hapart⟩ := hnodup
  have hbefore : key ∉ before.map Prod.fst := fun hmem => hapart key hmem key List.mem_cons_self rfl
  have hobject : (before.foldl setField emptyObject).isObject := isObject_ofFields before
  rw [ofFields, List.foldl_append, List.foldl_cons,
    get?_foldl_of_not_mem (isObject_setField hobject _) (List.nodup_cons.mp hafter).1]
  cases value with
  | none =>
      have hempty : emptyObject.isObject := rfl
      exact get?_foldl_of_not_mem hempty hbefore
  | some value => rw [setField, get?_set hobject, if_pos rfl]

/-- An object that is made of a map has what the map has. -/
theorem get?_ofFields_map {ν : Type} (m : OrdMap Bytes ν) (render : ν → JsonValue) (key : Bytes) :
    (ofFields (m.entries.map fun entry => (entry.1, some (render entry.2)))).get? key =
      (m.find? key).map render := by
  have hkeys : (m.entries.map fun entry => (entry.1, some (render entry.2))).map Prod.fst = m.keys := by
    rw [List.map_map]
    rfl
  cases hfind : m.find? key with
  | none =>
      have hnone : key ∉ (m.entries.map fun entry => (entry.1, some (render entry.2))).map Prod.fst := by
        rw [hkeys, OrdMap.mem_keys_iff, hfind]
        exact Bool.false_ne_true
      have hempty : emptyObject.isObject := rfl
      exact get?_foldl_of_not_mem hempty hnone
  | some value =>
      apply get?_ofFields
      · rw [hkeys]
        exact OrdMap.nodup_keys m
      · exact List.mem_map.mpr ⟨(key, value), (m.mem_entries_iff).mpr hfind, rfl⟩

/-- Fields under one key that agree give their value. -/
theorem get?_foldl_of_agree {json : JsonValue} (h : json.isObject) {key : Bytes} {value : Option JsonValue}
    {fields : List (Bytes × Option JsonValue)} (hagree : ∀ other, (key, other) ∈ fields → other = value)
    (hjson : json.get? key = value) : (fields.foldl setField json).get? key = value := by
  induction fields generalizing json with
  | nil => exact hjson
  | cons field rest ih =>
      apply ih (isObject_setField h field) fun other hother => hagree other (List.mem_cons_of_mem _ hother)
      obtain ⟨first, _ | given⟩ := field
      · exact hjson
      · rw [setField, get?_set h]
        split_ifs with hsame
        · exact hagree (some given) (hsame ▸ List.mem_cons_self)
        · exact hjson

theorem get?_ofFields_of_agree {key : Bytes} {value : Option JsonValue} {fields : List (Bytes × Option JsonValue)}
    (hagree : ∀ other, (key, other) ∈ fields → other = value) (hfield : value = none ∨ (key, value) ∈ fields) :
    (ofFields fields).get? key = value := by
  have hempty : emptyObject.isObject := rfl
  cases value with
  | none => exact get?_foldl_of_agree hempty hagree rfl
  | some value =>
      obtain ⟨before, after, rfl⟩ := List.append_of_mem (hfield.resolve_left (by simp))
      have hobject : (before.foldl setField emptyObject).isObject := isObject_ofFields before
      rw [ofFields, List.foldl_append, List.foldl_cons]
      apply get?_foldl_of_agree (isObject_setField hobject _)
      · intro other hother
        exact hagree other (List.mem_append_right _ (List.mem_cons_of_mem _ hother))
      · rw [setField, get?_set hobject, if_pos rfl]

/-- Built field by field, an object is in key order. -/
theorem exists_ofFields_eq (fields : List (Bytes × Option JsonValue)) :
    ∃ entries, ofFields fields = object entries ∧ OrdMap.EntriesSorted entries := by
  have hfold (fields : List (Bytes × Option JsonValue)) (entries : List (Bytes × JsonValue))
      (hentries : OrdMap.EntriesSorted entries) :
      ∃ after, fields.foldl setField (object entries) = object after ∧ OrdMap.EntriesSorted after := by
    induction fields generalizing entries with
    | nil => exact ⟨entries, rfl, hentries⟩
    | cons field rest ih =>
        obtain ⟨key, _ | value⟩ := field
        · exact ih entries hentries
        · exact ih _ (OrdMap.entriesSorted_insertEntry hentries key value)
  exact hfold fields [] List.Pairwise.nil

/-- It is known by what is under its keys. -/
theorem ofFields_ext {left right : List (Bytes × Option JsonValue)}
    (h : ∀ key, (ofFields left).get? key = (ofFields right).get? key) : ofFields left = ofFields right := by
  obtain ⟨first, hfirst, hfirstSorted⟩ := exists_ofFields_eq left
  obtain ⟨second, hsecond, hsecondSorted⟩ := exists_ofFields_eq right
  rw [hfirst, hsecond] at h ⊢
  rw [OrdMap.entriesSorted_ext hfirstSorted hsecondSorted h]

theorem set_set_self {json : JsonValue} (key : Bytes) (value : JsonValue) :
    (json.set key value).set key value = json.set key value := by
  cases json with
  | null => exact congrArg object (OrdMap.insertEntry_insertEntry_self key value value [])
  | object fields => exact congrArg object (OrdMap.insertEntry_insertEntry_self key value value fields)
  | _ => rfl

theorem contains_ofFields {key : Bytes} {fields : List (Bytes × Option JsonValue)}
    (h : (ofFields fields).contains key = true) : ∃ value, (key, some value) ∈ fields := by
  have hfold (fields : List (Bytes × Option JsonValue)) (json : JsonValue) (hobject : json.isObject)
      (hkey : ((fields.foldl setField json).get? key).isSome = true) :
      (json.get? key).isSome = true ∨ ∃ value, (key, some value) ∈ fields := by
    induction fields generalizing json with
    | nil => exact Or.inl hkey
    | cons field rest ih =>
        obtain hheld | ⟨value, hvalue⟩ := ih _ (isObject_setField hobject field) hkey
        · obtain ⟨first, _ | value⟩ := field
          · exact Or.inl hheld
          · rw [setField, get?_set hobject] at hheld
            split_ifs at hheld with hsame
            · exact Or.inr ⟨value, hsame ▸ List.mem_cons_self⟩
            · exact Or.inl hheld
        · exact Or.inr ⟨value, List.mem_cons_of_mem _ hvalue⟩
  rw [contains_eq] at h
  obtain hnone | hfield := hfold fields emptyObject rfl h
  · cases hnone
  · exact hfield

end JsonValue

end GopherMcp
