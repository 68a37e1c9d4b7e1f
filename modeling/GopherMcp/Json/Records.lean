import GopherMcp.Json.Sameness

/-!
# Records read from JSON and written again

A codec reads a JSON value into a typed one and writes it back. It carries the shape of the values that come
back as they were, with the proof that these are just the ones that do. The codec of a record is made of its
members, each with its own reading, writing and shape, and of an array from the codec of its elements.
-/

namespace GopherMcp

open JsonValue (Same SameMember)

/-! ### Elements -/

/-- Every element is read, and written as it was. -/
theorem same_mapM_iff {α : Type} {decode : JsonValue → Option α} {encode : α → JsonValue}
    {items : List JsonValue} :
    (∃ values, items.mapM decode = some values ∧ Same (.array (values.map encode)) (.array items)) ↔
      ∀ item ∈ items, ∃ value, decode item = some value ∧ Same (encode value) item := by
  rw [show (∃ values, items.mapM decode = some values ∧ Same (.array (values.map encode)) (.array items)) ↔
    ∃ values, items.mapM decode = some values ∧ List.Forall₂ Same (values.map encode) items from
    exists_congr fun values => and_congr_right fun _ => JsonValue.same_array_iff]
  induction items with
  | nil => simp
  | cons item rest ih =>
      rw [List.forall_mem_cons, ← ih]
      constructor
      · rintro ⟨values, hread, hsame⟩
        rw [List.mapM_cons] at hread
        obtain ⟨value, hvalue, hread⟩ := Option.bind_eq_some_iff.mp hread
        obtain ⟨others, hothers, hread⟩ := Option.bind_eq_some_iff.mp hread
        obtain rfl := Option.some.inj hread
        rw [List.map_cons, List.forall₂_cons] at hsame
        exact ⟨⟨value, hvalue, hsame.1⟩, others, hothers, hsame.2⟩
      · rintro ⟨⟨value, hvalue, hfirst⟩, others, hothers, hrest⟩
        refine ⟨value :: others, ?_, ?_⟩
        · rw [List.mapM_cons, hvalue, hothers]
          rfl
        · rw [List.map_cons, List.forall₂_cons]
          exact ⟨hfirst, hrest⟩

/-- What is skipped is missing. -/
theorem same_filterMap_iff {α : Type} {pick : JsonValue → Option α} {encode : α → JsonValue}
    {items : List JsonValue} :
    Same (.array ((items.filterMap pick).map encode)) (.array items) ↔
      ∀ item ∈ items, ∃ value, pick item = some value ∧ Same (encode value) item := by
  rw [JsonValue.same_array_iff]
  induction items with
  | nil => simp
  | cons item rest ih =>
      rw [List.forall_mem_cons, ← ih]
      cases hpick : pick item with
      | none =>
          rw [List.filterMap_cons_none hpick]
          have hlength : ((rest.filterMap pick).map encode).length ≤ rest.length := by
            rw [List.length_map]
            exact List.length_filterMap_le _ _
          constructor
          · intro hall
            have := hall.length_eq
            rw [List.length_cons] at this
            omega
          · rintro ⟨⟨value, hvalue, _⟩, _⟩
            cases hvalue
      | some value =>
          rw [List.filterMap_cons_some hpick, List.map_cons, List.forall₂_cons]
          simp

/-! ### Codecs -/

/-- A typed reading of JSON, with the values that come back as they were. -/
structure JsonCodec where
  Value : Type
  decode : JsonValue → Option Value
  encode : Value → JsonValue
  fits : JsonValue → Prop
  exact : ∀ json : JsonValue, json.InKeyOrder →
    ((∃ value, decode json = some value ∧ Same (encode value) json) ↔ fits json)

/-- A member of a record: what is read of it, absent or not, which may fail, and what is written for that. -/
structure RecordField where
  key : Bytes
  Value : Type
  read : Option JsonValue → Option Value
  write : Value → Option JsonValue
  shape : Option JsonValue → Prop
  exact : ∀ member : Option JsonValue, (∀ json, member = some json → json.InKeyOrder) →
    ((∃ value, read member = some value ∧ SameMember (write value) member) ↔ shape member)

namespace RecordField

/-- What is read of the members of a record. -/
def Decoded : List RecordField → Type
  | [] => Unit
  | field :: rest => field.Value × Decoded rest

def decode : (fields : List RecordField) → JsonValue → Option (Decoded fields)
  | [], _ => some ()
  | field :: rest, json =>
      (field.read (json.get? field.key)).bind fun value => (decode rest json).map fun values => (value, values)

def encode : (fields : List RecordField) → Decoded fields → List (Bytes × Option JsonValue)
  | [], _ => []
  | field :: rest, values => (field.key, field.write values.1) :: encode rest values.2

/-- An object with no other members, each in its shape. -/
def Fits (fields : List RecordField) (json : JsonValue) : Prop :=
  json.isObject ∧ (∀ key ∈ json.keys, key ∈ fields.map RecordField.key) ∧
    ∀ field ∈ fields, field.shape (json.get? field.key)

theorem keys_encode {fields : List RecordField} (values : Decoded fields) :
    (encode fields values).map Prod.fst = fields.map RecordField.key := by
  induction fields with
  | nil => rfl
  | cons field rest ih => exact congrArg (field.key :: ·) (ih values.2)

theorem same_encode_iff {fields : List RecordField} {json : JsonValue}
    (hnodup : (fields.map RecordField.key).Nodup) (horder : json.InKeyOrder) (values : Decoded fields) :
    Same (JsonValue.ofFields (encode fields values)) json ↔
      json.isObject ∧ (∀ key ∈ json.keys, key ∈ fields.map RecordField.key) ∧
        ∀ entry ∈ encode fields values, SameMember entry.2 (json.get? entry.1) := by
  rw [← keys_encode values] at hnodup ⊢
  exact JsonValue.same_ofFields_iff hnodup horder

/-- The members are read and written each by itself. -/
theorem exists_decode_iff {fields : List RecordField} {json : JsonValue} :
    (∃ values, decode fields json = some values ∧
        ∀ entry ∈ encode fields values, SameMember entry.2 (json.get? entry.1)) ↔
      ∀ field ∈ fields, ∃ value, field.read (json.get? field.key) = some value ∧
        SameMember (field.write value) (json.get? field.key) := by
  induction fields with
  | nil =>
      refine ⟨fun _ _ hin => absurd hin List.not_mem_nil, fun _ => ⟨(), rfl, fun _ hin => ?_⟩⟩
      exact absurd hin List.not_mem_nil
  | cons field rest ih =>
      rw [List.forall_mem_cons, ← ih]
      constructor
      · rintro ⟨values, hread, hsame⟩
        obtain ⟨value, hvalue, hread⟩ := Option.bind_eq_some_iff.mp hread
        obtain ⟨others, hothers, rfl⟩ := Option.map_eq_some_iff.mp hread
        have hboth := List.forall_mem_cons.mp hsame
        exact ⟨⟨value, hvalue, hboth.1⟩, others, hothers, hboth.2⟩
      · rintro ⟨⟨value, hvalue, hfirst⟩, others, hothers, hrest⟩
        refine ⟨(value, others), ?_, List.forall_mem_cons.mpr ⟨hfirst, hrest⟩⟩
        unfold decode
        rw [hvalue, hothers]
        rfl

/-- A member that is read where it meets the guard and is otherwise left out. -/
def optional (key : Bytes) (guard : JsonValue → Bool) (codec : JsonCodec) : RecordField where
  key
  Value := Option codec.Value
  read member :=
    match member with
    | none => some none
    | some json => if guard json then (codec.decode json).map some else some none
  write value := value.map codec.encode
  shape member := ∀ json, member = some json → guard json = true ∧ codec.fits json
  exact member horder := by
    cases member with
    | none => simp [SameMember]
    | some json =>
        simp only [Option.some.injEq, forall_eq']
        rw [← codec.exact json (horder json rfl)]
        by_cases hguard : guard json = true
        · simp [hguard, JsonValue.sameMember_some_iff]
        · simp [hguard, JsonValue.sameMember_none_iff]

/-- A member that may be left out, and must be read if it is there. -/
def strict (key : Bytes) (codec : JsonCodec) : RecordField := optional key (fun _ => true) codec

/-- A member that has to be there. -/
def required (key : Bytes) (codec : JsonCodec) : RecordField where
  key
  Value := codec.Value
  read member := member.bind codec.decode
  write value := some (codec.encode value)
  shape member := ∃ json, member = some json ∧ codec.fits json
  exact member horder := by
    cases member with
    | none => simp
    | some json =>
        simp only [Option.some.injEq, exists_eq_left', Option.bind_some, JsonValue.sameMember_some_iff]
        exact codec.exact json (horder json rfl)

/-- A member with a default, which is written as well. -/
def defaulted (key : Bytes) (codec : JsonCodec) (default : codec.Value) : RecordField where
  key
  Value := codec.Value
  read member :=
    match member with
    | none => some default
    | some json => codec.decode json
  write value := some (codec.encode value)
  shape member := ∃ json, member = some json ∧ codec.fits json
  exact member horder := by
    cases member with
    | none => simp [SameMember]
    | some json =>
        simp only [Option.some.injEq, exists_eq_left', JsonValue.sameMember_some_iff]
        exact codec.exact json (horder json rfl)

/-- A member that is not looked at, and written with one text. -/
def constant (key text : Bytes) : RecordField where
  key
  Value := Unit
  read _ := some ()
  write _ := some (.string text)
  shape member := member = some (.string text)
  exact member _ := by
    cases member with
    | none => simp [SameMember]
    | some json => simp [JsonValue.sameMember_some_iff, JsonValue.same_string_iff]

end RecordField

namespace JsonCodec

/-- An object read and written member by member. -/
def record (fields : List RecordField) (hnodup : (fields.map RecordField.key).Nodup) : JsonCodec where
  Value := RecordField.Decoded fields
  decode := RecordField.decode fields
  encode values := JsonValue.ofFields (RecordField.encode fields values)
  fits := RecordField.Fits fields
  exact json horder := by
    simp only [RecordField.same_encode_iff hnodup horder]
    constructor
    · rintro ⟨values, hread, hobject, hkeys, hmembers⟩
      refine ⟨hobject, hkeys, fun field hfield => ?_⟩
      apply (field.exact _ fun member hmember => horder.get? hmember).mp
      exact RecordField.exists_decode_iff.mp ⟨values, hread, hmembers⟩ field hfield
    · rintro ⟨hobject, hkeys, hshapes⟩
      obtain ⟨values, hread, hmembers⟩ := RecordField.exists_decode_iff.mpr fun field hfield =>
        (field.exact _ fun member hmember => horder.get? hmember).mpr (hshapes field hfield)
      exact ⟨values, hread, hobject, hkeys, hmembers⟩

/-- `getString`. -/
def text : JsonCodec where
  Value := Bytes
  decode json :=
    match json with
    | .string text => some text
    | _ => none
  encode := .string
  fits json := json.isString = true
  exact json _ := by
    cases json with
    | string text => simp [JsonValue.isString, Same.refl]
    | _ => simp [JsonValue.isString]

/-- `getBool`. -/
def flag : JsonCodec where
  Value := Bool
  decode json :=
    match json with
    | .boolean value => some value
    | _ => none
  encode := .boolean
  fits json := json.isBoolean = true
  exact json _ := by
    cases json with
    | boolean value => simp [JsonValue.isBoolean, Same.refl]
    | _ => simp [JsonValue.isBoolean]

/-- `getInt64`. -/
def int64 : JsonCodec where
  Value := Int64
  decode json := if h : json.isInteger then some (json.getInt64 h) else none
  encode := .integer
  fits json := json.FitsInt64
  exact json _ := by
    cases json with
    | integer value => simp [JsonValue.isInteger, JsonValue.getInt64, JsonValue.FitsInt64, Same.refl]
    | unsignedInteger value =>
        simp [JsonValue.isInteger, JsonValue.getInt64, JsonValue.FitsInt64, JsonValue.same_integer_unsigned_iff]
    | _ => simp [JsonValue.isInteger, JsonValue.FitsInt64]

/-- A number read as a double. -/
def double (read : JsonValue → Option UInt64) (hfloat : ∀ bits, read (.float bits) = some bits) : JsonCodec where
  Value := UInt64
  decode := read
  encode := .float
  fits json := json.isFloat = true
  exact json _ := by
    simp only [JsonValue.same_float_iff]
    cases json with
    | float bits => simp [hfloat, JsonValue.isFloat]
    | _ => simp [JsonValue.isFloat]

/-- An object kept whole. -/
def whole : JsonCodec where
  Value := { json : JsonValue // json.isObject = true }
  decode json := if h : json.isObject = true then some ⟨json, h⟩ else none
  encode object := object.val
  fits json := json.isObject = true
  exact json _ := by
    by_cases h : json.isObject = true
    · simp [h, Same.refl]
    · simp [h]

/-- An array whose elements must all be read. An empty object has no elements either. -/
def each (codec : JsonCodec) : JsonCodec where
  Value := List codec.Value
  decode json :=
    match json with
    | .array items => items.mapM codec.decode
    | .object [] => some []
    | _ => none
  encode values := .array (values.map codec.encode)
  fits json := ∃ items, json = .array items ∧ ∀ item ∈ items, codec.fits item
  exact json horder := by
    cases json with
    | array items =>
        rw [same_mapM_iff]
        simp only [JsonValue.array.injEq, exists_eq_left']
        exact forall₂_congr fun item hitem => codec.exact item (horder.item hitem)
    | object fields =>
        constructor
        · rintro ⟨values, -, hsame⟩
          cases JsonValue.isObject_of_same hsame.symm rfl
        · rintro ⟨items, hitems, -⟩
          cases hitems
    | _ => simp

/-- An array of which the elements are kept that can be read. -/
def picked (codec : JsonCodec) : JsonCodec where
  Value := List codec.Value
  decode json :=
    match json with
    | .array items => some (items.filterMap codec.decode)
    | _ => none
  encode values := .array (values.map codec.encode)
  fits json := ∃ items, json = .array items ∧ ∀ item ∈ items, codec.fits item
  exact json horder := by
    cases json with
    | array items =>
        simp only [Option.some.injEq, exists_eq_left', same_filterMap_iff, JsonValue.array.injEq]
        exact forall₂_congr fun item hitem => codec.exact item (horder.item hitem)
    | _ => simp

end JsonCodec

end GopherMcp
