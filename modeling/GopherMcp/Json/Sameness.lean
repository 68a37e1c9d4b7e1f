import GopherMcp.Json.Paths

/-!
# The same value

Two values are the same when they are alike but for how an integer is held: one that fits a signed word may be
held in an unsigned one as well. Arrays are the same element by element, objects key by key.
-/

namespace GopherMcp

namespace JsonValue

mutual

/-- The value with its integers held signed where they fit. -/
def canonical : JsonValue → JsonValue
  | null => null
  | boolean value => boolean value
  | integer value => integer value
  | unsignedInteger value => if value.toNat < 2 ^ 63 then integer value.toInt64 else unsignedInteger value
  | float bits => float bits
  | string text => string text
  | array items => array (canonicalItems items)
  | object fields => object (canonicalFields fields)

def canonicalItems : List JsonValue → List JsonValue
  | [] => []
  | item :: rest => canonical item :: canonicalItems rest

def canonicalFields : List (Bytes × JsonValue) → List (Bytes × JsonValue)
  | [] => []
  | (key, value) :: rest => (key, canonical value) :: canonicalFields rest

end

def Same (left right : JsonValue) : Prop := left.canonical = right.canonical

/-- The same under a key. -/
def SameMember (left right : Option JsonValue) : Prop := left.map canonical = right.map canonical

theorem Same.refl (json : JsonValue) : Same json json := rfl

theorem sameMember_none_iff {member : Option JsonValue} : SameMember none member ↔ member = none := by
  unfold SameMember
  cases member with
  | none => simp
  | some json => simp

theorem sameMember_some_iff {left right : JsonValue} : SameMember (some left) (some right) ↔ Same left right := by
  unfold SameMember Same
  rw [Option.map_some, Option.map_some, Option.some.injEq]

theorem canonicalItems_eq (items : List JsonValue) : canonicalItems items = items.map canonical := by
  induction items with
  | nil => rfl
  | cons item rest ih => rw [canonicalItems, ih, List.map_cons]

theorem canonicalFields_eq (fields : List (Bytes × JsonValue)) :
    canonicalFields fields = fields.map fun field => (field.1, field.2.canonical) := by
  induction fields with
  | nil => rfl
  | cons field rest ih =>
      obtain ⟨key, value⟩ := field
      rw [canonicalFields, ih, List.map_cons]

theorem findEntry_canonicalFields (key : Bytes) (fields : List (Bytes × JsonValue)) :
    OrdMap.findEntry key (canonicalFields fields) = (OrdMap.findEntry key fields).map canonical := by
  induction fields with
  | nil => rfl
  | cons field rest ih =>
      obtain ⟨other, value⟩ := field
      rw [canonicalFields, OrdMap.findEntry, OrdMap.findEntry, ih]
      split_ifs with h
      · rfl
      · rfl

theorem entriesSorted_canonicalFields {fields : List (Bytes × JsonValue)} (h : OrdMap.EntriesSorted fields) :
    OrdMap.EntriesSorted (canonicalFields fields) := by
  rw [canonicalFields_eq]
  exact List.pairwise_map.mpr h

/-- Objects are the same when they have the same under every key. -/
theorem same_object_iff {left right : List (Bytes × JsonValue)} (hleft : OrdMap.EntriesSorted left)
    (hright : OrdMap.EntriesSorted right) :
    Same (object left) (object right) ↔
      ∀ key, SameMember (OrdMap.findEntry key left) (OrdMap.findEntry key right) := by
  unfold Same SameMember
  rw [canonical, canonical, object.injEq]
  constructor
  · intro heq key
    rw [← findEntry_canonicalFields, ← findEntry_canonicalFields, heq]
  · intro hall
    apply OrdMap.entriesSorted_ext (entriesSorted_canonicalFields hleft) (entriesSorted_canonicalFields hright)
    intro key
    rw [findEntry_canonicalFields, findEntry_canonicalFields]
    exact hall key

theorem same_array_iff {left right : List JsonValue} :
    Same (array left) (array right) ↔ List.Forall₂ Same left right := by
  unfold Same
  rw [canonical, canonical, array.injEq, canonicalItems_eq, canonicalItems_eq]
  induction left generalizing right with
  | nil =>
      cases right with
      | nil => simp
      | cons item rest => simp
  | cons item left ih =>
      cases right with
      | nil => simp
      | cons other right =>
          rw [List.map_cons, List.map_cons, List.cons.injEq, List.forall₂_cons, ih]

/-- Only objects are the same as an object. -/
theorem isObject_of_same {left right : JsonValue} (h : Same left right) (hleft : left.isObject) :
    right.isObject := by
  cases left with
  | object fields =>
      unfold Same at h
      rw [canonical] at h
      cases right with
      | object others => rfl
      | unsignedInteger value =>
          rw [canonical] at h
          split at h
          · cases h
          · cases h
      | array items => rw [canonical] at h; cases h
      | _ => cases h
  | _ => cases hleft

/-- A text or a float is the same as itself only. -/
theorem same_iff_eq {left json : JsonValue} (h : (∃ text, left = string text) ∨ ∃ bits, left = float bits) :
    Same left json ↔ json = left := by
  unfold Same
  obtain ⟨text, rfl⟩ | ⟨bits, rfl⟩ := h
  all_goals
    cases json with
    | unsignedInteger value =>
        rw [canonical, canonical]
        split_ifs with h
        · simp
        · simp
    | _ => simp [canonical, eq_comm]

theorem same_string_iff {text : Bytes} {json : JsonValue} : Same (string text) json ↔ json = string text :=
  same_iff_eq (.inl ⟨text, rfl⟩)

theorem same_float_iff {bits : UInt64} {json : JsonValue} : Same (float bits) json ↔ json = float bits :=
  same_iff_eq (.inr ⟨bits, rfl⟩)

/-- An integer that a signed word holds. -/
def FitsInt64 : JsonValue → Prop
  | integer _ => True
  | unsignedInteger value => value.toNat < 2 ^ 63
  | _ => False

theorem same_integer_unsigned_iff {value : UInt64} :
    Same (integer value.toInt64) (unsignedInteger value) ↔ value.toNat < 2 ^ 63 := by
  unfold Same
  rw [canonical, canonical]
  split_ifs with h
  · exact iff_of_true rfl h
  · refine iff_of_false (fun heq => ?_) h
    cases heq

/-- An object built of fields is the same as one with just these, each the same. -/
theorem same_ofFields_iff {fields : List (Bytes × Option JsonValue)} {json : JsonValue}
    (hnodup : (fields.map Prod.fst).Nodup) (horder : json.InKeyOrder) :
    Same (ofFields fields) json ↔
      json.isObject ∧ (∀ key ∈ json.keys, key ∈ fields.map Prod.fst) ∧
        ∀ field ∈ fields, SameMember field.2 (json.get? field.1) := by
  cases json with
  | object others =>
      obtain ⟨entries, hentries, hsorted⟩ := exists_ofFields_eq fields
      have hread (key : Bytes) : OrdMap.findEntry key entries = (ofFields fields).get? key := by
        rw [hentries]
        rfl
      rw [hentries, same_object_iff hsorted (horder [] others rfl)]
      constructor
      · intro hall
        refine ⟨rfl, ?_, ?_⟩
        · intro key hkey
          by_contra hforeign
          have hnone := hall key
          rw [hread, ofFields, get?_foldl_of_not_mem rfl hforeign] at hnone
          have habsent := OrdMap.findEntry_eq_none_iff.mp (sameMember_none_iff.mp hnone)
          exact habsent hkey
        · intro field hfield
          have hsame := hall field.1
          rwa [hread, get?_ofFields hnodup hfield] at hsame
      · rintro ⟨-, hkeys, hfields⟩ key
        by_cases hknown : key ∈ fields.map Prod.fst
        · obtain ⟨field, hfield, rfl⟩ := List.mem_map.mp hknown
          rw [hread, get?_ofFields hnodup hfield]
          exact hfields field hfield
        · have habsent : OrdMap.findEntry key others = none :=
            OrdMap.findEntry_eq_none_iff.mpr fun hkey => hknown (hkeys key hkey)
          rw [hread, ofFields, get?_foldl_of_not_mem rfl hknown, habsent]
          exact sameMember_none_iff.mpr rfl
  | _ =>
      constructor
      · intro hsame
        cases isObject_of_same hsame (isObject_ofFields fields)
      · rintro ⟨hobject, -⟩
        cases hobject

end JsonValue

end GopherMcp
