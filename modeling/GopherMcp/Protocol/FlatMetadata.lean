import GopherMcp.Json.Sameness
import GopherMcp.Protocol.TracedMessages

/-!
# Metadata and the JSON it stands for

Metadata is flat: what is nested in an object is kept as its text, and read again by the look of it. On the way there
and back everything is the same again but for the integers at the top that only an unsigned word holds.
-/

namespace GopherMcp

namespace Trace

open JsonValue (Same SameMember)

variable (text : JsonText)

/-- `MetadataValue` of a member: objects and arrays as their text. -/
def metadataValueOf : JsonValue → MetadataValue
  | .null => .null
  | .string written => .string written
  | .integer value => .integer value
  | .unsignedInteger value => .integer value.toInt64
  | .float bits => .float bits
  | .boolean value => .boolean value
  | nested => .string (text.print nested)

/-- A member under its key. -/
def keepMember (json : JsonValue) (metadata : Metadata) (key : Bytes) : Metadata :=
  metadata.insert key (metadataValueOf text (json.get key))

def jsonToMetadata (json : JsonValue) : Metadata :=
  if !json.isObject then OrdMap.empty else json.keys.foldl (keepMember text json) OrdMap.empty

/-- What the JSON library does for the members of an object: it reads back an object or an array it printed, in its
brackets, and a text in brackets that it reads is an object or an array. -/
structure ReadsMembers (json : JsonValue) : Prop where
  nested : ∀ key value, json.get? key = some value → value.isObject ∨ value.isArray →
    looksNested (text.print value) = true ∧ ∃ read, text.parse (text.print value) = some read ∧ Same read value
  brackets : ∀ written value, looksNested written = true → text.parse written = some value →
    value.isObject ∨ value.isArray

/-- No member is a string that is itself the text of an object or an array. -/
def NoNestedTexts (json : JsonValue) : Prop :=
  ∀ key written, json.get? key = some (.string written) → ∀ value, text.parse written = some value →
    ¬ (value.isObject ∨ value.isArray)

variable {text}

/-- Under each key the metadata has what the member is. -/
theorem find?_foldl_keepMember (json : JsonValue) (key : Bytes) (keys : List Bytes) (metadata : Metadata) :
    (keys.foldl (keepMember text json) metadata).find? key =
      if key ∈ keys then some (metadataValueOf text (json.get key)) else metadata.find? key := by
  induction keys generalizing metadata with
  | nil => simp
  | cons other rest ih =>
      rw [List.foldl_cons, ih, keepMember, OrdMap.find?_insert]
      by_cases hrest : key ∈ rest
      · rw [if_pos hrest, if_pos (List.mem_cons_of_mem _ hrest)]
      · rw [if_neg hrest]
        by_cases hother : key = other
        · rw [if_pos hother, if_pos (by simp [hother]), hother]
        · rw [if_neg hother, if_neg (by simp [hother, hrest])]

theorem find?_jsonToMetadata {json : JsonValue} (hobject : json.isObject) (key : Bytes) :
    (jsonToMetadata text json).find? key = (json.get? key).map (metadataValueOf text) := by
  rw [jsonToMetadata, if_neg (by simp [hobject]), find?_foldl_keepMember, JsonValue.get_eq]
  cases hget : json.get? key with
  | none =>
      have habsent : key ∉ json.keys := by
        rw [← JsonValue.contains_iff_mem_keys, JsonValue.contains_eq, hget]
        exact Bool.false_ne_true
      rw [if_neg habsent]
      rfl
  | some value =>
      have hkey : key ∈ json.keys := by
        rw [← JsonValue.contains_iff_mem_keys, JsonValue.contains_eq, hget]
        rfl
      rw [if_pos hkey]
      rfl

/-- A member is the same again unless only an unsigned word holds it. -/
theorem same_member_iff {json value : JsonValue} {key : Bytes} (hreads : ReadsMembers text json)
    (htexts : NoNestedTexts text json) (hget : json.get? key = some value) :
    Same (metadataValueToJson text (metadataValueOf text value)) value ↔
      ∀ number, value = .unsignedInteger number → number.toNat < 2 ^ 63 := by
  have hnested (h : value.isObject ∨ value.isArray) :
      Same (metadataValueToJson text (.string (text.print value))) value := by
    obtain ⟨hlooks, read, hread, hsame⟩ := hreads.nested key value hget h
    rw [metadataValueToJson, if_pos hlooks, hread]
    exact hsame
  cases value with
  | unsignedInteger number =>
      rw [metadataValueOf, metadataValueToJson, JsonValue.same_integer_unsigned_iff]
      exact ⟨fun h other hother => JsonValue.unsignedInteger.inj hother ▸ h, fun h => h number rfl⟩
  | string written =>
      refine iff_of_true ?_ (fun number h => by cases h)
      rw [metadataValueOf, metadataValueToJson]
      split_ifs with hlooks
      · cases hparse : text.parse written with
        | none => exact Same.refl _
        | some read => exact absurd (hreads.brackets written read hlooks hparse) (htexts key written hget read hparse)
      · exact Same.refl _
  | object fields => exact iff_of_true (hnested (Or.inl rfl)) (fun number h => by cases h)
  | array items => exact iff_of_true (hnested (Or.inr rfl)) (fun number h => by cases h)
  | _ => exact iff_of_true (Same.refl _) (fun number h => by cases h)

/-- **There and back.** An object is the same again exactly if none of its members is an integer from 2^63 on. -/
theorem same_metadataToJson_iff {json : JsonValue} (hobject : json.isObject) (horder : json.InKeyOrder)
    (hreads : ReadsMembers text json) (htexts : NoNestedTexts text json) :
    Same (metadataToJson text (jsonToMetadata text json)) json ↔
      ∀ key number, json.get? key = some (.unsignedInteger number) → number.toNat < 2 ^ 63 := by
  set metadata := jsonToMetadata text json with hmetadata
  have hkeys : (metadata.entries.map fun entry => (entry.1, some (metadataValueToJson text entry.2))).map Prod.fst =
      metadata.keys := by
    rw [List.map_map]
    rfl
  have hmember (key : Bytes) : key ∈ metadata.keys ↔ key ∈ json.keys := by
    rw [OrdMap.mem_keys_iff, hmetadata, find?_jsonToMetadata hobject, Option.isSome_map, ← JsonValue.contains_eq,
      JsonValue.contains_iff_mem_keys]
  rw [metadataToJson, JsonValue.same_ofFields_iff (hkeys ▸ OrdMap.nodup_keys metadata) horder, hkeys]
  constructor
  · rintro ⟨-, -, hfields⟩ key number hget
    have hentry : (key, metadataValueOf text (.unsignedInteger number)) ∈ metadata.entries := by
      rw [OrdMap.mem_entries_iff, hmetadata, find?_jsonToMetadata hobject, hget, Option.map_some]
    have hsame := hfields _ (List.mem_map_of_mem hentry)
    rw [hget, JsonValue.sameMember_some_iff, same_member_iff hreads htexts hget] at hsame
    exact hsame number rfl
  · intro hsmall
    refine ⟨hobject, fun key hkey => (hmember key).mpr hkey, fun field hfield => ?_⟩
    obtain ⟨⟨key, kept⟩, hentry, rfl⟩ := List.mem_map.mp hfield
    rw [OrdMap.mem_entries_iff, hmetadata, find?_jsonToMetadata hobject, Option.map_eq_some_iff] at hentry
    obtain ⟨value, hget, rfl⟩ := hentry
    rw [hget, JsonValue.sameMember_some_iff, same_member_iff hreads htexts hget]
    rintro number rfl
    exact hsmall key number hget

/-- A library that has one array to print and to read. -/
def oneArray : JsonText where
  print _ := ascii "[1]"
  parse written := if written = ascii "[1]" then some (.array [.unsignedInteger 1]) else none

/-- An object with that array in it. -/
def withArray : JsonValue :=
  .object [(ascii "list", .array [.integer 1]), (ascii "name", .string (ascii "[x]")), (ascii "size", .unsignedInteger 5)]

theorem same_metadataToJson_array :
    Same (metadataToJson oneArray (jsonToMetadata oneArray withArray)) withArray := by
  have horder : withArray.InKeyOrder := by
    refine JsonValue.inKeyOrder_object (by simp only [OrdMap.EntriesSorted]; decide) fun field hfield => ?_
    simp only [List.mem_cons, List.not_mem_nil, or_false] at hfield
    obtain rfl | rfl | rfl := hfield
    · exact JsonValue.inKeyOrder_array fun item hitem =>
        List.mem_singleton.mp hitem ▸ JsonValue.inKeyOrder_of_scalar rfl rfl
    · exact JsonValue.inKeyOrder_of_scalar rfl rfl
    · exact JsonValue.inKeyOrder_of_scalar rfl rfl
  have hmembers (key : Bytes) (value : JsonValue) (hget : withArray.get? key = some value) :
      value = .array [.integer 1] ∨ value = .string (ascii "[x]") ∨ value = .unsignedInteger 5 := by
    have hmem := OrdMap.mem_of_findEntry hget
    simp only [List.mem_cons, Prod.mk.injEq, List.not_mem_nil, or_false] at hmem
    obtain ⟨-, rfl⟩ | ⟨-, rfl⟩ | ⟨-, rfl⟩ := hmem <;> simp
  refine (same_metadataToJson_iff rfl horder ⟨?_, ?_⟩ ?_).mpr ?_
  · intro key value hget hnested
    obtain rfl | rfl | rfl := hmembers key value hget
    · exact ⟨by decide, .array [.unsignedInteger 1], rfl, rfl⟩
    · exact absurd hnested (by decide)
    · exact absurd hnested (by decide)
  · intro written value _ hparse
    simp only [oneArray] at hparse
    split_ifs at hparse
    exact Or.inr (Option.some.inj hparse ▸ rfl)
  · intro key written hget value hparse
    obtain h | h | h := hmembers key _ hget
    · cases h
    · obtain rfl := JsonValue.string.inj h
      cases hparse
    · cases h
  · intro key number hget
    obtain h | h | h := hmembers key _ hget
    · cases h
    · cases h
    · obtain rfl := JsonValue.unsignedInteger.inj h
      decide

/-- The largest unsigned integer comes back as minus one. -/
theorem not_same_metadataToJson_unsigned :
    metadataToJson oneArray (jsonToMetadata oneArray
        (.object [(ascii "n", .unsignedInteger 18446744073709551615)])) = .object [(ascii "n", .integer (-1))] ∧
      ¬ Same (metadataToJson oneArray (jsonToMetadata oneArray
        (.object [(ascii "n", .unsignedInteger 18446744073709551615)])))
        (.object [(ascii "n", .unsignedInteger 18446744073709551615)]) := by
  have hread : metadataToJson oneArray (jsonToMetadata oneArray
      (.object [(ascii "n", .unsignedInteger 18446744073709551615)])) = .object [(ascii "n", .integer (-1))] := rfl
  refine ⟨hread, ?_⟩
  rw [hread]
  intro hsame
  cases hsame

end Trace

end GopherMcp
