import GopherMcp.Json.Records

/-!
# The types of a result

What a result is read into: content blocks, tools, prompts and resources, and the lists of these. Each type is
the members it writes, with how each is read: an optional one of the wrong type is passed over under its guard,
and refused where it has none.
-/

namespace GopherMcp

open JsonValue (isString isBoolean isInteger isFloat isArray isObject)

namespace ResultTypes

/-! ### Icons and annotations -/

def isTheme : JsonValue → Bool
  | .string text => text == ascii "light" || text == ascii "dark"
  | _ => false

def icon : JsonCodec :=
  .record
    [.required (ascii "src") .text,
      .optional (ascii "mimeType") isString .text,
      .optional (ascii "sizes") isArray (.picked .text),
      .optional (ascii "theme") isTheme .text]
    (by decide)

/-- `addIcons` and `readIcons`. -/
def icons : RecordField := .optional (ascii "icons") isArray (.picked icon)

inductive Role
  | user
  | assistant

def Role.toString : Role → Bytes
  | user => ascii "user"
  | assistant => ascii "assistant"

def Role.fromString (text : Bytes) : Option Role :=
  if text = ascii "user" then some user else if text = ascii "assistant" then some assistant else none

theorem Role.fromString_eq_some_iff {text : Bytes} {role : Role} :
    Role.fromString text = some role ↔ text = role.toString := by
  unfold Role.fromString
  cases role with
  | user =>
      by_cases h : text = ascii "user"
      · simp [h, Role.toString]
      · by_cases hother : text = ascii "assistant"
        · simp [hother, Role.toString, show ascii "assistant" ≠ ascii "user" by decide]
        · simp [h, hother, Role.toString]
  | assistant =>
      by_cases h : text = ascii "user"
      · simp [h, Role.toString, show ascii "user" ≠ ascii "assistant" by decide]
      · by_cases hother : text = ascii "assistant"
        · simp [hother, Role.toString, show ascii "assistant" ≠ ascii "user" by decide]
        · simp [h, hother, Role.toString]

def Role.ofJson : JsonValue → Option Role
  | .string text => Role.fromString text
  | _ => none

def Role.toJson (role : Role) : JsonValue := .string role.toString

def Role.Named (json : JsonValue) : Prop := ∃ role : Role, json = role.toJson

theorem Role.exists_ofJson_iff {json : JsonValue} :
    (∃ role, Role.ofJson json = some role ∧ JsonValue.Same role.toJson json) ↔ Role.Named json := by
  apply exists_congr
  intro role
  unfold Role.toJson
  rw [JsonValue.same_string_iff]
  apply and_iff_right_of_imp
  rintro rfl
  exact Role.fromString_eq_some_iff.mpr rfl

def role : JsonCodec where
  Value := Role
  decode := Role.ofJson
  encode := Role.toJson
  fits := Role.Named
  exact _ _ := Role.exists_ofJson_iff

/-- The elements of an audience must be strings, and a string that names no role is passed over. -/
def readAudience : JsonValue → Option (List Role)
  | .array items => if items.all isString then some (items.filterMap Role.ofJson) else none
  | .object [] => some []
  | _ => none

def audience : JsonCodec where
  Value := List Role
  decode := readAudience
  encode roles := .array (roles.map Role.toJson)
  fits json := ∃ items, json = .array items ∧ ∀ item ∈ items, Role.Named item
  exact json _ := by
    cases json with
    | array items =>
        simp only [readAudience, JsonValue.array.injEq, exists_eq_left']
        rw [← forall₂_congr fun item (_ : item ∈ items) => @Role.exists_ofJson_iff item, ← same_filterMap_iff]
        by_cases hstrings : items.all isString
        · rw [if_pos hstrings]
          simp
        · rw [if_neg hstrings]
          refine iff_of_false (fun hread => ?_) (fun hsame => hstrings ?_)
          · obtain ⟨values, hread, -⟩ := hread
            cases hread
          · refine List.all_eq_true.mpr fun item hitem => ?_
            obtain ⟨role, hrole⟩ := Role.exists_ofJson_iff.mp (same_filterMap_iff.mp hsame item hitem)
            rw [hrole]
            rfl
    | object fields =>
        refine iff_of_false (fun hread => ?_) (fun hfits => ?_)
        · obtain ⟨values, -, hsame⟩ := hread
          cases JsonValue.isObject_of_same hsame.symm rfl
        · obtain ⟨items, hitems, -⟩ := hfits
          cases hitems
    | _ => simp [readAudience]

/-- `getFloat`: the number as a double. -/
def getFloat : JsonValue → Option UInt64
  | .float bits => some bits
  | .integer value => some value.toFloat.toBits
  | .unsignedInteger value => some value.toFloat.toBits
  | _ => none

def annotations : JsonCodec :=
  .record
    [.strict (ascii "audience") audience,
      .strict (ascii "priority") (.double getFloat fun _ => rfl),
      .optional (ascii "lastModified") isString .text]
    (by decide)

/-- An integer goes through `getInt64` first. -/
def readPriority (json : JsonValue) : Option UInt64 :=
  match json with
  | .float bits => some bits
  | other => if h : other.isInteger then some (other.getInt64 h).toFloat.toBits else none

/-- `readAnnotationsForgivingly`. -/
def forgivingAnnotations : JsonCodec :=
  .record
    [.optional (ascii "audience") isArray (.picked role),
      .optional (ascii "priority") (fun json => json.isFloat || json.isInteger) (.double readPriority fun _ => rfl),
      .optional (ascii "lastModified") isString .text]
    (by decide)

def toolAnnotations : JsonCodec :=
  .record
    [.optional (ascii "title") isString .text,
      .optional (ascii "readOnlyHint") isBoolean .flag,
      .optional (ascii "destructiveHint") isBoolean .flag,
      .optional (ascii "idempotentHint") isBoolean .flag,
      .optional (ascii "openWorldHint") isBoolean .flag]
    (by decide)

/-- `addMeta` and `readMeta`. -/
def strictMeta : RecordField := .strict (ascii "_meta") .whole

/-- `objectField` under `_meta`. -/
def forgivingMeta : RecordField := .optional (ascii "_meta") isObject .whole

/-! ### Resources, tools and prompts -/

/-- What `serialize_Resource` and `deserialize_Resource` write and read. -/
def resourceFields : List RecordField :=
  [.required (ascii "uri") .text,
    .defaulted (ascii "name") .text [],
    .optional (ascii "title") isString .text,
    .strict (ascii "description") .text,
    .strict (ascii "mimeType") .text,
    icons,
    .optional (ascii "size") isInteger .int64,
    .optional (ascii "annotations") isObject forgivingAnnotations,
    forgivingMeta]

def resource : JsonCodec := .record resourceFields (by decide)

/-- The schema of a tool that has none. -/
def emptySchema : JsonValue := .object [(ascii "type", .string (ascii "object"))]

/-- A tool always has a schema written for it. -/
def inputSchema : RecordField where
  key := ascii "inputSchema"
  Value := Option JsonValue
  read member := some member
  write schema := some (schema.getD emptySchema)
  shape member := member.isSome = true
  exact member _ := by
    cases member with
    | none => simp [JsonValue.SameMember]
    | some json => simp [JsonValue.SameMember]

def tool : JsonCodec :=
  .record
    [.required (ascii "name") .text,
      .optional (ascii "title") isString .text,
      .strict (ascii "description") .text,
      inputSchema,
      .optional (ascii "outputSchema") isObject .whole,
      .optional (ascii "annotations") isObject toolAnnotations,
      icons,
      forgivingMeta]
    (by decide)

def promptArgument : JsonCodec :=
  .record
    [.required (ascii "name") .text,
      .optional (ascii "title") isString .text,
      .strict (ascii "description") .text,
      .defaulted (ascii "required") .flag false]
    (by decide)

def prompt : JsonCodec :=
  .record
    [.required (ascii "name") .text,
      .optional (ascii "title") isString .text,
      .strict (ascii "description") .text,
      .strict (ascii "arguments") (.each promptArgument),
      icons,
      forgivingMeta]
    (by decide)

/-! ### Content blocks -/

def kType : Bytes := ascii "type"
def kText : Bytes := ascii "text"
def kImage : Bytes := ascii "image"
def kResourceLink : Bytes := ascii "resource_link"
def kResource : Bytes := ascii "resource"
def kName : Bytes := ascii "name"

def textContent : JsonCodec :=
  .record
    [.constant kType kText,
      .required (ascii "text") .text,
      .strict (ascii "annotations") annotations,
      strictMeta]
    (by decide)

def imageContent : JsonCodec :=
  .record
    [.constant kType kImage,
      .required (ascii "mimeType") .text,
      .required (ascii "data") .text,
      .optional (ascii "annotations") isObject annotations,
      strictMeta]
    (by decide)

/-- What `serialize_ResourceLink` writes: a link has the members of its resource. -/
def linkFields : List RecordField := .constant kType kResourceLink :: resourceFields

def resourceLink : JsonCodec := .record linkFields (by decide)

/-- The resource of a link: nested, as it used to be written, or the link itself. -/
def linked (json : JsonValue) : JsonValue :=
  if json.contains kResource && (json.get kResource).isObject then json.get kResource else json

/-- `deserialize_ResourceContent`. -/
def readResourceContent (json : JsonValue) : Option resource.Value :=
  if (linked json).contains kName && ((linked json).get kName).isString then resource.decode (linked json) else none

def serializeResourceContent (content : resource.Value) : JsonValue := resourceLink.encode ((), content)

/-- A link with the members it writes nests no resource. -/
theorem linked_of_keys {json : JsonValue}
    (hkeys : ∀ key ∈ json.keys, key ∈ linkFields.map RecordField.key) : linked json = json := by
  unfold linked
  rw [if_neg]
  intro hresource
  have hkey := (JsonValue.contains_iff_mem_keys json kResource).mp (Bool.and_eq_true_iff.mp hresource).1
  exact absurd (hkeys kResource hkey) (by decide)

theorem decode_resourceLink_iff {json : JsonValue} {content : RecordField.Decoded resourceFields} :
    resourceLink.decode json = some ((), content) ↔ resource.decode json = some content := by
  show (RecordField.decode resourceFields json).map (fun content => ((), content)) = some ((), content) ↔
    RecordField.decode resourceFields json = some content
  rw [Option.map_eq_some_iff]
  constructor
  · rintro ⟨other, hread, hother⟩
    cases hother
    exact hread
  · intro hread
    exact ⟨content, hread, rfl⟩

theorem readResourceContent_iff {json : JsonValue} {content : resource.Value} (h : linked json = json) :
    readResourceContent json = some content ↔
      (json.contains kName && (json.get kName).isString) = true ∧ resourceLink.decode json = some ((), content) := by
  unfold readResourceContent
  rw [h]
  split_ifs with hname
  · constructor
    · intro hread
      exact ⟨hname, decode_resourceLink_iff.mpr hread⟩
    · rintro ⟨-, hread⟩
      exact decode_resourceLink_iff.mp hread
  · refine iff_of_false (fun hread => ?_) (fun hboth => hname hboth.1)
    cases hread

/-- A link comes back as it was when it has the shape of one: a nested resource does not. -/
def resourceContent : JsonCodec where
  Value := resource.Value
  decode := readResourceContent
  encode := serializeResourceContent
  fits := resourceLink.fits
  exact json horder := by
    constructor
    · rintro ⟨content, hread, hsame⟩
      have hkeys := ((RecordField.same_encode_iff (by decide) horder _).mp hsame).2.1
      have hflat := linked_of_keys hkeys
      exact (resourceLink.exact json horder).mp ⟨((), content), ((readResourceContent_iff hflat).mp hread).2, hsame⟩
    · intro hfits
      obtain ⟨⟨⟨⟩, content⟩, hread, hsame⟩ := (resourceLink.exact json horder).mpr hfits
      refine ⟨content, (readResourceContent_iff (linked_of_keys hfits.2.1)).mpr ⟨?_, hread⟩, hsame⟩
      obtain ⟨name, hname, hstring⟩ := hfits.2.2 (.defaulted (ascii "name") .text []) (by simp [linkFields, resourceFields])
      have hget : json.get? kName = some name := hname
      rw [JsonValue.contains_eq, JsonValue.get_eq, hget]
      exact hstring

inductive ContentBlock
  | text (content : textContent.Value)
  | image (content : imageContent.Value)
  | resource (content : resourceContent.Value)

def readContentBlock (json : JsonValue) : Option ContentBlock :=
  match json.stringAt kType with
  | none => none
  | some type =>
      if type = kText then (textContent.decode json).map .text
      else if type = kImage then (imageContent.decode json).map .image
      else if type = kResourceLink then (resourceContent.decode json).map .resource
      else if type = kResource && json.contains kResource && (json.get kResource).isObject &&
          (json.get kResource).contains kName then
        (resourceContent.decode json).map .resource
      else none

def serializeContentBlock : ContentBlock → JsonValue
  | .text content => textContent.encode content
  | .image content => imageContent.encode content
  | .resource content => resourceContent.encode content

/-- The shape of a block says what type it is of. -/
theorem stringAt_of_constant {fields : List RecordField} {json : JsonValue} {type : Bytes}
    (hfits : RecordField.Fits fields json) (hfield : RecordField.constant kType type ∈ fields) :
    json.stringAt kType = some type := by
  have hget : json.get? kType = some (.string type) := hfits.2.2 _ hfield
  have hstring : json.get? kType = (some type).map JsonValue.string := hget
  exact JsonValue.stringAt_of_get? hstring

def FitsContentBlock (json : JsonValue) : Prop :=
  textContent.fits json ∨ imageContent.fits json ∨ resourceLink.fits json

theorem exists_map_iff {α β : Type} {read : Option α} {wrap : α → β} {good : β → Prop} :
    (∃ value, read.map wrap = some value ∧ good value) ↔ ∃ value, read = some value ∧ good (wrap value) := by
  cases read with
  | none => simp
  | some value => simp

theorem readContentBlock_iff {json : JsonValue} (horder : json.InKeyOrder) :
    (∃ block, readContentBlock json = some block ∧ JsonValue.Same (serializeContentBlock block) json) ↔
      FitsContentBlock json := by
  have htext (hfits : textContent.fits json) : json.stringAt kType = some kText :=
    stringAt_of_constant hfits List.mem_cons_self
  have himage (hfits : imageContent.fits json) : json.stringAt kType = some kImage :=
    stringAt_of_constant hfits List.mem_cons_self
  have hlink (hfits : resourceLink.fits json) : json.stringAt kType = some kResourceLink :=
    stringAt_of_constant hfits List.mem_cons_self
  unfold readContentBlock FitsContentBlock
  cases htype : json.stringAt kType with
  | none =>
      rw [htype] at htext himage hlink
      refine iff_of_false (fun hread => ?_) (fun hfits => ?_)
      · obtain ⟨block, hread, -⟩ := hread
        cases hread
      · obtain hfits | hfits | hfits := hfits
        · cases htext hfits
        · cases himage hfits
        · cases hlink hfits
  | some type =>
      rw [htype, Option.some.injEq] at htext himage hlink
      -- what is neither a text nor an image can only come back as a flat link, nested or not
      have hlinkOnly (hisText : ¬ type = kText) (hisImage : ¬ type = kImage) :
          resourceLink.fits json ↔ textContent.fits json ∨ imageContent.fits json ∨ resourceLink.fits json := by
        rw [or_iff_right (mt htext hisText), or_iff_right (mt himage hisImage)]
      dsimp only
      split_ifs with hisText hisImage hisLink hnested
      · refine (exists_map_iff.trans (textContent.exact json horder)).trans ⟨Or.inl, ?_⟩
        rintro (hfits | hfits | hfits)
        · exact hfits
        · exact absurd (hisText.symm.trans (himage hfits)) (by decide)
        · exact absurd (hisText.symm.trans (hlink hfits)) (by decide)
      · refine (exists_map_iff.trans (imageContent.exact json horder)).trans ⟨fun hfits => Or.inr (Or.inl hfits), ?_⟩
        rintro (hfits | hfits | hfits)
        · exact absurd (htext hfits) hisText
        · exact hfits
        · exact absurd (hisImage.symm.trans (hlink hfits)) (by decide)
      · exact (exists_map_iff.trans (resourceContent.exact json horder)).trans (hlinkOnly hisText hisImage)
      · exact (exists_map_iff.trans (resourceContent.exact json horder)).trans (hlinkOnly hisText hisImage)
      · refine iff_of_false (fun hread => ?_) (fun hfits => ?_)
        · obtain ⟨block, hread, -⟩ := hread
          cases hread
        · obtain hfits | hfits | hfits := hfits
          · exact hisText (htext hfits)
          · exact hisImage (himage hfits)
          · exact hisLink (hlink hfits)

def contentBlock : JsonCodec where
  Value := ContentBlock
  decode := readContentBlock
  encode := serializeContentBlock
  fits := FitsContentBlock
  exact _ horder := readContentBlock_iff horder

/-! ### Results -/

def textResourceContents : JsonCodec :=
  .record
    [.required (ascii "text") .text,
      .strict (ascii "uri") .text,
      .strict (ascii "mimeType") .text,
      strictMeta]
    (by decide)

def blobResourceContents : JsonCodec :=
  .record
    [.required (ascii "blob") .text,
      .strict (ascii "uri") .text,
      .strict (ascii "mimeType") .text,
      strictMeta]
    (by decide)

inductive ResourceContents
  | text (contents : textResourceContents.Value)
  | blob (contents : blobResourceContents.Value)

def readResourceContents (json : JsonValue) : Option ResourceContents :=
  if json.contains kText then (textResourceContents.decode json).map .text
  else if json.contains (ascii "blob") then (blobResourceContents.decode json).map .blob
  else none

def serializeResourceContents : ResourceContents → JsonValue
  | .text contents => textResourceContents.encode contents
  | .blob contents => blobResourceContents.encode contents

def resourceContents : JsonCodec where
  Value := ResourceContents
  decode := readResourceContents
  encode := serializeResourceContents
  fits json := textResourceContents.fits json ∨ blobResourceContents.fits json
  exact json horder := by
    have htext (hfits : textResourceContents.fits json) : json.contains kText = true := by
      obtain ⟨text, htext, -⟩ := hfits.2.2 _ List.mem_cons_self
      rw [JsonValue.contains_eq]
      exact Option.isSome_of_eq_some htext
    have hblob (hfits : blobResourceContents.fits json) : json.contains (ascii "blob") = true := by
      obtain ⟨blob, hblob, -⟩ := hfits.2.2 _ List.mem_cons_self
      rw [JsonValue.contains_eq]
      exact Option.isSome_of_eq_some hblob
    have hapart (hfits : blobResourceContents.fits json) : ¬ json.contains kText = true := fun hcontains =>
      absurd (hfits.2.1 kText ((JsonValue.contains_iff_mem_keys json kText).mp hcontains)) (by decide)
    unfold readResourceContents
    split_ifs with hisText hisBlob
    · refine (exists_map_iff.trans (textResourceContents.exact json horder)).trans ⟨Or.inl, ?_⟩
      rintro (hfits | hfits)
      · exact hfits
      · exact absurd hisText (hapart hfits)
    · refine (exists_map_iff.trans (blobResourceContents.exact json horder)).trans ⟨Or.inr, ?_⟩
      rintro (hfits | hfits)
      · exact absurd (htext hfits) hisText
      · exact hfits
    · refine iff_of_false (fun hread => ?_) (fun hfits => ?_)
      · obtain ⟨contents, hread, -⟩ := hread
        cases hread
      · obtain hfits | hfits := hfits
        · exact hisText (htext hfits)
        · exact hisBlob (hblob hfits)

/-- `addCacheHints` and `readCacheHints`. -/
def cacheHints : List RecordField :=
  [.optional (ascii "ttlMs") isInteger .int64,
    .optional (ascii "cacheScope") isString .text]

def nextCursor : RecordField := .optional (ascii "nextCursor") isString .text

def listResourcesResult : JsonCodec :=
  .record (.required (ascii "resources") (.each resource) :: nextCursor :: cacheHints) (by decide)

def listToolsResult : JsonCodec :=
  .record (.required (ascii "tools") (.each tool) :: nextCursor :: cacheHints) (by decide)

def listPromptsResult : JsonCodec :=
  .record (.required (ascii "prompts") (.each prompt) :: nextCursor :: cacheHints) (by decide)

def readResourceResult : JsonCodec :=
  .record (.required (ascii "contents") (.each resourceContents) :: cacheHints) (by decide)

end ResultTypes

end GopherMcp
