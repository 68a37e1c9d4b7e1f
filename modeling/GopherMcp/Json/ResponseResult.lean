import GopherMcp.Json.ResultTypes

/-!
# The result of a response

Reading sorts a result by the look of its members: what looks like content blocks, tools, prompts, resources or
a list of these is read into that type, and everything else is kept as the JSON it came as. A result that is
sorted into a type comes back as it was only in the shape of that type, and an integer only within an `int`.
-/

namespace GopherMcp

open JsonValue (Same)

open ResultTypes

inductive ResponseResult where
  | null
  | boolean (value : Bool)
  | integer (value : Int32)
  | double (bits : UInt64)
  | string (text : Bytes)
  | blocks (values : List ContentBlock)
  | tools (values : List tool.Value)
  | prompts (values : List prompt.Value)
  | resources (values : List resource.Value)
  | listResources (result : listResourcesResult.Value)
  | listTools (result : listToolsResult.Value)
  | listPrompts (result : listPromptsResult.Value)
  | readResource (result : readResourceResult.Value)
  | json (value : JsonValue)

namespace ResponseResult

def serialize : ResponseResult → JsonValue
  | .null => .null
  | .boolean value => .boolean value
  | .integer value => JsonValue.ofInt value
  | .double bits => .float bits
  | .string text => .string text
  | .blocks values => .array (values.map serializeContentBlock)
  | .tools values => .array (values.map tool.encode)
  | .prompts values => .array (values.map prompt.encode)
  | .resources values => .array (values.map resource.encode)
  | .listResources result => listResourcesResult.encode result
  | .listTools result => listToolsResult.encode result
  | .listPrompts result => listPromptsResult.encode result
  | .readResource result => readResourceResult.encode result
  | .json value => value

/-! ### How a result is sorted -/

/-- Whether a block can be held as a `ContentBlock`. -/
def fitsContentBlock (json : JsonValue) : Bool :=
  match json.stringAt kType with
  | none => false
  | some type =>
      if type = kText || type = kImage then true
      else if type = kResourceLink then
        json.contains kName && (json.get kName).isString && !json.contains (ascii "title") &&
          !json.contains (ascii "size") && !json.contains (ascii "annotations") && !json.contains (ascii "_meta")
      else type = kResource && json.contains kResource && (json.get kResource).isObject &&
        (json.get kResource).contains kName

def holdsArray (json : JsonValue) (key : Bytes) : Bool := json.contains key && (json.get key).isArray

inductive ObjectKind
  | block
  | listResources
  | listTools
  | listPrompts
  | readResource
  | kept

def objectKind (json : JsonValue) : ObjectKind :=
  if fitsContentBlock json then .block
  else if holdsArray json (ascii "resources") then .listResources
  else if holdsArray json (ascii "tools") then .listTools
  else if holdsArray json (ascii "prompts") then .listPrompts
  else if holdsArray json (ascii "contents") then .readResource
  else .kept

/-- The first element with a schema or with arguments tells, and with neither they are tools. -/
def areTools : List JsonValue → Bool
  | [] => true
  | item :: rest =>
      if item.contains (ascii "inputSchema") then true
      else if item.contains (ascii "arguments") then false
      else areTools rest

inductive ArrayKind
  | blocks
  | tools
  | prompts
  | resources
  | kept

/-- An array is sorted by its first element. -/
def arrayKind (items : List JsonValue) : ArrayKind :=
  match items with
  | [] => .kept
  | first :: _ =>
      if first.isObject then
        if first.contains kType then
          if items.all fitsContentBlock then .blocks else .kept
        else if first.contains kName && !first.contains (ascii "uri") then
          if areTools items then .tools else .prompts
        else if first.contains (ascii "uri") then .resources
        else .kept
      else .kept

def deserialize (json : JsonValue) : Option ResponseResult :=
  match json with
  | .null => some .null
  | .boolean value => some (.boolean value)
  | .integer value => some (.integer (JsonValue.getInt (.integer value) rfl))
  | .unsignedInteger value => some (.integer (JsonValue.getInt (.unsignedInteger value) rfl))
  | .float bits => some (.double bits)
  | .string text => some (.string text)
  | .object _ =>
      match objectKind json with
      | .block => (readContentBlock json).map fun block => .blocks [block]
      | .listResources => (listResourcesResult.decode json).map .listResources
      | .listTools => (listToolsResult.decode json).map .listTools
      | .listPrompts => (listPromptsResult.decode json).map .listPrompts
      | .readResource => (readResourceResult.decode json).map .readResource
      | .kept => some (.json json)
  | .array items =>
      match arrayKind items with
      | .blocks => (items.mapM readContentBlock).map .blocks
      | .tools => (items.mapM tool.decode).map .tools
      | .prompts => (items.mapM prompt.decode).map .prompts
      | .resources => (items.mapM resource.decode).map .resources
      | .kept => some (.json json)

/-! ### What comes back as it was -/

/-- An integer within an `int`, an object that is no content block and has the shape of the list it looks like,
an array whose elements have the shape of what the first one looks like, or anything of another kind. -/
def Fits (json : JsonValue) : Prop :=
  match json with
  | .integer value => -2147483648 ≤ value.toInt ∧ value.toInt ≤ 2147483647
  | .unsignedInteger value => value.toNat ≤ 2147483647
  | .object _ =>
      match objectKind json with
      | .block => False
      | .listResources => listResourcesResult.fits json
      | .listTools => listToolsResult.fits json
      | .listPrompts => listPromptsResult.fits json
      | .readResource => readResourceResult.fits json
      | .kept => True
  | .array items =>
      match arrayKind items with
      | .blocks => ∀ item ∈ items, FitsContentBlock item
      | .tools => ∀ item ∈ items, tool.fits item
      | .prompts => ∀ item ∈ items, prompt.fits item
      | .resources => ∀ item ∈ items, resource.fits item
      | .kept => True
  | _ => True

theorem same_getInt_integer_iff {value : Int64} :
    Same (JsonValue.ofInt (JsonValue.getInt (.integer value) rfl)) (.integer value) ↔
      -2147483648 ≤ value.toInt ∧ value.toInt ≤ 2147483647 := by
  show JsonValue.integer value.toInt32.toInt64 = JsonValue.integer value ↔ _
  rw [JsonValue.integer.injEq, ← Int64.toInt_inj, Int32.toInt_toInt64, Int64.toInt_toInt32, Int.bmod_def]
  split_ifs with h
  · omega
  · omega

theorem same_getInt_unsigned_iff {value : UInt64} :
    Same (JsonValue.ofInt (JsonValue.getInt (.unsignedInteger value) rfl)) (.unsignedInteger value) ↔
      value.toNat ≤ 2147483647 := by
  have hnarrow : value.toUInt32.toInt32.toInt = (value.toNat : Int).bmod (2 ^ 32) :=
    BitVec.toInt_setWidth value.toBitVec
  have hwide (h : value.toNat < 2 ^ 63) : value.toInt64.toInt = value.toNat := by
    have hvalue : value.toInt64.toInt = value.toBitVec.toInt := rfl
    rw [hvalue, BitVec.toInt_eq_toNat_cond, UInt64.toNat_toBitVec, if_pos (by omega)]
  show (JsonValue.integer value.toUInt32.toInt32.toInt64).canonical = _ ↔ _
  rw [JsonValue.canonical, JsonValue.canonical]
  split_ifs with h
  · rw [JsonValue.integer.injEq, ← Int64.toInt_inj, Int32.toInt_toInt64, hnarrow, hwide h, Int.bmod_def]
    split_ifs with hlow
    · omega
    · omega
  · refine iff_of_false (fun heq => ?_) (by omega)
    cases heq

theorem elements_iff (codec : JsonCodec) {wrap : List codec.Value → ResponseResult} {items : List JsonValue}
    (hwrap : ∀ values, serialize (wrap values) = .array (values.map codec.encode))
    (horder : (JsonValue.array items).InKeyOrder) :
    (∃ result, (items.mapM codec.decode).map wrap = some result ∧ Same (serialize result) (.array items)) ↔
      ∀ item ∈ items, codec.fits item := by
  rw [exists_map_iff]
  simp only [hwrap]
  rw [same_mapM_iff]
  exact forall₂_congr fun item hitem => codec.exact item (horder.item hitem)

theorem object_iff {fields : List (Bytes × JsonValue)} (horder : (JsonValue.object fields).InKeyOrder) :
    (∃ result, deserialize (.object fields) = some result ∧ Same (serialize result) (.object fields)) ↔
      Fits (.object fields) := by
  unfold deserialize Fits
  dsimp only
  cases objectKind (.object fields) with
  | block =>
      refine iff_of_false (fun hread => ?_) id
      obtain ⟨values, -, hsame⟩ := exists_map_iff.mp hread
      cases JsonValue.isObject_of_same hsame.symm rfl
  | listResources => exact exists_map_iff.trans (listResourcesResult.exact _ horder)
  | listTools => exact exists_map_iff.trans (listToolsResult.exact _ horder)
  | listPrompts => exact exists_map_iff.trans (listPromptsResult.exact _ horder)
  | readResource => exact exists_map_iff.trans (readResourceResult.exact _ horder)
  | kept => exact iff_of_true ⟨_, rfl, Same.refl _⟩ trivial

theorem array_iff {items : List JsonValue} (horder : (JsonValue.array items).InKeyOrder) :
    (∃ result, deserialize (.array items) = some result ∧ Same (serialize result) (.array items)) ↔
      Fits (.array items) := by
  unfold deserialize Fits
  dsimp only
  cases arrayKind items with
  | blocks => exact elements_iff contentBlock (fun _ => rfl) horder
  | tools => exact elements_iff tool (fun _ => rfl) horder
  | prompts => exact elements_iff prompt (fun _ => rfl) horder
  | resources => exact elements_iff resource (fun _ => rfl) horder
  | kept => exact iff_of_true ⟨_, rfl, Same.refl _⟩ trivial

/-- A result comes back as it was exactly if it is of this shape. -/
theorem survives_iff {r : JsonValue} (horder : r.InKeyOrder) :
    (∃ result, deserialize r = some result ∧ Same (serialize result) r) ↔ Fits r := by
  cases r with
  | integer value =>
      unfold deserialize Fits
      simp only [Option.some.injEq, exists_eq_left', serialize]
      exact same_getInt_integer_iff
  | unsignedInteger value =>
      unfold deserialize Fits
      simp only [Option.some.injEq, exists_eq_left', serialize]
      exact same_getInt_unsigned_iff
  | object fields => exact object_iff horder
  | array items => exact array_iff horder
  | _ => exact iff_of_true ⟨_, rfl, Same.refl _⟩ trivial

/-- A page with one tool. -/
def toolPage : JsonValue :=
  .object
    [(ascii "tools",
      .array [.object [(ascii "inputSchema", emptySchema), (ascii "name", .string (ascii "echo"))]])]

theorem survives_iff_toolPage :
    ∃ result, deserialize toolPage = some result ∧ Same (serialize result) toolPage := by
  have hschema : emptySchema.InKeyOrder := by
    refine JsonValue.inKeyOrder_object (List.pairwise_singleton _ _) fun field hfield => ?_
    rw [List.mem_singleton.mp hfield]
    exact JsonValue.inKeyOrder_string _
  have horder : toolPage.InKeyOrder := by
    refine JsonValue.inKeyOrder_object (List.pairwise_singleton _ _) fun field hfield => ?_
    rw [List.mem_singleton.mp hfield]
    refine JsonValue.inKeyOrder_array fun item hitem => ?_
    rw [List.mem_singleton.mp hitem]
    refine JsonValue.inKeyOrder_object (List.pairwise_pair.mpr (by decide)) ?_
    rw [List.forall_mem_cons, List.forall_mem_singleton]
    exact ⟨hschema, JsonValue.inKeyOrder_string _⟩
  refine (survives_iff horder).mpr ?_
  show listToolsResult.fits toolPage
  have habsent {key : Bytes} {guard : JsonValue → Bool} {codec : JsonCodec} :
      (RecordField.optional key guard codec).shape none := fun _ hnone => by cases hnone
  have htool : tool.fits (.object [(ascii "inputSchema", emptySchema), (ascii "name", .string (ascii "echo"))]) := by
    refine ⟨rfl, by decide, ?_⟩
    simp only [List.forall_mem_cons]
    exact ⟨⟨_, rfl, rfl⟩, habsent, habsent, rfl, habsent, habsent, habsent, habsent, List.forall_mem_nil _⟩
  refine ⟨rfl, by decide, ?_⟩
  simp only [cacheHints, List.forall_mem_cons]
  exact ⟨⟨_, rfl, _, rfl, List.forall_mem_singleton.mpr htool⟩, habsent, habsent, habsent, List.forall_mem_nil _⟩

theorem not_always_survives :
    ¬ ∀ r : JsonValue, r.InKeyOrder → ∃ result, deserialize r = some result ∧ Same (serialize result) r := by
  intro hall
  obtain ⟨result, hread, hsame⟩ := hall (.integer 1099511627776) (JsonValue.inKeyOrder_integer _)
  obtain rfl := Option.some.inj hread
  exact absurd (same_getInt_integer_iff.mp hsame).2 (by decide)

end ResponseResult

end GopherMcp
