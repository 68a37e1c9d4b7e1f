import GopherMcp.Core.Error
import GopherMcp.Json.Value

/-!
# Which arguments of a tool travel in headers

The input schema of a tool may designate an argument to be carried in a header as well. Both ends find its
value by a fixed chain of property names, so a designation anywhere else makes the tool unusable.
-/

namespace GopherMcp

/-- The definition of a tool, as far as calling it goes. -/
structure Tool where
  name : Bytes
  inputSchema : Option JsonValue
  outputSchema : Option JsonValue

structure DesignatedParam where
  headerName : Bytes
  path : List Bytes
  deriving DecidableEq

namespace DesignatedParams

def kAnnotation : Bytes := ascii "x-mcp-header"

def refuse (tool why : Bytes) : Error :=
  ⟨INVALID_PARAMS, ascii "tool '" ++ tool ++ ascii "' cannot be served: " ++ why⟩

def isAlnum (c : UInt8) : Bool :=
  (48 ≤ c && c ≤ 57) || (65 ≤ c && c ≤ 90) || (97 ≤ c && c ≤ 122)

/-- What the name of a header may hold. -/
def isTokenChar (c : UInt8) : Bool := isAlnum c || (ascii "!#$%&'*+-.^_`|~").contains c

def lowered (text : Bytes) : Bytes := text.map fun c => if 65 ≤ c && c ≤ 90 then c + 32 else c

/-- A string, an integer or a boolean, and no union of types. -/
def hasCarryableType (schema : JsonValue) : Bool :=
  match schema.get (ascii "type") with
  | .string named => named = ascii "string" || named = ascii "integer" || named = ascii "boolean"
  | _ => false

/-- The keys a schema can nest under that no fixed path can traverse. -/
def kUnreachableKeys : List Bytes :=
  [ascii "items", ascii "oneOf", ascii "anyOf", ascii "allOf", ascii "not", ascii "if", ascii "then",
    ascii "else", ascii "prefixItems"]

mutual

def mentionsAnnotation : JsonValue → Bool
  | .object fields => (OrdMap.findEntry kAnnotation fields).isSome || mentionedInFields fields
  | .array items => mentionedInItems items
  | _ => false

def mentionedInFields : List (Bytes × JsonValue) → Bool
  | [] => false
  | (_, value) :: rest => mentionsAnnotation value || mentionedInFields rest

def mentionedInItems : List JsonValue → Bool
  | [] => false
  | value :: rest => mentionsAnnotation value || mentionedInItems rest

end

/-- What the walk has found so far. -/
structure Found where
  taken : List Bytes
  out : List DesignatedParam

/-- A property that is designated. -/
def designate (tool name : Bytes) (property : JsonValue) (path : List Bytes) (found : Found) :
    Except Error Found := do
  if property.contains (ascii "$ref") then
    throw <| refuse tool <| ascii "'" ++ name ++
      ascii "' is designated and is a reference, so where its value lives cannot be known without " ++
      ascii "resolving the schema"
  match property.get kAnnotation with
  | .string header =>
      if header = [] then
        throw <| refuse tool <| ascii "the designation on '" ++ name ++ ascii "' is empty"
      if header.any fun c => !isTokenChar c then
        throw <| refuse tool <| ascii "the designation on '" ++ name ++ ascii "' is '" ++ header ++
          ascii "', which is not a usable header name"
      if found.taken.contains (lowered header) then
        throw <| refuse tool <| ascii "two parameters are designated '" ++ header ++
          ascii "', and header names do not distinguish case"
      if !hasCarryableType property then
        throw <| refuse tool <| ascii "'" ++ name ++
          ascii "' is designated but has no single form a header can carry; only a string, an " ++
          ascii "integer or a boolean does"
      return { taken := lowered header :: found.taken, out := found.out ++ [⟨header, path⟩] }
  | _ => throw <| refuse tool <| ascii "the designation on '" ++ name ++ ascii "' is not a name"

/-- Anywhere a fixed chain of property names cannot go. -/
def unreachable (schema : JsonValue) : Option Bytes :=
  kUnreachableKeys.find? fun key => schema.contains key && mentionsAnnotation (schema.get key)

theorem sizeOf_findEntry {key : Bytes} {value : JsonValue} {fields : List (Bytes × JsonValue)}
    (h : OrdMap.findEntry key fields = some value) : sizeOf value < sizeOf fields := by
  have hmem := OrdMap.mem_of_findEntry h
  have hlt := List.sizeOf_lt_of_mem hmem
  simp only [Prod.mk.sizeOf_spec] at hlt
  omega

theorem sizeOf_get {schema : JsonValue} {key : Bytes} {fields : List (Bytes × JsonValue)}
    (h : schema.get key = .object fields) : sizeOf fields < sizeOf schema := by
  cases schema with
  | object held =>
      rw [JsonValue.get] at h
      cases hfind : OrdMap.findEntry key held with
      | none =>
          rw [hfind] at h
          cases h
      | some value =>
          have hlt := sizeOf_findEntry hfind
          rw [hfind] at h
          cases h
          simp only [JsonValue.object.sizeOf_spec] at hlt ⊢
          omega
  | _ => cases h

mutual

/-- Walk the one chain a value can be found by, collecting what it designates and refusing anything
designated off it. -/
def walk (tool : Bytes) (schema : JsonValue) (path : List Bytes) (found : Found) :
    Except Error Found :=
  if !schema.isObject then .ok found
  else
    match unreachable schema with
    | some key =>
        .error <| refuse tool <| ascii "a parameter is designated under '" ++ key ++
          ascii "', where no fixed path can reach it at call time"
    | none =>
        match h : schema.get (ascii "properties") with
        | .object properties =>
            have := sizeOf_get h
            walkProperties tool properties path found
        | _ => .ok found
termination_by sizeOf schema

def walkProperties (tool : Bytes) (properties : List (Bytes × JsonValue)) (path : List Bytes)
    (found : Found) : Except Error Found :=
  match properties with
  | [] => .ok found
  | (name, property) :: rest => do
      let found ←
        if property.isObject then do
          let found ←
            if property.contains kAnnotation then designate tool name property (path ++ [name]) found
            else pure found
          walk tool property (path ++ [name]) found
        else pure found
      walkProperties tool rest path found
termination_by sizeOf properties

end

/-- The parameters a tool designates, or what is wrong with one. -/
def designatedParams (tool : Tool) : Except Error (List DesignatedParam) :=
  match tool.inputSchema with
  | none => .ok []
  | some schema => (walk tool.name schema [] ⟨[], []⟩).map Found.out

/-! ### Schemas of one level -/

section

variable {tool : Bytes} {schema : JsonValue} {path : List Bytes} {found : Found}

theorem walk_of_childless (tool : Bytes) (hobject : schema.isObject = true) (hclean : unreachable schema = none)
    (hchildless : ∀ properties, schema.get (ascii "properties") ≠ .object properties) :
    walk tool schema path found = .ok found := by
  rw [walk, if_neg (by simp [hobject]), hclean]
  simp only

theorem walk_of_properties {properties : List (Bytes × JsonValue)} (tool : Bytes) (hobject : schema.isObject = true)
    (hclean : unreachable schema = none) (hproperties : schema.get (ascii "properties") = .object properties) :
    walk tool schema path found = walkProperties tool properties path found := by
  rw [walk, if_neg (by simp [hobject]), hclean]
  simp only
  split
  · next others hothers =>
      rw [hproperties, JsonValue.object.injEq] at hothers
      rw [hothers]
  · next hnone => exact absurd hproperties (hnone properties)

/-- A tool of one argument that travels in a header. -/
theorem designatedParams_of_one {name : Bytes} {property : JsonValue} {output : Option JsonValue}
    (hobject : schema.isObject = true) (hclean : unreachable schema = none)
    (hproperties : schema.get (ascii "properties") = .object [(name, property)])
    (hproperty : property.isObject = true) (hdesignated : property.contains kAnnotation = true)
    (hreachable : unreachable property = none)
    (hchildless : ∀ properties, property.get (ascii "properties") ≠ .object properties)
    (hdesignate : designate tool name property [name] ⟨[], []⟩ = .ok found) :
    designatedParams ⟨tool, some schema, output⟩ = .ok found.out := by
  have hinner : walk tool property [name] found = .ok found := walk_of_childless tool hproperty hreachable hchildless
  change (walk tool schema [] ⟨[], []⟩).map Found.out = _
  rw [walk_of_properties tool hobject hclean hproperties, walkProperties]
  simp only [hproperty, hdesignated, if_true, List.nil_append, hdesignate, bind, Except.bind, hinner, walkProperties]
  rfl

end

/-! ### No name twice -/

/-- The names taken are those of what was found, and no two are the same but for case. -/
structure Found.Distinct (found : Found) : Prop where
  taken : ∀ param ∈ found.out, lowered param.headerName ∈ found.taken
  nodup : (found.out.map fun param => lowered param.headerName).Nodup

/-- What a designated property adds: the name it is designated, if that was not taken before. -/
theorem designate_cases {tool name : Bytes} {property : JsonValue} {path : List Bytes} {found found' : Found}
    (h : designate tool name property path found = .ok found') :
    ∃ header, property.get kAnnotation = .string header ∧ lowered header ∉ found.taken ∧
      found' = { taken := lowered header :: found.taken, out := found.out ++ [⟨header, path⟩] } := by
  simp only [designate, pure, Except.pure, bind, Except.bind, throw, throwThe, MonadExceptOf.throw] at h
  cases hmark : property.get kAnnotation with
  | string header =>
      rw [hmark] at h
      simp only at h
      split_ifs at h with href hempty hchars htaken htype
      cases h
      exact ⟨header, rfl, by simpa using htaken, rfl⟩
  | _ =>
      rw [hmark] at h
      split_ifs at h

theorem distinct_designate {tool name : Bytes} {property : JsonValue} {path : List Bytes} {found found' : Found}
    (hdistinct : found.Distinct) (h : designate tool name property path found = .ok found') :
    found'.Distinct := by
  obtain ⟨header, -, hfresh, rfl⟩ := designate_cases h
  constructor
  · intro param hparam
    obtain hold | hnew := List.mem_append.mp hparam
    · exact List.mem_cons_of_mem _ (hdistinct.taken param hold)
    · rw [List.mem_singleton.mp hnew]
      exact List.mem_cons_self
  · rw [List.map_append, List.map_singleton]
    apply List.Nodup.append hdistinct.nodup (List.nodup_singleton _)
    intro lowerName hold hnew
    obtain ⟨param, hparam, rfl⟩ := List.mem_map.mp hold
    rw [List.mem_singleton] at hnew
    exact hfresh (hnew ▸ hdistinct.taken param hparam)

/-- What a property adds before the walk goes into it. -/
def Marks (tool name : Bytes) (property : JsonValue) (path : List Bytes) (found marked : Found) : Prop :=
  property.contains kAnnotation = false ∧ marked = found ∨
    property.contains kAnnotation = true ∧ designate tool name property path found = .ok marked

/-- **The rule of the walk.** What holds of the steps of a walk that succeeds holds of the walk. -/
theorem walk_ok (tool : Bytes) {P : JsonValue → List Bytes → Found → Found → Prop}
    {Q : List (Bytes × JsonValue) → List Bytes → Found → Found → Prop}
    (other : ∀ schema path found, schema.isObject = false → P schema path found found)
    (childless : ∀ schema path found, unreachable schema = none →
      (∀ properties, schema.get (ascii "properties") ≠ .object properties) → P schema path found found)
    (parent : ∀ schema path found properties found', unreachable schema = none →
      schema.get (ascii "properties") = .object properties → Q properties path found found' → P schema path found found')
    (nil : ∀ path found, Q [] path found found)
    (cons : ∀ name property rest path found marked walked found',
      Marks tool name property (path ++ [name]) found marked → P property (path ++ [name]) marked walked →
        Q rest path walked found' → Q ((name, property) :: rest) path found found')
    (schema : JsonValue) (path : List Bytes) (found : Found) :
    ∀ found', walk tool schema path found = .ok found' → P schema path found found' := by
  refine walk.induct tool (fun schema path found => ∀ found', walk tool schema path found = .ok found' →
      P schema path found found')
    (fun properties path found => ∀ found', walkProperties tool properties path found = .ok found' →
      Q properties path found found')
    ?_ ?_ ?_ ?_ ?_ ?_ ?_ ?_ schema path found
  · intro schema path found hobject found' h
    rw [walk, if_pos hobject] at h
    cases h
    exact other schema path found (by simpa using hobject)
  · intro schema path found hobject key hkey found' h
    rw [walk, if_neg hobject, hkey] at h
    cases h
  · intro schema path found hobject hreachable properties hproperties hsize ih found' h
    rw [walk, if_neg hobject, hreachable] at h
    simp only at h
    split at h
    · next others hothers =>
        rw [hproperties, JsonValue.object.injEq] at hothers
        subst hothers
        exact parent schema path found properties found' hreachable hproperties (ih found' h)
    · next hnone => exact absurd hproperties (hnone properties)
  · intro schema path found hobject hreachable hproperties found' h
    rw [walk, if_neg hobject, hreachable] at h
    simp only at h
    cases h
    exact childless schema path found hreachable hproperties
  · intro path found found' h
    rw [walkProperties] at h
    cases h
    exact nil path found
  · intro path found name property rest hobject hdesignated ihrest ihproperty found' h
    rw [walkProperties, if_pos hobject, if_pos hdesignated] at h
    cases hfirst : designate tool name property (path ++ [name]) found with
    | error e =>
        rw [hfirst] at h
        cases h
    | ok designated =>
        cases hinner : walk tool property (path ++ [name]) designated with
        | error e =>
            rw [hfirst] at h
            simp only [bind, Except.bind, hinner] at h
            cases h
        | ok walked =>
            rw [hfirst] at h
            simp only [bind, Except.bind, hinner] at h
            exact cons name property rest path found designated walked found' (Or.inr ⟨hdesignated, hfirst⟩)
              (ihproperty designated walked hinner) (ihrest walked found' h)
  · intro path found name property rest hobject hdesignated ihrest ihproperty found' h
    rw [walkProperties, if_pos hobject, if_neg hdesignated] at h
    cases hinner : walk tool property (path ++ [name]) found with
    | error e =>
        simp only [bind, Except.bind, pure, Except.pure, hinner] at h
        cases h
    | ok walked =>
        simp only [bind, Except.bind, pure, Except.pure, hinner] at h
        exact cons name property rest path found found walked found'
          (Or.inl ⟨Bool.eq_false_of_not_eq_true hdesignated, rfl⟩) (ihproperty found walked hinner)
          (ihrest walked found' h)
  · intro path found name property rest hobject ihrest found' h
    rw [walkProperties, if_neg hobject] at h
    have hplain : property.contains kAnnotation = false := by
      cases property with
      | object fields => exact absurd rfl hobject
      | _ => rfl
    exact cons name property rest path found found found found' (Or.inl ⟨hplain, rfl⟩)
      (other property (path ++ [name]) found (Bool.eq_false_of_not_eq_true hobject)) (ihrest found found' h)

theorem distinct_walk (tool : Bytes) (schema : JsonValue) (path : List Bytes) (found : Found)
    (hdistinct : found.Distinct) : ∀ found', walk tool schema path found = .ok found' → found'.Distinct := by
  intro found' h
  refine walk_ok tool (P := fun _ _ found found' => found.Distinct → found'.Distinct)
    (Q := fun _ _ found found' => found.Distinct → found'.Distinct) ?_ ?_ ?_ ?_ ?_ schema path found found' h hdistinct
  · exact fun _ _ _ _ => id
  · exact fun _ _ _ _ _ => id
  · exact fun _ _ _ _ _ _ _ hproperties => hproperties
  · exact fun _ _ => id
  · rintro name property rest path found marked walked found' hmarks hproperty hrest hdistinct
    obtain ⟨-, rfl⟩ | ⟨-, hdesignate⟩ := hmarks
    · exact hrest (hproperty hdistinct)
    · exact hrest (hproperty (distinct_designate hdistinct hdesignate))

/-- What is designated is what the walk finds. -/
theorem walk_of_designatedParams {tool : Tool} {params : List DesignatedParam} (h : designatedParams tool = .ok params) :
    (tool.inputSchema = none ∧ params = []) ∨
      ∃ schema found, tool.inputSchema = some schema ∧ walk tool.name schema [] ⟨[], []⟩ = .ok found ∧
        params = found.out := by
  unfold designatedParams at h
  cases hschema : tool.inputSchema with
  | none =>
      rw [hschema] at h
      cases h
      exact .inl ⟨rfl, rfl⟩
  | some schema =>
      rw [hschema] at h
      cases hwalk : walk tool.name schema [] ⟨[], []⟩ with
      | error e =>
          simp only [hwalk, Except.map] at h
          cases h
      | ok found =>
          simp only [hwalk, Except.map] at h
          cases h
          exact .inr ⟨schema, found, rfl, hwalk, rfl⟩

/-- No two parameters of a tool are designated names that differ in case only. -/
theorem nodup_designatedParams {tool : Tool} {params : List DesignatedParam}
    (h : designatedParams tool = .ok params) : (params.map fun param => lowered param.headerName).Nodup := by
  obtain ⟨-, rfl⟩ | ⟨schema, found, -, hwalk, rfl⟩ := walk_of_designatedParams h
  · exact List.nodup_nil
  · have hempty : Found.Distinct ⟨[], []⟩ := ⟨fun param hparam => absurd hparam List.not_mem_nil, List.nodup_nil⟩
    exact (distinct_walk tool.name schema [] _ hempty found hwalk).nodup

end DesignatedParams

end GopherMcp
