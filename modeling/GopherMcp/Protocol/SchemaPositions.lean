import GopherMcp.Json.Paths
import GopherMcp.Protocol.MirroredHeaders

/-!
# Every place of a schema that can be designated

A schema holds schemas under many keywords. The walk follows `properties` and looks for designations under
nine other keywords of every schema it comes to, to refuse them. So it finds them all where none stands at
the root or under a keyword that is neither.
-/

namespace GopherMcp

namespace DesignatedParams

def kProperties : Bytes := ascii "properties"

/-! ### Positions -/

/-- The keywords whose value is a schema. -/
def kSchemaKeywords : List Bytes :=
  [ascii "items", ascii "additionalItems", ascii "unevaluatedItems", ascii "contains",
    ascii "additionalProperties", ascii "unevaluatedProperties", ascii "propertyNames", ascii "not", ascii "if",
    ascii "then", ascii "else", ascii "contentSchema"]

/-- The keywords whose value is a list of schemas. -/
def kSchemaListKeywords : List Bytes :=
  [ascii "items", ascii "prefixItems", ascii "allOf", ascii "anyOf", ascii "oneOf"]

/-- The keywords whose value is an object of schemas. -/
def kSchemaMapKeywords : List Bytes :=
  [kProperties, ascii "patternProperties", ascii "$defs", ascii "definitions", ascii "dependentSchemas",
    ascii "dependencies"]

/-- The way from a schema to one inside it. -/
inductive SchemaStep
  | under (keyword : Bytes)
  | listed (keyword : Bytes) (index : Nat)
  | named (keyword name : Bytes)
  deriving DecidableEq

namespace SchemaStep

def keyword : SchemaStep → Bytes
  | under keyword | listed keyword _ | named keyword _ => keyword

/-- The keyword holds schemas in this way. -/
def Proper : SchemaStep → Prop
  | under keyword => keyword ∈ kSchemaKeywords
  | listed keyword _ => keyword ∈ kSchemaListKeywords
  | named keyword _ => keyword ∈ kSchemaMapKeywords

def path : SchemaStep → List PathStep
  | under keyword => [.key keyword]
  | listed keyword index => [.key keyword, .index index]
  | named keyword name => [.key keyword, .key name]

def isProperty : SchemaStep → Bool
  | named keyword _ => keyword = kProperties
  | _ => false

end SchemaStep

/-- The schema that some steps lead to. -/
def schemaAt (schema : JsonValue) (steps : List SchemaStep) : Option JsonValue :=
  schema.at? (steps.flatMap SchemaStep.path)

/-- A place of the document where a schema stands that is designated. -/
structure Designation (schema : JsonValue) (steps : List SchemaStep) (place : JsonValue) : Prop where
  proper : ∀ step ∈ steps, step.Proper
  at_place : schemaAt schema steps = some place
  designated : place.contains kAnnotation = true

/-- A chain of properties. -/
def chain (names : List Bytes) : List SchemaStep := names.map (SchemaStep.named kProperties)

/-- Neither a property nor under a keyword the walk looks under: the root, or where the first step off the
chain of properties is through another keyword. -/
def Overlooked (steps : List SchemaStep) : Prop :=
  steps = [] ∨ ∃ step, steps.find? (fun step => !step.isProperty) = some step ∧ step.keyword ∉ kUnreachableKeys

variable {schema place : JsonValue}

theorem child?_key (json : JsonValue) (key : Bytes) : json.child? (.key key) = json.get? key := by
  cases json <;> rfl

theorem at?_key_cons (json : JsonValue) (key : Bytes) (rest : List PathStep) :
    json.at? (.key key :: rest) = (json.get? key).bind fun child => child.at? rest := by
  rw [← child?_key]
  rfl

theorem schemaAt_chain_cons (schema : JsonValue) (name : Bytes) (names : List Bytes) :
    schemaAt schema (chain (name :: names)) =
      (schema.get? kProperties).bind fun properties =>
        (properties.get? name).bind fun property => schemaAt property (chain names) := by
  have hpath : (chain (name :: names)).flatMap SchemaStep.path =
      .key kProperties :: .key name :: (chain names).flatMap SchemaStep.path := rfl
  rw [schemaAt, hpath, at?_key_cons]
  refine congrArg _ ?_
  funext properties
  exact at?_key_cons properties name _

/-! ### Looking for a mention -/

theorem mentionedInFields_of_mem {fields : List (Bytes × JsonValue)} {key : Bytes} {value : JsonValue}
    (hmem : (key, value) ∈ fields) (h : mentionsAnnotation value = true) : mentionedInFields fields = true := by
  induction fields with
  | nil => cases hmem
  | cons field rest ih =>
      obtain ⟨other, held⟩ := field
      rw [mentionedInFields, Bool.or_eq_true]
      obtain heq | hrest := List.mem_cons.mp hmem
      · cases heq
        exact Or.inl h
      · exact Or.inr (ih hrest)

theorem mentionedInItems_of_mem {items : List JsonValue} {value : JsonValue} (hmem : value ∈ items)
    (h : mentionsAnnotation value = true) : mentionedInItems items = true := by
  induction items with
  | nil => cases hmem
  | cons item rest ih =>
      rw [mentionedInItems, Bool.or_eq_true]
      obtain rfl | hrest := List.mem_cons.mp hmem
      · exact Or.inl h
      · exact Or.inr (ih hrest)

/-- A designation anywhere in a document is a mention. -/
theorem mentionsAnnotation_of_at? {json value : JsonValue} {path : List PathStep} (hpath : json.at? path = some value)
    (h : value.contains kAnnotation = true) : mentionsAnnotation json = true := by
  induction path generalizing json with
  | nil =>
      obtain rfl := Option.some.inj hpath
      cases json with
      | object fields =>
          have hfound : (OrdMap.findEntry kAnnotation fields).isSome = true := h
          rw [ mentionsAnnotation, hfound, Bool.true_or]
      | _ => cases h
  | cons step rest ih =>
      obtain ⟨child, hchild, hrest⟩ := Option.bind_eq_some_iff.mp hpath
      have hmentions := ih hrest
      cases json with
      | object fields =>
          cases step with
          | key key =>
              rw [ mentionsAnnotation, mentionedInFields_of_mem (OrdMap.mem_of_findEntry hchild) hmentions, Bool.or_true]
          | index index => cases hchild
      | array items =>
          cases step with
          | key key => cases hchild
          | index index =>
              rw [ mentionsAnnotation]
              exact mentionedInItems_of_mem (List.mem_of_getElem? hchild) hmentions
      | _ => cases hchild

/-- A schema the walk comes to mentions no designation under a keyword it looks under. -/
theorem not_designated_of_unreachable {step : SchemaStep} {steps : List SchemaStep} (h : unreachable schema = none)
    (hkeyword : step.keyword ∈ kUnreachableKeys) (hplace : schemaAt schema (step :: steps) = some place) :
    place.contains kAnnotation = false := by
  obtain ⟨rest, hpath⟩ : ∃ rest, (step :: steps).flatMap SchemaStep.path = .key step.keyword :: rest := by
    cases step with
    | under keyword => exact ⟨_, rfl⟩
    | listed keyword index => exact ⟨_, rfl⟩
    | named keyword name => exact ⟨_, rfl⟩
  rw [schemaAt, hpath, at?_key_cons] at hplace
  obtain ⟨held, hheld, hrest⟩ := Option.bind_eq_some_iff.mp hplace
  rw [unreachable, List.find?_eq_none] at h
  have hnone := h step.keyword hkeyword
  rw [JsonValue.contains_eq, JsonValue.get_eq, hheld] at hnone
  apply Bool.eq_false_of_not_eq_true
  intro hdesignated
  exact hnone ( mentionsAnnotation_of_at? hrest hdesignated)

/-! ### What the walk finds -/

/-- A schema at the end of a chain of properties is designated a header. -/
def DesignatedAs (schema : JsonValue) (names : List Bytes) (header : Bytes) : Prop :=
  ∃ place, schemaAt schema (chain names) = some place ∧ place.get kAnnotation = .string header

/-- What a walk from a schema on leaves behind. -/
structure Walked (schema : JsonValue) (path : List Bytes) (found found' : Found) : Prop where
  kept : ∀ param ∈ found.out, param ∈ found'.out
  clean : ∀ names place, schemaAt schema (chain names) = some place → unreachable place = none
  complete : ∀ names place, names ≠ [] → schemaAt schema (chain names) = some place →
    place.contains kAnnotation = true →
    ∃ header, place.get kAnnotation = .string header ∧ ⟨header, path ++ names⟩ ∈ found'.out
  sound : schema.InKeyOrder → ∀ param ∈ found'.out,
    param ∈ found.out ∨ ∃ names, names ≠ [] ∧ DesignatedAs schema names param.headerName ∧ param.path = path ++ names

/-- What a walk over some properties leaves behind. -/
structure WalkedAll (properties : List (Bytes × JsonValue)) (path : List Bytes) (found found' : Found) : Prop where
  kept : ∀ param ∈ found.out, param ∈ found'.out
  clean : ∀ field ∈ properties, ∀ names place, schemaAt field.2 (chain names) = some place → unreachable place = none
  complete : ∀ field ∈ properties, ∀ names place, schemaAt field.2 (chain names) = some place →
    place.contains kAnnotation = true →
    ∃ header, place.get kAnnotation = .string header ∧ ⟨header, path ++ field.1 :: names⟩ ∈ found'.out
  sound : (∀ field ∈ properties, field.2.InKeyOrder) → ∀ param ∈ found'.out,
    param ∈ found.out ∨ ∃ field ∈ properties, ∃ names, DesignatedAs field.2 names param.headerName ∧
      param.path = path ++ field.1 :: names

variable {path : List Bytes} {found found' : Found}

theorem unreachable_of_not_object (h : schema.isObject = false) : unreachable schema = none := by
  rw [unreachable, List.find?_eq_none]
  intro key _
  cases schema with
  | object fields => cases h
  | _ => simp [JsonValue.contains]

/-- A schema whose chains end where they begin. -/
theorem walked_of_childless (hclean : unreachable schema = none)
    (hchildless : ∀ name names, schemaAt schema (chain (name :: names)) = none) : Walked schema path found found where
  kept := fun _ hparam => hparam
  clean := by
    intro names place hplace
    cases names with
    | nil =>
        obtain rfl := Option.some.inj hplace
        exact hclean
    | cons name names => cases (hchildless name names).symm.trans hplace
  complete := by
    intro names place hnames hplace
    obtain ⟨name, rest, rfl⟩ := List.exists_cons_of_ne_nil hnames
    cases (hchildless name rest).symm.trans hplace
  sound := fun _ _ hparam => Or.inl hparam

/-- A schema with properties: the chains into it are those into one of them. -/
theorem walked_of_properties {properties : List (Bytes × JsonValue)} (hclean : unreachable schema = none)
    (hproperties : schema.get? kProperties = some (.object properties))
    (h : WalkedAll properties path found found') : Walked schema path found found' where
  kept := h.kept
  clean := by
    intro names place hplace
    cases names with
    | nil =>
        obtain rfl := Option.some.inj hplace
        exact hclean
    | cons name names =>
        rw [schemaAt_chain_cons, hproperties, Option.bind_some] at hplace
        obtain ⟨property, hproperty, hrest⟩ := Option.bind_eq_some_iff.mp hplace
        exact h.clean (name, property) (OrdMap.mem_of_findEntry hproperty) names place hrest
  complete := by
    intro names place hnames hplace hdesignated
    obtain ⟨name, rest, rfl⟩ := List.exists_cons_of_ne_nil hnames
    rw [schemaAt_chain_cons, hproperties, Option.bind_some] at hplace
    obtain ⟨property, hproperty, hrest⟩ := Option.bind_eq_some_iff.mp hplace
    exact h.complete (name, property) (OrdMap.mem_of_findEntry hproperty) rest place hrest hdesignated
  sound := by
    intro horder param hparam
    have hinner : (JsonValue.object properties).InKeyOrder := horder.get? hproperties
    have hsorted : OrdMap.EntriesSorted properties := hinner [] properties rfl
    have hget (field : Bytes × JsonValue) (hfield : field ∈ properties) :
        (JsonValue.object properties).get? field.1 = some field.2 := OrdMap.findEntry_of_mem hsorted hfield
    obtain hold | ⟨field, hfield, names, ⟨place, hplace, hheader⟩, hpath⟩ :=
      h.sound (fun field hfield => hinner.get? (hget field hfield)) param hparam
    · exact Or.inl hold
    · refine Or.inr ⟨field.1 :: names, List.cons_ne_nil _ _, ⟨place, ?_, hheader⟩, hpath⟩
      rw [schemaAt_chain_cons, hproperties, Option.bind_some, hget field hfield]
      exact hplace

theorem schemaAt_chain_of_get? (h : ∀ properties, schema.get? kProperties ≠ some (.object properties)) (name : Bytes)
    (names : List Bytes) : schemaAt schema (chain (name :: names)) = none := by
  rw [schemaAt_chain_cons]
  cases hheld : schema.get? kProperties with
  | none => rfl
  | some held =>
      cases held with
      | object properties => exact absurd hheld (h properties)
      | _ => rfl

/-- One property that is an object: what it is designated, then what is inside it. -/
theorem walkedAll_cons {name : Bytes} {property : JsonValue} {rest : List (Bytes × JsonValue)}
    {designated walked : Found}
    (hdesignate : property.contains kAnnotation = false ∧ designated = found ∨
      ∃ header, property.get kAnnotation = .string header ∧
        designated.out = found.out ++ [⟨header, path ++ [name]⟩])
    (hinner : Walked property (path ++ [name]) designated walked) (hrest : WalkedAll rest path walked found') :
    WalkedAll ((name, property) :: rest) path found found' where
  kept := by
    intro param hparam
    apply hrest.kept _ (hinner.kept _ _)
    obtain ⟨-, rfl⟩ | ⟨header, -, hout⟩ := hdesignate
    · exact hparam
    · rw [hout]
      exact List.mem_append_left _ hparam
  clean := by
    intro field hfield names place hplace
    obtain rfl | hlater := List.mem_cons.mp hfield
    · exact hinner.clean names place hplace
    · exact hrest.clean field hlater names place hplace
  complete := by
    intro field hfield names place hplace hcontains
    obtain rfl | hlater := List.mem_cons.mp hfield
    · cases names with
      | nil =>
          obtain rfl := Option.some.inj hplace
          obtain ⟨hnot, -⟩ | ⟨header, hheader, hout⟩ := hdesignate
          · exact absurd hcontains (by rw [hnot]; exact Bool.false_ne_true)
          · refine ⟨header, hheader, hrest.kept _ (hinner.kept _ ?_)⟩
            rw [hout]
            exact List.mem_append_right _ List.mem_cons_self
      | cons first names =>
          obtain ⟨header, hheader, hmem⟩ :=
            hinner.complete (first :: names) place (List.cons_ne_nil _ _) hplace hcontains
          rw [List.append_assoc, List.singleton_append] at hmem
          exact ⟨header, hheader, hrest.kept _ hmem⟩
    · exact hrest.complete field hlater names place hplace hcontains
  sound := by
    intro horder param hparam
    obtain hwalked | ⟨field, hfield, hlater⟩ :=
      hrest.sound (fun field hfield => horder field (List.mem_cons_of_mem _ hfield)) param hparam
    · obtain hmarked | ⟨names, hnames, hdesignated, hpath⟩ :=
        hinner.sound (horder (name, property) List.mem_cons_self) param hwalked
      · obtain ⟨-, rfl⟩ | ⟨header, hheader, hout⟩ := hdesignate
        · exact Or.inl hmarked
        · rw [hout] at hmarked
          obtain hold | hnew := List.mem_append.mp hmarked
          · exact Or.inl hold
          · rw [List.mem_singleton.mp hnew]
            exact Or.inr ⟨(name, property), List.mem_cons_self, [], ⟨property, rfl, hheader⟩, rfl⟩
      · refine Or.inr ⟨(name, property), List.mem_cons_self, names, hdesignated, ?_⟩
        rw [hpath, List.append_assoc, List.singleton_append]
    · exact Or.inr ⟨field, List.mem_cons_of_mem _ hfield, hlater⟩

theorem get?_of_not_object (h : schema.isObject = false) (key : Bytes) : schema.get? key = none := by
  cases schema with
  | object fields => cases h
  | _ => rfl

theorem walked_of_not_object (h : schema.isObject = false) : Walked schema path found found := by
  refine walked_of_childless (unreachable_of_not_object h) (schemaAt_chain_of_get? ?_)
  intro properties hproperties
  cases (get?_of_not_object h kProperties).symm.trans hproperties

theorem get?_of_get_object {properties : List (Bytes × JsonValue)} {key : Bytes}
    (h : schema.get key = .object properties) : schema.get? key = some (.object properties) := by
  rw [JsonValue.get_eq] at h
  cases hheld : schema.get? key with
  | none =>
      rw [hheld] at h
      cases h
  | some held =>
      rw [hheld] at h
      exact congrArg some h

/-- **What the walk finds.** -/
theorem walked_walk (tool : Bytes) (schema : JsonValue) (path : List Bytes) (found : Found) :
    ∀ found', walk tool schema path found = .ok found' → Walked schema path found found' := by
  refine walk_ok tool (P := Walked) (Q := WalkedAll) ?_ ?_ ?_ ?_ ?_ schema path found
  · intro schema path found hobject
    exact walked_of_not_object hobject
  · intro schema path found hreachable hproperties
    refine walked_of_childless hreachable (schemaAt_chain_of_get? ?_)
    intro properties hheld
    apply hproperties properties
    rw [JsonValue.get_eq]
    exact congrArg (Option.getD · .null) hheld
  · intro schema path found properties found' hreachable hproperties hall
    exact walked_of_properties hreachable (get?_of_get_object hproperties) hall
  · intro path found
    exact ⟨fun _ hparam => hparam, fun _ hfield => absurd hfield List.not_mem_nil,
      fun _ hfield => absurd hfield List.not_mem_nil, fun _ _ hparam => Or.inl hparam⟩
  · intro name property rest path found marked walked found' hmarks hproperty hrest
    obtain hplain | ⟨-, hdesignate⟩ := hmarks
    · exact walkedAll_cons (Or.inl hplain) hproperty hrest
    · obtain ⟨header, hheader, -, hout⟩ := designate_cases hdesignate
      refine walkedAll_cons (Or.inr ⟨header, hheader, ?_⟩) hproperty hrest
      rw [hout]

/-- A usable definition: what it designates is where the walk looks. -/
theorem walked_designatedParams {tool : Tool} {params : List DesignatedParam} (hschema : tool.inputSchema = some schema)
    (h : designatedParams tool = .ok params) : ∃ found, found.out = params ∧ Walked schema [] ⟨[], []⟩ found := by
  obtain ⟨hnone, -⟩ | ⟨other, found, hother, hwalk, rfl⟩ := walk_of_designatedParams h
  · cases hschema.symm.trans hnone
  · obtain rfl := Option.some.inj (hschema.symm.trans hother)
    exact ⟨found, rfl, walked_walk tool.name schema [] _ found hwalk⟩

/-! ### Which definitions are found whole -/

/-- Every designation in the document is at the end of a chain of properties and among the parameters. -/
def FindsAll (schema : JsonValue) (params : List DesignatedParam) : Prop :=
  ∀ steps place, Designation schema steps place →
    ∃ names header, names ≠ [] ∧ steps = chain names ∧ place.get kAnnotation = .string header ∧ ⟨header, names⟩ ∈ params

/-- A parameter's path leads to the schema that is designated its name, and, in the arguments of a call, to the
member that schema describes: the one under the same names. A null is no argument. -/
def ReadsMembers (schema : JsonValue) (params : List DesignatedParam) : Prop :=
  ∀ param ∈ params, DesignatedAs schema param.path param.headerName ∧
    ∀ arguments value, MirroredHeaders.valueAtPath arguments param.path = some value ↔
      arguments.at? (param.path.map PathStep.key) = some value ∧ value.isNull = false

theorem foldlM_get? (arguments : JsonValue) (path : List Bytes) :
    path.foldlM (fun node step => JsonValue.get? node step) arguments = arguments.at? (path.map PathStep.key) := by
  induction path generalizing arguments with
  | nil => rfl
  | cons name rest ih =>
      rw [List.foldlM_cons, List.map_cons, at?_key_cons]
      refine congrArg _ ?_
      funext node
      exact ih node

theorem valueAtPath_eq_some_iff {arguments value : JsonValue} {path : List Bytes} (hpath : path ≠ []) :
    MirroredHeaders.valueAtPath arguments path = some value ↔
      arguments.at? (path.map PathStep.key) = some value ∧ value.isNull = false := by
  rw [MirroredHeaders.valueAtPath, if_neg hpath, foldlM_get?]
  cases arguments.at? (path.map PathStep.key) with
  | none => simp
  | some held =>
      cases held with
      | null =>
          simp only [reduceCtorEq, Option.some.injEq, false_iff, not_and]
          rintro rfl
          exact Bool.noConfusion
      | _ =>
          simp only [Option.some.injEq, iff_self_and]
          rintro rfl
          rfl

theorem isProperty_iff (step : SchemaStep) : step.isProperty = true ↔ ∃ name, step = .named kProperties name := by
  cases step with
  | named keyword name => simp [SchemaStep.isProperty]
  | _ => simp [SchemaStep.isProperty]

/-- The steps are a chain of properties, or leave one. -/
theorem chain_or_leaves (steps : List SchemaStep) :
    (∃ names, steps = chain names) ∨
      ∃ names step rest, steps = chain names ++ step :: rest ∧ step.isProperty = false ∧
        steps.find? (fun step => !step.isProperty) = some step := by
  induction steps with
  | nil => exact Or.inl ⟨[], rfl⟩
  | cons step steps ih =>
      cases hproperty : step.isProperty with
      | false => exact Or.inr ⟨[], step, steps, rfl, hproperty, List.find?_cons_of_pos (by simpa using hproperty)⟩
      | true =>
          obtain ⟨name, rfl⟩ := (isProperty_iff step).mp hproperty
          have hnext : (SchemaStep.named kProperties name :: steps).find? (fun step => !step.isProperty) =
              steps.find? (fun step => !step.isProperty) := List.find?_cons_of_neg (by simp [hproperty])
          obtain ⟨names, rfl⟩ | ⟨names, other, rest, heq, hother, hfind⟩ := ih
          · exact Or.inl ⟨name :: names, rfl⟩
          · refine Or.inr ⟨name :: names, other, rest, ?_, hother, hnext.trans hfind⟩
            rw [heq]
            rfl

theorem not_overlooked_chain {names : List Bytes} (h : names ≠ []) : ¬Overlooked (chain names) := by
  rintro (hnone | ⟨step, hfind, -⟩)
  · exact h (List.map_eq_nil_iff.mp hnone)
  · obtain ⟨name, -, rfl⟩ := List.mem_map.mp (List.mem_of_find?_eq_some hfind)
    have hproperty : (SchemaStep.named kProperties name).isProperty = true := (isProperty_iff _).mpr ⟨name, rfl⟩
    have hnot := List.find?_some hfind
    simp [hproperty] at hnot

theorem Walked.findsAll (h : Walked schema [] ⟨[], []⟩ found)
    (hoverlooked : ∀ steps place, Designation schema steps place → ¬Overlooked steps) :
    FindsAll schema found.out := by
  intro steps place hdesignation
  have hnot := hoverlooked steps place hdesignation
  obtain ⟨names, rfl⟩ | ⟨names, step, rest, rfl, hproperty, hfind⟩ := chain_or_leaves steps
  · have hnames : names ≠ [] := by
      rintro rfl
      exact hnot (Or.inl rfl)
    obtain ⟨header, hheader, hmem⟩ := h.complete names place hnames hdesignation.at_place hdesignation.designated
    exact ⟨names, header, hnames, rfl, hheader, hmem⟩
  · -- off the chain, under a keyword that is looked under: the walk would have refused
    have hkeyword : step.keyword ∈ kUnreachableKeys := by
      by_contra hother
      exact hnot (Or.inr ⟨step, hfind, hother⟩)
    have hplace := hdesignation.at_place
    rw [schemaAt, List.flatMap_append, JsonValue.at?_append] at hplace
    obtain ⟨inner, hinner, hrest⟩ := Option.bind_eq_some_iff.mp hplace
    have hplain := not_designated_of_unreachable (h.clean names inner hinner) hkeyword hrest
    rw [hdesignation.designated] at hplain
    cases hplain

theorem Walked.readsMembers (h : Walked schema [] ⟨[], []⟩ found) (horder : schema.InKeyOrder) :
    ReadsMembers schema found.out := by
  intro param hparam
  obtain hnone | ⟨names, hnames, hdesignated, hpath⟩ := h.sound horder param hparam
  · cases hnone
  · rw [List.nil_append] at hpath
    rw [hpath]
    exact ⟨hdesignated, fun arguments value => valueAtPath_eq_some_iff hnames⟩

/-- **Which usable definitions are found whole**: those with no designation at the root of the schema or, where
the chain of properties ends, under a keyword that is not looked under. -/
theorem findsAll_iff {tool : Tool} {params : List DesignatedParam} (hschema : tool.inputSchema = some schema)
    (horder : schema.InKeyOrder) (h : designatedParams tool = .ok params) :
    (FindsAll schema params ∧ (params.map fun param => lowered param.headerName).Nodup ∧ ReadsMembers schema params) ↔
      ∀ steps place, Designation schema steps place → ¬Overlooked steps := by
  obtain ⟨found, rfl, hwalked⟩ := walked_designatedParams hschema h
  constructor
  · intro hfound steps place hdesignation
    obtain ⟨names, header, hnames, rfl, -⟩ := hfound.1 steps place hdesignation
    exact not_overlooked_chain hnames
  · intro hoverlooked
    exact ⟨hwalked.findsAll hoverlooked, nodup_designatedParams h, hwalked.readsMembers horder⟩

/-! ### A region and an overlooked one -/

def regionProperty : JsonValue :=
  .object [(ascii "type", .string (ascii "string")), (ascii "x-mcp-header", .string (ascii "Region"))]

def regionSchema : JsonValue := .object [(ascii "properties", .object [(ascii "region", regionProperty)])]

def regionParam : DesignatedParam := ⟨ascii "Region", [ascii "region"]⟩

theorem designatedParams_region :
    designatedParams ⟨ascii "deploy", some regionSchema, none⟩ = .ok [regionParam] := by
  have hdesignate : designate (ascii "deploy") (ascii "region") regionProperty [ascii "region"] ⟨[], []⟩ =
      .ok ⟨[ascii "region"], [regionParam]⟩ := rfl
  have hchildless (properties) : regionProperty.get (ascii "properties") ≠ .object properties := fun h => by cases h
  exact designatedParams_of_one rfl rfl rfl rfl rfl rfl hchildless hdesignate

theorem inKeyOrder_regionProperty : regionProperty.InKeyOrder := by
  refine JsonValue.inKeyOrder_object (by simp only [OrdMap.EntriesSorted]; decide) fun field hfield => ?_
  obtain rfl | hfield := List.mem_cons.mp hfield
  · exact JsonValue.inKeyOrder_string _
  · rw [List.mem_singleton.mp hfield]
    exact JsonValue.inKeyOrder_string _

/-- An object of one member. -/
theorem inKeyOrder_singleton {key : Bytes} {value : JsonValue} (h : value.InKeyOrder) :
    (JsonValue.object [(key, value)]).InKeyOrder :=
  JsonValue.inKeyOrder_object (List.pairwise_singleton _ _) fun field hfield => by
    rw [List.mem_singleton.mp hfield]
    exact h

theorem findsAll_iff_region :
    (FindsAll regionSchema [regionParam] ∧ ([regionParam].map fun param => lowered param.headerName).Nodup ∧
        ReadsMembers regionSchema [regionParam]) ↔
      ∀ steps place, Designation regionSchema steps place → ¬Overlooked steps :=
  findsAll_iff rfl (inKeyOrder_singleton (inKeyOrder_singleton inKeyOrder_regionProperty)) designatedParams_region

/-- Any other argument of the tool is a region. -/
def overlookedSchema : JsonValue := .object [(ascii "additionalProperties", regionProperty)]

theorem not_findsAll_overlooked :
    ¬∀ (tool : Tool) (schema : JsonValue) (params : List DesignatedParam), tool.inputSchema = some schema →
      schema.InKeyOrder → designatedParams tool = .ok params → FindsAll schema params := by
  intro hall
  have husable : designatedParams ⟨ascii "deploy", some overlookedSchema, none⟩ = .ok [] := by
    change (walk (ascii "deploy") overlookedSchema [] ⟨[], []⟩).map Found.out = _
    rw [walk_of_childless (ascii "deploy") rfl rfl fun properties hproperties => by cases hproperties]
    rfl
  have hdesignation : Designation overlookedSchema [.under (ascii "additionalProperties")] regionProperty :=
    ⟨fun step hstep => by rw [List.mem_singleton.mp hstep]; simp only [SchemaStep.Proper]; decide, rfl, rfl⟩
  obtain ⟨names, header, -, -, -, hmem⟩ :=
    hall _ overlookedSchema [] rfl (inKeyOrder_singleton inKeyOrder_regionProperty) husable _ _ hdesignation
  cases hmem

end DesignatedParams

end GopherMcp
