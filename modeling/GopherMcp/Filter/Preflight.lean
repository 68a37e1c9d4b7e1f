import GopherMcp.Filter.HttpSecurity
import GopherMcp.Protocol.MirroredHeaders
import GopherMcp.Protocol.SchemaPositions

/-!
# What a preflight allows

A browser may send the headers that the answer to its preflight lists: those the transport itself uses, and those that
tools designate. The list is collected by a recursion of its own, which on every schema that can be served finds what
the walk of the designations finds.
-/

namespace GopherMcp

open DesignatedParams ( kAnnotation lowered designatedParams walk walkProperties Found sizeOf_get)
open MirroredHeaders (kParamHeaderPrefix paramHeader)

namespace HttpSecurityPolicy

/-- The name of a designated property, for which an empty or an arbitrary designation stands as well. -/
def paramNameOf (name : Bytes) (property : JsonValue) : List Bytes :=
  if property.contains kAnnotation then
    match property.get kAnnotation with
    | .string given => [kParamHeaderPrefix ++ if given = [] then name else given]
    | .boolean false => []
    | _ => [kParamHeaderPrefix ++ name]
  else []

mutual

/-- The designated names of a schema's properties, and of the properties of any object among them. -/
def collectParamNames (schema : JsonValue) : List Bytes :=
  match h : schema.get (ascii "properties") with
  | .object properties =>
      have := sizeOf_get h
      collectFrom properties
  | _ => []
termination_by sizeOf schema

def collectFrom (properties : List (Bytes × JsonValue)) : List Bytes :=
  match properties with
  | [] => []
  | (name, property) :: rest =>
      (if property.isObject then paramNameOf name property ++ collectParamNames property else []) ++ collectFrom rest
termination_by sizeOf properties

end

def paramHeadersFor (tool : Tool) : List Bytes :=
  match tool.inputSchema with
  | some schema => collectParamNames schema
  | none => []

/-! ### The answer -/

def kFixedAllowedHeaders : List Bytes :=
  [ascii "Content-Type", ascii "Accept", ascii "Authorization", ascii "Mcp-Session-Id", ascii "MCP-Protocol-Version",
    ascii "Last-Event-ID", ascii "Mcp-Method", ascii "Mcp-Name"]

/-- A name that is not there yet, however it is spelled. -/
def appendName (into : List Bytes) (name : Bytes) : List Bytes :=
  if into.any fun existing => lowered existing = lowered name then into else into ++ [name]

def appendUnique (names into : List Bytes) : List Bytes := names.foldl appendName into

def joinWithCommas (names : List Bytes) : Bytes :=
  names.foldl (fun out name => (if out = [] then out else out ++ ascii ", ") ++ name) []

/-- The headers a browser may send. -/
def allowedHeaders (extra : List Bytes) : List Bytes := appendUnique extra kFixedAllowedHeaders

/-- The headers of the answer; without an origin there are none. -/
def preflightHeaders (security : RequestSecurity) (extra : List Bytes) : OrdMap Bytes Bytes :=
  let headers := OrdMap.ofEntries (corsHeaders security)
  if corsHeaders security = [] then headers
  else
    ((headers.insert (ascii "Access-Control-Allow-Methods") (ascii "POST, GET, DELETE, OPTIONS")).insert
      (ascii "Access-Control-Max-Age") (ascii "86400")).insert (ascii "Access-Control-Allow-Headers")
      (joinWithCommas (allowedHeaders extra))

/-! ### The two recursions -/

theorem collectParamNames_of_childless {schema : JsonValue}
    (h : ∀ properties, schema.get (ascii "properties") ≠ .object properties) : collectParamNames schema = [] := by
  rw [collectParamNames]
  split
  · next properties hproperties => exact absurd hproperties (h properties)
  · rfl

theorem collectParamNames_of_properties {schema : JsonValue} {properties : List (Bytes × JsonValue)}
    (h : schema.get (ascii "properties") = .object properties) :
    collectParamNames schema = collectFrom properties := by
  rw [collectParamNames]
  split
  · next others hothers =>
      rw [h, JsonValue.object.injEq] at hothers
      rw [hothers]
  · next hnone => exact absurd h (hnone properties)

/-- What is no object has no properties. -/
theorem get_of_not_isObject {schema : JsonValue} (h : schema.isObject = false) (key : Bytes) : schema.get key = .null := by
  cases schema with
  | object fields => cases h
  | _ => rfl

/-- A designation that is accepted has a name of its own. -/
theorem paramNameOf_of_designate {tool name : Bytes} {property : JsonValue} {path : List Bytes} {found marked : Found}
    (hmark : property.contains kAnnotation = true)
    (h : DesignatedParams.designate tool name property path found = .ok marked) :
    ∃ header, marked.out = found.out ++ [⟨header, path⟩] ∧
      paramNameOf name property = [kParamHeaderPrefix ++ header] := by
  obtain ⟨header, hget, -, rfl⟩ := DesignatedParams.designate_cases h
  have hnonempty : header ≠ [] := by
    rintro rfl
    simp only [DesignatedParams.designate, pure, Except.pure, bind, Except.bind, throw, throwThe,
      MonadExceptOf.throw, hget, if_true] at h
    split_ifs at h
  refine ⟨header, rfl, ?_⟩
  rw [paramNameOf, if_pos hmark, hget]
  simp only [if_neg hnonempty]

/-- **The two recursions agree.** What the walk adds is what is collected, in the same order. -/
theorem collectParamNames_of_walk (tool : Bytes) (schema : JsonValue) (path : List Bytes) (found found' : Found)
    (h : walk tool schema path found = .ok found') :
    ∃ added, found'.out = found.out ++ added ∧ collectParamNames schema = added.map paramHeader := by
  refine DesignatedParams.walk_ok tool
    (P := fun schema _ found found' =>
      ∃ added, found'.out = found.out ++ added ∧ collectParamNames schema = added.map paramHeader)
    (Q := fun properties _ found found' =>
      ∃ added, found'.out = found.out ++ added ∧ collectFrom properties = added.map paramHeader)
    ?_ ?_ ?_ ?_ ?_ schema path found found' h
  · intro schema _ found hobject
    refine ⟨[], (List.append_nil _).symm, collectParamNames_of_childless fun properties hproperties => ?_⟩
    rw [get_of_not_isObject hobject] at hproperties
    cases hproperties
  · exact fun schema _ found _ hchildless =>
      ⟨[], (List.append_nil _).symm, collectParamNames_of_childless hchildless⟩
  · rintro schema _ found properties found' - hproperties ⟨added, hout, hcollect⟩
    exact ⟨added, hout, (collectParamNames_of_properties hproperties).trans hcollect⟩
  · exact fun _ found => ⟨[], (List.append_nil _).symm, by rw [collectFrom]; rfl⟩
  · rintro name property rest path found marked walked found' hmarks ⟨inner, hinner, hproperty⟩ ⟨others, hothers, hrest⟩
    rw [collectFrom, hrest, hproperty]
    obtain ⟨hplain, rfl⟩ | ⟨hmark, hdesignate⟩ := hmarks
    · refine ⟨inner ++ others, by rw [hothers, hinner, List.append_assoc], ?_⟩
      have hname : paramNameOf name property = [] := by
        rw [paramNameOf, hplain]
        rfl
      split_ifs with hobject
      · rw [hname, List.nil_append, List.map_append]
      · have hempty : inner.map paramHeader = [] := by
          rw [← hproperty]
          refine collectParamNames_of_childless fun properties hproperties => ?_
          rw [get_of_not_isObject (by simpa using hobject)] at hproperties
          cases hproperties
        rw [List.map_append, hempty]
    · obtain ⟨header, hmarked, hname⟩ := paramNameOf_of_designate hmark hdesignate
      have hobject : property.isObject = true := by
        cases property with
        | object fields => rfl
        | _ => cases hmark
      refine ⟨⟨header, path ++ [name]⟩ :: (inner ++ others), ?_, ?_⟩
      · rw [hothers, hinner, hmarked]
        simp only [List.append_assoc, List.cons_append, List.nil_append]
      · rw [if_pos hobject, hname, List.map_cons, List.map_append]
        rfl

/-- A tool that can be served is collected as it is designated. -/
theorem paramHeadersFor_of_designatedParams {tool : Tool} {params : List DesignatedParam}
    (h : designatedParams tool = .ok params) : paramHeadersFor tool = params.map paramHeader := by
  unfold paramHeadersFor
  obtain ⟨hschema, rfl⟩ | ⟨schema, found, hschema, hwalk, rfl⟩ := DesignatedParams.walk_of_designatedParams h
  · rw [hschema]
    rfl
  · rw [hschema]
    obtain ⟨added, hout, hcollect⟩ := collectParamNames_of_walk _ _ _ _ _ hwalk
    rw [List.nil_append] at hout
    rw [hout]
    exact hcollect

/-! ### What is listed -/

theorem mem_appendName {into : List Bytes} {name other : Bytes} :
    (∃ listed ∈ appendName into name, lowered listed = lowered other) ↔
      (∃ listed ∈ into, lowered listed = lowered other) ∨ lowered name = lowered other := by
  unfold appendName
  split_ifs with hseen
  · rw [List.any_eq_true] at hseen
    obtain ⟨existing, hexisting, hsame⟩ := hseen
    refine (or_iff_left_of_imp fun hname => ?_).symm
    exact ⟨existing, hexisting, (of_decide_eq_true hsame).trans hname⟩
  · simp only [List.mem_append, List.mem_singleton, or_and_right, exists_or, exists_eq_left]

theorem mem_appendUnique {names into : List Bytes} {other : Bytes} :
    (∃ listed ∈ appendUnique names into, lowered listed = lowered other) ↔
      (∃ listed ∈ into, lowered listed = lowered other) ∨ ∃ name ∈ names, lowered name = lowered other := by
  unfold appendUnique
  induction names generalizing into with
  | nil => simp
  | cons name rest ih =>
      rw [List.foldl_cons, ih, mem_appendName, or_assoc]
      simp only [List.mem_cons, exists_eq_or_imp]

/-- An answer that has headers at all lists the allowed ones. -/
theorem find?_preflightHeaders (security : RequestSecurity) (extra : List Bytes) :
    (preflightHeaders security extra).find? (ascii "Access-Control-Allow-Headers") =
      if corsHeaders security = [] then none else some (joinWithCommas (allowedHeaders extra)) := by
  unfold preflightHeaders
  split_ifs with hnone
  · rw [hnone]
    rfl
  · rw [OrdMap.find?_insert_self]

/-- **The preflight and the designations agree.** Each tool is collected as it is designated, name by name, and a
browser may send the headers of the transport and those that the designated arguments of the tools travel in. -/
theorem paramHeadersFor_agrees {tools : List Tool} {designated : Tool → List DesignatedParam}
    (h : ∀ tool ∈ tools, designatedParams tool = .ok (designated tool)) :
    (∀ tool ∈ tools, paramHeadersFor tool = (designated tool).map paramHeader) ∧
    ∀ name, (∃ allowed ∈ allowedHeaders (tools.flatMap paramHeadersFor), lowered allowed = lowered name) ↔
      (∃ fixed ∈ kFixedAllowedHeaders, lowered fixed = lowered name) ∨
      ∃ tool ∈ tools, ∃ param ∈ designated tool, lowered (paramHeader param) = lowered name := by
  have hcollected : ∀ tool ∈ tools, paramHeadersFor tool = (designated tool).map paramHeader :=
    fun tool htool => paramHeadersFor_of_designatedParams (h tool htool)
  refine ⟨hcollected, fun name => ?_⟩
  rw [allowedHeaders, mem_appendUnique]
  refine or_congr_right ?_
  constructor
  · rintro ⟨listed, hlisted, hname⟩
    obtain ⟨tool, htool, hmem⟩ := List.mem_flatMap.mp hlisted
    rw [hcollected tool htool] at hmem
    obtain ⟨param, hparam, rfl⟩ := List.mem_map.mp hmem
    exact ⟨tool, htool, param, hparam, hname⟩
  · rintro ⟨tool, htool, param, hparam, hname⟩
    refine ⟨paramHeader param, List.mem_flatMap.mpr ⟨tool, htool, ?_⟩, hname⟩
    rw [hcollected tool htool]
    exact List.mem_map_of_mem hparam

/-- A tool whose region travels in a header. -/
def deploy : Tool := ⟨ascii "deploy", some DesignatedParams.regionSchema, none⟩

theorem paramHeadersFor_agrees_region :
    (∀ tool ∈ [deploy], paramHeadersFor tool = [DesignatedParams.regionParam].map paramHeader) ∧
    ∀ name, (∃ allowed ∈ allowedHeaders ([deploy].flatMap paramHeadersFor), lowered allowed = lowered name) ↔
      (∃ fixed ∈ kFixedAllowedHeaders, lowered fixed = lowered name) ∨
      ∃ tool ∈ [deploy], ∃ param ∈ [DesignatedParams.regionParam], lowered (paramHeader param) = lowered name :=
  @paramHeadersFor_agrees [deploy] (fun _ => [DesignatedParams.regionParam]) fun tool htool => by
    rw [List.mem_singleton.mp htool]
    exact DesignatedParams.designatedParams_region

end HttpSecurityPolicy

end GopherMcp
