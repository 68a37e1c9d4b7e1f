import GopherMcp.Protocol.InputRequests

/-!
# Reading what a server asks for

A client reads an answer as a question if that is the kind it says it is of. What a server asked is what is
read, each request under the key it was asked under.
-/

namespace GopherMcp

/-- `asked` is whether this is a question rather than an answer. -/
structure AskedFor where
  asked : Bool
  requests : InputRequests
  requestState : Option Bytes

def NeedsInput.empty (needed : NeedsInput) : Bool := needed.requests.entries.isEmpty && needed.requestState.isNone

/-- A question with no method is one nothing could be asked of. -/
def readInputRequest (one : JsonValue) : Option InputRequest :=
  (one.stringAt (ascii "method")).map fun method =>
    { method, params := if (one.get (ascii "params")).isObject then one.get (ascii "params") else .emptyObject }

def readInputRequests : JsonValue → InputRequests
  | .object fields => (fields.map fun field => (field.1, readInputRequest field.2)).foldl OrdMap.insertSome .empty
  | _ => .empty

/-- An answer that says it is a question. -/
def SaysInputRequired (result : JsonValue) : Prop :=
  result.stringAt (ascii "resultType") = some (ascii "input_required")

instance (result : JsonValue) : Decidable (SaysInputRequired result) :=
  inferInstanceAs (Decidable (_ = _))

def askedForIn (result : JsonValue) : AskedFor :=
  if SaysInputRequired result then
    let requests := readInputRequests (result.get kInputRequestsField)
    let requestState := result.stringAt (ascii "requestState")
    { asked := !requests.entries.isEmpty || requestState.isSome, requests, requestState }
  else { asked := false, requests := .empty, requestState := none }

/-! ### What is rendered -/

def renderedRequests (requests : InputRequests) : JsonValue :=
  JsonValue.ofFields (requests.entries.map fun entry => (entry.1, some (renderInputRequest entry.2)))

/-- The fields of what is rendered. -/
def renderedFields (needed : NeedsInput) : List (Bytes × Option JsonValue) :=
  [(ascii "resultType", some (.string (ascii "input_required"))),
    (kInputRequestsField,
      if needed.requests.entries.isEmpty then none else some (renderedRequests needed.requests)),
    (ascii "requestState", needed.requestState.map JsonValue.string)]

theorem renderInputRequired_eq (needed : NeedsInput) :
    renderInputRequired needed = JsonValue.ofFields (renderedFields needed) := by
  have hrequests : needed.requests.entries.foldl
      (fun requests entry => requests.set entry.1 (renderInputRequest entry.2)) .emptyObject =
        renderedRequests needed.requests := by
    rw [renderedRequests, JsonValue.ofFields, List.foldl_map]
    rfl
  rw [renderInputRequired, hrequests, renderedFields]
  cases needed.requests.entries.isEmpty with
  | false => cases needed.requestState <;> rfl
  | true => cases needed.requestState <;> rfl

theorem nodup_renderedFields (needed : NeedsInput) : ((renderedFields needed).map Prod.fst).Nodup := by
  change [ascii "resultType", kInputRequestsField, ascii "requestState"].Nodup
  decide

theorem get?_renderInputRequired {needed : NeedsInput} {key : Bytes} {value : Option JsonValue}
    (h : (key, value) ∈ renderedFields needed) : (renderInputRequired needed).get? key = value := by
  rw [renderInputRequired_eq]
  exact JsonValue.get?_ofFields (nodup_renderedFields needed) h

theorem readInputRequest_render {request : InputRequest} (h : request.params.isObject) :
    readInputRequest (renderInputRequest request) = some request := by
  have hparams : (renderInputRequest request).get (ascii "params") = request.params := by
    rw [renderInputRequest, if_pos h]
    rfl
  have hmethod : (renderInputRequest request).stringAt (ascii "method") = some request.method := rfl
  rw [readInputRequest, hmethod, hparams, if_pos h]
  rfl

/-- The requests that are rendered are read again, under the same keys. -/
theorem readInputRequests_rendered {requests : InputRequests} (h : ∀ entry ∈ requests.entries, entry.2.params.isObject) :
    readInputRequests (renderedRequests requests) = requests := by
  obtain ⟨fields, hfields, hsorted⟩ :=
    JsonValue.exists_ofFields_eq (requests.entries.map fun entry => (entry.1, some (renderInputRequest entry.2)))
  have hlookup (key : Bytes) : OrdMap.findEntry key fields = (requests.find? key).map renderInputRequest := by
    rw [← JsonValue.get?_ofFields_map, hfields]
    rfl
  rw [renderedRequests, hfields]
  apply OrdMap.eq_of_find?_eq
  intro key
  rw [readInputRequests]
  have hfieldKeys : ((fields.map fun field => (field.1, readInputRequest field.2)).map Prod.fst) =
      fields.map Prod.fst := by
    rw [List.map_map]
    rfl
  cases hfind : requests.find? key with
  | none =>
      rw [OrdMap.find?_foldl_insertSome_of_not_mem]
      · rfl
      · rw [hfieldKeys, ← OrdMap.findEntry_eq_none_iff, hlookup, hfind]
        rfl
  | some request =>
      have hobject : request.params.isObject := h (key, request) ((requests.mem_entries_iff).mpr hfind)
      have hfield : (key, renderInputRequest request) ∈ fields := by
        apply OrdMap.mem_of_findEntry
        rw [hlookup, hfind]
        rfl
      refine OrdMap.find?_foldl_insertSome ?_ ?_ rfl
      · rw [hfieldKeys]
        exact List.pairwise_map.mpr (hsorted.imp fun hlt => ne_of_lt hlt)
      · refine List.mem_map.mpr ⟨_, hfield, ?_⟩
        rw [readInputRequest_render hobject]

/-- **What was asked is read, and nothing else is.** A question is read as asking for just what was rendered, and
an answer of any other kind as asking for nothing. -/
theorem askedForIn_renderInputRequired :
    (∀ needed : NeedsInput, (∀ entry ∈ needed.requests.entries, entry.2.params.isObject) →
      askedForIn (renderInputRequired needed) =
        { asked := !needed.empty, requests := needed.requests, requestState := needed.requestState }) ∧
    ∀ result, ¬SaysInputRequired result →
      askedForIn result = { asked := false, requests := .empty, requestState := none } := by
  constructor
  · intro needed hobjects
    have hkind : SaysInputRequired (renderInputRequired needed) := by
      have hget : (renderInputRequired needed).get? (ascii "resultType") =
          (some (ascii "input_required")).map JsonValue.string := get?_renderInputRequired List.mem_cons_self
      exact JsonValue.stringAt_of_get? hget
    have hstate : (renderInputRequired needed).stringAt (ascii "requestState") = needed.requestState := by
      apply JsonValue.stringAt_of_get?
      exact get?_renderInputRequired (by simp [renderedFields])
    have hrequests : readInputRequests ((renderInputRequired needed).get kInputRequestsField) = needed.requests := by
      have hget : (renderInputRequired needed).get? kInputRequestsField =
          if needed.requests.entries.isEmpty then none else some (renderedRequests needed.requests) :=
        get?_renderInputRequired (List.mem_cons_of_mem _ List.mem_cons_self)
      rw [JsonValue.get_eq, hget]
      split_ifs with hnone
      · have hempty : needed.requests = .empty := by
          apply OrdMap.eq_of_find?_eq
          intro key
          rw [OrdMap.find?, List.isEmpty_iff.mp hnone]
          rfl
        rw [hempty]
        rfl
      · exact readInputRequests_rendered hobjects
    rw [askedForIn, if_pos hkind]
    simp only [hrequests, hstate, NeedsInput.empty]
    cases needed.requests.entries.isEmpty <;> cases needed.requestState <;> rfl
  · intro result hother
    rw [askedForIn, if_neg hother]

/-- A server that asks for the roots of its client. -/
def rootsNeeded : NeedsInput where
  requests := OrdMap.empty.insert (ascii "roots") ⟨ascii "roots/list", .emptyObject⟩
  requestState := none

theorem askedForIn_renderInputRequired_roots :
    askedForIn (renderInputRequired rootsNeeded) =
        { asked := !rootsNeeded.empty, requests := rootsNeeded.requests, requestState := none } ∧
      askedForIn .emptyObject = { asked := false, requests := .empty, requestState := none } := by
  constructor
  · apply askedForIn_renderInputRequired.1
    intro entry hentry
    rw [List.mem_singleton.mp hentry]
    rfl
  · exact askedForIn_renderInputRequired.2 .emptyObject (by decide)

end GopherMcp
