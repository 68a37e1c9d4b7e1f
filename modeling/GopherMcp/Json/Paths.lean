import GopherMcp.Json.Value

/-!
# Paths in a document

A path leads from a document to a value inside it, by the keys of objects and the indices of arrays.
-/

namespace GopherMcp

inductive PathStep
  | key (key : Bytes)
  | index (index : Nat)
  deriving DecidableEq

namespace JsonValue

def child? : JsonValue → PathStep → Option JsonValue
  | object fields, .key key => OrdMap.findEntry key fields
  | array items, .index index => items[index]?
  | _, _ => none

/-- Another value for a member or an element that is there. -/
def setChild : JsonValue → PathStep → JsonValue → JsonValue
  | object fields, .key key, child => object (OrdMap.insertEntry key child fields)
  | array items, .index index, child => array (items.set index child)
  | json, _, _ => json

/-- The value at a path. -/
def at? (json : JsonValue) : List PathStep → Option JsonValue
  | [] => some json
  | step :: rest => (json.child? step).bind fun child => child.at? rest

/-- The document with the value at a path changed. -/
def update (json : JsonValue) (f : JsonValue → JsonValue) : List PathStep → JsonValue
  | [] => f json
  | step :: rest =>
      match json.child? step with
      | some child => json.setChild step (child.update f rest)
      | none => json

/-- `erase`: every other member stays. -/
def erase (json : JsonValue) (key : Bytes) : JsonValue :=
  match json with
  | object fields => object (fields.filter fun field => field.1 ≠ key)
  | other => other

/-- The members of every object in the document are in the order of their keys. -/
def InKeyOrder (json : JsonValue) : Prop :=
  ∀ path fields, json.at? path = some (object fields) → OrdMap.EntriesSorted fields

variable {json value : JsonValue} {step : PathStep} {f : JsonValue → JsonValue}

theorem at?_append (json : JsonValue) (path rest : List PathStep) :
    json.at? (path ++ rest) = (json.at? path).bind fun value => value.at? rest := by
  induction path generalizing json with
  | nil => rfl
  | cons step path ih =>
      show (json.child? step).bind _ = ((json.child? step).bind _).bind _
      cases json.child? step with
      | none => rfl
      | some child => exact ih child

theorem child?_setChild (h : json.child? step = some value) (child : JsonValue) :
    (json.setChild step child).child? step = some child := by
  cases json with
  | object fields =>
      cases step with
      | key key => exact OrdMap.findEntry_insertEntry_self key child fields
      | index index => cases h
  | array items =>
      cases step with
      | key key => cases h
      | index index => exact List.getElem?_set_self (List.getElem?_eq_some_iff.mp h).1
  | _ => cases h

/-- At its path the document has what the value became. -/
theorem at?_update {path : List PathStep} (h : json.at? path = some value) :
    (json.update f path).at? path = some (f value) := by
  induction path generalizing json with
  | nil =>
      obtain rfl := Option.some.inj h
      rfl
  | cons step rest ih =>
      obtain ⟨child, hchild, hrest⟩ := Option.bind_eq_some_iff.mp h
      have hupdate : json.update f (step :: rest) = json.setChild step (child.update f rest) := by
        rw [update, hchild]
      show ((json.update f (step :: rest)).child? step).bind _ = _
      rw [hupdate, child?_setChild hchild]
      exact ih hrest

theorem InKeyOrder.child (h : json.InKeyOrder) {child : JsonValue} (hchild : json.child? step = some child) :
    child.InKeyOrder := by
  intro path fields hpath
  apply h (step :: path) fields
  show (json.child? step).bind _ = _
  rw [hchild]
  exact hpath

theorem InKeyOrder.get? (h : json.InKeyOrder) {key : Bytes} (hget : json.get? key = some value) :
    value.InKeyOrder := by
  cases json with
  | object fields =>
      have hchild : (object fields).child? (.key key) = some value := hget
      exact h.child hchild
  | _ => cases hget

theorem InKeyOrder.item {items : List JsonValue} (h : (array items).InKeyOrder) {item : JsonValue}
    (hitem : item ∈ items) : item.InKeyOrder := by
  obtain ⟨index, hindex⟩ := List.mem_iff_getElem?.mp hitem
  have hchild : (array items).child? (.index index) = some item := hindex
  exact h.child hchild

theorem InKeyOrder.at? (h : json.InKeyOrder) {path : List PathStep} (hpath : json.at? path = some value) :
    value.InKeyOrder := by
  intro rest fields hrest
  apply h (path ++ rest) fields
  rw [at?_append, hpath]
  exact hrest

theorem setChild_self (h : json.InKeyOrder) {child : JsonValue} (hchild : json.child? step = some child) :
    json.setChild step child = json := by
  cases json with
  | object fields =>
      cases step with
      | key key => exact congrArg object (OrdMap.insertEntry_of_findEntry (h [] fields rfl) hchild)
      | index index => cases hchild
  | array items =>
      cases step with
      | key key => cases hchild
      | index index =>
          obtain ⟨hlt, hat⟩ := List.getElem?_eq_some_iff.mp hchild
          refine congrArg array ?_
          rw [← hat]
          exact List.set_getElem_self hlt
  | _ => cases hchild

/-- A value that stays as it is leaves the document as it is. -/
theorem update_of_fixed {path : List PathStep} (h : json.InKeyOrder) (hpath : json.at? path = some value)
    (hfixed : f value = value) : json.update f path = json := by
  induction path generalizing json with
  | nil =>
      obtain rfl := Option.some.inj hpath
      exact hfixed
  | cons step rest ih =>
      obtain ⟨child, hchild, hrest⟩ := Option.bind_eq_some_iff.mp hpath
      unfold update
      rw [hchild]
      dsimp only
      rw [ih (h.child hchild) hrest]
      exact setChild_self h hchild

/-- Changing a value changes the document exactly if it changes the value. -/
theorem update_eq_self_iff {path : List PathStep} (h : json.InKeyOrder)
    (hpath : json.at? path = some value) : json.update f path = json ↔ f value = value := by
  constructor
  · intro heq
    have hat := @at?_update json value f path hpath
    rw [heq, hpath] at hat
    exact (Option.some.inj hat).symm
  · exact update_of_fixed h hpath

theorem set_eq_self_iff (h : json.InKeyOrder) (hobject : json.isObject) (key : Bytes) (value : JsonValue) :
    json.set key value = json ↔ json.get? key = some value := by
  constructor
  · intro heq
    have hget := get?_set hobject key key value
    rwa [if_pos rfl, heq] at hget
  · intro hget
    cases json with
    | object fields => exact congrArg object (OrdMap.insertEntry_of_findEntry (h [] fields rfl) hget)
    | _ => cases hget

theorem erase_eq_self_iff (hobject : json.isObject) (key : Bytes) :
    json.erase key = json ↔ json.get? key = none := by
  cases json with
  | object fields =>
      have hnone : (object fields).get? key = none ↔ key ∉ fields.map Prod.fst :=
        OrdMap.findEntry_eq_none_iff
      rw [hnone]
      unfold erase
      rw [object.injEq, List.filter_eq_self, List.mem_map, not_exists]
      constructor
      · rintro hall field ⟨hin, hkey⟩
        exact absurd hkey (by simpa using hall field hin)
      · intro hall field hin
        simpa using fun hkey => hall field ⟨hin, hkey⟩
  | _ => cases hobject

/-- An object is in key order when its members are, and each of them is. -/
theorem inKeyOrder_object {fields : List (Bytes × JsonValue)} (hsorted : OrdMap.EntriesSorted fields)
    (h : ∀ field ∈ fields, field.2.InKeyOrder) : (object fields).InKeyOrder := by
  intro path inner hpath
  cases path with
  | nil =>
      cases hpath
      exact hsorted
  | cons step rest =>
      obtain ⟨child, hchild, hrest⟩ := Option.bind_eq_some_iff.mp hpath
      cases step with
      | key key => exact h (key, child) (OrdMap.mem_of_findEntry hchild) rest inner hrest
      | index index => cases hchild

theorem inKeyOrder_array {items : List JsonValue} (h : ∀ item ∈ items, item.InKeyOrder) :
    (array items).InKeyOrder := by
  intro path inner hpath
  cases path with
  | nil => cases hpath
  | cons step rest =>
      obtain ⟨child, hchild, hrest⟩ := Option.bind_eq_some_iff.mp hpath
      cases step with
      | key key => cases hchild
      | index index => exact h child (List.mem_of_getElem? hchild) rest inner hrest

/-- What holds no other value is in key order. -/
theorem inKeyOrder_of_scalar {json : JsonValue} (hobject : json.isObject = false) (harray : json.isArray = false) :
    json.InKeyOrder := by
  intro path fields hpath
  cases json with
  | object => cases hobject
  | array => cases harray
  | _ =>
      cases path with
      | nil => cases hpath
      | cons step rest => cases step <;> cases hpath

theorem inKeyOrder_string (text : Bytes) : (string text).InKeyOrder := inKeyOrder_of_scalar rfl rfl

theorem inKeyOrder_integer (value : Int64) : (integer value).InKeyOrder := inKeyOrder_of_scalar rfl rfl

end JsonValue

end GopherMcp
