import GopherMcp.Json.Paths
import GopherMcp.Lib.Fallible

/-!
# Merging configurations

An overlay is laid over a base key by key. Objects are merged in depth, arrays of named resources name by name, and
everything else is replaced, lists of filters in any case. Merging throws where a name is no text and where objects are
nested too deep.
-/

namespace GopherMcp

namespace ConfigMerger

def kMaxMergeDepth : Nat := 100

def kName : Bytes := ascii "name"

def filterKeys : List Bytes :=
  [ascii "filters", ascii "filter_chain", ascii "http_filters", ascii "network_filters", ascii "listener_filters"]

def namedResourceKeys : List Bytes :=
  [ascii "listeners", ascii "clusters", ascii "routes", ascii "endpoints", ascii "upstreams", ascii "services",
    ascii "resources", ascii "pools"]

def isFilterList (key : Bytes) : Bool := filterKeys.contains key

def isNamedResourceArray (key : Bytes) : Bool := namedResourceKeys.contains key

/-- The name of an item that has one, which `getString` throws for if it is no text. -/
def nameOf (item : JsonValue) : Except Bytes (Option Bytes) :=
  if !item.isObject || !item.contains kName then .ok none
  else
    match item.get kName with
    | .string name => .ok (some name)
    | _ => .error (ascii "Value is not a string")

/-- The first item of a name. -/
def findNamed (name : Bytes) : List JsonValue → Except Bytes (Option JsonValue)
  | [] => .ok none
  | item :: rest => do
      let other ← nameOf item
      if other = some name then return some item else findNamed name rest

def itemsOf : JsonValue → List JsonValue
  | .array items => items
  | _ => []

section Recursion

-- `recurse` merges two values one level deeper.
variable (recurse : JsonValue → JsonValue → Except Bytes JsonValue)

/-- An item of the base, merged with the one of its name. -/
def mergeItem (overlay : List JsonValue) (item : JsonValue) : Except Bytes JsonValue := do
  match ← nameOf item with
  | none => return item
  | some name =>
      match ← findNamed name overlay with
      | some other => recurse item other
      | none => return item

/-- The items of the overlay that have no name, or one that was not there. -/
def newItems (processedNames : List Bytes) : List JsonValue → Except Bytes (List JsonValue)
  | [] => .ok []
  | item :: rest => do
      let name ← nameOf item
      let others ← newItems processedNames rest
      return if ∃ processed ∈ processedNames, name = some processed then others else item :: others

/-- The names of the items that have one. -/
def names (items : List JsonValue) : List Bytes := items.filterMap fun item => item.stringAt kName

def mergeNamedResourceArrays (base overlay : List JsonValue) : Except Bytes JsonValue := do
  let merged ← base.mapM (mergeItem recurse overlay)
  let added ← newItems (names base) overlay
  return .array (merged ++ added)

/-- A key that both have. -/
def mergeMember (key : Bytes) (base overlay : JsonValue) : Except Bytes JsonValue :=
  if isFilterList key then .ok overlay
  else if isNamedResourceArray key && base.isArray && overlay.isArray then
    mergeNamedResourceArrays recurse (itemsOf base) (itemsOf overlay)
  else if base.isObject && overlay.isObject then recurse base overlay
  else .ok overlay

/-- What a key of the overlay gets. -/
def valueFor (base overlay : JsonValue) (key : Bytes) : Except Bytes JsonValue :=
  if base.contains key then mergeMember recurse key (base.get key) (overlay.get key) else .ok (overlay.get key)

def mergeKey (base overlay result : JsonValue) (key : Bytes) : Except Bytes JsonValue := do
  let value ← valueFor recurse base overlay key
  return result.set key value

end Recursion

/-- `mergeObjects` with so many levels left. -/
def mergeObjects : Nat → JsonValue → JsonValue → Except Bytes JsonValue
  | 0, _, _ => .error (ascii "Configuration merge depth limit exceeded")
  | levels + 1, base, overlay =>
      if !base.isObject || !overlay.isObject then .ok overlay
      else overlay.keys.foldlM (mergeKey (mergeObjects levels) base overlay) base

/-- The first source with the others laid over it in order. -/
def merge : List (Bytes × JsonValue) → Except Bytes JsonValue
  | [] => .ok .emptyObject
  | first :: overlays => overlays.foldlM (fun result overlay => mergeObjects kMaxMergeDepth result overlay.2) first.2

/-! ### The law -/

def firstNamed (name : Bytes) (items : List JsonValue) : Option JsonValue :=
  items.find? fun value => value.stringAt kName = some name

/-- What an item of the base becomes: what `law` makes of it and the first item of its name, or itself. -/
def ItemLaw (law : JsonValue → JsonValue → JsonValue → Prop) (values : List JsonValue) (old new : JsonValue) : Prop :=
  match old.stringAt kName with
  | none => new = old
  | some name =>
      match firstNamed name values with
      | none => new = old
      | some value => law old value new

/-- Without a name, or with one that is not among the names. -/
def isNew (names : List Bytes) (value : JsonValue) : Bool :=
  match value.stringAt kName with
  | none => true
  | some name => !names.contains name

/-- Two arrays of resources: the items of the base first, each by its name, then the new ones, each in their order. The
names are the union, and none is there twice unless it was before. -/
structure ResourcesLaw (law : JsonValue → JsonValue → JsonValue → Prop) (olds values items : List JsonValue) : Prop where
  parts : ∃ merged, List.Forall₂ (ItemLaw law values) olds merged ∧
    items = merged ++ values.filter (isNew (names olds))
  union : names items = names olds ++ (names values).filter fun name => !(names olds).contains name
  once : (names olds).Nodup → (names values).Nodup → (names items).Nodup

/-- A key that both have. -/
structure MemberLaw (law : JsonValue → JsonValue → JsonValue → Prop) (key : Bytes) (old value new : JsonValue) : Prop where
  filterList : isFilterList key = true → new = value
  resources : isFilterList key = false → isNamedResourceArray key = true → ∀ olds values, old = .array olds →
    value = .array values → ∃ items, new = .array items ∧ ResourcesLaw law olds values items
  objects : isFilterList key = false → old.isObject = true → value.isObject = true → law old value new
  replaced : (isNamedResourceArray key = true → old.isArray = true → value.isArray = false) →
    (old.isObject = true → value.isObject = false) → new = value

/-- Two objects, key by key. -/
structure ObjectLaw (law : JsonValue → JsonValue → JsonValue → Prop) (base overlay result : JsonValue) : Prop where
  object : result.isObject = true
  unmentioned : ∀ key, overlay.get? key = none → result.get? key = base.get? key
  added : ∀ key value, overlay.get? key = some value → base.get? key = none → result.get? key = some value
  shared : ∀ key old value, base.get? key = some old → overlay.get? key = some value →
    ∃ new, result.get? key = some new ∧ MemberLaw law key old value new

/-- The law of merging, for so many levels of objects. -/
def Law : Nat → JsonValue → JsonValue → JsonValue → Prop
  | 0, _, _, _ => False
  | levels + 1, base, overlay, result =>
      (base.isObject = true ∧ overlay.isObject = true → ObjectLaw (Law levels) base overlay result) ∧
      (¬ (base.isObject = true ∧ overlay.isObject = true) → result = overlay)

/-! ### Names -/

variable {base overlay result item old value : JsonValue} {name : Bytes}

theorem stringAt_of_not_isObject (h : item.isObject = false) (key : Bytes) : item.stringAt key = none := by
  cases item with
  | object fields => cases h
  | _ => rfl

theorem stringAt_of_not_contains {key : Bytes} (h : item.contains key = false) : item.stringAt key = none := by
  rw [JsonValue.contains_eq, Option.isSome_eq_false_iff, Option.isNone_iff_eq_none] at h
  unfold JsonValue.stringAt
  rw [JsonValue.get_eq, h]
  rfl

/-- A name that is read is the text under `name`. -/
theorem nameOf_eq_ok {found : Option Bytes} (h : nameOf item = .ok found) : found = item.stringAt kName := by
  unfold nameOf at h
  by_cases hnamed : item.isObject = true ∧ item.contains kName = true
  · rw [if_neg (by simp [hnamed])] at h
    unfold JsonValue.stringAt
    cases hget : item.get kName with
    | string text =>
        rw [hget] at h
        exact (Except.ok.inj h).symm
    | _ =>
        rw [hget] at h
        cases h
  · rw [if_pos (by simpa [imp_iff_not_or] using hnamed)] at h
    rw [← Except.ok.inj h]
    by_cases hobject : item.isObject = true
    · exact (stringAt_of_not_contains (by simpa [hobject] using hnamed)).symm
    · exact (stringAt_of_not_isObject (by simpa using hobject) kName).symm

theorem findNamed_eq_ok {items : List JsonValue} {found : Option JsonValue} (h : findNamed name items = .ok found) :
    found = firstNamed name items := by
  unfold firstNamed
  induction items with
  | nil => exact (Except.ok.inj h).symm
  | cons item rest ih =>
      rw [findNamed] at h
      obtain ⟨other, hother, h⟩ := Except.bind_eq_ok_iff.mp h
      have hread := nameOf_eq_ok hother
      split_ifs at h with hsame
      · rw [List.find?_cons_of_pos (by simp [← hread, hsame])]
        exact (Except.ok.inj h).symm
      · rw [List.find?_cons_of_neg (by simp [← hread, hsame])]
        exact ih h

theorem newItems_eq_ok {processedNames : List Bytes} {items added : List JsonValue}
    (h : newItems processedNames items = .ok added) : added = items.filter (isNew processedNames) := by
  induction items generalizing added with
  | nil => exact (Except.ok.inj h).symm
  | cons item rest ih =>
      rw [newItems] at h
      obtain ⟨other, hother, h⟩ := Except.bind_eq_ok_iff.mp h
      obtain ⟨others, hothers, h⟩ := Except.bind_eq_ok_iff.mp h
      rw [← Except.ok.inj h, List.filter_cons, ← ih hothers, isNew, ← nameOf_eq_ok hother]
      cases other with
      | none => simp
      | some name => by_cases hin : name ∈ processedNames <;> simp [hin]

theorem firstNamed_eq_some {items : List JsonValue} (h : firstNamed name items = some item) :
    item ∈ items ∧ item.stringAt kName = some name := by
  unfold firstNamed at h
  exact ⟨List.mem_of_find?_eq_some h, of_decide_eq_true (List.find?_some h :)⟩

theorem mem_keys_iff {key : Bytes} : key ∈ item.keys ↔ (item.get? key).isSome = true := by
  rw [← JsonValue.contains_iff_mem_keys, JsonValue.contains_eq]

/-! ### The law is kept -/

section Step

variable {recurse : JsonValue → JsonValue → Except Bytes JsonValue} {law : JsonValue → JsonValue → JsonValue → Prop}

theorem itemLaw_of_mergeItem (hrecurse : ∀ old value new, recurse old value = .ok new → law old value new)
    {values : List JsonValue} {new : JsonValue} (h : mergeItem recurse values old = .ok new) :
    ItemLaw law values old new := by
  unfold mergeItem at h
  obtain ⟨found, hfound, h⟩ := Except.bind_eq_ok_iff.mp h
  have hread := nameOf_eq_ok hfound
  unfold ItemLaw
  rw [← hread]
  cases found with
  | none => exact (Except.ok.inj h).symm
  | some name =>
      obtain ⟨match?, hmatch, h⟩ := Except.bind_eq_ok_iff.mp h
      dsimp only
      rw [← findNamed_eq_ok hmatch]
      cases match? with
      | none => exact (Except.ok.inj h).symm
      | some value => exact hrecurse old value new h

/-- Two values of one name make a value of that name. -/
def KeepsNames (law : JsonValue → JsonValue → JsonValue → Prop) : Prop :=
  ∀ old value new name, law old value new → old.stringAt kName = some name → value.stringAt kName = some name →
    new.stringAt kName = some name

theorem ItemLaw.stringAt_eq (hlaw : KeepsNames law) {values : List JsonValue} {new : JsonValue}
    (h : ItemLaw law values old new) : new.stringAt kName = old.stringAt kName := by
  unfold ItemLaw at h
  cases hold : old.stringAt kName with
  | none =>
      rw [hold] at h
      rw [h, hold]
  | some name =>
      rw [hold] at h
      dsimp only at h
      cases hfound : firstNamed name values with
      | none =>
          rw [hfound] at h
          rw [h, hold]
      | some value =>
          rw [hfound] at h
          exact hlaw old value new name h hold (firstNamed_eq_some hfound).2

theorem names_of_forall₂ {olds news : List JsonValue}
    (h : List.Forall₂ (fun old new => new.stringAt kName = old.stringAt kName) olds news) : names news = names olds := by
  induction h with
  | nil => rfl
  | cons hfirst _ ih =>
      unfold names at ih ⊢
      rw [List.filterMap_cons, List.filterMap_cons, hfirst, ih]

theorem names_append (items others : List JsonValue) : names (items ++ others) = names items ++ names others :=
  List.filterMap_append

theorem names_filter_isNew (known : List Bytes) (items : List JsonValue) :
    names (items.filter (isNew known)) = (names items).filter fun name => !known.contains name := by
  unfold names
  rw [List.filterMap_filter, List.filter_filterMap]
  congr 1
  funext item
  unfold isNew
  cases item.stringAt kName with
  | none => rfl
  | some name => by_cases hin : name ∈ known <;> simp [hin, Option.filter]

theorem resourcesLaw_of_merge (hrecurse : ∀ old value new, recurse old value = .ok new → law old value new)
    (hlaw : KeepsNames law) {olds values : List JsonValue} {new : JsonValue}
    (h : mergeNamedResourceArrays recurse olds values = .ok new) :
    ∃ items, new = .array items ∧ ResourcesLaw law olds values items := by
  unfold mergeNamedResourceArrays at h
  obtain ⟨merged, hmerged, h⟩ := Except.bind_eq_ok_iff.mp h
  obtain ⟨added, hadded, h⟩ := Except.bind_eq_ok_iff.mp h
  obtain rfl := newItems_eq_ok hadded
  have hitems : List.Forall₂ (ItemLaw law values) olds merged :=
    (Except.mapM_eq_ok_iff.mp hmerged).imp fun _ _ => itemLaw_of_mergeItem hrecurse
  have hnames : names merged = names olds := names_of_forall₂ (hitems.imp fun _ _ => ItemLaw.stringAt_eq hlaw)
  have hunion : names (merged ++ values.filter (isNew (names olds))) =
      names olds ++ (names values).filter fun name => !(names olds).contains name := by
    rw [names_append, hnames, names_filter_isNew]
  refine ⟨_, (Except.ok.inj h).symm, ⟨merged, hitems, rfl⟩, hunion, ?_⟩
  intro holds hvalues
  rw [hunion]
  refine holds.append (hvalues.filter _) ?_
  intro name hknown hnew
  simpa [hknown] using (List.mem_filter.mp hnew).2

/-- What a key gets when both have it. -/
theorem memberLaw_of_merge (hrecurse : ∀ old value new, recurse old value = .ok new → law old value new)
    (hlaw : KeepsNames law) {key : Bytes} {new : JsonValue} (h : mergeMember recurse key old value = .ok new) :
    MemberLaw law key old value new := by
  unfold mergeMember at h
  split_ifs at h with hfilter hresources hobjects
  · obtain rfl := Except.ok.inj h
    exact ⟨fun _ => rfl, by simp [hfilter], by simp [hfilter], fun _ _ => rfl⟩
  · rw [Bool.and_eq_true, Bool.and_eq_true] at hresources
    obtain ⟨⟨hkey, hold⟩, hvalue⟩ := hresources
    cases old with
    | array olds =>
        cases value with
        | array values =>
            refine ⟨fun hyes => absurd hyes hfilter, ?_, fun _ hobject => ?_, fun hnot => ?_⟩
            · rintro - - olds' values' ⟨⟩ ⟨⟩
              exact resourcesLaw_of_merge hrecurse hlaw h
            · cases hobject
            · cases hnot hkey rfl
        | _ => cases hvalue
    | _ => cases hold
  · rw [Bool.and_eq_true] at hobjects
    refine ⟨fun hyes => absurd hyes hfilter, ?_, fun _ _ _ => hrecurse _ _ _ h, fun _ hnot => ?_⟩
    · rintro - - olds values rfl -
      cases hobjects.1
    · rw [hnot hobjects.1] at hobjects
      cases hobjects.2
  · obtain rfl := Except.ok.inj h
    refine ⟨fun _ => rfl, ?_, fun _ hold hvalue => ?_, fun _ _ => rfl⟩
    · rintro - hkey olds values rfl rfl
      exact absurd (by simp [hkey, JsonValue.isArray]) hresources
    · exact absurd (by rw [hold, hvalue]; rfl) hobjects

theorem valueFor_of_new {key : Bytes} (hbase : base.get? key = none) (hoverlay : overlay.get? key = some value) :
    valueFor recurse base overlay key = .ok value := by
  rw [valueFor, JsonValue.contains_eq, hbase, overlay.get_eq, hoverlay]
  rfl

theorem valueFor_of_shared {key : Bytes} (hbase : base.get? key = some old) (hoverlay : overlay.get? key = some value) :
    valueFor recurse base overlay key = mergeMember recurse key old value := by
  rw [valueFor, JsonValue.contains_eq, JsonValue.get_eq, JsonValue.get_eq, hbase, hoverlay]
  rfl

/-- Every key of the overlay gets its value, and the others keep theirs. -/
theorem get?_of_foldlM {keys : List Bytes} {start : JsonValue} (hobject : start.isObject = true)
    (h : keys.foldlM (mergeKey recurse base overlay) start = .ok result) :
    result.isObject = true ∧ (∀ key, key ∉ keys → result.get? key = start.get? key) ∧
      ∀ key ∈ keys, ∃ value, valueFor recurse base overlay key = .ok value ∧ result.get? key = some value := by
  induction keys generalizing start with
  | nil =>
      cases h
      exact ⟨hobject, fun _ _ => rfl, fun _ hin => absurd hin List.not_mem_nil⟩
  | cons first rest ih =>
      rw [List.foldlM_cons] at h
      obtain ⟨next, hnext, h⟩ := Except.bind_eq_ok_iff.mp h
      obtain ⟨value, hvalue, hset⟩ := Except.bind_eq_ok_iff.mp hnext
      obtain rfl := Except.ok.inj hset
      obtain ⟨hresult, hother, hthere⟩ := ih (JsonValue.isObject_set hobject first value) h
      refine ⟨hresult, fun key hkey => ?_, fun key hkey => ?_⟩
      · rw [List.mem_cons, not_or] at hkey
        rw [hother key hkey.2, JsonValue.get?_set hobject, if_neg hkey.1]
      · by_cases hrest : key ∈ rest
        · exact hthere key hrest
        · obtain rfl := (List.mem_cons.mp hkey).resolve_right hrest
          refine ⟨value, hvalue, ?_⟩
          rw [hother key hrest, JsonValue.get?_set hobject, if_pos rfl]

theorem objectLaw_of_fold (hrecurse : ∀ old value new, recurse old value = .ok new → law old value new)
    (hlaw : KeepsNames law) (hobject : base.isObject = true)
    (h : overlay.keys.foldlM (mergeKey recurse base overlay) base = .ok result) :
    ObjectLaw law base overlay result := by
  obtain ⟨hresult, hother, hthere⟩ := get?_of_foldlM hobject h
  refine ⟨hresult, fun key hkey => ?_, fun key value hvalue hbase => ?_, fun key old value hold hvalue => ?_⟩
  · exact hother key (by simp [mem_keys_iff, hkey])
  · obtain ⟨new, hnew, hget⟩ := hthere key (by simp [mem_keys_iff, hvalue])
    rw [valueFor_of_new hbase hvalue] at hnew
    rw [hget, ← Except.ok.inj hnew]
  · obtain ⟨new, hnew, hget⟩ := hthere key (by simp [mem_keys_iff, hvalue])
    rw [valueFor_of_shared hold hvalue] at hnew
    exact ⟨new, hget, memberLaw_of_merge hrecurse hlaw hnew⟩

end Step

theorem stringAt_eq_some_iff {key text : Bytes} : item.stringAt key = some text ↔ item.get? key = some (.string text) := by
  unfold JsonValue.stringAt
  rw [JsonValue.get_eq]
  cases item.get? key with
  | none => simp
  | some value => cases value <;> simp

theorem keepsNames_law (levels : Nat) : KeepsNames (Law levels) := by
  intro old value new name h hold hvalue
  cases levels with
  | zero => exact h.elim
  | succ levels =>
      have hobject {item : JsonValue} (hname : item.stringAt kName = some name) : item.isObject = true := by
        by_contra hnot
        rw [stringAt_of_not_isObject (by simpa using hnot)] at hname
        cases hname
      have hlaw := h.1 ⟨hobject hold, hobject hvalue⟩
      rw [stringAt_eq_some_iff] at hold hvalue ⊢
      obtain ⟨kept, hkept, hmember⟩ := hlaw.shared kName _ _ hold hvalue
      rw [hkept, hmember.replaced (fun _ _ => rfl) fun _ => rfl]

theorem mergeObjects_of_objects (levels : Nat) (hbase : base.isObject = true) (hoverlay : overlay.isObject = true) :
    mergeObjects (levels + 1) base overlay = overlay.keys.foldlM (mergeKey (mergeObjects levels) base overlay) base :=
  if_neg (by simp [hbase, hoverlay])

theorem mergeObjects_of_not_objects (levels : Nat) (h : ¬ (base.isObject = true ∧ overlay.isObject = true)) :
    mergeObjects (levels + 1) base overlay = .ok overlay :=
  if_pos (by simpa [imp_iff_not_or] using h)

/-- Whatever merging gives obeys the law. -/
theorem law_of_mergeObjects {levels : Nat} (h : mergeObjects levels base overlay = .ok result) :
    Law levels base overlay result := by
  induction levels generalizing base overlay result with
  | zero => cases h
  | succ levels ih =>
      refine ⟨fun hobjects => ?_, fun hnot => ?_⟩
      · rw [mergeObjects_of_objects levels hobjects.1 hobjects.2] at h
        exact objectLaw_of_fold (fun _ _ _ => ih) (keepsNames_law levels) hobjects.1 h
      · rw [mergeObjects_of_not_objects levels hnot] at h
        exact (Except.ok.inj h).symm

end ConfigMerger

end GopherMcp
