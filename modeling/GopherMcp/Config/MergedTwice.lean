import GopherMcp.Config.ConfigMerger

/-!
# Merging the same overlay twice

Merging does not throw where the overlay is shallow enough and the names of the resources are texts. Where each
resource of the overlay has a name of its own, laying it over the result once more changes nothing.
-/

namespace GopherMcp

namespace ConfigMerger

/-! ### Documents that can be merged -/

def isKey : PathStep → Bool
  | .key _ => true
  | .index _ => false

/-- Every object lies under fewer keys than there are levels. -/
def Shallow (levels : Nat) (doc : JsonValue) : Prop :=
  ∀ path fields, doc.at? path = some (.object fields) → path.countP isKey < levels

/-- Every array of resources in the document is such. -/
def EveryResources (P : List JsonValue → Prop) (doc : JsonValue) : Prop :=
  ∀ path key items, isNamedResourceArray key = true → doc.at? (path ++ [.key key]) = some (.array items) → P items

/-- Where a resource has a name it is a text. -/
def TextNames (items : List JsonValue) : Prop :=
  ∀ item ∈ items, ∀ name, item.get? kName = some name → name.isString = true

/-- Each resource has a name of its own. -/
def OwnNames (items : List JsonValue) : Prop :=
  (∀ item ∈ items, (item.stringAt kName).isSome = true) ∧ (names items).Nodup

/-- What can be laid over what it made. -/
structure Repeatable (levels : Nat) (doc : JsonValue) : Prop where
  shallow : Shallow levels doc
  order : doc.InKeyOrder
  own : EveryResources OwnNames doc

variable {base overlay result item old value doc : JsonValue} {levels : Nat} {P : List JsonValue → Prop}

theorem Shallow.at? (h : Shallow levels doc) {path : List PathStep} (hpath : doc.at? path = some value) :
    Shallow (levels - path.countP isKey) value := by
  intro rest fields hrest
  have hwhole : doc.at? (path ++ rest) = some (.object fields) := by
    rw [JsonValue.at?_append, hpath]
    exact hrest
  have hlt := h (path ++ rest) fields hwhole
  rw [List.countP_append] at hlt
  omega

theorem EveryResources.at? (h : EveryResources P doc) {path : List PathStep} (hpath : doc.at? path = some value) :
    EveryResources P value := by
  intro rest key items hkey hrest
  apply h (path ++ rest) key items hkey
  rw [List.append_assoc, JsonValue.at?_append, hpath]
  exact hrest

theorem at?_key {key : Bytes} (h : doc.get? key = some value) : doc.at? [.key key] = some value := by
  cases doc with
  | object fields =>
      show (OrdMap.findEntry key fields).bind some = some value
      rw [Option.bind_fun_some]
      exact h
  | _ => cases h

theorem exists_at?_item {key : Bytes} {items : List JsonValue} (h : doc.get? key = some (.array items))
    (hitem : item ∈ items) : ∃ index, doc.at? [.key key, .index index] = some item := by
  obtain ⟨index, hindex⟩ := List.mem_iff_getElem?.mp hitem
  refine ⟨index, ?_⟩
  rw [show [PathStep.key key, .index index] = [.key key] ++ [.index index] from rfl, JsonValue.at?_append, at?_key h]
  show (items[index]?).bind some = some item
  rw [Option.bind_fun_some, hindex]

theorem Shallow.get? (h : Shallow (levels + 1) doc) {key : Bytes} (hget : doc.get? key = some value) :
    Shallow levels value :=
  h.at? (at?_key hget)

theorem Shallow.resource (h : Shallow (levels + 1) doc) {key : Bytes} {items : List JsonValue}
    (hget : doc.get? key = some (.array items)) (hitem : item ∈ items) : Shallow levels item := by
  obtain ⟨index, hindex⟩ := exists_at?_item hget hitem
  exact h.at? hindex

theorem EveryResources.get? (h : EveryResources P doc) {key : Bytes} (hget : doc.get? key = some value) :
    EveryResources P value :=
  h.at? (at?_key hget)

theorem EveryResources.resource (h : EveryResources P doc) {key : Bytes} {items : List JsonValue}
    (hget : doc.get? key = some (.array items)) (hitem : item ∈ items) : EveryResources P item := by
  obtain ⟨index, hindex⟩ := exists_at?_item hget hitem
  exact h.at? hindex

theorem EveryResources.items (h : EveryResources P doc) {key : Bytes} {items : List JsonValue}
    (hkey : isNamedResourceArray key = true) (hget : doc.get? key = some (.array items)) : P items :=
  h [] key items hkey (at?_key hget)

theorem Repeatable.get? (h : Repeatable (levels + 1) doc) {key : Bytes} (hget : doc.get? key = some value) :
    Repeatable levels value :=
  ⟨h.shallow.get? hget, h.order.get? hget, h.own.get? hget⟩

theorem Repeatable.resource (h : Repeatable (levels + 1) doc) {key : Bytes} {items : List JsonValue}
    (hget : doc.get? key = some (.array items)) (hitem : item ∈ items) : Repeatable levels item :=
  ⟨h.shallow.resource hget hitem, (h.order.get? hget).item hitem, h.own.resource hget hitem⟩

/-! ### Names that are read -/

theorem OwnNames.named {items : List JsonValue} (h : OwnNames items) (hitem : item ∈ items) :
    ∃ name, item.stringAt kName = some name :=
  Option.isSome_iff_exists.mp (h.1 item hitem)

theorem nameOf_of_stringAt {name : Bytes} (h : item.stringAt kName = some name) : nameOf item = .ok (some name) := by
  rw [stringAt_eq_some_iff] at h
  have hobject : item.isObject = true := by
    cases item with
    | object fields => rfl
    | _ => cases h
  unfold nameOf
  rw [JsonValue.contains_eq, h, item.get_eq, h, hobject]
  rfl

theorem exists_nameOf (h : ∀ name, item.get? kName = some name → name.isString = true) :
    ∃ found, nameOf item = .ok found := by
  cases hget : item.get? kName with
  | none =>
      refine ⟨none, ?_⟩
      unfold nameOf
      rw [JsonValue.contains_eq, hget, if_pos (by simp)]
  | some name =>
      have hstring := h name hget
      cases name with
      | string text => exact ⟨some text, nameOf_of_stringAt (stringAt_eq_some_iff.mpr hget)⟩
      | _ => cases hstring

theorem findNamed_eq {name : Bytes} {items : List JsonValue}
    (h : ∀ item ∈ items, ∃ found, nameOf item = .ok found) : findNamed name items = .ok (firstNamed name items) := by
  induction items with
  | nil => rfl
  | cons item rest ih =>
      rw [List.forall_mem_cons] at h
      obtain ⟨⟨found, hfound⟩, hrest⟩ := h
      rw [findNamed, Except.bind_eq_ok_iff]
      refine ⟨found, hfound, ?_⟩
      have hread := nameOf_eq_ok hfound
      unfold firstNamed
      split_ifs with hsame
      · rw [List.find?_cons_of_pos (by simp [← hread, hsame])]
        rfl
      · rw [List.find?_cons_of_neg (by simp [← hread, hsame])]
        exact ih hrest

theorem newItems_eq {processedNames : List Bytes} {items : List JsonValue}
    (h : ∀ item ∈ items, ∃ found, nameOf item = .ok found) :
    newItems processedNames items = .ok (items.filter (isNew processedNames)) := by
  suffices hadded : ∃ added, newItems processedNames items = .ok added by
    obtain ⟨added, hadded⟩ := hadded
    rw [hadded, newItems_eq_ok hadded]
  induction items with
  | nil => exact ⟨[], rfl⟩
  | cons item rest ih =>
      rw [List.forall_mem_cons] at h
      obtain ⟨⟨found, hfound⟩, hrest⟩ := h
      obtain ⟨others, hothers⟩ := ih hrest
      rw [newItems]
      simp only [Except.bind_eq_ok_iff]
      exact ⟨_, found, hfound, others, hothers, rfl⟩

theorem exists_nameOf_of_textNames {items : List JsonValue} (h : TextNames items) :
    ∀ item ∈ items, ∃ found, nameOf item = .ok found :=
  fun item hitem => exists_nameOf (h item hitem)

theorem exists_nameOf_of_ownNames {items : List JsonValue} (h : OwnNames items) :
    ∀ item ∈ items, ∃ found, nameOf item = .ok found := by
  intro item hitem
  obtain ⟨name, hname⟩ := h.named hitem
  exact ⟨some name, nameOf_of_stringAt hname⟩

/-- Where each has a name of its own, an item is the first of its name. -/
theorem firstNamed_of_mem {name : Bytes} {items : List JsonValue} (hnodup : (names items).Nodup) (hitem : item ∈ items)
    (hname : item.stringAt kName = some name) : firstNamed name items = some item := by
  induction items with
  | nil => cases hitem
  | cons first rest ih =>
      by_cases hsame : first.stringAt kName = some name
      · have hcons : names (first :: rest) = name :: names rest := List.filterMap_cons_some hsame
        rw [hcons, List.nodup_cons] at hnodup
        unfold firstNamed
        rw [List.find?_cons_of_pos (by simpa using hsame)]
        obtain rfl | hrest := List.mem_cons.mp hitem
        · rfl
        · exact absurd (List.mem_filterMap.mpr ⟨item, hrest, hname⟩) hnodup.1
      · have hrest : item ∈ rest := by
          refine (List.mem_cons.mp hitem).resolve_left ?_
          rintro rfl
          exact hsame hname
        unfold firstNamed
        rw [List.find?_cons_of_neg (by simpa using hsame)]
        exact ih (hnodup.sublist ((List.sublist_cons_self _ _).filterMap _)) hrest

/-- Nothing is new where every name is known. -/
theorem filter_isNew_of_known {known : List Bytes} {items : List JsonValue}
    (h : ∀ item ∈ items, ∃ name ∈ known, item.stringAt kName = some name) : items.filter (isNew known) = [] := by
  rw [List.filter_eq_nil_iff]
  intro item hitem
  obtain ⟨name, hknown, hname⟩ := h item hitem
  unfold isNew
  rw [hname]
  simpa using hknown

theorem isObject_of_stringAt {name : Bytes} (h : item.stringAt kName = some name) : item.isObject = true := by
  by_contra hnot
  rw [stringAt_of_not_isObject (by simpa using hnot)] at h
  cases h

/-! ### Merging does not throw -/

section Step

variable {recurse : JsonValue → JsonValue → Except Bytes JsonValue}

theorem exists_mergeNamedResourceArrays {olds values : List JsonValue} (holds : TextNames olds)
    (hvalues : TextNames values)
    (hrecurse : ∀ old ∈ olds, ∀ value ∈ values, value.isObject = true → ∃ new, recurse old value = .ok new) :
    ∃ new, mergeNamedResourceArrays recurse olds values = .ok new := by
  have hread := exists_nameOf_of_textNames hvalues
  have hitems : ∀ old ∈ olds, ∃ new, mergeItem recurse values old = .ok new := by
    intro old hold
    obtain ⟨found, hfound⟩ := exists_nameOf_of_textNames holds old hold
    unfold mergeItem
    simp only [Except.bind_eq_ok_iff]
    cases found with
    | none => exact ⟨old, none, hfound, rfl⟩
    | some name =>
        cases hfirst : firstNamed name values with
        | none =>
            refine ⟨old, some name, hfound, Except.bind_eq_ok_iff.mpr ⟨none, ?_, rfl⟩⟩
            rw [findNamed_eq hread, hfirst]
        | some value =>
            obtain ⟨hvalue, hname⟩ := firstNamed_eq_some hfirst
            obtain ⟨new, hnew⟩ := hrecurse old hold value hvalue (isObject_of_stringAt hname)
            refine ⟨new, some name, hfound, Except.bind_eq_ok_iff.mpr ⟨some value, ?_, hnew⟩⟩
            rw [findNamed_eq hread, hfirst]
  obtain ⟨merged, hmerged⟩ := Except.exists_mapM_eq_ok hitems
  unfold mergeNamedResourceArrays
  simp only [Except.bind_eq_ok_iff]
  exact ⟨_, merged, hmerged, _, newItems_eq hread, rfl⟩

end Step

theorem exists_mergeObjects (hobject : overlay.isObject = true) (hshallow : Shallow levels overlay)
    (hbase : EveryResources TextNames base) (hoverlay : EveryResources TextNames overlay) :
    ∃ result, mergeObjects levels base overlay = .ok result := by
  induction levels generalizing base overlay with
  | zero =>
      cases overlay with
      | object fields => exact absurd (hshallow [] fields rfl) (Nat.not_lt_zero _)
      | _ => cases hobject
  | succ levels ih =>
      by_cases hbaseObject : base.isObject = true
      · rw [mergeObjects_of_objects levels hbaseObject hobject]
        apply Except.exists_foldlM_eq_ok
        intro start key hkey
        suffices hvalueFor : ∃ new, valueFor (mergeObjects levels) base overlay key = .ok new by
          obtain ⟨new, hnew⟩ := hvalueFor
          exact ⟨_, Except.bind_eq_ok_iff.mpr ⟨new, hnew, rfl⟩⟩
        obtain ⟨value, hvalue⟩ := Option.isSome_iff_exists.mp (mem_keys_iff.mp hkey)
        cases hold : base.get? key with
        | none => exact ⟨value, valueFor_of_new hold hvalue⟩
        | some old =>
            rw [valueFor_of_shared hold hvalue]
            unfold mergeMember
            split_ifs with hfilter hresources hobjects
            · exact ⟨value, rfl⟩
            · rw [Bool.and_eq_true, Bool.and_eq_true] at hresources
              obtain ⟨⟨hnamed, harray⟩, hvalueArray⟩ := hresources
              cases old with
              | array olds =>
                  cases value with
                  | array values =>
                      apply exists_mergeNamedResourceArrays (hbase.items hnamed hold) (hoverlay.items hnamed hvalue)
                      intro old' hold' value' hvalue' hobject'
                      exact ih hobject' (hshallow.resource hvalue hvalue') (hbase.resource hold hold')
                        (hoverlay.resource hvalue hvalue')
                  | _ => cases hvalueArray
              | _ => cases harray
            · exact ih (Bool.and_eq_true_iff.mp hobjects).2 (hshallow.get? hvalue) (hbase.get? hold)
                (hoverlay.get? hvalue)
            · exact ⟨value, rfl⟩
      · exact ⟨overlay, mergeObjects_of_not_objects levels fun hboth => hbaseObject hboth.1⟩

/-! ### A document laid over itself -/

/-- Resources that each merge with themselves into themselves. -/
theorem mergeItem_self {recurse : JsonValue → JsonValue → Except Bytes JsonValue} {values : List JsonValue}
    (hown : OwnNames values) (hitem : item ∈ values) (hrecurse : recurse item item = .ok item) :
    mergeItem recurse values item = .ok item := by
  obtain ⟨name, hname⟩ := hown.named hitem
  refine Except.bind_eq_ok_iff.mpr ⟨some name, nameOf_of_stringAt hname, ?_⟩
  refine Except.bind_eq_ok_iff.mpr ⟨some item, ?_, hrecurse⟩
  rw [findNamed_eq (exists_nameOf_of_ownNames hown), firstNamed_of_mem hown.2 hitem hname]

/-- Arrays of resources that get nothing new and whose items stay as they are. -/
theorem mergeNamedResourceArrays_fixed {recurse : JsonValue → JsonValue → Except Bytes JsonValue}
    {items values : List JsonValue} (hown : OwnNames values)
    (hitems : ∀ item ∈ items, mergeItem recurse values item = .ok item)
    (hknown : ∀ name ∈ names values, name ∈ names items) :
    mergeNamedResourceArrays recurse items values = .ok (.array items) := by
  have hnothing : values.filter (isNew (names items)) = [] := by
    apply filter_isNew_of_known
    intro value hvalue
    obtain ⟨name, hname⟩ := hown.named hvalue
    exact ⟨name, hknown name (List.mem_filterMap.mpr ⟨value, hvalue, hname⟩), hname⟩
  unfold mergeNamedResourceArrays
  simp only [Except.bind_eq_ok_iff]
  refine ⟨items, Except.mapM_eq_ok_iff.mpr (List.forall₂_same.mpr hitems), [], ?_, ?_⟩
  · rw [newItems_eq (exists_nameOf_of_ownNames hown), hnothing]
  · rw [List.append_nil]
    rfl

/-- A fold over keys that each get what is there. -/
theorem foldlM_mergeKey_fixed {recurse : JsonValue → JsonValue → Except Bytes JsonValue}
    {fields : List (Bytes × JsonValue)} (hsorted : OrdMap.EntriesSorted fields)
    (h : ∀ key value, overlay.get? key = some value → ∃ new, (JsonValue.object fields).get? key = some new ∧
      mergeMember recurse key new value = .ok new) :
    overlay.keys.foldlM (mergeKey recurse (.object fields) overlay) (.object fields) = .ok (.object fields) := by
  apply Except.foldlM_of_fixed
  intro key hkey
  obtain ⟨value, hvalue⟩ := Option.isSome_iff_exists.mp (mem_keys_iff.mp hkey)
  obtain ⟨new, hnew, hmember⟩ := h key value hvalue
  refine Except.bind_eq_ok_iff.mpr ⟨new, (valueFor_of_shared hnew hvalue).trans hmember, ?_⟩
  exact congrArg (fun fields => Except.ok (JsonValue.object fields)) (OrdMap.insertEntry_of_findEntry hsorted hnew)

theorem mergeMember_self {recurse : JsonValue → JsonValue → Except Bytes JsonValue} {key : Bytes}
    (hrecurse : ∀ value, value.isObject = true → Repeatable levels value → recurse value value = .ok value)
    (hdoc : Repeatable (levels + 1) doc) (hget : doc.get? key = some value) :
    mergeMember recurse key value value = .ok value := by
  unfold mergeMember
  split_ifs with hfilter hresources hobjects
  · rfl
  · rw [Bool.and_eq_true, Bool.and_eq_true] at hresources
    cases value with
    | array items =>
        have hown := hdoc.own.items hresources.1.1 hget
        apply mergeNamedResourceArrays_fixed hown
        · intro item hitem
          obtain ⟨name, hname⟩ := hown.named hitem
          exact mergeItem_self hown hitem (hrecurse item (isObject_of_stringAt hname) (hdoc.resource hget hitem))
        · exact fun _ hname => hname
    | _ => cases hresources.2
  · exact hrecurse value (Bool.and_eq_true_iff.mp hobjects).1 (hdoc.get? hget)
  · rfl

theorem mergeObjects_self (hobject : doc.isObject = true) (hdoc : Repeatable levels doc) :
    mergeObjects levels doc doc = .ok doc := by
  induction levels generalizing doc with
  | zero =>
      cases doc with
      | object fields => exact absurd (hdoc.shallow [] fields rfl) (Nat.not_lt_zero _)
      | _ => cases hobject
  | succ levels ih =>
      cases doc with
      | object fields =>
          refine foldlM_mergeKey_fixed (hdoc.order [] fields rfl) fun key value hvalue => ⟨value, hvalue, ?_⟩
          exact mergeMember_self (fun _ => ih) hdoc hvalue
      | _ => cases hobject

/-! ### An overlay laid over what it made -/

section Twice

variable {recurse : JsonValue → JsonValue → Except Bytes JsonValue}

/-- What became of an item stays as it is. -/
theorem mergeItem_twice (hkeeps : KeepsNames fun old value new => recurse old value = .ok new) {values : List JsonValue}
    {new : JsonValue} (htwice : ∀ value ∈ values, ∀ new, value.isObject = true → recurse old value = .ok new →
      recurse new value = .ok new) (h : mergeItem recurse values old = .ok new) :
    mergeItem recurse values new = .ok new := by
  have hmerge := h
  unfold mergeItem at h
  obtain ⟨found, hfound, h⟩ := Except.bind_eq_ok_iff.mp h
  cases found with
  | none =>
      obtain rfl := Except.ok.inj h
      exact hmerge
  | some name =>
      obtain ⟨other, hother, h⟩ := Except.bind_eq_ok_iff.mp h
      cases other with
      | none =>
          obtain rfl := Except.ok.inj h
          exact hmerge
      | some value =>
          obtain ⟨hvalue, hname⟩ := firstNamed_eq_some (findNamed_eq_ok hother).symm
          have hnew := hkeeps old value new name h (nameOf_eq_ok hfound).symm hname
          refine Except.bind_eq_ok_iff.mpr ⟨some name, nameOf_of_stringAt hnew, ?_⟩
          refine Except.bind_eq_ok_iff.mpr ⟨some value, hother, ?_⟩
          exact htwice value hvalue new (isObject_of_stringAt hname) h

theorem mergeNamedResourceArrays_twice (hkeeps : KeepsNames fun old value new => recurse old value = .ok new)
    {olds values : List JsonValue} {new : JsonValue} (hown : OwnNames values)
    (hself : ∀ value ∈ values, value.isObject = true → recurse value value = .ok value)
    (htwice : ∀ old ∈ olds, ∀ value ∈ values, ∀ new, value.isObject = true → recurse old value = .ok new →
      recurse new value = .ok new)
    (h : mergeNamedResourceArrays recurse olds values = .ok new) :
    ∃ items, new = .array items ∧ mergeNamedResourceArrays recurse items values = .ok (.array items) := by
  obtain ⟨items, rfl, hlaw⟩ := resourcesLaw_of_merge (fun _ _ _ hnew => hnew) hkeeps h
  refine ⟨items, rfl, mergeNamedResourceArrays_fixed hown ?_ ?_⟩
  · unfold mergeNamedResourceArrays at h
    obtain ⟨merged, hmerged, h⟩ := Except.bind_eq_ok_iff.mp h
    obtain ⟨added, hadded, h⟩ := Except.bind_eq_ok_iff.mp h
    obtain rfl := JsonValue.array.inj (Except.ok.inj h)
    intro item hitem
    obtain hold | hnew := List.mem_append.mp hitem
    · obtain ⟨old, hmem, heq⟩ := Except.exists_of_mem_mapM hmerged hold
      exact mergeItem_twice hkeeps (htwice old hmem) heq
    · rw [newItems_eq_ok hadded] at hnew
      have hmem := List.mem_of_mem_filter hnew
      obtain ⟨name, hname⟩ := hown.named hmem
      exact mergeItem_self hown hmem (hself item hmem (isObject_of_stringAt hname))
  · intro name hname
    rw [hlaw.union, List.mem_append, List.mem_filter]
    by_cases hknown : name ∈ names olds
    · exact Or.inl hknown
    · exact Or.inr ⟨hname, by simpa using hknown⟩

theorem mergeMember_twice {key : Bytes} {new : JsonValue} (hself : mergeMember recurse key value value = .ok value)
    (hresources : isNamedResourceArray key = true → ∀ olds values, old = .array olds → value = .array values →
      mergeNamedResourceArrays recurse olds values = .ok new →
      ∃ items, new = .array items ∧ mergeNamedResourceArrays recurse items values = .ok (.array items))
    (hobjects : old.isObject = true → value.isObject = true → recurse old value = .ok new →
      new.isObject = true ∧ recurse new value = .ok new)
    (h : mergeMember recurse key old value = .ok new) : mergeMember recurse key new value = .ok new := by
  unfold mergeMember at h
  split_ifs at h with hfilter hboth hobject
  · obtain rfl := Except.ok.inj h
    exact hself
  · rw [Bool.and_eq_true, Bool.and_eq_true] at hboth
    obtain ⟨⟨hkey, harray⟩, hvalueArray⟩ := hboth
    cases old with
    | array olds =>
        cases value with
        | array values =>
            obtain ⟨items, rfl, heq⟩ := hresources hkey olds values rfl rfl h
            unfold mergeMember
            rw [if_neg hfilter, if_pos (by rw [hkey]; rfl)]
            exact heq
        | _ => cases hvalueArray
    | _ => cases harray
  · rw [Bool.and_eq_true] at hobject
    obtain ⟨hnew, heq⟩ := hobjects hobject.1 hobject.2 h
    cases value with
    | object fields =>
        unfold mergeMember
        rw [if_neg hfilter, if_neg (by simp [JsonValue.isArray]), if_pos (by rw [hnew]; rfl)]
        exact heq
    | _ => cases hobject.2
  · obtain rfl := Except.ok.inj h
    exact hself

end Twice

theorem keepsNames_mergeObjects (levels : Nat) :
    KeepsNames fun old value new => mergeObjects levels old value = .ok new :=
  fun old value new name h => keepsNames_law levels old value new name (law_of_mergeObjects h)

theorem isObject_of_mergeObjects (hold : old.isObject = true) (hvalue : value.isObject = true)
    (h : mergeObjects levels old value = .ok result) : result.isObject = true := by
  have hlaw := law_of_mergeObjects h
  cases levels with
  | zero => exact hlaw.elim
  | succ levels => exact (hlaw.1 ⟨hold, hvalue⟩).object

/-- The members of what a fold makes are in the order of their keys. -/
theorem entriesSorted_of_foldlM {recurse : JsonValue → JsonValue → Except Bytes JsonValue} {keys : List Bytes}
    {fields : List (Bytes × JsonValue)} (hsorted : OrdMap.EntriesSorted fields)
    (h : keys.foldlM (mergeKey recurse base overlay) (.object fields) = .ok result) :
    ∃ entries, result = .object entries ∧ OrdMap.EntriesSorted entries := by
  refine Except.foldlM_invariant (fun json => ∃ entries, json = .object entries ∧ OrdMap.EntriesSorted entries)
    ⟨fields, rfl, hsorted⟩ ?_ h
  rintro start key next ⟨entries, rfl, hentries⟩ hnext
  obtain ⟨value, -, hset⟩ := Except.bind_eq_ok_iff.mp hnext
  exact ⟨_, (Except.ok.inj hset).symm, OrdMap.entriesSorted_insertEntry hentries key value⟩

theorem mergeObjects_twice (hobject : overlay.isObject = true) (hoverlay : Repeatable levels overlay)
    (horder : base.InKeyOrder) (h : mergeObjects levels base overlay = .ok result) :
    mergeObjects levels result overlay = .ok result := by
  induction levels generalizing base overlay result with
  | zero => cases h
  | succ levels ih =>
      by_cases hbaseObject : base.isObject = true
      · rw [mergeObjects_of_objects levels hbaseObject hobject] at h
        obtain ⟨-, -, hthere⟩ := get?_of_foldlM hbaseObject h
        obtain ⟨fields, rfl⟩ : ∃ fields, base = .object fields := by
          cases base with
          | object fields => exact ⟨fields, rfl⟩
          | _ => cases hbaseObject
        obtain ⟨entries, rfl, hsorted⟩ := entriesSorted_of_foldlM (horder [] fields rfl) h
        have hentries : (JsonValue.object entries).isObject = true := rfl
        rw [mergeObjects_of_objects levels hentries hobject]
        apply foldlM_mergeKey_fixed hsorted
        intro key value hvalue
        have hself : mergeMember (mergeObjects levels) key value value = .ok value :=
          mergeMember_self (fun _ => mergeObjects_self) hoverlay hvalue
        obtain ⟨new, hnew, hget⟩ := hthere key (mem_keys_iff.mpr (by rw [hvalue]; rfl))
        refine ⟨new, hget, ?_⟩
        cases hold : (JsonValue.object fields).get? key with
        | none =>
            rw [valueFor_of_new hold hvalue] at hnew
            obtain rfl := Except.ok.inj hnew
            exact hself
        | some old =>
            rw [valueFor_of_shared hold hvalue] at hnew
            apply mergeMember_twice hself _ _ hnew
            · rintro hkey olds values rfl rfl hmerge
              apply mergeNamedResourceArrays_twice (keepsNames_mergeObjects levels) (hoverlay.own.items hkey hvalue)
                _ _ hmerge
              · intro item hitem hitemObject
                exact mergeObjects_self hitemObject (hoverlay.resource hvalue hitem)
              · intro item hitem other hother new hotherObject hmerged
                exact ih hotherObject (hoverlay.resource hvalue hother) ((horder.get? hold).item hitem) hmerged
            · intro holdObject hvalueObject hmerged
              exact ⟨isObject_of_mergeObjects holdObject hvalueObject hmerged,
                ih hvalueObject (hoverlay.get? hvalue) (horder.get? hold) hmerged⟩
      · rw [mergeObjects_of_not_objects levels fun hboth => hbaseObject hboth.1] at h
        obtain rfl := Except.ok.inj h
        exact mergeObjects_self hobject hoverlay

/-! ### Sources -/

theorem merge_pair (first second : Bytes) (base overlay : JsonValue) :
    merge [(first, base), (second, overlay)] = mergeObjects kMaxMergeDepth base overlay := by
  simp only [merge, List.foldlM_cons, List.foldlM_nil, bind_pure]

theorem merge_triple (first second third : Bytes) (base overlay other : JsonValue) :
    merge [(first, base), (second, overlay), (third, other)] =
      merge [(first, base), (second, overlay)] >>= fun result => mergeObjects kMaxMergeDepth result other := by
  simp only [merge, List.foldlM_cons, List.foldlM_nil, bind_pure]

/-- **Merging.** What merging gives obeys the law; it gives something where the overlay is shallow enough and the names
of the resources are texts; an empty overlay changes nothing; and where each resource of the overlay has a name of its
own, the same overlay changes nothing the second time. -/
theorem merge_lawful (first second third : Bytes) (base overlay : JsonValue) :
    (∀ result, merge [(first, base), (second, overlay)] = .ok result → Law kMaxMergeDepth base overlay result) ∧
    (Shallow kMaxMergeDepth overlay → EveryResources TextNames base → EveryResources TextNames overlay →
      ∃ result, merge [(first, base), (second, overlay)] = .ok result) ∧
    (base.isObject = true → merge [(first, base), (second, .emptyObject)] = .ok base) ∧
    (base.InKeyOrder → Repeatable kMaxMergeDepth overlay →
      merge [(first, base), (second, overlay), (third, overlay)] = merge [(first, base), (second, overlay)]) := by
  rw [merge_triple, merge_pair, merge_pair]
  refine ⟨fun _ => law_of_mergeObjects, fun hshallow hbase hoverlay => ?_, fun hbase => ?_, fun horder hoverlay => ?_⟩
  · by_cases hobject : overlay.isObject = true
    · exact exists_mergeObjects hobject hshallow hbase hoverlay
    · exact ⟨overlay, mergeObjects_of_not_objects 99 fun hboth => hobject hboth.2⟩
  · rw [show kMaxMergeDepth = 99 + 1 from rfl, mergeObjects_of_objects 99 hbase rfl]
    rfl
  · cases hmerge : mergeObjects kMaxMergeDepth base overlay with
    | error what => rfl
    | ok result =>
        show mergeObjects kMaxMergeDepth result overlay = .ok result
        by_cases hobject : overlay.isObject = true
        · exact mergeObjects_twice hobject hoverlay horder hmerge
        · have hnot (json : JsonValue) : mergeObjects kMaxMergeDepth json overlay = .ok overlay :=
            mergeObjects_of_not_objects 99 fun hboth => hobject hboth.2
          rw [hnot] at hmerge ⊢
          exact hmerge

/-- Objects that both have are merged: what the overlay does not mention in them stays. -/
def ObjectsMerged (base overlay result : JsonValue) : Prop :=
  ∀ key old value, base.get? key = some old → overlay.get? key = some value → old.isObject = true →
    value.isObject = true → ∃ new, result.get? key = some new ∧
      ∀ inner, value.get? inner = none → new.get? inner = old.get? inner

/-- Objects under the key of a list of filters are not merged. -/
theorem not_objectsMerged_filters :
    ¬ ∀ first second base overlay result, merge [(first, base), (second, overlay)] = .ok result →
      ObjectsMerged base overlay result := by
  intro hall
  let filtersOf (inner : Bytes) : JsonValue := .object [(ascii "filters", .object [(inner, .integer 1)])]
  have hmerge : merge [(ascii "base", filtersOf (ascii "a")), (ascii "overlay", filtersOf (ascii "b"))] =
      .ok (filtersOf (ascii "b")) := rfl
  obtain ⟨new, hnew, hinner⟩ := hall _ _ _ _ _ hmerge (ascii "filters") _ _ rfl rfl rfl rfl
  obtain rfl := Option.some.inj hnew
  cases hinner (ascii "a") rfl

end ConfigMerger

end GopherMcp
