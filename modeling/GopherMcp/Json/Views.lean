import GopherMcp.Json.Paths

/-!
# Views into a document

Indexing a `JsonValue` gives a view: a value that refers to a node of the document it was taken from, and
that has a value of its own beside it, null at first, which its owner keeps between two uses. Reading through
a view reads the node. Setting and erasing a member write to the view's own value; only at the root, which
refers to nothing, is that the document. Indexing goes through the library underneath, whose `operator[]`
puts a null where nothing is.
-/

namespace GopherMcp

/-- A document and the views onto it: what each of them has of its own, nothing or the members of an
object. -/
structure JsonViews where
  document : JsonValue
  kept : List PathStep → Option (List (Bytes × JsonValue))

namespace JsonViews

open JsonValue

/-- Nothing is there, and an index would put something there. -/
def absent : JsonValue → PathStep → Bool
  | .object fields, .key key => (OrdMap.findEntry key fields).isNone
  | .array items, .index index => items.length ≤ index
  | _, _ => false

/-- The node with nulls put where the index leads. -/
def filled : JsonValue → PathStep → JsonValue
  | .object fields, .key key => .object (OrdMap.insertEntry key .null fields)
  | .array items, .index index => .array (items ++ List.replicate (index + 1 - items.length) .null)
  | json, _ => json

/-- Only an object has members, and only an array elements. -/
def indexable : JsonValue → PathStep → Bool
  | .object _, .key _ => true
  | .array _, .index _ => true
  | _, _ => false

/-- A view that is taken again loses the views taken from it. -/
def clearBelow (kept : List PathStep → Option (List (Bytes × JsonValue))) (path : List PathStep) :
    List PathStep → Option (List (Bytes × JsonValue)) :=
  fun other => if path.isPrefixOf other && other != path then none else kept other

/-- The node at a path is indexed; none where that throws. -/
def indexNode (s : JsonViews) (path : List PathStep) (step : PathStep) : Option JsonViews :=
  match s.document.at? path with
  | none => none
  | some node =>
      if indexable node step then
        some
          { document := if absent node step then s.document.update (filled · step) path else s.document
            kept := clearBelow s.kept (path ++ [step]) }
      else none

/-- `operator[]` on a const value. -/
def indexConst (s : JsonViews) (path : List PathStep) (step : PathStep) : Option JsonViews :=
  s.indexNode path step

/-- `operator[]`: a null becomes an object first where a key is asked for. -/
def index (s : JsonViews) (path : List PathStep) (step : PathStep) : Option JsonViews :=
  match s.document.at? path, step with
  | some .null, .key _ => { s with document := s.document.update (fun _ => emptyObject) path }.indexNode path step
  | _, _ => s.indexNode path step

/-- The view at a path, taken step by step. -/
def view (s : JsonViews) (done : List PathStep) : List PathStep → Option JsonViews
  | [] => some s
  | step :: rest => (s.index done step).bind fun s => s.view (done ++ [step]) rest

/-- `set` on the view at a path: `impl_->json_[key]`, the document at the root and elsewhere what the view has
of its own, which starts anew where the node is null. -/
def set (s : JsonViews) (path : List PathStep) (key : Bytes) (value : JsonValue) : Option JsonViews :=
  match s.document.at? path with
  | some (.object _) =>
      if path.isEmpty then some { s with document := s.document.set key value }
      else
        let own := OrdMap.insertEntry key value ((s.kept path).getD [])
        some { s with kept := Function.update s.kept path (some own) }
  | some .null =>
      if path.isEmpty then some { s with document := s.document.set key value }
      else some { s with kept := Function.update s.kept path (some [(key, value)]) }
  | _ => none

/-- `erase` on the view at a path: `impl_->json_.erase(key)`, which throws on a null. -/
def erase (s : JsonViews) (path : List PathStep) (key : Bytes) : Option JsonViews :=
  match s.document.at? path with
  | some (.object _) =>
      if path.isEmpty then some { s with document := s.document.erase key }
      else
        (s.kept path).map fun own =>
          { s with kept := Function.update s.kept path (some (own.filter fun field => field.1 ≠ key)) }
  | _ => none

/-- `d[k1]...[kn].set(key, value)`. -/
def setAt (s : JsonViews) (path : List PathStep) (key : Bytes) (value : JsonValue) : Option JsonViews :=
  (s.view [] path).bind fun s => s.set path key value

/-- `d[k1]...[kn].erase(key)`. -/
def eraseAt (s : JsonViews) (path : List PathStep) (key : Bytes) : Option JsonViews :=
  (s.view [] path).bind fun s => s.erase path key

/-- The document after a read through a const value; a read that throws has changed nothing. -/
def documentAfterRead (s : JsonViews) (path : List PathStep) (step : PathStep) : JsonValue :=
  ((s.indexConst path step).map document).getD s.document

/-! ### Taking views -/

variable {s : JsonViews} {path : List PathStep} {step : PathStep} {node child : JsonValue}

theorem indexable_of_child? (h : node.child? step = some child) :
    indexable node step = true ∧ absent node step = false := by
  cases node with
  | object fields =>
      cases step with
      | key key =>
          have hfind : OrdMap.findEntry key fields = some child := h
          refine ⟨rfl, ?_⟩
          show (OrdMap.findEntry key fields).isNone = false
          rw [hfind]
          rfl
      | index index => cases h
  | array items =>
      cases step with
      | key key => cases h
      | index index => exact ⟨rfl, decide_eq_false (Nat.not_le.mpr (List.getElem?_eq_some_iff.mp h).1)⟩
  | _ => cases h

/-- Indexing what is there takes a view and changes nothing else. -/
theorem index_of_child? (hnode : s.document.at? path = some node) (hchild : node.child? step = some child) :
    s.index path step = some { s with kept := clearBelow s.kept (path ++ [step]) } := by
  obtain ⟨hindexable, habsent⟩ := indexable_of_child? hchild
  have hindex : s.index path step = s.indexNode path step := by
    unfold index
    split
    case h_1 hnull =>
      rw [hnode] at hnull
      obtain rfl := Option.some.inj hnull
      cases hchild
    case h_2 => rfl
  rw [hindex]
  unfold indexNode
  rw [hnode]
  dsimp only
  rw [if_pos hindexable, habsent]
  rfl

/-- What the views keep when a path is followed. -/
def clearAlong (kept : List PathStep → Option (List (Bytes × JsonValue))) (done : List PathStep) :
    List PathStep → List PathStep → Option (List (Bytes × JsonValue))
  | [] => kept
  | step :: rest => clearAlong (clearBelow kept (done ++ [step])) (done ++ [step]) rest

/-- Following a path that is there takes views and changes nothing else. -/
theorem view_of_at? {done rest : List PathStep} {value : JsonValue}
    (h : s.document.at? (done ++ rest) = some value) :
    s.view done rest = some { s with kept := clearAlong s.kept done rest } := by
  induction rest generalizing s done with
  | nil => rfl
  | cons step rest ih =>
      have hsplit := h
      rw [at?_append] at hsplit
      obtain ⟨node, hnode, hrest⟩ := Option.bind_eq_some_iff.mp hsplit
      obtain ⟨child, hchild, _⟩ := Option.bind_eq_some_iff.mp hrest
      unfold view
      rw [index_of_child? hnode hchild]
      rw [List.append_cons] at h
      exact ih h

theorem clearAlong_none {kept : List PathStep → Option (List (Bytes × JsonValue))} {other : List PathStep}
    (h : kept other = none) (done rest : List PathStep) : clearAlong kept done rest other = none := by
  induction rest generalizing kept done with
  | nil => exact h
  | cons step rest ih =>
      apply ih
      unfold clearBelow
      rw [h, ite_self]

/-- A view that was taken from a view is a new one. -/
theorem clearAlong_deep (kept : List PathStep → Option (List (Bytes × JsonValue)))
    (done : List PathStep) (step next : PathStep) (rest : List PathStep) :
    clearAlong kept done (step :: next :: rest) (done ++ step :: next :: rest) = none := by
  show clearAlong (clearBelow kept (done ++ [step])) (done ++ [step]) (next :: rest) _ = none
  have hbelow : done ++ [step] <+: done ++ step :: next :: rest := ⟨next :: rest, List.append_assoc ..⟩
  have hne : done ++ step :: next :: rest ≠ done ++ [step] := by
    intro heq
    have hlength := congrArg List.length (List.append_cancel_left heq)
    rw [List.length_cons, List.length_cons, List.length_singleton] at hlength
    omega
  apply clearAlong_none
  unfold clearBelow
  rw [if_pos]
  rw [Bool.and_eq_true]
  exact ⟨List.isPrefixOf_iff_prefix.mpr hbelow, bne_iff_ne.mpr hne⟩

/-- One that was taken from the document may have been used before. -/
theorem clearAlong_one (kept : List PathStep → Option (List (Bytes × JsonValue))) (step : PathStep) :
    clearAlong kept [] [step] [step] = kept [step] := by
  show clearBelow kept [step] [step] = _
  unfold clearBelow
  rw [if_neg (by simp)]

/-! ### Writing and reading -/

theorem setAt_eq (hnode : s.document.at? path = some node) (key : Bytes) (value : JsonValue) :
    s.setAt path key value = { s with kept := clearAlong s.kept [] path }.set path key value := by
  unfold setAt
  rw [@view_of_at? s [] path node hnode]
  rfl

theorem eraseAt_eq (hnode : s.document.at? path = some node) (key : Bytes) :
    s.eraseAt path key = { s with kept := clearAlong s.kept [] path }.erase path key := by
  unfold eraseAt
  rw [@view_of_at? s [] path node hnode]
  rfl

/-- A member is set in the document at the root only. -/
theorem document_setAt (hnode : s.document.at? path = some node) (hobject : node.isObject) (key : Bytes)
    (value : JsonValue) :
    (s.setAt path key value).map document =
      some (if path.isEmpty then s.document.set key value else s.document) := by
  rw [setAt_eq hnode]
  unfold set
  dsimp only
  rw [hnode]
  cases node with
  | object fields =>
      dsimp only
      cases path with
      | nil => rfl
      | cons step rest => rfl
  | _ => cases hobject

/-- Erased it is there only, and a view that has nothing of its own throws. -/
theorem document_eraseAt (hnode : s.document.at? path = some node) (hobject : node.isObject) (key : Bytes) :
    (s.eraseAt path key).map document =
      if path.isEmpty then some (s.document.erase key)
      else (clearAlong s.kept [] path path).map fun _ => s.document := by
  rw [eraseAt_eq hnode]
  unfold erase
  dsimp only
  rw [hnode]
  cases node with
  | object fields =>
      dsimp only
      cases path with
      | nil => rfl
      | cons step rest =>
          rw [List.isEmpty_cons, if_neg Bool.false_ne_true, if_neg Bool.false_ne_true, Option.map_map]
          rfl
  | _ => cases hobject

/-- What a view has of its own when its path is followed. -/
theorem clearAlong_ne_none_iff (kept : List PathStep → Option (List (Bytes × JsonValue)))
    {path : List PathStep} (hpath : path ≠ []) :
    clearAlong kept [] path path ≠ none ↔ path.length = 1 ∧ kept path ≠ none := by
  match path with
  | [step] =>
      rw [clearAlong_one]
      simp
  | step :: next :: rest =>
      have hdeep := clearAlong_deep kept [] step next rest
      rw [List.nil_append] at hdeep
      simp [hdeep]

theorem filled_ne_of_absent (h : absent node step = true) : filled node step ≠ node := by
  cases node with
  | object fields =>
      cases step with
      | key key =>
          intro heq
          have hget : (JsonValue.object fields).get? key = some .null := by
            rw [← heq]
            exact OrdMap.findEntry_insertEntry_self key .null fields
          have hnone : (OrdMap.findEntry key fields).isNone = true := h
          have hsome : OrdMap.findEntry key fields = some .null := hget
          rw [hsome] at hnone
          cases hnone
      | index index => cases h
  | array items =>
      cases step with
      | key key => cases h
      | index index =>
          intro heq
          have hle : items.length ≤ index := of_decide_eq_true h
          have hlength := congrArg List.length (JsonValue.array.inj heq)
          rw [List.length_append, List.length_replicate] at hlength
          omega
  | _ => cases h

/-- A read through a const value leaves the document as it is exactly if it is of something there, or throws. -/
theorem documentAfterRead_eq_iff (horder : s.document.InKeyOrder) (hnode : s.document.at? path = some node)
    (step : PathStep) : s.documentAfterRead path step = s.document ↔ absent node step = false := by
  have hwhole : s.documentAfterRead path step =
      if indexable node step && absent node step then s.document.update (filled · step) path
      else s.document := by
    unfold documentAfterRead indexConst indexNode
    rw [hnode]
    dsimp only
    cases indexable node step with
    | false => rfl
    | true =>
        cases absent node step with
        | false => rfl
        | true => rfl
  have hindexable : absent node step = true → indexable node step = true := by
    intro habsent
    cases node with
    | object fields =>
        cases step with
        | key key => rfl
        | index index => cases habsent
    | array items =>
        cases step with
        | key key => cases habsent
        | index index => rfl
    | _ => cases habsent
  rw [hwhole]
  cases habsent : absent node step with
  | false =>
      rw [Bool.and_false, if_neg Bool.false_ne_true]
      exact iff_of_true rfl rfl
  | true =>
      rw [hindexable habsent, Bool.true_and, if_pos rfl, update_eq_self_iff horder hnode]
      exact iff_of_false (filled_ne_of_absent habsent) (fun heq => Bool.noConfusion heq)

/-- **Views.** Through the view at a path a member is set as it should be exactly if the path is empty or the
member has that value already; it is erased as it should be exactly if the path is empty, or the member is not
there and the view, taken from the document itself, was written to before; and a read through a const value
leaves the document as it is exactly if it does not ask for what is not there. -/
theorem writes_through_iff (s : JsonViews) (horder : s.document.InKeyOrder) {path : List PathStep}
    {node : JsonValue} (hnode : s.document.at? path = some node) :
    (node.isObject →
      (∀ key value, (s.setAt path key value).map document =
          some (s.document.update (fun object => object.set key value) path) ↔
        path = [] ∨ node.get? key = some value) ∧
      ∀ key, (s.eraseAt path key).map document =
          some (s.document.update (fun object => object.erase key) path) ↔
        path = [] ∨ (path.length = 1 ∧ s.kept path ≠ none) ∧ node.get? key = none) ∧
    ∀ step, s.documentAfterRead path step = s.document ↔ absent node step = false := by
  refine ⟨fun hobject => ⟨fun key value => ?_, fun key => ?_⟩, documentAfterRead_eq_iff horder hnode⟩
  · rw [document_setAt hnode hobject]
    cases path with
    | nil => exact iff_of_true rfl (.inl rfl)
    | cons step rest =>
        rw [List.isEmpty_cons, if_neg Bool.false_ne_true, Option.some.injEq, eq_comm,
          update_eq_self_iff horder hnode, set_eq_self_iff (horder.at? hnode) hobject]
        exact (or_iff_right (List.cons_ne_nil _ _)).symm
  · rw [document_eraseAt hnode hobject]
    cases path with
    | nil => exact iff_of_true rfl (.inl rfl)
    | cons step rest =>
        rw [List.isEmpty_cons, if_neg Bool.false_ne_true, or_iff_right (List.cons_ne_nil _ _),
          ← clearAlong_ne_none_iff s.kept (List.cons_ne_nil _ _)]
        cases clearAlong s.kept [] (step :: rest) (step :: rest) with
        | none => simp
        | some own =>
            rw [Option.map_some, Option.some.injEq, eq_comm, update_eq_self_iff horder hnode,
              erase_eq_self_iff hobject]
            simp

/-- The member of a document with an empty object in it. -/
theorem writes_through_iff_member :
    JsonValue.InKeyOrder (.object [(ascii "a", .object [])]) ∧
      ((setAt ⟨.object [(ascii "a", .object [])], fun _ => none⟩ [.key (ascii "a")] (ascii "b") .null).map document =
          some ((JsonValue.object [(ascii "a", .object [])]).update (fun object => object.set (ascii "b") .null)
            [.key (ascii "a")]) ↔
        [PathStep.key (ascii "a")] = [] ∨ (JsonValue.object []).get? (ascii "b") = some .null) := by
  have horder : JsonValue.InKeyOrder (.object [(ascii "a", .object [])]) := by
    refine inKeyOrder_object (List.pairwise_singleton _ _) fun field hfield => ?_
    rw [List.mem_singleton.mp hfield]
    exact inKeyOrder_object List.Pairwise.nil fun _ hin => absurd hin List.not_mem_nil
  have hnode : (JsonValue.object [(ascii "a", .object [])]).at? [.key (ascii "a")] = some (.object []) := rfl
  exact ⟨horder, ((writes_through_iff ⟨_, fun _ => none⟩ horder hnode).1 rfl).1 (ascii "b") .null⟩

/-- A member that is set through a view is not in the document, and one that was only asked for is. -/
theorem not_always_written_through :
    (setAt ⟨.object [(ascii "a", .object [])], fun _ => none⟩ [.key (ascii "a")] (ascii "b") .null).map document ≠
        some ((JsonValue.object [(ascii "a", .object [])]).update (fun object => object.set (ascii "b") .null)
          [.key (ascii "a")]) ∧
      documentAfterRead ⟨.object [(ascii "a", .object [])], fun _ => none⟩ [] (.key (ascii "b")) ≠
        .object [(ascii "a", .object [])] := by
  constructor
  · intro heq
    have hmember := congrArg (Option.map fun json => (json.get (ascii "a")).contains (ascii "b")) heq
    have hbool : some false = some true := hmember
    cases hbool
  · intro heq
    have hbool : true = false := congrArg (JsonValue.contains · (ascii "b")) heq
    cases hbool

end JsonViews

end GopherMcp
