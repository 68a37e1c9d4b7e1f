import GopherMcp.Buffer.Content
import GopherMcp.Lib.Occurrences

/-!
# Searching a buffer

The search goes through the slices and looks for the pattern inside each of them. It finds the first occurrence
in the text of the buffer if that one lies inside a slice, and passes over one that runs from a slice into the next.
-/

namespace GopherMcp

open Occurrences

structure BufferSearchResult where
  position : Nat
  found : Bool
  deriving DecidableEq

namespace SliceDeque

/-- The inner loop: the places of a slice at which the pattern could begin, in order. -/
def searchSlice (pattern : Bytes) (slice : Slice) (offset : Nat) : Option Nat :=
  (List.range' offset (slice.reservable + 1 - pattern.length - offset)).find? fun i =>
    (slice.data.drop i).take pattern.length = pattern

def searchSlices (pattern : Bytes) (startPosition : Nat) : Nat → List Slice → BufferSearchResult
  | _, [] => ⟨0, false⟩
  | position, slice :: rest =>
      if position + slice.reservable ≤ startPosition then
        searchSlices pattern startPosition (position + slice.reservable) rest
      else
        let offset := if position < startPosition then startPosition - position else 0
        match searchSlice pattern slice offset with
        | some i => ⟨position + i, true⟩
        | none => searchSlices pattern startPosition (position + slice.reservable) rest

def search (d : SliceDeque) (pattern : Bytes) (startPosition : Nat) : BufferSearchResult :=
  if pattern.length = 0 then ⟨startPosition, true⟩ else searchSlices pattern startPosition 0 d.slices

/-! ### What is promised -/

/-- The first occurrence in the text is found, or there is none. -/
inductive Answers (text pattern : Bytes) (startPosition : Nat) : BufferSearchResult → Prop
  | found {place : Nat} (h : IsFirst pattern text startPosition place) :
      Answers text pattern startPosition ⟨place, true⟩
  | nowhere (h : ∀ place, startPosition ≤ place → ¬ OccursAt pattern text place) :
      Answers text pattern startPosition ⟨0, false⟩

/-- Two buffers give the same answer, and it is right for the text of the first. -/
def SearchesAlike (d other : SliceDeque) (pattern : Bytes) (startPosition : Nat) : Prop :=
  d.search pattern startPosition = other.search pattern startPosition ∧
    Answers d.toString pattern startPosition (d.search pattern startPosition)

/-- The first occurrence in the text does not run over the end of a slice. -/
def FirstInside (d : SliceDeque) (pattern : Bytes) (startPosition : Nat) : Prop :=
  ∀ place, IsFirst pattern d.toString startPosition place → Inside pattern (d.slices.map Slice.data) place

theorem Answers.unique {text pattern : Bytes} {startPosition : Nat} {one other : BufferSearchResult}
    (h : Answers text pattern startPosition one) (h' : Answers text pattern startPosition other) : one = other := by
  cases h with
  | found hfirst =>
      cases h' with
      | found hfirst' => rw [hfirst.unique hfirst']
      | nowhere hnone => exact absurd hfirst.occurs (hnone _ hfirst.start_le)
  | nowhere hnone =>
      cases h' with
      | found hfirst => exact absurd hfirst.occurs (hnone _ hfirst.start_le)
      | nowhere => rfl

/-! ### The slices -/

variable {pattern : Bytes} {startPosition : Nat}

/-- Where a pattern occurs in a slice, the inner loop comes by. -/
theorem lt_places {slice : Slice} {place : Nat} (hpattern : pattern ≠ []) (howned : slice.Owned) (offset : Nat)
    (h : OccursAt pattern slice.data place) :
    place < offset + (slice.reservable + 1 - pattern.length - offset) := by
  have hroom := h.le_length hpattern
  rw [howned.length_data] at hroom
  omega

theorem searchSlice_eq_some {slice : Slice} {offset i : Nat} (h : searchSlice pattern slice offset = some i) :
    IsFirst pattern slice.data offset i := by
  obtain ⟨hoccurs, hplace, hbefore⟩ := List.find?_range'_eq_some.mp h
  rw [List.mem_range'_1] at hplace
  refine ⟨occursAt_iff.mpr (by simpa using hoccurs), hplace.1, fun other hother hoccurs' => ?_⟩
  by_contra hearlier
  have hnot := hbefore other hother (Nat.lt_of_not_le hearlier)
  rw [Bool.not_eq_true', decide_eq_false_iff_not] at hnot
  exact hnot (occursAt_iff.mp hoccurs')

theorem searchSlice_eq_none {slice : Slice} {offset : Nat} (hpattern : pattern ≠ []) (howned : slice.Owned)
    (h : searchSlice pattern slice offset = none) (other : Nat) (hother : offset ≤ other) :
    ¬ OccursAt pattern slice.data other := by
  intro hoccurs
  have hnot := List.find?_range'_eq_none.mp h other hother (lt_places hpattern howned offset hoccurs)
  rw [Bool.not_eq_true', decide_eq_false_iff_not] at hnot
  exact hnot (occursAt_iff.mp hoccurs)

/-- What the search finds is the first of the occurrences that lie inside a slice. -/
def FindsInside (pieces : List Bytes) (pattern : Bytes) (position startPosition : Nat) : BufferSearchResult → Prop
  | ⟨found, true⟩ =>
      ∃ place, found = position + place ∧ startPosition ≤ found ∧ Inside pattern pieces place ∧
        ∀ other, startPosition ≤ position + other → Inside pattern pieces other → place ≤ other
  | ⟨found, false⟩ =>
      found = 0 ∧ ∀ other, startPosition ≤ position + other → ¬ Inside pattern pieces other

/-- A slice that the pattern does not occur in is passed over. -/
theorem FindsInside.pass {piece : Bytes} {pieces : List Bytes} {position : Nat} {result : BufferSearchResult}
    (h : FindsInside pieces pattern (position + piece.length) startPosition result)
    (hnone : ∀ other, startPosition ≤ position + other → ¬ OccursAt pattern piece other) :
    FindsInside (piece :: pieces) pattern position startPosition result := by
  have hlater {other : Nat} (hother : startPosition ≤ position + other)
      (hinside : Inside pattern (piece :: pieces) other) :
      piece.length ≤ other ∧ Inside pattern pieces (other - piece.length) :=
    hinside.resolve_left (hnone other hother)
  obtain ⟨found, isFound⟩ := result
  cases isFound with
  | true =>
      obtain ⟨place, rfl, hstart, hinside, hleast⟩ := h
      refine ⟨piece.length + place, Nat.add_assoc _ _ _, hstart, .inr ⟨Nat.le_add_right _ _, ?_⟩, ?_⟩
      · rwa [Nat.add_sub_cancel_left]
      · intro other hother hinside'
        obtain ⟨hbehind, hrest⟩ := hlater hother hinside'
        have hle := hleast (other - piece.length) (by omega) hrest
        omega
  | false =>
      refine ⟨h.1, fun other hother hinside => ?_⟩
      obtain ⟨hbehind, hrest⟩ := hlater hother hinside
      exact h.2 (other - piece.length) (by omega) hrest

theorem findsInside_searchSlices (hpattern : pattern ≠ []) (slices : List Slice)
    (howned : ∀ slice ∈ slices, slice.Owned) (position : Nat) :
    FindsInside (slices.map Slice.data) pattern position startPosition
      (searchSlices pattern startPosition position slices) := by
  induction slices generalizing position with
  | nil => exact ⟨rfl, fun other _ h => h⟩
  | cons slice rest ih =>
      obtain ⟨hslice, hrest⟩ := List.forall_mem_cons.mp howned
      have hlength := hslice.length_data
      have hpass := @FindsInside.pass pattern startPosition slice.data (rest.map Slice.data) position
        (searchSlices pattern startPosition (position + slice.reservable) rest) (by rw [hlength]; exact ih hrest _)
      rw [List.map_cons, searchSlices]
      by_cases hbefore : position + slice.reservable ≤ startPosition
      · rw [if_pos hbefore]
        apply hpass
        intro other hother hoccurs
        have hroom := hoccurs.le_length hpattern
        have hpos := List.length_pos_iff.mpr hpattern
        omega
      · rw [if_neg hbefore]
        simp only
        generalize hoffset : (if position < startPosition then startPosition - position else 0) = offset
        have hfrom (other : Nat) : offset ≤ other ↔ startPosition ≤ position + other := by
          rw [← hoffset]
          split_ifs <;> omega
        cases hfind : searchSlice pattern slice offset with
        | none =>
            apply hpass
            exact fun other hother => searchSlice_eq_none hpattern hslice hfind other ((hfrom other).mpr hother)
        | some i =>
            have hfirst := searchSlice_eq_some hfind
            refine ⟨i, rfl, (hfrom i).mp hfirst.start_le, .inl hfirst.occurs, fun other hother hinside => ?_⟩
            obtain hhere | ⟨hbehind, -⟩ := hinside
            · exact hfirst.least other ((hfrom other).mpr hother) hhere
            · have hroom := hfirst.occurs.le_length hpattern
              omega

/-! ### The search -/

/-- **Where the search is right**: exactly where the first occurrence does not run over the end of a slice. -/
theorem answers_search_iff {d : SliceDeque} (howned : ∀ slice ∈ d.slices, slice.Owned) (hpattern : pattern ≠ []) :
    Answers d.toString pattern startPosition (d.search pattern startPosition) ↔
      d.FirstInside pattern startPosition := by
  have htext : (d.slices.map Slice.data).flatten = d.toString := (List.flatMap_def ..).symm
  have hsome : pattern.length ≠ 0 := fun hnone => hpattern (List.length_eq_zero_iff.mp hnone)
  have hfinds := @findsInside_searchSlices pattern startPosition hpattern d.slices howned 0
  rw [search, if_neg hsome]
  constructor
  · intro hanswers place hplace
    have hsame := hanswers.unique (.found hplace)
    rw [hsame] at hfinds
    obtain ⟨inner, heq, -, hinside, -⟩ := hfinds
    rw [heq, Nat.zero_add]
    exact hinside
  · intro hfirst
    unfold FirstInside at hfirst
    rw [← htext] at hfirst ⊢
    generalize searchSlices pattern startPosition 0 d.slices = result at hfinds
    obtain ⟨found, isFound⟩ := result
    cases isFound with
    | true =>
        obtain ⟨place, rfl, hstart, hinside, hleast⟩ := hfinds
        simp only [Nat.zero_add] at hstart hleast ⊢
        exact .found (isFirst_of_inside hpattern hfirst hstart hinside hleast)
    | false =>
        obtain ⟨rfl, hnone⟩ := hfinds
        refine .nowhere fun place hstart hoccurs => ?_
        obtain ⟨first, hisFirst⟩ := exists_isFirst hstart hoccurs
        exact hnone first ((Nat.zero_add first).symm ▸ hisFirst.start_le) (hfirst first hisFirst)

/-- **The layout does not matter** to a search just if in neither layout the first occurrence runs over the end of a
slice. -/
theorem searchesAlike_iff {d other : SliceDeque} (howned : ∀ slice ∈ d.slices, slice.Owned)
    (howned' : ∀ slice ∈ other.slices, slice.Owned) (htext : d.toString = other.toString) (hpattern : pattern ≠ [])
    (startPosition : Nat) :
    SearchesAlike d other pattern startPosition ↔
      d.FirstInside pattern startPosition ∧ other.FirstInside pattern startPosition := by
  rw [← answers_search_iff howned hpattern, ← answers_search_iff howned' hpattern, ← htext]
  constructor
  · intro halike
    refine ⟨halike.2, ?_⟩
    rw [← halike.1]
    exact halike.2
  · exact fun hboth => ⟨hboth.1.unique hboth.2, hboth.1⟩

/-- A text in one fragment, and in two. -/
def inOne : SliceDeque := empty.addBufferFragment (2 * ·) (ascii "abc")

def inTwo : SliceDeque :=
  (empty.addBufferFragment (2 * ·) (ascii "ab")).addBufferFragment (2 * ·) (ascii "c")

theorem owned_inOne : ∀ slice ∈ inOne.slices, slice.Owned := by
  have hslices : inOne.slices = [Slice.ofFragment (ascii "abc")] := rfl
  rw [hslices, List.forall_mem_singleton]
  exact Slice.owned_ofFragment _

theorem owned_inTwo : ∀ slice ∈ inTwo.slices, slice.Owned := by
  have hslices : inTwo.slices = [Slice.ofFragment (ascii "ab"), Slice.ofFragment (ascii "c")] := rfl
  rw [hslices, List.forall_mem_cons, List.forall_mem_singleton]
  exact ⟨Slice.owned_ofFragment _, Slice.owned_ofFragment _⟩

theorem searchesAlike_iff_ab :
    SearchesAlike inOne inTwo (ascii "ab") 0 ↔
      inOne.FirstInside (ascii "ab") 0 ∧ inTwo.FirstInside (ascii "ab") 0 :=
  searchesAlike_iff owned_inOne owned_inTwo (by decide) (by decide) 0

/-- The pattern runs from the one fragment into the other. -/
theorem not_searchesAlike_bc : ¬ SearchesAlike inOne inTwo (ascii "bc") 0 := by
  intro halike
  exact absurd halike.1 (by decide)

end SliceDeque

end GopherMcp
