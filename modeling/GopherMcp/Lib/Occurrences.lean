import Mathlib.Data.List.Basic
import Mathlib.Data.List.Infix
import Mathlib.Data.Nat.Find

/-!
# Occurrences of a word in a text

A text may be laid out in pieces. A search that goes through the pieces one by one meets the occurrences that lie
inside one of them, and finds the first of these. It is the first of all just if that one lies inside a piece.
-/

namespace Occurrences

variable {α : Type} {word text before after : List α}

def OccursAt (word text : List α) (place : Nat) : Prop := word <+: text.drop place

/-- The first occurrence that begins at a place or behind it. -/
structure IsFirst (word text : List α) (start place : Nat) : Prop where
  occurs : OccursAt word text place
  start_le : start ≤ place
  least : ∀ other, start ≤ other → OccursAt word text other → place ≤ other

theorem IsFirst.unique {start one other : Nat} (h : IsFirst word text start one)
    (h' : IsFirst word text start other) : one = other :=
  Nat.le_antisymm (h.least other h'.start_le h'.occurs) (h'.least one h.start_le h.occurs)

theorem exists_isFirst {start place : Nat} (hstart : start ≤ place) (h : OccursAt word text place) :
    ∃ first, IsFirst word text start first := by
  classical
  have hsome : ∃ place, start ≤ place ∧ OccursAt word text place := ⟨place, hstart, h⟩
  refine ⟨Nat.find hsome, (Nat.find_spec hsome).2, (Nat.find_spec hsome).1, ?_⟩
  exact fun other hother hoccurs => Nat.find_min' hsome ⟨hother, hoccurs⟩

theorem occursAt_iff {place : Nat} : OccursAt word text place ↔ (text.drop place).take word.length = word := by
  rw [OccursAt, List.prefix_iff_eq_take]
  exact eq_comm

theorem OccursAt.le_length {place : Nat} (h : OccursAt word text place) (hword : word ≠ []) :
    place + word.length ≤ text.length := by
  have hlength := h.length_le
  have hpos := List.length_pos_iff.mpr hword
  rw [List.length_drop] at hlength
  omega

/-- A place in the front, as far as the word would reach. -/
theorem occursAt_append_left {place : Nat} (h : place + word.length ≤ before.length) :
    OccursAt word (before ++ after) place ↔ OccursAt word before place := by
  rw [occursAt_iff, occursAt_iff, List.drop_append_of_le_length (by omega),
    List.take_append_of_le_length (by rw [List.length_drop]; omega)]

/-- A place behind the front. -/
theorem occursAt_append_right {place : Nat} (h : before.length ≤ place) :
    OccursAt word (before ++ after) place ↔ OccursAt word after (place - before.length) := by
  rw [OccursAt, OccursAt, List.drop_append, List.drop_of_length_le h, List.nil_append]

/-- An occurrence that lies inside one of the pieces. -/
def Inside (word : List α) : List (List α) → Nat → Prop
  | [], _ => False
  | piece :: pieces, place =>
      OccursAt word piece place ∨ piece.length ≤ place ∧ Inside word pieces (place - piece.length)

theorem Inside.occursAt {pieces : List (List α)} {place : Nat} (hword : word ≠ []) (h : Inside word pieces place) :
    OccursAt word pieces.flatten place := by
  induction pieces generalizing place with
  | nil => cases h
  | cons piece pieces ih =>
      obtain hhere | ⟨hbehind, hlater⟩ := h
      · exact (occursAt_append_left (hhere.le_length hword)).mpr hhere
      · exact (occursAt_append_right hbehind).mpr (ih hlater)

/-- The first occurrence that lies inside a piece, from a place on, is the first of all, if that lies inside one. -/
theorem isFirst_of_inside {pieces : List (List α)} {start place : Nat} (hword : word ≠ [])
    (hinside : ∀ first, IsFirst word pieces.flatten start first → Inside word pieces first)
    (hstart : start ≤ place) (h : Inside word pieces place)
    (hleast : ∀ other, start ≤ other → Inside word pieces other → place ≤ other) :
    IsFirst word pieces.flatten start place := by
  obtain ⟨first, hfirst⟩ := exists_isFirst hstart (h.occursAt hword)
  have hle := hleast first hfirst.start_le (hinside first hfirst)
  have hsame : first = place := Nat.le_antisymm (hfirst.least place hstart (h.occursAt hword)) hle
  exact hsame ▸ hfirst

end Occurrences
