import Mathlib.Data.List.Basic
import Mathlib.Data.List.Infix

/-!
# Items of a text

Items are written as words, and a text holds them from left to right: the first word that begins anywhere in it, then
the first that begins behind that one, and so on. So a text is divided into its items, each with the literal text
before it, and a rest that holds none, and there is only one such division.
-/

namespace Substitution

/-- Words of items, and how the word a text begins with is read. -/
structure Reader (α ρ : Type) where
  Spells : ρ → List α → Prop
  read : List α → Option (ρ × List α)
  read_eq_some_iff : ∀ {text item word}, read text = some (item, word) ↔ Spells item word ∧ word <+: text
  ne_nil : ∀ {item word}, Spells item word → word ≠ []

structure Segment (α ρ : Type) where
  literal : List α
  word : List α
  item : ρ

variable {α ρ : Type} (reader : Reader α ρ)

/-- No word begins before the literal ends. -/
def Free (literal after : List α) : Prop := ∀ place < literal.length, reader.read ((literal ++ after).drop place) = none

/-- The items of a text, and what is behind the last one. -/
inductive Divides : List α → List (Segment α ρ) → List α → Prop
  | rest (text : List α) : Free reader text [] → Divides text [] text
  | segment (literal word text : List α) (item : ρ) (segments : List (Segment α ρ)) (rest : List α) :
      reader.Spells item word → Free reader literal (word ++ text) → Divides text segments rest →
      Divides (literal ++ (word ++ text)) (⟨literal, word, item⟩ :: segments) rest

/-- The first item, its word and what is before it. -/
def search : List α → Option (List α × ρ × List α)
  | [] => none
  | letter :: rest =>
      match reader.read (letter :: rest) with
      | some found => some ([], found)
      | none => (search rest).map fun found => (letter :: found.1, found.2)

variable {reader} {text literal word after rest : List α} {item : ρ} {segments : List (Segment α ρ)}

theorem read_append (h : reader.Spells item word) (after : List α) : reader.read (word ++ after) = some (item, word) :=
  reader.read_eq_some_iff.mpr ⟨h, List.prefix_append word after⟩

theorem free_cons_iff (letter : α) :
    Free reader (letter :: literal) after ↔
      reader.read (letter :: literal ++ after) = none ∧ Free reader literal after := by
  constructor
  · intro h
    exact ⟨h 0 (Nat.succ_pos _), fun place hplace => h (place + 1) (Nat.succ_lt_succ hplace)⟩
  · rintro ⟨hhere, hlater⟩ place hplace
    cases place with
    | zero => exact hhere
    | succ place => exact hlater place (Nat.lt_of_succ_lt_succ hplace)

theorem search_eq_none_iff : search reader text = none ↔ Free reader text [] := by
  induction text with
  | nil => exact iff_of_true rfl fun place hplace => absurd hplace (Nat.not_lt_zero place)
  | cons letter rest ih =>
      rw [free_cons_iff, List.append_nil, ← ih, search]
      cases hread : reader.read (letter :: rest) with
      | none => simp
      | some found => simp

theorem search_segment (hspells : reader.Spells item word) (hfree : Free reader literal (word ++ after)) :
    search reader (literal ++ (word ++ after)) = some (literal, item, word) := by
  induction literal with
  | nil =>
      obtain ⟨letter, others, hword⟩ := List.exists_cons_of_ne_nil (reader.ne_nil hspells)
      have hread := read_append hspells after
      rw [hword, List.cons_append] at hread
      rw [hword, List.nil_append, List.cons_append, search, hread]
  | cons letter others ih =>
      obtain ⟨hnone, hlater⟩ := (free_cons_iff letter).mp hfree
      rw [List.cons_append] at hnone
      rw [List.cons_append, search, hnone, ih hlater]
      rfl

theorem search_eq_some (h : search reader text = some (literal, item, word)) :
    ∃ after, text = literal ++ (word ++ after) ∧ reader.Spells item word ∧ Free reader literal (word ++ after) := by
  induction text generalizing literal with
  | nil => cases h
  | cons letter rest ih =>
      rw [search] at h
      cases hread : reader.read (letter :: rest) with
      | some found =>
          rw [hread] at h
          obtain ⟨rfl, rfl⟩ := Prod.mk.inj (Option.some.inj h)
          obtain ⟨hspells, after, hafter⟩ := reader.read_eq_some_iff.mp hread
          exact ⟨after, hafter.symm, hspells, fun place hplace => absurd hplace (Nat.not_lt_zero place)⟩
      | none =>
          rw [hread] at h
          obtain ⟨⟨before, found⟩, hfound, hparts⟩ := Option.map_eq_some_iff.mp h
          obtain ⟨rfl, rfl⟩ := Prod.mk.inj hparts
          obtain ⟨after, rfl, hspells, hfree⟩ := ih hfound
          exact ⟨after, rfl, hspells, (free_cons_iff letter).mpr ⟨hread, hfree⟩⟩

/-- Every text can be divided. -/
theorem exists_divides (reader : Reader α ρ) (text : List α) : ∃ segments rest, Divides reader text segments rest := by
  induction hlength : text.length using Nat.strongRecOn generalizing text with
  | ind length ih =>
      cases hsearch : search reader text with
      | none => exact ⟨[], text, .rest text (search_eq_none_iff.mp hsearch)⟩
      | some found =>
          obtain ⟨after, rfl, hspells, hfree⟩ := search_eq_some hsearch
          have hword := List.length_pos_iff.mpr (reader.ne_nil hspells)
          rw [List.length_append, List.length_append] at hlength
          obtain ⟨segments, rest, htail⟩ := ih after.length (by omega) after rfl
          exact ⟨_, rest, .segment found.1 found.2.2 after found.2.1 segments rest hspells hfree htail⟩

/-- A text is divided in one way. -/
theorem Divides.unique {other : List (Segment α ρ)} {last : List α} (h : Divides reader text segments rest)
    (h' : Divides reader text other last) : other = segments ∧ last = rest := by
  induction h generalizing other last with
  | rest text hfree =>
      cases h' with
      | rest => exact ⟨rfl, rfl⟩
      | segment literal word after item _ _ hspells hliteral =>
          have hsome := search_segment hspells hliteral
          rw [search_eq_none_iff.mpr hfree] at hsome
          cases hsome
  | segment literal word after item segments rest hspells hliteral htail ih =>
      have hsome := search_segment hspells hliteral
      generalize hwhole : literal ++ (word ++ after) = whole at h' hsome
      cases h' with
      | rest _ hfree =>
          rw [search_eq_none_iff.mpr hfree] at hsome
          cases hsome
      | segment literal' word' after' item' segments' _ hspells' hliteral' htail' =>
          rw [search_segment hspells' hliteral', Option.some.injEq, Prod.mk.injEq, Prod.mk.injEq] at hsome
          obtain ⟨rfl, rfl, rfl⟩ := hsome
          obtain rfl := List.append_cancel_left (List.append_cancel_left hwhole)
          obtain ⟨rfl, rfl⟩ := ih htail'
          exact ⟨rfl, rfl⟩

end Substitution
