import Mathlib.Data.List.DropRight
import Mathlib.Tactic.SplitIfs

/-!
# Delimited words

Words that stand between separators, and words with padding around them. A word that begins and ends with a
letter that is no padding is found again by trimming, and words that have no separator inside are found again by
splitting. What is said of the words may so be said of what is found.
-/

namespace Delimited

variable {α : Type}

/-! ### Padding -/

def trim (pad : α → Bool) (word : List α) : List α := (word.dropWhile pad).rdropWhile pad

/-- The word with nothing but padding on both sides. -/
def Padded (pad : α → Bool) (core word : List α) : Prop :=
  ∃ left right, (∀ c ∈ left, pad c) ∧ (∀ c ∈ right, pad c) ∧ word = left ++ core ++ right

/-- Neither the first letter nor the last is padding. -/
def Bare (pad : α → Bool) (core : List α) : Prop :=
  (∀ c ∈ core.head?, pad c = false) ∧ ∀ c ∈ core.getLast?, pad c = false

theorem bare_nil (pad : α → Bool) : Bare pad [] := by
  constructor <;> simp

theorem bare_of_forall {pad : α → Bool} {core : List α} (h : ∀ c ∈ core, pad c = false) : Bare pad core := by
  constructor
  · intro c hc
    exact h c (List.mem_of_mem_head? hc)
  · intro c hc
    exact h c (List.mem_of_mem_getLast? hc)

theorem padded_trim (pad : α → Bool) (word : List α) : Padded pad (trim pad word) word := by
  refine ⟨word.takeWhile pad, (word.dropWhile pad).rtakeWhile pad, ?_, ?_, ?_⟩
  · intro c hc
    exact List.mem_takeWhile_imp hc
  · intro c hc
    exact List.mem_rtakeWhile_imp hc
  · rw [trim, List.append_assoc, List.rdropWhile_append_rtakeWhile, List.takeWhile_append_dropWhile]

theorem rdropWhile_of_last {pad : α → Bool} {core : List α} (h : ∀ c ∈ core.getLast?, pad c = false) :
    core.rdropWhile pad = core := by
  rw [List.rdropWhile_eq_self_iff]
  intro hne
  rw [h (core.getLast hne) (List.getLast?_eq_some_getLast hne)]
  exact Bool.false_ne_true

theorem rdropWhile_append {pad : α → Bool} (core : List α) {right : List α} (h : ∀ c ∈ right, pad c) :
    (core ++ right).rdropWhile pad = core.rdropWhile pad := by
  induction right using List.reverseRecOn with
  | nil => rw [List.append_nil]
  | append_singleton rest last ih =>
      rw [← List.append_assoc, List.rdropWhile_concat_pos]
      · exact ih fun c hc => h c (List.mem_append_left _ hc)
      · exact h last (List.mem_append_right _ List.mem_cons_self)

/-- Trimming finds what the padding is around. -/
theorem trim_of_padded {pad : α → Bool} {core word : List α} (hbare : Bare pad core) (h : Padded pad core word) :
    trim pad word = core := by
  obtain ⟨left, right, hleft, hright, rfl⟩ := h
  rw [trim, List.append_assoc, List.dropWhile_append_of_pos hleft]
  cases core with
  | nil =>
      rw [List.nil_append, List.dropWhile_eq_nil_iff.mpr fun c hc => hright c hc]
      rfl
  | cons first rest =>
      have hfirst : pad first = false := hbare.1 first rfl
      rw [List.cons_append, List.dropWhile_cons_of_neg (Bool.eq_false_iff.mp hfirst), ← List.cons_append,
        rdropWhile_append _ hright, rdropWhile_of_last hbare.2]

theorem exists_padded_iff {pad : α → Bool} {P : List α → Prop} (hbare : ∀ core, P core → Bare pad core)
    {word : List α} : (∃ core, Padded pad core word ∧ P core) ↔ P (trim pad word) := by
  constructor
  · rintro ⟨core, hpadded, hcore⟩
    rw [trim_of_padded (hbare core hcore) hpadded]
    exact hcore
  · intro hcore
    exact ⟨trim pad word, padded_trim pad word, hcore⟩

theorem Padded.mem {pad : α → Bool} {core word : List α} (h : Padded pad core word) {c : α} (hc : c ∈ word) :
    pad c ∨ c ∈ core := by
  obtain ⟨left, right, hleft, hright, rfl⟩ := h
  rw [List.mem_append, List.mem_append] at hc
  obtain (hin | hin) | hin := hc
  · exact Or.inl (hleft c hin)
  · exact Or.inr hin
  · exact Or.inl (hright c hin)

/-! ### Separators -/

theorem mem_intercalate {separator c : α} {words : List (List α)} (h : c ∈ [separator].intercalate words) :
    c = separator ∨ ∃ word ∈ words, c ∈ word := by
  induction words with
  | nil => exact absurd h List.not_mem_nil
  | cons first rest ih =>
      by_cases hrest : rest = []
      · rw [hrest, List.intercalate_singleton] at h
        exact Or.inr ⟨first, List.mem_cons_self, h⟩
      · rw [List.intercalate_cons_of_ne_nil hrest, List.mem_append, List.mem_append, List.mem_singleton] at h
        obtain (hin | hseparator) | hin := h
        · exact Or.inr ⟨first, List.mem_cons_self, hin⟩
        · exact Or.inl hseparator
        · cases ih hin with
          | inl hseparator => exact Or.inl hseparator
          | inr hfound =>
              obtain ⟨word, hword, hc⟩ := hfound
              exact Or.inr ⟨word, List.mem_cons_of_mem _ hword, hc⟩

section Separators

variable [DecidableEq α]

/-- What is between the separators. -/
theorem exists_intercalate_iff {separator : α} {P : List (List α) → Prop}
    (hne : ∀ words, P words → words ≠ []) (hfree : ∀ words, P words → ∀ word ∈ words, separator ∉ word)
    {word : List α} :
    (∃ words, word = [separator].intercalate words ∧ P words) ↔ P (word.splitOn separator) := by
  constructor
  · rintro ⟨words, rfl, hwords⟩
    rw [List.splitOn_intercalate separator (hfree words hwords) (hne words hwords)]
    exact hwords
  · intro hwords
    exact ⟨word.splitOn separator, (List.intercalate_splitOn separator).symm, hwords⟩

/-- What is before the first separator and what is after it. -/
def cut (word : List α) (separator : α) : Option (List α × List α) :=
  if word.contains separator then
    some (word.takeWhile (· ≠ separator), (word.dropWhile (· ≠ separator)).drop 1)
  else none

theorem cut_of_not_mem {separator : α} {word : List α} (h : separator ∉ word) : cut word separator = none := by
  rw [cut, if_neg]
  rw [List.contains_iff_mem]
  exact h

theorem cut_append {separator : α} {before : List α} (h : separator ∉ before) (after : List α) :
    cut (before ++ separator :: after) separator = some (before, after) := by
  have hbefore : ∀ c ∈ before, decide (c ≠ separator) = true := by
    intro c hc
    rw [decide_eq_true_eq]
    rintro rfl
    exact h hc
  rw [cut, if_pos, List.takeWhile_append_of_pos hbefore, List.dropWhile_append_of_pos hbefore,
    List.takeWhile_cons_of_neg (by simp), List.dropWhile_cons_of_neg (by simp), List.append_nil]
  · rfl
  · rw [List.contains_iff_mem]
    exact List.mem_append_right _ List.mem_cons_self

theorem cut_eq_some_iff {separator : α} {word before after : List α} :
    cut word separator = some (before, after) ↔ word = before ++ separator :: after ∧ separator ∉ before := by
  constructor
  · intro hcut
    by_cases hmem : separator ∈ word
    · obtain ⟨first, rest, rfl, hfirst⟩ := List.eq_append_cons_of_mem hmem
      rw [cut_append hfirst, Option.some.injEq, Prod.mk.injEq] at hcut
      obtain ⟨rfl, rfl⟩ := hcut
      exact ⟨rfl, hfirst⟩
    · rw [cut_of_not_mem hmem] at hcut
      cases hcut
  · rintro ⟨rfl, hbefore⟩
    exact cut_append hbefore after

theorem cut_eq_none_iff {separator : α} {word : List α} : cut word separator = none ↔ separator ∉ word := by
  constructor
  · intro hcut hmem
    obtain ⟨first, rest, rfl, hfirst⟩ := List.eq_append_cons_of_mem hmem
    rw [cut_append hfirst] at hcut
    cases hcut
  · exact cut_of_not_mem

/-- What is before the last separator and what is after it. -/
def cutLast (word : List α) (separator : α) : Option (List α × List α) :=
  (cut word.reverse separator).map fun parts => (parts.2.reverse, parts.1.reverse)

theorem cutLast_append {separator : α} {after : List α} (h : separator ∉ after) (before : List α) :
    cutLast (before ++ separator :: after) separator = some (before, after) := by
  have hreverse : (before ++ separator :: after).reverse = after.reverse ++ separator :: before.reverse := by simp
  rw [cutLast, hreverse, cut_append (by simpa using h), Option.map_some, List.reverse_reverse, List.reverse_reverse]

end Separators

end Delimited
