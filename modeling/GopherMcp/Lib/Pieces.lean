import Mathlib.Data.List.Basic
import Mathlib.Tactic.SplitIfs

/-!
# Pieces

A word that is handed over in pieces, one after another. Whoever hands them over may or may not count an
empty one as a piece. What matters of a word to a reader that keeps only the newest piece is its last one.
-/

namespace Pieces

variable {α : Type}

/-- The pieces make the word, and none of them is empty unless empty ones are handed over as well. -/
def Cut (empties : Prop) (word : List α) (pieces : List (List α)) : Prop :=
  pieces.flatten = word ∧ (empties ∨ [] ∉ pieces)

/-- The piece that is handed over last. -/
def last (pieces : List (List α)) : List α := pieces.getLast?.getD []

/-- The word in one piece. -/
def whole (word : List α) : List (List α) := if word.isEmpty then [] else [word]

/-- The word cut once, after so many letters. -/
def cutAt (k : Nat) (word : List α) : List (List α) :=
  if 0 < k ∧ k < word.length then [word.take k, word.drop k] else whole word

theorem whole_of_ne_nil {word : List α} (h : word ≠ []) : whole word = [word] := by
  unfold whole
  rw [if_neg (by simpa using h)]

theorem last_whole (word : List α) : last (whole word) = word := by
  by_cases h : word = []
  · rw [h]
    rfl
  · rw [whole_of_ne_nil h]
    rfl

theorem cutAt_of_lt {k : Nat} {word : List α} (hpos : 0 < k) (h : k < word.length) :
    cutAt k word = [word.take k, word.drop k] := if_pos ⟨hpos, h⟩

theorem cutAt_of_not_lt {k : Nat} {word : List α} (h : ¬ (0 < k ∧ k < word.length)) :
    cutAt k word = whole word := if_neg h

theorem last_cutAt {k : Nat} {word : List α} (hpos : 0 < k) (h : k < word.length) :
    last (cutAt k word) = word.drop k := by
  rw [cutAt_of_lt hpos h]
  rfl

theorem cut_whole (empties : Prop) (word : List α) : Cut empties word (whole word) := by
  by_cases h : word = []
  · rw [h]
    exact ⟨rfl, .inr List.not_mem_nil⟩
  · rw [whole_of_ne_nil h]
    refine ⟨List.flatten_singleton, .inr fun hin => h ?_⟩
    exact (List.mem_singleton.mp hin).symm

theorem cut_cutAt (empties : Prop) (k : Nat) (word : List α) : Cut empties word (cutAt k word) := by
  by_cases h : 0 < k ∧ k < word.length
  · rw [cutAt_of_lt h.1 h.2]
    refine ⟨?_, .inr fun hin => ?_⟩
    · rw [List.flatten_cons, List.flatten_singleton, List.take_append_drop]
    · rw [List.mem_cons, List.mem_singleton] at hin
      have hlength := h.2
      obtain hleft | hright := hin
      · have := congrArg List.length hleft
        rw [List.length_nil, List.length_take] at this
        omega
      · have := congrArg List.length hright
        rw [List.length_nil, List.length_drop] at this
        omega
  · rw [cutAt_of_not_lt h]
    exact cut_whole empties word

/-- One more piece, which is empty. -/
theorem cut_concat_nil {empties : Prop} (h : empties) (word : List α) : Cut empties word [word, []] :=
  ⟨by rw [List.flatten_cons, List.flatten_singleton, List.append_nil], .inl h⟩

theorem ne_nil_of_cut {empties : Prop} {word : List α} {pieces : List (List α)}
    (h : Cut empties word pieces) (hword : word ≠ []) : pieces ≠ [] := by
  rintro rfl
  exact hword h.1.symm

/-- Where no piece is empty, a word of one letter is not cut. -/
theorem eq_whole_of_length_le_one {word : List α} {pieces : List (List α)} (hflat : pieces.flatten = word)
    (hfull : [] ∉ pieces) (h : word.length ≤ 1) : pieces = whole word := by
  match pieces with
  | [] =>
      subst hflat
      rfl
  | [piece] =>
      rw [List.flatten_singleton] at hflat
      subst hflat
      have hne : piece ≠ [] := fun hnil => hfull (hnil ▸ List.mem_cons_self)
      rw [whole_of_ne_nil hne]
  | first :: second :: rest =>
      have hfirst : 0 < first.length :=
        List.length_pos_of_ne_nil fun hnil => hfull (hnil ▸ List.mem_cons_self)
      have hsecond : 0 < second.length :=
        List.length_pos_of_ne_nil fun hnil => hfull (hnil ▸ List.mem_cons_of_mem _ List.mem_cons_self)
      rw [← hflat, List.flatten_cons, List.flatten_cons, List.length_append, List.length_append] at h
      omega

theorem last_ne_nil {pieces : List (List α)} (hpieces : pieces ≠ []) (hfull : [] ∉ pieces) :
    last pieces ≠ [] := by
  unfold last
  rw [List.getLast?_eq_some_getLast hpieces]
  intro hnil
  exact hfull (hnil ▸ List.getLast_mem hpieces)

end Pieces
