import GopherMcp.Lib.Delimited

/-!
# Scanning by index

Loops that read a word one index at a time. A loop has no result if it reads an index that is not there, and what
it computes otherwise is said of the letters it goes over.
-/

namespace Scanning

open Delimited

variable {α : Type}

/-! ### Conditions read one after another -/

theorem some_or_some (left right : Bool) : (some left <||> some right) = some (left || right) := by
  cases left <;> rfl

theorem some_and_some (left right : Bool) : (some left <&&> some right) = some (left && right) := by
  cases left <;> rfl

theorem some_true_or (right : Option Bool) : (some true <||> right) = some true := rfl

theorem some_false_and (right : Option Bool) : (some false <&&> right) = some false := rfl

theorem notM_some (condition : Bool) : notM (some condition) = some (!condition) := rfl

/-! ### Loops -/

/-- Whether `p` holds of so many letters from an index on, up to the first of which it does not. -/
def allFrom (p : α → Option Bool) (word : List α) : (index count : Nat) → Option Bool
  | _, 0 => some true
  | index, count + 1 => do
      let letter ← word[index]?
      if ← p letter then allFrom p word (index + 1) count else return false

/-- The first of so many indices whose letter is not passed over, or the index after them. -/
def skipFrom (p : α → Bool) (word : List α) : (index count : Nat) → Option Nat
  | index, 0 => some index
  | index, count + 1 =>
      match word[index]? with
      | none => none
      | some letter => if p letter then skipFrom p word (index + 1) count else some index

/-- From behind: the index after the last of so many letters that is not passed over. -/
def skipBack (p : α → Bool) (word : List α) (index : Nat) : (count : Nat) → Option Nat
  | 0 => some index
  | count + 1 =>
      match word[index + count]? with
      | none => none
      | some letter => if p letter then skipBack p word index count else some (index + count + 1)

/-- `substr`: a position past the end is an error. -/
def substr (word : List α) (position count : Nat) : Option (List α) :=
  if position ≤ word.length then some ((word.drop position).take count) else none

theorem allFrom_eq {p : α → Option Bool} {q : α → Bool} (hp : ∀ letter, p letter = some (q letter)) {word : List α}
    {index count : Nat} (h : index + count ≤ word.length) :
    allFrom p word index count = some (((word.drop index).take count).all q) := by
  induction count generalizing index with
  | zero => rfl
  | succ count ih =>
      have hindex : index < word.length := by omega
      have hrest : index + 1 + count ≤ word.length := by omega
      rw [allFrom, List.getElem?_eq_getElem hindex, List.drop_eq_getElem_cons hindex, List.take_succ_cons, List.all_cons]
      change ((p word[index]).bind fun b => if b then allFrom p word (index + 1) count else some false) = _
      rw [hp, ih hrest]
      cases q word[index] <;> simp

theorem allM_eq {p : α → Option Bool} {q : α → Bool} (hp : ∀ letter, p letter = some (q letter)) (word : List α) :
    word.allM p = some (word.all q) := by
  induction word with
  | nil => rfl
  | cons letter rest ih =>
      rw [List.allM, hp, ih, List.all_cons]
      cases q letter <;> rfl

theorem skipFrom_eq {p : α → Bool} {word : List α} {index count : Nat} (h : index + count ≤ word.length) :
    skipFrom p word index count = some (index + (((word.drop index).take count).takeWhile p).length) := by
  induction count generalizing index with
  | zero => rfl
  | succ count ih =>
      have hindex : index < word.length := by omega
      have hrest : index + 1 + count ≤ word.length := by omega
      rw [skipFrom, List.getElem?_eq_getElem hindex, List.drop_eq_getElem_cons hindex, List.take_succ_cons,
        List.takeWhile_cons]
      change (if p word[index] then skipFrom p word (index + 1) count else some index) = _
      rw [ih hrest]
      cases p word[index] with
      | false => rfl
      | true =>
          rw [if_pos rfl, if_pos rfl, List.length_cons]
          congr 1
          omega

theorem skipBack_eq {p : α → Bool} {word : List α} {index count : Nat} (h : index + count ≤ word.length) :
    skipBack p word index count = some (index + (((word.drop index).take count).rdropWhile p).length) := by
  induction count with
  | zero => rfl
  | succ count ih =>
      have hindex : index + count < word.length := by omega
      have hrest : index + count ≤ word.length := by omega
      have hlast : (word.drop index)[count]? = some word[index + count] := by
        rw [List.getElem?_drop, List.getElem?_eq_getElem hindex]
      rw [skipBack, List.getElem?_eq_getElem hindex, List.take_add_one, hlast, Option.toList_some, List.rdropWhile_concat]
      change (if p word[index + count] then skipBack p word index count else some (index + count + 1)) = _
      rw [ih hrest]
      cases p word[index + count] with
      | false =>
          rw [if_neg Bool.false_ne_true, if_neg Bool.false_ne_true, List.length_append, List.length_singleton,
            List.length_take, List.length_drop]
          congr 1
          omega
      | true => rw [if_pos rfl, if_pos rfl]

theorem substr_eq {word : List α} {position : Nat} (h : position ≤ word.length) (count : Nat) :
    substr word position count = some ((word.drop position).take count) := if_pos h

/-- Two loops from both ends, and what is left between them. -/
def trimmed (pad : α → Bool) (word : List α) : Option (List α) :=
  (skipFrom pad word 0 word.length).bind fun first =>
    (skipBack pad word first (word.length - first)).bind fun last => substr word first (last - first)

theorem trimmed_eq (pad : α → Bool) (word : List α) : trimmed pad word = some (trim pad word) := by
  have hdrop : word.drop (word.takeWhile pad).length = word.dropWhile pad := by
    have hleft : (word.takeWhile pad ++ word.dropWhile pad).drop (word.takeWhile pad).length = word.dropWhile pad :=
      List.drop_left
    rw [List.takeWhile_append_dropWhile] at hleft
    exact hleft
  have hlength : (word.takeWhile pad).length ≤ word.length := (List.takeWhile_prefix pad).length_le
  have hfirst : skipFrom pad word 0 word.length = some (word.takeWhile pad).length := by
    rw [skipFrom_eq (by omega), List.drop_zero, List.take_length, Nat.zero_add]
  have hlast : skipBack pad word (word.takeWhile pad).length (word.length - (word.takeWhile pad).length) =
      some ((word.takeWhile pad).length + (trim pad word).length) := by
    rw [skipBack_eq (by omega), hdrop, List.take_of_length_le, trim]
    rw [← hdrop, List.length_drop]
  rw [trimmed, hfirst]
  change (skipBack pad word _ _).bind _ = _
  rw [hlast]
  change substr word _ _ = _
  rw [substr_eq hlength, hdrop, Nat.add_sub_cancel_left]
  exact congrArg some (List.prefix_iff_eq_take.mp (List.rdropWhile_prefix pad _)).symm

/-! ### Separators -/

section Separators

variable [DecidableEq α]

/-- `find`: the first index from `start` on that has the letter. -/
def find (word : List α) (letter : α) (start : Nat) : Option Nat :=
  ((word.drop start).findIdx? (· == letter)).map (start + ·)

theorem find_of_not_mem {word : List α} {letter : α} {start : Nat} (h : letter ∉ word.drop start) :
    find word letter start = none := by
  rw [find, Option.map_eq_none_iff, List.findIdx?_eq_none_iff]
  intro c hc
  rw [beq_eq_false_iff_ne]
  rintro rfl
  exact h hc

theorem find_of_drop_eq {word before after : List α} {letter : α} {start : Nat} (h : letter ∉ before)
    (hdrop : word.drop start = before ++ letter :: after) : find word letter start = some (start + before.length) := by
  have hbefore : before.findIdx? (· == letter) = none := by
    rw [List.findIdx?_eq_none_iff]
    intro c hc
    rw [beq_eq_false_iff_ne]
    rintro rfl
    exact h hc
  rw [find, hdrop, List.findIdx?_append, hbefore, List.findIdx?_cons, beq_self_eq_true]
  simp

theorem find_lt {word : List α} {letter : α} {start index : Nat} (h : find word letter start = some index) :
    start ≤ index ∧ index < word.length := by
  by_cases hmem : letter ∈ word.drop start
  · obtain ⟨before, after, hdrop, hbefore⟩ := List.eq_append_cons_of_mem hmem
    rw [find_of_drop_eq hbefore hdrop, Option.some.injEq] at h
    have hlength := congrArg List.length hdrop
    rw [List.length_drop, List.length_append, List.length_cons] at hlength
    omega
  · rw [find_of_not_mem hmem] at h
    cases h

theorem cut_eq_find (word : List α) (separator : α) :
    cut word separator = (find word separator 0).map fun index => (word.take index, word.drop (index + 1)) := by
  by_cases hmem : separator ∈ word
  · obtain ⟨before, after, rfl, hbefore⟩ := List.eq_append_cons_of_mem hmem
    rw [cut_append hbefore, find_of_drop_eq hbefore (List.drop_zero), Nat.zero_add, Option.map_some, List.take_left,
      ← List.drop_drop, List.drop_left]
    rfl
  · rw [cut_of_not_mem hmem, find_of_not_mem (by rw [List.drop_zero]; exact hmem)]
    rfl

/-- The pieces from `start` on, one `find` after another. -/
def splitFrom (word : List α) (separator : α) (start : Nat) : Option (List (List α)) :=
  match hfind : find word separator start with
  | none => (substr word start word.length).map ([·])
  | some index =>
      (substr word start (index - start)).bind fun piece =>
        (splitFrom word separator (index + 1)).map (piece :: ·)
termination_by word.length - start
decreasing_by
  have := find_lt hfind
  omega

theorem splitFrom_eq {word : List α} {separator : α} {start : Nat} (h : start ≤ word.length) :
    splitFrom word separator start = some ((word.drop start).splitOn separator) := by
  induction start using splitFrom.induct word separator with
  | case1 start hfind =>
      have hmem : separator ∉ word.drop start := by
        intro hmem
        obtain ⟨before, after, hdrop, hbefore⟩ := List.eq_append_cons_of_mem hmem
        rw [find_of_drop_eq hbefore hdrop] at hfind
        cases hfind
      rw [splitFrom]
      split
      · rw [substr_eq h, List.splitOn_eq_singleton hmem, List.take_of_length_le]
        · rfl
        · rw [List.length_drop]
          omega
      · next index hsome =>
          rw [hfind] at hsome
          cases hsome
  | case2 start index hfind ih =>
      have hindex := find_lt hfind
      have hmem : separator ∈ word.drop start := by
        by_contra hmem
        rw [find_of_not_mem hmem] at hfind
        cases hfind
      obtain ⟨before, after, hdrop, hbefore⟩ := List.eq_append_cons_of_mem hmem
      have hfound : index = start + before.length := by
        rw [find_of_drop_eq hbefore hdrop] at hfind
        exact (Option.some.inj hfind).symm
      have hafter : word.drop (index + 1) = after := by
        rw [hfound, Nat.add_assoc, ← List.drop_drop, hdrop, ← List.drop_drop, List.drop_left]
        rfl
      rw [splitFrom]
      split
      · next hnone =>
          rw [hfind] at hnone
          cases hnone
      · next other hother =>
          obtain rfl : index = other := by
            rw [hfind] at hother
            exact Option.some.inj hother
          rw [ih (by omega), hafter, hdrop, List.splitOn_append_cons_self_of_not_mem hbefore, substr_eq h, hdrop,
            hfound, Nat.add_sub_cancel_left, List.take_left]
          rfl

end Separators

end Scanning
