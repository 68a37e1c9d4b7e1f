import GopherMcp.Lib.OrdMap

/-!
# Groups of a list

A list whose items have keys, grouped: under each key stand the values of its items, in the order of the list. A
group grows at its end when the list does, and taking all items of a key away takes its group away.
-/

namespace Groups

variable {α κ ν : Type} {key : α → κ} {value : α → ν}

/-! ### The items of a key -/

section Under

variable [DecidableEq κ]

/-- The values of the items with a key. -/
def under (key : α → κ) (value : α → ν) (k : κ) (items : List α) : List ν :=
  (items.filter fun item => key item = k).map value

theorem under_concat (k : κ) (items : List α) (item : α) :
    under key value k (items ++ [item]) =
      under key value k items ++ if key item = k then [value item] else [] := by
  unfold under
  rw [List.filter_append, List.map_append]
  by_cases h : key item = k
  · rw [if_pos h, List.filter_cons_of_pos (by simpa using h)]
    rfl
  · rw [if_neg h, List.filter_cons_of_neg (by simpa using h)]
    rfl

theorem under_filter_ne (k other : κ) (items : List α) :
    under key value other (items.filter fun item => key item ≠ k) =
      if other = k then [] else under key value other items := by
  unfold under
  rw [List.filter_filter]
  by_cases h : other = k
  · rw [if_pos h, List.filter_eq_nil_iff.mpr]
    · rfl
    · intro item _
      simp [h]
  · rw [if_neg h]
    congr 1
    apply List.filter_congr
    intro item _
    by_cases hitem : key item = other
    · simp [hitem, h]
    · simp [hitem]

/-- What the items of a key weigh, and what the others do. -/
theorem sum_filter_add_sum_filter_ne (weight : α → Nat) (k : κ) (items : List α) :
    ((items.filter fun item => key item = k).map weight).sum +
      ((items.filter fun item => key item ≠ k).map weight).sum = (items.map weight).sum := by
  induction items with
  | nil => rfl
  | cons item rest ih =>
      rw [List.map_cons, List.sum_cons, ← ih]
      by_cases h : key item = k
      · rw [List.filter_cons_of_pos (by simpa using h), List.filter_cons_of_neg (by simpa using h), List.map_cons,
          List.sum_cons, Nat.add_assoc]
      · rw [List.filter_cons_of_neg (by simpa using h), List.filter_cons_of_pos (by simpa using h), List.map_cons,
          List.sum_cons]
        omega

end Under

/-! ### Groups -/

variable [LinearOrder κ]

/-- One more item. -/
def push (key : α → κ) (value : α → ν) (m : OrdMap κ (List ν)) (item : α) : OrdMap κ (List ν) :=
  m.insert (key item) ((m.find? (key item)).getD [] ++ [value item])

def group (key : α → κ) (value : α → ν) (items : List α) : OrdMap κ (List ν) := items.foldl (push key value) .empty

theorem group_concat (items : List α) (item : α) :
    group key value (items ++ [item]) = push key value (group key value items) item := by
  unfold group
  rw [List.foldl_append]
  rfl

variable [DecidableEq κ]

/-- A key without items has no group. -/
theorem find?_group (k : κ) (items : List α) :
    (group key value items).find? k =
      if under key value k items = [] then none else some (under key value k items) := by
  induction items using List.reverseRecOn with
  | nil => rfl
  | append_singleton items item ih =>
      rw [group_concat, under_concat, push, OrdMap.find?_insert]
      by_cases h : key item = k
      · subst h
        rw [if_pos rfl, if_pos rfl, if_neg (by simp), ih]
        split_ifs with hnone
        · rw [hnone]
          rfl
        · rfl
      · rw [if_neg (Ne.symm h), if_neg h, List.append_nil, ih]

theorem getD_find?_group (k : κ) (items : List α) :
    ((group key value items).find? k).getD [] = under key value k items := by
  rw [find?_group]
  split_ifs with hnone
  · exact hnone.symm
  · rfl

/-- Without the items of a key its group is gone, and the others are as they were. -/
theorem erase_group (k : κ) (items : List α) :
    (group key value items).erase k = group key value (items.filter fun item => key item ≠ k) := by
  apply OrdMap.eq_of_find?_eq
  intro other
  rw [OrdMap.find?_erase, find?_group, find?_group, under_filter_ne]
  by_cases h : other = k
  · rw [if_pos h, if_pos h, if_pos rfl]
  · rw [if_neg h, if_neg h]

end Groups
