import Mathlib

/-!
# Windows into a block

A block is a list of cells of fixed length, and a window the cells from some place on. Writing puts
cells over the ones there. The lemmas say what a window shows after cells were written behind it or
before it.
-/

namespace Windows

variable {α : Type} {block : List α} {offset used : Nat}

/-- The cells of a block that a window shows. -/
def window (block : List α) (offset used : Nat) : List α := (block.drop offset).take used

/-- The block after cells were written over the ones from `offset` on. -/
def overwrite (block : List α) (offset : Nat) (cells : List α) : List α :=
  block.take offset ++ cells ++ block.drop (offset + cells.length)

@[simp] theorem length_window (h : offset + used ≤ block.length) :
    (window block offset used).length = used := by
  rw [window, List.length_take, List.length_drop]
  omega

@[simp] theorem window_zero (block : List α) (offset : Nat) : window block offset 0 = [] :=
  List.take_zero

theorem window_whole (block : List α) : window block 0 block.length = block := by
  rw [window, List.drop_zero, List.take_length]

theorem take_window (block : List α) (offset used n : Nat) (h : n ≤ used) :
    (window block offset used).take n = window block offset n := by
  rw [window, List.take_take, Nat.min_eq_left h, window]

theorem drop_window (block : List α) (offset used n : Nat) :
    (window block offset used).drop n = window block (offset + n) (used - n) := by
  rw [window, List.drop_take, List.drop_drop, window]

theorem length_overwrite {cells : List α} (h : offset + cells.length ≤ block.length) :
    (overwrite block offset cells).length = block.length := by
  simp only [overwrite, List.length_append, List.length_take, List.length_drop]
  omega

/-- A window that ends where the written cells begin. -/
theorem window_overwrite_before {cells : List α} {start : Nat} (hstart : offset + used ≤ start)
    (hroom : start ≤ block.length) :
    window (overwrite block start cells) offset used = window block offset used := by
  apply List.ext_getElem?
  intro i
  simp only [window, overwrite, List.getElem?_take, List.getElem?_drop]
  split_ifs with hi
  · rw [List.append_assoc, List.getElem?_append_left (by rw [List.length_take]; omega),
      List.getElem?_take_of_lt (by omega)]
  · rfl

/-- The window onto the written cells. -/
theorem window_overwrite_self {cells : List α} (hroom : offset ≤ block.length) :
    window (overwrite block offset cells) offset cells.length = cells := by
  have hfront : (block.take offset).length = offset := by
    rw [List.length_take]
    omega
  rw [window, overwrite, List.append_assoc, List.drop_append_of_le_length (by rw [hfront]),
    List.drop_of_length_le (by rw [hfront]), List.nil_append, List.take_left]

theorem window_add (block : List α) (offset used more : Nat) :
    window block offset (used + more) = window block offset used ++ window block (offset + used) more := by
  rw [window, List.take_add, List.drop_drop, window, window]

/-- **Writing behind a window** appends to it. -/
theorem window_overwrite_behind {cells : List α}
    (hroom : offset + used + cells.length ≤ block.length) :
    window (overwrite block (offset + used) cells) offset (used + cells.length) =
      window block offset used ++ cells := by
  rw [window_add, window_overwrite_before (Nat.le_refl _) (by omega),
    window_overwrite_self (by omega)]

/-- A window that begins where the written cells end. -/
theorem window_overwrite_after {cells : List α} {start : Nat} (hstart : offset + cells.length = start)
    (hroom : start ≤ block.length) :
    window (overwrite block offset cells) start used = window block start used := by
  have hfront : (block.take offset ++ cells).length = start := by
    rw [List.length_append, List.length_take]
    omega
  rw [window, overwrite, List.drop_append_of_le_length (by rw [hfront]),
    List.drop_of_length_le (by rw [hfront]), List.nil_append, hstart, window]

/-- **Making room at the front of a window** and writing there prepends to it. -/
theorem window_overwrite_front {cells : List α}
    (hroom : offset + used + cells.length ≤ block.length) :
    window (overwrite (overwrite block (offset + cells.length) (window block offset used)) offset cells)
        offset (cells.length + used) =
      cells ++ window block offset used := by
  have hshown : (window block offset used).length = used := length_window (by omega)
  have hmoved : (overwrite block (offset + cells.length) (window block offset used)).length =
      block.length := length_overwrite (by rw [hshown]; omega)
  have hself := @window_overwrite_self α block (offset + cells.length) (window block offset used)
    (by omega)
  rw [hshown] at hself
  rw [window_add, window_overwrite_self (by omega), window_overwrite_after rfl (by omega), hself]

end Windows
