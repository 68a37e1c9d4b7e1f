import GopherMcp.Buffer.OwnedBuffer

/-!
# Lengths

The length a buffer keeps is the sum of the sizes of its slices, wherever these point, and each
operation changes it by the bytes it adds or takes.
-/

namespace GopherMcp

namespace SliceDeque

/-- The sizes add up. -/
def Counted (d : SliceDeque) : Prop := d.byteSize = (d.slices.map Slice.reservable).sum

variable {d : SliceDeque} {grow : Nat → Nat} {bytes : Bytes}

theorem reservable_map_moved (slices : List Slice) :
    (slices.map Slice.moved).map Slice.reservable = slices.map Slice.reservable := by
  rw [List.map_map]
  exact List.map_congr_left fun slice _ => Slice.reservable_moved slice

@[simp] theorem length_pushBack (d : SliceDeque) (slice : Slice) :
    (d.pushBack grow slice).length = d.length + slice.reservable := rfl

@[simp] theorem length_pushFront (d : SliceDeque) (slice : Slice) :
    (d.pushFront grow slice).length = d.length + slice.reservable := rfl

theorem Counted.pushBack (h : d.Counted) (slice : Slice) : (d.pushBack grow slice).Counted := by
  have hkept : ((if d.slices.length = d.capacity then d.slices.map Slice.moved else d.slices).map
      Slice.reservable) = d.slices.map Slice.reservable := by
    split_ifs
    · exact reservable_map_moved d.slices
    · rfl
  rw [Counted] at h
  rw [Counted, SliceDeque.pushBack, List.map_append, List.sum_append, hkept, ← h,
    List.map_singleton, List.sum_singleton, Slice.reservable_moved]

theorem Counted.pushFront (h : d.Counted) (slice : Slice) : (d.pushFront grow slice).Counted := by
  rw [Counted] at h
  rw [Counted, SliceDeque.pushFront, List.map_cons, List.sum_cons, reservable_map_moved, ← h,
    Slice.reservable_moved]
  exact Nat.add_comm _ _

/-! ### Adding -/

theorem appendBack_cases (d : SliceDeque) (bytes : Bytes) :
    d.appendBack bytes = (d, bytes) ∨
      ∃ slices back, d.slices = slices ++ [back] ∧
        d.appendBack bytes =
          ({ d with
              slices := slices ++ [(back.append bytes).1]
              byteSize := d.byteSize + (back.append bytes).2 },
            bytes.drop (back.append bytes).2) := by
  rw [appendBack]
  cases hlast : d.slices.getLast? with
  | none => exact Or.inl rfl
  | some back =>
      obtain ⟨slices, hslices⟩ := List.getLast?_eq_some_iff.mp hlast
      by_cases himmutable : back.immutable = true
      · exact Or.inl (if_pos himmutable)
      · refine Or.inr ⟨slices, back, hslices, (if_neg himmutable).trans ?_⟩
        simp only [setBack, hslices, List.dropLast_concat]

theorem Counted.appendBack (h : d.Counted) (bytes : Bytes) : (d.appendBack bytes).1.Counted := by
  obtain hsame | ⟨slices, back, hslices, happended⟩ := d.appendBack_cases bytes
  · rwa [hsame]
  · rw [Counted, hslices, List.map_append, List.sum_append, List.map_singleton,
      List.sum_singleton] at h
    rw [happended, Counted]
    simp only [List.map_append, List.sum_append, List.map_singleton, List.sum_singleton,
      Slice.reservable_append, h]
    exact Nat.add_assoc _ _ _

/-- What is appended and what is left are all there was. -/
theorem length_appendBack (d : SliceDeque) (bytes : Bytes) :
    (d.appendBack bytes).1.length + (d.appendBack bytes).2.length = d.length + bytes.length := by
  obtain hsame | ⟨slices, back, hslices, happended⟩ := d.appendBack_cases bytes
  · rw [hsame]
  · have hcopied := back.append_snd bytes
    rw [happended]
    simp only [SliceDeque.length, List.length_drop]
    omega

theorem getLast?_pushBack (d : SliceDeque) (slice : Slice) :
    (d.pushBack grow slice).slices.getLast? = some slice.moved :=
  List.getLast?_concat

/-- A slice that was made for it takes all that is left. -/
theorem appendBack_pushBack (d : SliceDeque) {size : Nat} (h : bytes.length ≤ size) :
    ((d.pushBack grow (Slice.ofSize size)).appendBack bytes).2 = [] := by
  have hmutable : (Slice.ofSize size).immutable = false := rfl
  rw [appendBack, getLast?_pushBack, Slice.moved_ofSize]
  simp only [hmutable, Bool.false_eq_true, if_false, Slice.append_ofSize h, List.drop_length]

/-- What `add` does, in its one turn or two. -/
theorem add_cases (d : SliceDeque) (bytes : Bytes) :
    (bytes = [] ∧ d.add grow bytes = d) ∨
      ((d.appendBack bytes).2 = [] ∧ d.add grow bytes = (d.appendBack bytes).1) ∨
      ∃ size, (d.appendBack bytes).2.length ≤ size ∧
        d.add grow bytes =
          (((d.appendBack bytes).1.pushBack grow (Slice.ofSize size)).appendBack
            (d.appendBack bytes).2).1 := by
  rw [add, addTurns]
  by_cases hnone : bytes = []
  · exact Or.inl ⟨hnone, if_pos hnone⟩
  rw [if_neg hnone]
  obtain ⟨d', left⟩ := d.appendBack bytes
  simp only
  by_cases hdone : left = []
  · exact Or.inr (Or.inl ⟨hdone, if_pos hdone⟩)
  refine Or.inr (Or.inr ⟨max left.length kDefaultSliceSize, Nat.le_max_left _ _, ?_⟩)
  rw [if_neg hdone, addTurns, if_neg hdone]
  simp only [appendBack_pushBack d' (Nat.le_max_left left.length kDefaultSliceSize), if_true]

theorem Counted.add (h : d.Counted) (bytes : Bytes) : (d.add grow bytes).Counted := by
  obtain ⟨-, hadd⟩ | ⟨-, hadd⟩ | ⟨size, -, hadd⟩ := @add_cases grow d bytes
  · rwa [hadd]
  · rw [hadd]
    exact h.appendBack bytes
  · rw [hadd]
    exact ((h.appendBack bytes).pushBack _).appendBack _

theorem length_add (d : SliceDeque) (bytes : Bytes) :
    (d.add grow bytes).length = d.length + bytes.length := by
  have hfirst := d.length_appendBack bytes
  obtain ⟨hnone, hadd⟩ | ⟨hdone, hadd⟩ | ⟨size, hsize, hadd⟩ := @add_cases grow d bytes
  · rw [hadd, hnone]
    rfl
  · rw [hadd, ← hfirst, hdone]
    rfl
  · have hsecond := ((d.appendBack bytes).1.pushBack grow (Slice.ofSize size)).length_appendBack
      (d.appendBack bytes).2
    have hempty : (Slice.ofSize size).reservable = 0 := rfl
    rw [appendBack_pushBack _ hsize, length_pushBack, hempty] at hsecond
    rw [hadd, ← hfirst]
    exact hsecond

/-- What `prepend` does: nothing, or the first slice takes all, or a new slice does. -/
theorem prepend_cases (d : SliceDeque) (bytes : Bytes) :
    (bytes = [] ∧ d.prepend grow bytes = d) ∨
      (∃ front rest, d.slices = front :: rest ∧ (front.prepend bytes).2 = bytes.length ∧
        d.prepend grow bytes =
          { d with
            slices := (front.prepend bytes).1 :: rest
            byteSize := d.byteSize + bytes.length }) ∨
      d.prepend grow bytes = d.pushFront grow ((Slice.ofSize bytes.length).append bytes).1 := by
  rw [prepend]
  by_cases hnone : bytes = []
  · exact Or.inl ⟨hnone, if_pos hnone⟩
  rw [if_neg hnone]
  cases hslices : d.slices with
  | nil => exact Or.inr (Or.inr rfl)
  | cons front rest =>
      simp only
      by_cases himmutable : front.immutable = true
      · exact Or.inr (Or.inr (if_pos himmutable))
      rw [if_neg himmutable]
      obtain ⟨hzero, hsame⟩ | hall := front.prepend_snd bytes
      · have hpart : ¬ 0 = bytes.length := fun h => hnone (List.eq_nil_of_length_eq_zero h.symm)
        have hunchanged : d.modifyFront (fun _ => front) = d := by
          rw [modifyFront, hslices, List.modifyHead_cons, ← hslices]
        simp only [hzero, hsame, hunchanged, List.drop_zero, Nat.add_zero]
        exact Or.inr (Or.inr (if_neg hpart))
      · refine Or.inr (Or.inl ⟨front, rest, rfl, hall, ?_⟩)
        simp only [hall, if_true, modifyFront, hslices, List.modifyHead_cons]

theorem Counted.prepend (h : d.Counted) (bytes : Bytes) : (d.prepend grow bytes).Counted := by
  obtain ⟨-, hsame⟩ | ⟨front, rest, hslices, hall, hfront⟩ | hpushed := @prepend_cases grow d bytes
  · rwa [hsame]
  · rw [Counted, hslices, List.map_cons, List.sum_cons] at h
    rw [hfront, Counted]
    simp only [List.map_cons, List.sum_cons, Slice.reservable_prepend, h, hall]
    omega
  · rw [hpushed]
    exact h.pushFront _

theorem length_prepend (d : SliceDeque) (bytes : Bytes) :
    (d.prepend grow bytes).length = d.length + bytes.length := by
  obtain ⟨hnone, hsame⟩ | ⟨front, rest, -, -, hfront⟩ | hpushed := @prepend_cases grow d bytes
  · rw [hsame, hnone]
    rfl
  · rw [hfront]
    rfl
  · rw [hpushed, length_pushFront, Slice.reservable_append, Slice.append_ofSize (Nat.le_refl _)]
    exact congrArg (d.length + ·) (Nat.zero_add _)

/-! ### Taking away -/

theorem eraseFront_modifyFront (d : SliceDeque) (f : Slice → Slice) :
    (d.modifyFront f).eraseFront = d.eraseFront := by
  rw [eraseFront, eraseFront, modifyFront]
  simp only [List.tail_modifyHead]

theorem map_reservable_eraseFront {front : Slice} {rest : List Slice}
    (hslices : d.slices = front :: rest) :
    (d.eraseFront.slices.map Slice.reservable).sum = (rest.map Slice.reservable).sum := by
  rw [eraseFront, hslices, List.tail_cons, reservable_map_moved]

theorem Counted.eraseFront (h : d.Counted) {front : Slice} {rest : List Slice}
    (hslices : d.slices = front :: rest) :
    Counted { d.eraseFront with byteSize := d.byteSize - front.reservable } := by
  rw [Counted, hslices, List.map_cons, List.sum_cons] at h
  rw [Counted, map_reservable_eraseFront hslices, h]
  exact Nat.add_sub_cancel_left _ _

theorem counted_updateByteSize (d : SliceDeque) : d.updateByteSize.Counted := rfl

theorem Counted.drainFront (h : d.Counted) {front : Slice} {rest : List Slice}
    (hslices : d.slices = front :: rest) {size : Nat} (hsize : size ≤ front.reservable) :
    Counted
      { d.modifyFront (fun front => front.drain size) with byteSize := d.byteSize - size } := by
  rw [Counted, hslices, List.map_cons, List.sum_cons] at h
  simp only [Counted, modifyFront, hslices, List.modifyHead_cons, List.map_cons, List.sum_cons,
    Slice.drain, h]
  omega

theorem Counted.drainTurns (turns : Nat) (h : d.Counted) (size : Nat) :
    (SliceDeque.drainTurns turns d size).Counted ∧
      (SliceDeque.drainTurns turns d size).length ≤ d.length := by
  induction turns generalizing d size with
  | zero => exact ⟨h, Nat.le_refl _⟩
  | succ turns ih =>
      rw [SliceDeque.drainTurns]
      by_cases hdone : size = 0
      · rw [if_pos hdone]
        exact ⟨h, Nat.le_refl _⟩
      rw [if_neg hdone]
      cases hslices : d.slices with
      | nil => exact ⟨h, Nat.le_refl _⟩
      | cons front rest =>
          simp only
          split_ifs with hwhole
          · rw [eraseFront_modifyFront]
            obtain ⟨hcounted, hless⟩ := ih (h.eraseFront hslices) (size - front.reservable)
            exact ⟨hcounted, hless.trans (Nat.sub_le _ _)⟩
          · exact ⟨h.drainFront hslices (by omega), Nat.sub_le _ _⟩

theorem Counted.drain (h : d.Counted) (size : Nat) :
    (d.drain size).Counted ∧ (d.drain size).length ≤ d.length := by
  rw [SliceDeque.drain]
  split_ifs with hover
  · exact ⟨h, Nat.le_refl _⟩
  · exact h.drainTurns _ size

theorem Counted.linearize (h : d.Counted) (size : Nat) : (d.linearize grow size).Counted := by
  rw [SliceDeque.linearize]
  simp only
  split_ifs
  · exact h
  · exact h
  · exact (h.drain _).1.pushFront _

theorem Counted.moveTurns {δ : Type} {push : δ → Slice → δ} {add : δ → Bytes → δ} (turns : Nat)
    (h : d.Counted) (dest : δ) (remaining : Nat) :
    (SliceDeque.moveTurns push add turns d dest remaining).1.Counted ∧
      (SliceDeque.moveTurns push add turns d dest remaining).1.length ≤ d.length := by
  induction turns generalizing d dest remaining with
  | zero => exact ⟨h, Nat.le_refl _⟩
  | succ turns ih =>
      rw [SliceDeque.moveTurns]
      by_cases hdone : remaining = 0
      · rw [if_pos hdone]
        exact ⟨h, Nat.le_refl _⟩
      rw [if_neg hdone]
      cases hslices : d.slices with
      | nil => exact ⟨h, Nat.le_refl _⟩
      | cons front rest =>
          simp only
          split_ifs with hwhole
          · obtain ⟨hcounted, hless⟩ := ih d.eraseFront.counted_updateByteSize (push dest front)
              (remaining - front.reservable)
            refine ⟨hcounted, hless.trans ?_⟩
            have herased := map_reservable_eraseFront hslices
            rw [Counted, hslices, List.map_cons, List.sum_cons] at h
            show (d.eraseFront.slices.map Slice.reservable).sum ≤ d.byteSize
            omega
          · exact ⟨h.drainFront hslices (by omega), Nat.sub_le _ _⟩

theorem Counted.moveTo {δ : Type} {push : δ → Slice → δ} {add : δ → Bytes → δ} (h : d.Counted)
    (dest : δ) (length : Nat) :
    (d.moveTo push add dest length).1.Counted ∧
      (d.moveTo push add dest length).1.length ≤ d.length :=
  h.moveTurns _ dest _

/-! ### Reserving and committing -/

theorem Counted.reserveForRead (h : d.Counted) : (d.reserveForRead grow).1.Counted := by
  rw [SliceDeque.reserveForRead]
  split
  · exact h
  · exact h.pushBack _

theorem Counted.commitAt {d' : SliceDeque} {place size : Nat} {raw : RawSlice} (h : d.Counted)
    (hcommit : d.commitAt place raw size = some d') :
    d'.Counted ∧ d'.length = d.length + size := by
  obtain ⟨slice, hslice, hcommitted⟩ := Option.bind_eq_some_iff.mp hcommit
  obtain ⟨committed, hslice', hd'⟩ := Option.map_eq_some_iff.mp hcommitted
  have hgrown : committed.reservable = slice.reservable + size := by
    rw [Slice.commit] at hslice'
    split_ifs at hslice' with himmutable hinvalid
    rw [← Option.some.inj hslice']
  obtain ⟨hplace, hget⟩ := List.getElem?_eq_some_iff.mp hslice
  have hslices : d.slices = d.slices.take place ++ slice :: d.slices.drop (place + 1) := by
    rw [← hget, ← List.drop_eq_getElem_cons hplace, List.take_append_drop]
  have hreplaced : d.slices.set place committed =
      d.slices.take place ++ committed :: d.slices.drop (place + 1) := by
    rw [List.set_eq_take_append_cons_drop, if_pos hplace]
  rw [Counted, hslices] at h
  rw [← hd']
  refine ⟨?_, rfl⟩
  simp only [Counted, hreplaced, List.map_append, List.sum_append, List.map_cons, List.sum_cons,
    hgrown, h]
  omega

theorem Counted.commit {d' : SliceDeque} {size : Nat} {raw : RawSlice} (h : d.Counted)
    (hcommit : d.commit raw size = some d') : d'.Counted ∧ d'.length = d.length + size := by
  rw [SliceDeque.commit] at hcommit
  split_ifs at hcommit with hfound
  exact h.commitAt hcommit

theorem Counted.commitReservation {d' : SliceDeque} {size : Nat} {raw : RawSlice} (h : d.Counted)
    (hcommit : d.commitReservation raw size = some d') :
    d'.Counted ∧ d'.length = d.length + size := by
  rw [SliceDeque.commitReservation] at hcommit
  split_ifs at hcommit with hover hnothing hother
  · cases hcommit
    exact ⟨h, by rw [hnothing, Nat.add_zero]⟩
  · rw [Nat.min_eq_left (Nat.not_lt.mp hover)] at hcommit
    exact h.commitAt hcommit

end SliceDeque

end GopherMcp
