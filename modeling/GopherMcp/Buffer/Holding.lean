import GopherMcp.Buffer.Content

/-!
# What a buffer holds, and when it is lost

A buffer holds a text if its slices make it and own the memory they point into. Adding bytes keeps that unless
the vector has to grow while the data of a slice lies behind the start of its inline array: that slice is lost.
-/

namespace GopherMcp

namespace Slice

theorem base_write (s : Slice) (place : Nat) (bytes : Bytes) : (s.write place bytes).base = s.base := by
  rw [write]
  split <;> rfl

theorem immutable_write (s : Slice) (place : Nat) (bytes : Bytes) : (s.write place bytes).immutable = s.immutable := by
  rw [write]
  split <;> rfl

theorem reservable_write (s : Slice) (place : Nat) (bytes : Bytes) : (s.write place bytes).reservable = s.reservable := by
  rw [write]
  split <;> rfl

theorem base_append (s : Slice) (bytes : Bytes) : (s.append bytes).1.base = s.base := by
  rw [append]
  split_ifs
  · rfl
  · exact base_write s _ _

theorem offset_append (s : Slice) (bytes : Bytes) : (s.append bytes).1.offset = s.offset := by
  rw [append]
  split_ifs
  · rfl
  · exact offset_write s _ _

theorem reservableSize_append (s : Slice) (bytes : Bytes) :
    (s.append bytes).1.reservableSize = s.reservableSize - min bytes.length s.reservableSize := by
  by_cases himmutable : s.immutable = true
  · simp [append, reservableSize, himmutable]
  · have hstays : (s.append bytes).1.immutable = false := by
      rw [append, if_neg himmutable]
      exact (immutable_write s _ _).trans (Bool.eq_false_of_not_eq_true himmutable)
    have hcapacity : (s.append bytes).1.capacity = s.capacity := by
      rw [append, if_neg himmutable]
      exact capacity_write s _ _
    have hsize := s.reservable_append bytes
    rw [append_snd] at hsize
    unfold reservableSize at hsize ⊢
    rw [if_neg himmutable] at hsize ⊢
    rw [hstays, hcapacity, hsize]
    simp only [Bool.false_eq_true, if_false]
    omega

theorem Rooted.moved {s : Slice} (h : s.Rooted) : s.moved.Rooted := by
  intro hbase
  rw [offset_moved]
  apply h
  by_contra hother
  rw [Slice.moved, if_neg (fun hstays => hother hstays.1), if_neg hother] at hbase
  exact hother hbase

theorem base_moved_of_elsewhere {s : Slice} (h : s.base = .elsewhere) : s.moved.base = .elsewhere := by
  have hother : s.base ≠ .inlineData := by
    rw [h]
    decide
  rw [moved, if_neg (fun hboth => hother hboth.1), if_neg hother]
  exact h

theorem base_moved_of_not_rooted {s : Slice} (h : ¬ s.Rooted) : s.moved.base = .elsewhere := by
  unfold Rooted at h
  push Not at h
  rw [moved, if_neg (fun hboth => h.2 hboth.2), if_pos h.1]

end Slice

namespace SliceDeque

/-- The slices make the text, in memory of their own, and the length is that of the text. -/
structure Holds (d : SliceDeque) (text : Bytes) : Prop where
  owned : ∀ slice ∈ d.slices, slice.Owned
  makes : d.toString = text
  counts : d.length = text.length

/-- The room behind the data of the last slice. -/
def room (d : SliceDeque) : Nat := (d.slices.getLast?.map Slice.reservableSize).getD 0

/-- The vector can grow without losing a slice. -/
def Movable (d : SliceDeque) : Prop := ∀ slice ∈ d.slices, slice.Rooted

/-- A slice was left behind by a move. -/
def Lost (d : SliceDeque) : Prop := ∃ slice ∈ d.slices, slice.base = .elsewhere

variable {d : SliceDeque} {grow : Nat → Nat} {bytes text : Bytes}

theorem Sound.holds (h : d.Sound) : d.Holds d.toString := ⟨h.owned, rfl, h.length_eq⟩

theorem holds_empty : empty.Holds [] := ⟨fun _ h => absurd h List.not_mem_nil, rfl, rfl⟩

theorem Holds.not_lost (h : d.Holds text) : ¬ d.Lost := by
  intro hlost
  obtain ⟨slice, hslice, hbase⟩ := hlost
  exact (h.owned slice hslice).not_elsewhere hbase

/-! ### The last slice -/

theorem room_concat {slices : List Slice} {back : Slice} (h : d.slices = slices ++ [back]) :
    d.room = back.reservableSize := by
  rw [room, h, List.getLast?_concat]
  rfl

theorem appendBack_nil (h : d.slices = []) (bytes : Bytes) : d.appendBack bytes = (d, bytes) ∧ d.room = 0 := by
  rw [appendBack, room, h]
  exact ⟨rfl, rfl⟩

/-- What fits goes to the last slice, and nothing fits in one that may not be written to. -/
theorem appendBack_concat {slices : List Slice} {back : Slice} (h : d.slices = slices ++ [back]) (bytes : Bytes) :
    d.appendBack bytes =
      ({ d with
          slices := slices ++ [(back.append bytes).1]
          byteSize := d.byteSize + (back.append bytes).2 }, bytes.drop (back.append bytes).2) := by
  rw [appendBack, h, List.getLast?_concat]
  by_cases himmutable : back.immutable = true
  · have hnothing : back.append bytes = (back, 0) := by simp [Slice.append, himmutable]
    simp only [himmutable, if_true, hnothing, ← h, Nat.add_zero, List.drop_zero]
  · simp only [himmutable, Bool.false_eq_true, if_false, setBack, h, List.dropLast_concat]

theorem appendBack_snd (d : SliceDeque) (bytes : Bytes) : (d.appendBack bytes).2 = bytes.drop d.room := by
  obtain hnil | ⟨slices, back, h⟩ := List.eq_nil_or_concat' d.slices
  · obtain ⟨happended, hroom⟩ := appendBack_nil hnil bytes
    rw [happended, hroom, List.drop_zero]
  · rw [appendBack_concat h, room_concat h, Slice.append_snd]
    obtain hfits | hmore := Nat.le_total bytes.length back.reservableSize
    · rw [Nat.min_eq_left hfits, List.drop_length, List.drop_of_length_le hfits]
    · rw [Nat.min_eq_right hmore]

theorem Holds.appendBack (h : d.Holds text) (bytes : Bytes) :
    (d.appendBack bytes).1.Holds (text ++ bytes.take d.room) := by
  obtain hnil | ⟨slices, back, hslices⟩ := List.eq_nil_or_concat' d.slices
  · obtain ⟨happended, hroom⟩ := appendBack_nil hnil bytes
    rw [happended, hroom, List.take_zero, List.append_nil]
    exact h
  · have hall := h.owned
    rw [hslices, List.forall_mem_append, List.forall_mem_singleton] at hall
    obtain ⟨howned, hdata⟩ := hall.2.append bytes
    have hcopied : bytes.take (back.append bytes).2 = bytes.take d.room := by
      rw [Slice.append_snd, room_concat hslices, Nat.min_comm]
      exact List.take_eq_take_min.symm
    have hmade := h.makes
    have hcounted := h.counts
    rw [toString, hslices, List.flatMap_append, List.flatMap_singleton] at hmade
    rw [appendBack_concat hslices]
    refine ⟨?_, ?_, ?_⟩
    · rw [List.forall_mem_append, List.forall_mem_singleton]
      exact ⟨hall.1, howned⟩
    · rw [toString, List.flatMap_append, List.flatMap_singleton, hdata, hcopied, ← hmade, List.append_assoc]
    · rw [List.length_append, ← hcounted, ← hcopied, List.length_take, Slice.append_snd]
      show d.byteSize + _ = d.byteSize + _
      omega

/-- The last slice stays where it is. -/
theorem appendBack_stays (d : SliceDeque) (bytes : Bytes) :
    (d.appendBack bytes).1.slices.length = d.slices.length ∧ (d.appendBack bytes).1.capacity = d.capacity ∧
      ((d.appendBack bytes).1.Movable ↔ d.Movable) ∧ (d.Lost → (d.appendBack bytes).1.Lost) := by
  obtain hnil | ⟨slices, back, hslices⟩ := List.eq_nil_or_concat' d.slices
  · rw [(appendBack_nil hnil bytes).1]
    exact ⟨rfl, rfl, Iff.rfl, id⟩
  · rw [appendBack_concat hslices]
    have hrooted : (back.append bytes).1.Rooted ↔ back.Rooted := by
      rw [Slice.Rooted, Slice.Rooted, Slice.base_append, Slice.offset_append]
    refine ⟨?_, rfl, ?_, ?_⟩
    · simp [hslices]
    · simp only [Movable, hslices, List.forall_mem_append, List.forall_mem_singleton, hrooted]
    · intro hlost
      obtain ⟨slice, hslice, hbase⟩ := hlost
      rw [hslices] at hslice
      obtain hfront | hback := List.mem_append.mp hslice
      · exact ⟨slice, List.mem_append_left _ hfront, hbase⟩
      · rw [List.mem_singleton.mp hback] at hbase
        exact ⟨_, List.mem_append_right _ (List.mem_singleton_self _), (Slice.base_append _ _).trans hbase⟩

theorem room_appendBack (d : SliceDeque) (bytes : Bytes) :
    (d.appendBack bytes).1.room = d.room - min bytes.length d.room := by
  obtain hnil | ⟨slices, back, hslices⟩ := List.eq_nil_or_concat' d.slices
  · obtain ⟨happended, hroom⟩ := appendBack_nil hnil bytes
    rw [happended, hroom, Nat.zero_sub]
  · rw [appendBack_concat hslices, room_concat hslices, room_concat rfl, Slice.reservableSize_append]

/-! ### A new slice -/

theorem Holds.pushBack (h : d.Holds text) {slice : Slice} (howned : slice.Owned) (hrooted : slice.Rooted)
    (hmovable : d.slices.length = d.capacity → d.Movable) :
    (d.pushBack grow slice).Holds (text ++ slice.data) := by
  refine ⟨?_, ?_, ?_⟩
  · simp only [SliceDeque.pushBack, List.forall_mem_append, List.forall_mem_singleton]
    refine ⟨?_, howned.moved hrooted⟩
    split_ifs with hfull
    · exact owned_map_moved (hmovable hfull) h.owned
    · exact h.owned
  · rw [toString, SliceDeque.pushBack, List.flatMap_append, List.flatMap_singleton, Slice.data_moved hrooted,
      ← h.makes]
    apply congrArg (· ++ slice.data)
    split_ifs with hfull
    · exact flatMap_moved (hmovable hfull)
    · rfl
  · rw [length_pushBack, h.counts, List.length_append, howned.length_data]

theorem rooted_ofSize (size : Nat) : (Slice.ofSize size).Rooted := fun _ => rfl

theorem room_pushBack_ofSize (d : SliceDeque) (size : Nat) :
    (d.pushBack grow (Slice.ofSize size)).room = (Slice.ofSize size).capacity := by
  rw [room, getLast?_pushBack, Slice.moved_ofSize]
  rfl

/-- Where the vector has room, every slice stays where it is. -/
theorem pushBack_stays {slice : Slice} (hroom : d.slices.length ≠ d.capacity) :
    (d.pushBack grow slice).slices = d.slices ++ [slice.moved] ∧ (d.pushBack grow slice).capacity = d.capacity := by
  rw [pushBack, grown, if_neg hroom, if_neg hroom]
  exact ⟨rfl, rfl⟩

theorem Movable.pushBack (h : d.Movable) (size : Nat) : (d.pushBack grow (Slice.ofSize size)).Movable := by
  simp only [Movable, SliceDeque.pushBack, Slice.moved_ofSize, List.forall_mem_append, List.forall_mem_singleton]
  refine ⟨?_, rooted_ofSize size⟩
  split_ifs with hfull
  · intro slice hslice
    obtain ⟨old, hold, rfl⟩ := List.mem_map.mp hslice
    exact (h old hold).moved
  · exact h

theorem Lost.pushBack (h : d.Lost) (slice : Slice) : (d.pushBack grow slice).Lost := by
  obtain ⟨lost, hlost, hbase⟩ := h
  by_cases hfull : d.slices.length = d.capacity
  · refine ⟨lost.moved, ?_, ?_⟩
    · rw [SliceDeque.pushBack, if_pos hfull]
      exact List.mem_append_left _ (List.mem_map_of_mem hlost)
    · exact Slice.base_moved_of_elsewhere hbase
  · refine ⟨lost, ?_, hbase⟩
    rw [(pushBack_stays hfull).1]
    exact List.mem_append_left _ hlost

/-- A vector that has to grow leaves a slice behind that it cannot move. -/
theorem lost_pushBack (hfull : d.slices.length = d.capacity) (h : ¬ d.Movable) (slice : Slice) :
    (d.pushBack grow slice).Lost := by
  unfold Movable at h
  push Not at h
  obtain ⟨left, hleft, hunrooted⟩ := h
  refine ⟨left.moved, ?_, Slice.base_moved_of_not_rooted hunrooted⟩
  rw [SliceDeque.pushBack, if_pos hfull]
  exact List.mem_append_left _ (List.mem_map_of_mem hleft)

/-! ### Adding bytes -/

/-- The slice that is added where bytes are left. -/
def newSlice (left : Nat) : Slice := Slice.ofSize (max left kDefaultSliceSize)

theorem data_newSlice (left : Nat) : (newSlice left).data = [] := Slice.data_ofSize _

theorem room_pushBack_newSlice (d : SliceDeque) (left : Nat) :
    (d.pushBack grow (newSlice left)).room = max left kDefaultSliceSize := by
  have hlarge : ¬ max left kDefaultSliceSize ≤ kInlineDataSize := by
    unfold kDefaultSliceSize kInlineDataSize
    omega
  exact (room_pushBack_ofSize d _).trans (if_neg hlarge)

theorem add_of_fits (hbytes : bytes ≠ []) (hfits : bytes.length ≤ d.room) :
    d.add grow bytes = (d.appendBack bytes).1 := by
  have hleft : (d.appendBack bytes).2 = [] := (d.appendBack_snd bytes).trans (List.drop_of_length_le hfits)
  rw [add, addTurns, if_neg hbytes]
  simp only [hleft, if_true]

/-- The last slice is filled up, and a slice is added for what is left. -/
theorem add_of_more (hmore : d.room < bytes.length) :
    d.add grow bytes =
      (((d.appendBack bytes).1.pushBack grow (newSlice (bytes.length - d.room))).appendBack
        (bytes.drop d.room)).1 := by
  have hbytes : bytes ≠ [] := by
    rintro rfl
    exact absurd hmore (Nat.not_lt_zero _)
  have hsome : bytes.drop d.room ≠ [] := by
    rw [Ne, List.drop_eq_nil_iff]
    omega
  have htakes := @appendBack_pushBack grow _ (d.appendBack bytes).1 _
    (Nat.le_max_left (bytes.drop d.room).length kDefaultSliceSize)
  rw [List.length_drop] at htakes
  rw [add, addTurns, if_neg hbytes]
  simp only [appendBack_snd d, if_neg hsome]
  rw [addTurns, if_neg hsome]
  simp only [htakes, if_true, newSlice, List.length_drop]

/-- **Adding bytes** appends them, unless the vector has to grow and cannot. -/
theorem Holds.add (h : d.Holds text) (bytes : Bytes)
    (hmovable : d.room < bytes.length → d.slices.length = d.capacity → d.Movable) :
    (d.add grow bytes).Holds (text ++ bytes) := by
  by_cases hbytes : bytes = []
  · rw [hbytes, List.append_nil]
    exact h
  obtain hmore | hfits := Nat.lt_or_ge d.room bytes.length
  · obtain ⟨hlength, hcapacity, hsame, -⟩ := d.appendBack_stays bytes
    have hpushed : ((d.appendBack bytes).1.pushBack grow (newSlice (bytes.length - d.room))).Holds
        (text ++ bytes.take d.room ++ (newSlice (bytes.length - d.room)).data) := by
      apply (h.appendBack bytes).pushBack (Slice.owned_ofSize _) (rooted_ofSize _)
      exact fun hfull => hsame.mpr (hmovable hmore (hlength.symm.trans (hfull.trans hcapacity)))
    rw [data_newSlice, List.append_nil] at hpushed
    have hdone := hpushed.appendBack (bytes.drop d.room)
    have hroom : (bytes.drop d.room).length ≤ max (bytes.length - d.room) kDefaultSliceSize := by
      rw [List.length_drop]
      exact Nat.le_max_left _ _
    rw [room_pushBack_newSlice, List.take_of_length_le hroom, List.append_assoc, List.take_append_drop] at hdone
    rw [add_of_more hmore]
    exact hdone
  · rw [add_of_fits hbytes hfits]
    have happended := h.appendBack bytes
    rwa [List.take_of_length_le hfits] at happended

/-- A slice that was lost stays lost. -/
theorem Lost.add (h : d.Lost) (bytes : Bytes) : (d.add grow bytes).Lost := by
  by_cases hbytes : bytes = []
  · rw [hbytes]
    exact h
  obtain hmore | hfits := Nat.lt_or_ge d.room bytes.length
  · rw [add_of_more hmore]
    exact (appendBack_stays _ _).2.2.2 (((appendBack_stays d bytes).2.2.2 h).pushBack _)
  · rw [add_of_fits hbytes hfits]
    exact (appendBack_stays d bytes).2.2.2 h

/-- The vector has to grow, and a slice is lost. -/
theorem lost_add (hmore : d.room < bytes.length) (hfull : d.slices.length = d.capacity) (h : ¬ d.Movable) :
    (d.add grow bytes).Lost := by
  obtain ⟨hlength, hcapacity, hsame, -⟩ := d.appendBack_stays bytes
  rw [add_of_more hmore]
  apply (appendBack_stays _ _).2.2.2
  exact lost_pushBack (hlength.trans (hfull.trans hcapacity.symm)) (fun hmovable => h (hsame.mp hmovable)) _

theorem Movable.add (h : d.Movable) (bytes : Bytes) : (d.add grow bytes).Movable := by
  by_cases hbytes : bytes = []
  · rw [hbytes]
    exact h
  obtain hmore | hfits := Nat.lt_or_ge d.room bytes.length
  · rw [add_of_more hmore]
    exact (appendBack_stays _ _).2.2.1.mpr (Movable.pushBack ((appendBack_stays d bytes).2.2.1.mpr h) _)
  · rw [add_of_fits hbytes hfits]
    exact (appendBack_stays d bytes).2.2.1.mpr h

end SliceDeque

end GopherMcp
