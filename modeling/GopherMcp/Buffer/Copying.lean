import GopherMcp.Buffer.Holding
import GopherMcp.Buffer.Watermarks

/-!
# Copying a buffer

Another buffer is added through an array of sixteen raw slices, filled once. So the slices of the source that
hold something are copied one after another, up to the sixteenth.
-/

namespace GopherMcp

namespace SliceDeque

def kMaxSlices : Nat := 16

/-- `add` of another buffer, which is only read. -/
def addBuffer (grow : Nat → Nat) (d data : SliceDeque) : SliceDeque :=
  if data.length = 0 then d else (data.getRawSlices kMaxSlices).foldl (add grow) d

/-- The slices that hold something. -/
def filled (d : SliceDeque) : List Slice := d.slices.filter fun slice => 0 < slice.reservable

/-- A slice is added while the vector is full, when so many bytes are added one after another. -/
def Grows : (length capacity room : Nat) → List Nat → Prop
  | _, _, _, [] => False
  | length, capacity, room, size :: sizes =>
      if size ≤ room then Grows length capacity (room - size) sizes
      else
        length = capacity ∨
          Grows (length + 1) capacity (max (size - room) kDefaultSliceSize - (size - room)) sizes

/-- The vector has room for the slices that are added, or can grow. -/
def Takes (d : SliceDeque) (sizes : List Nat) : Prop :=
  Grows d.slices.length d.capacity d.room sizes → d.Movable

variable {d data : SliceDeque} {grow : Nat → Nat} {text : Bytes}

/-! ### Piece by piece -/

theorem lost_addAll (h : d.Lost) (pieces : List Bytes) : (pieces.foldl (add grow) d).Lost := by
  induction pieces generalizing d with
  | nil => exact h
  | cons piece pieces ih => exact ih (h.add piece)

/-- A slice is added where the vector has room for it. -/
theorem add_where_room {bytes : Bytes} (hmore : d.room < bytes.length) (hplace : d.slices.length ≠ d.capacity) :
    (d.add grow bytes).slices.length = d.slices.length + 1 ∧ (d.add grow bytes).capacity = d.capacity ∧
      (d.add grow bytes).room = max (bytes.length - d.room) kDefaultSliceSize - (bytes.length - d.room) ∧
      ((d.add grow bytes).Movable ↔ d.Movable) := by
  obtain ⟨hlength, hcapacity, hsame, -⟩ := d.appendBack_stays bytes
  have hplace' : (d.appendBack bytes).1.slices.length ≠ (d.appendBack bytes).1.capacity := by
    rwa [hlength, hcapacity]
  obtain ⟨hslices, hcapacity'⟩ := @pushBack_stays (d.appendBack bytes).1 grow
    (newSlice (bytes.length - d.room)) hplace'
  obtain ⟨hlength'', hcapacity'', hsame'', -⟩ := appendBack_stays
    ((d.appendBack bytes).1.pushBack grow (newSlice (bytes.length - d.room))) (bytes.drop d.room)
  rw [add_of_more hmore]
  refine ⟨?_, ?_, ?_, ?_⟩
  · rw [hlength'', hslices, List.length_append, hlength]
    rfl
  · rw [hcapacity'', hcapacity', hcapacity]
  · rw [room_appendBack, room_pushBack_newSlice, List.length_drop, Nat.min_eq_left (Nat.le_max_left _ _)]
  · rw [hsame'', ← hsame]
    constructor
    · intro hmovable slice hslice
      apply hmovable
      rw [hslices]
      exact List.mem_append_left _ hslice
    · exact fun hmovable => hmovable.pushBack _

/-- **Adding pieces** appends them just if the vector does not have to grow when it cannot. -/
theorem holds_addAll_iff (h : d.Holds text) (pieces : List Bytes) (hsome : ∀ piece ∈ pieces, piece ≠ []) :
    (pieces.foldl (add grow) d).Holds (text ++ pieces.flatten) ↔ d.Takes (pieces.map List.length) := by
  induction pieces generalizing d text with
  | nil => exact iff_of_true (by simpa using h) fun hgrows => hgrows.elim
  | cons piece pieces ih =>
      obtain ⟨hpiece, hpieces⟩ := List.forall_mem_cons.mp hsome
      have hadded (hmovable : d.room < piece.length → d.slices.length = d.capacity → d.Movable) :
          (d.add grow piece).Holds (text ++ piece) := h.add piece hmovable
      rw [List.foldl_cons, List.flatten_cons, ← List.append_assoc, List.map_cons, Takes, Grows]
      obtain hmore | hfits := Nat.lt_or_ge d.room piece.length
      · rw [if_neg (Nat.not_le_of_lt hmore)]
        by_cases hfull : d.slices.length = d.capacity
        · by_cases hmovable : d.Movable
          · rw [ih (hadded fun _ _ => hmovable) hpieces]
            exact iff_of_true (fun _ => hmovable.add piece) fun _ => hmovable
          · have hlost : (d.add grow piece).Lost := lost_add hmore hfull hmovable
            exact iff_of_false (fun hholds => hholds.not_lost (lost_addAll hlost pieces))
              fun htakes => hmovable (htakes (.inl hfull))
        · obtain ⟨hlength, hcapacity, hroom, hsame⟩ := @add_where_room d grow piece hmore hfull
          rw [ih (hadded fun _ hagain => absurd hagain hfull) hpieces, Takes, hlength, hcapacity, hroom, hsame,
            or_iff_right hfull]
      · obtain ⟨hlength, hcapacity, hsame, -⟩ := d.appendBack_stays piece
        rw [if_pos hfits, ih (hadded fun hmore => absurd hmore (Nat.not_lt_of_le hfits)) hpieces, Takes,
          add_of_fits hpiece hfits, hlength, hcapacity, hsame, room_appendBack, Nat.min_eq_left hfits]

/-! ### The whole source -/

theorem flatten_filled (data : SliceDeque) : (data.filled.map Slice.data).flatten = data.toString := by
  rw [filled, toString]
  induction data.slices with
  | nil => rfl
  | cons slice slices ih =>
      rw [List.filter_cons, List.flatMap_cons, ← ih]
      split_ifs with hfilled
      · rfl
      · have hnone : slice.reservable = 0 := by simpa using hfilled
        have hdata : slice.data = [] := by
          rw [Slice.data, hnone]
          exact List.length_eq_zero_iff.mp (Nat.le_zero.mp (slice.length_read_le 0))
        rw [hdata, List.nil_append]

theorem length_addAll (d : SliceDeque) (pieces : List Bytes) :
    (pieces.foldl (add grow) d).length = d.length + pieces.flatten.length := by
  induction pieces generalizing d with
  | nil => rfl
  | cons piece pieces ih =>
      rw [List.foldl_cons, ih, length_add, List.flatten_cons, List.length_append, Nat.add_assoc]

section Source

variable {copied : Bytes} (hdata : data.Holds copied)
include hdata

theorem length_filled : ∀ slice ∈ data.filled, slice.data.length = slice.reservable ∧ slice.data ≠ [] := by
  intro slice hslice
  obtain ⟨hin, hsome⟩ := List.mem_filter.mp hslice
  have hlength := (hdata.owned slice hin).length_data
  refine ⟨hlength, fun hnone => ?_⟩
  rw [hnone, List.length_nil] at hlength
  rw [← hlength] at hsome
  exact absurd hsome (by decide)

theorem addBuffer_eq (d : SliceDeque) :
    d.addBuffer grow data = ((data.filled.take kMaxSlices).map Slice.data).foldl (add grow) d := by
  rw [addBuffer]
  split_ifs with hempty
  · have hnone : data.filled = [] := by
      have hflat := data.flatten_filled
      rw [hdata.makes, List.length_eq_zero_iff.mp (hdata.counts.symm.trans hempty), List.flatten_eq_nil_iff] at hflat
      apply List.eq_nil_iff_forall_not_mem.mpr
      intro slice hslice
      exact (length_filled hdata slice hslice).2 (hflat _ (List.mem_map_of_mem hslice))
    rw [hnone]
    rfl
  · rfl

/-- **A buffer is copied** as a whole just if at most sixteen of its slices hold something, and the vector it is
copied to takes what is added. -/
theorem holds_addBuffer_iff (h : d.Holds text) :
    (d.addBuffer grow data).Holds (text ++ copied) ↔
      data.filled.length ≤ kMaxSlices ∧ d.Takes (data.filled.map Slice.reservable) := by
  have hpieces : ∀ piece ∈ (data.filled.take kMaxSlices).map Slice.data, piece ≠ [] := by
    intro piece hpiece
    obtain ⟨slice, hslice, rfl⟩ := List.mem_map.mp hpiece
    exact (length_filled hdata slice (List.mem_of_mem_take hslice)).2
  have hcopied : (data.filled.map Slice.data).flatten = copied := data.flatten_filled.trans hdata.makes
  rw [addBuffer_eq hdata]
  by_cases hfew : data.filled.length ≤ kMaxSlices
  · have hsizes : (data.filled.map Slice.data).map List.length = data.filled.map Slice.reservable := by
      rw [List.map_map]
      exact List.map_congr_left fun slice hslice => (length_filled hdata slice hslice).1
    rw [List.take_of_length_le hfew] at hpieces ⊢
    rw [← hcopied, holds_addAll_iff h _ hpieces, hsizes, and_iff_right hfew]
  · refine iff_of_false (fun hholds => ?_) fun hboth => hfew hboth.1
    -- what is behind the sixteenth slice is missing
    have hlength := hholds.counts
    have hsplit := congrArg List.length hcopied
    rw [← List.take_append_drop kMaxSlices data.filled, List.map_append, List.flatten_append,
      List.length_append] at hsplit
    rw [length_addAll, List.length_append, h.counts] at hlength
    have hnone : ((data.filled.drop kMaxSlices).map Slice.data).flatten = [] :=
      List.length_eq_zero_iff.mp (by omega)
    rw [List.flatten_eq_nil_iff] at hnone
    obtain ⟨slice, hslice⟩ := List.exists_mem_of_ne_nil (data.filled.drop kMaxSlices)
      fun hdropped => hfew (List.drop_eq_nil_iff.mp hdropped)
    exact (length_filled hdata slice (List.mem_of_mem_drop hslice)).2 (hnone _ (List.mem_map_of_mem hslice))

end Source

/-- Fragments of one byte each. -/
def ones (count : Nat) : SliceDeque :=
  (List.replicate count (ascii "x")).foldl (addBufferFragment (2 * ·)) empty

theorem holds_one : (ones 1).Holds (ascii "x") :=
  holds_empty.pushBack (Slice.owned_ofFragment _) (fun hinline => by cases hinline)
    fun _ slice hslice => absurd hslice List.not_mem_nil

theorem holds_addBuffer_iff_one :
    (empty.addBuffer (2 * ·) (ones 1)).Holds ([] ++ ascii "x") ↔
      (ones 1).filled.length ≤ kMaxSlices ∧ empty.Takes ((ones 1).filled.map Slice.reservable) :=
  holds_addBuffer_iff holds_one holds_empty

/-- Of seventeen fragments, sixteen are copied. -/
theorem not_holds_seventeen : ¬ (empty.addBuffer (2 * ·) (ones 17)).Holds ([] ++ (ones 17).toString) := by
  intro hholds
  have hlength := hholds.counts
  rw [addBuffer, if_neg (by decide), length_addAll] at hlength
  exact absurd hlength (by decide)

end SliceDeque

namespace WatermarkBuffer

variable {grow : Nat → Nat}

theorem buffer_checkWatermarks (w : WatermarkBuffer) (oldSize : Nat) :
    (w.checkWatermarks oldSize).buffer = w.buffer := by
  unfold checkWatermarks checkLow checkHigh checkOverflow
  split_ifs <;> rfl

/-- A buffer with watermarks is copied to like any other. -/
theorem buffer_addBuffer (w : WatermarkBuffer) (data : SliceDeque) :
    (w.addBuffer grow data).buffer = w.buffer.addBuffer grow data := by
  have hpieces (pieces : List Bytes) (w : WatermarkBuffer) :
      (pieces.foldl (add grow) w).buffer = pieces.foldl (SliceDeque.add grow) w.buffer := by
    induction pieces generalizing w with
    | nil => rfl
    | cons piece pieces ih =>
        rw [List.foldl_cons, ih, List.foldl_cons, add, buffer_checkWatermarks]
        rfl
  rw [addBuffer, buffer_checkWatermarks, addPieces, SliceDeque.addBuffer]
  split_ifs
  · rfl
  · exact hpieces _ w

end WatermarkBuffer

end GopherMcp
