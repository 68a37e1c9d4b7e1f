import GopherMcp.Buffer.Holding

/-!
# Reserving, writing, committing

A reservation is made in the first slice that has room, and committed to the last one. So what was written is
appended where these are the same slice, as they are when one is added for the reservation.
-/

namespace GopherMcp

namespace SliceDeque

/-- Bytes are written to the memory of a raw slice. -/
def fill (d : SliceDeque) (raw : RawSlice) (bytes : Bytes) : SliceDeque :=
  match d.slices[raw.place]? with
  | some slice => { d with slices := d.slices.set raw.place (slice.write raw.distance bytes) }
  | none => d

/-- A reservation that bytes are written to and that is committed; none where something throws. -/
def reserveWriteCommit (grow : Nat → Nat) (d : SliceDeque) (bytes : Bytes) : Option SliceDeque :=
  let (d, reservation) := d.reserveForRead grow
  reservation.bind fun raw => (d.fill raw bytes).commitReservation raw bytes.length

def reservationLength (grow : Nat → Nat) (d : SliceDeque) : Nat :=
  ((d.reserveForRead grow).2.map RawSlice.len).getD 0

/-- The place of the first slice that has room. -/
def firstRoom (d : SliceDeque) : Option Nat :=
  d.slices.findIdx? fun slice => !slice.immutable && 0 < slice.reservableSize

/-- The bytes are appended. -/
def Appends (grow : Nat → Nat) (d : SliceDeque) (text bytes : Bytes) : Prop :=
  ∃ after, d.reserveWriteCommit grow bytes = some after ∧ after.Holds (text ++ bytes)

/-- Only the last slice has room if anything is written, and the vector can grow if none has. -/
structure RoomAtEnd (d : SliceDeque) (bytes : Bytes) : Prop where
  last : ∀ place, d.firstRoom = some place → bytes = [] ∨ place + 1 = d.slices.length
  grows : d.firstRoom = none → d.slices.length = d.capacity → d.Movable

variable {d : SliceDeque} {grow : Nat → Nat} {text bytes : Bytes}

/-! ### Writing to the last slice -/

theorem write_nil (slice : Slice) (place : Nat) : slice.write place [] = slice := by
  have hsame (block : Bytes) (offset : Nat) : Windows.overwrite block offset [] = block := by
    simp [Windows.overwrite]
  unfold Slice.write
  split <;> simp only [hsame]

theorem fill_nil (d : SliceDeque) (raw : RawSlice) : d.fill raw [] = d := by
  unfold fill
  split
  · next slice hslice =>
      rw [write_nil]
      obtain ⟨hplace, heq⟩ := List.getElem?_eq_some_iff.mp hslice
      rw [← heq, List.set_getElem_self]
  · rfl

theorem commitReservation_nil (d : SliceDeque) (raw : RawSlice) :
    (d.fill raw []).commitReservation raw ([] : Bytes).length = some d := by
  rw [fill_nil]
  simp [commitReservation]

/-- What is written to the last slice, and committed to it, is appended. -/
theorem commit_last {before : List Slice} {slice : Slice} {len : Nat} (hslices : d.slices = before ++ [slice])
    (hmutable : slice.immutable = false) (hlen : len ≤ slice.reservableSize) (hbytes : bytes.length ≤ len)
    (hsome : bytes ≠ []) :
    (d.fill ⟨before.length, slice.reservable, len⟩ bytes).commitReservation
        ⟨before.length, slice.reservable, len⟩ bytes.length = some (d.appendBack bytes).1 := by
  have hlength : bytes.length ≠ 0 := fun hnone => hsome (List.length_eq_zero_iff.mp hnone)
  have hfits : min bytes.length slice.reservableSize = bytes.length := Nat.min_eq_left (hbytes.trans hlen)
  have hfilled : d.fill ⟨before.length, slice.reservable, len⟩ bytes =
      { d with slices := before ++ [slice.write slice.reservable bytes] } := by
    simp [fill, hslices]
  have hcommitted : (slice.write slice.reservable bytes).commit ⟨before.length, slice.reservable, len⟩ bytes.length =
      some (slice.append bytes).1 := by
    have himmutable : (slice.write slice.reservable bytes).immutable = false :=
      (Slice.immutable_write _ _ _).trans hmutable
    have hsize : (slice.write slice.reservable bytes).reservable = slice.reservable := Slice.reservable_write _ _ _
    simp [Slice.commit, Slice.append, himmutable, hmutable, hsize, hfits, Nat.not_lt_of_le hbytes]
  have hcopied : (slice.append bytes).2 = bytes.length := (slice.append_snd bytes).trans hfits
  rw [hfilled, appendBack_concat hslices, hcopied, commitReservation, if_neg (Nat.not_lt_of_le hbytes), if_neg hlength,
    if_neg (by simp), Nat.min_eq_left hbytes, commitAt]
  simp [hcommitted]

/-- Writing to the last slice of a buffer that holds a text. -/
theorem Holds.commit_last (h : d.Holds text) {before : List Slice} {slice : Slice} {len : Nat}
    (hslices : d.slices = before ++ [slice]) (hmutable : slice.immutable = false) (hlen : len ≤ slice.reservableSize)
    (hbytes : bytes.length ≤ len) :
    ∃ after, (d.fill ⟨before.length, slice.reservable, len⟩ bytes).commitReservation
        ⟨before.length, slice.reservable, len⟩ bytes.length = some after ∧ after.Holds (text ++ bytes) := by
  by_cases hsome : bytes = []
  · rw [hsome, List.append_nil]
    exact ⟨d, commitReservation_nil d _, h⟩
  · refine ⟨_, SliceDeque.commit_last hslices hmutable hlen hbytes hsome, ?_⟩
    have happended := h.appendBack bytes
    rwa [room_concat hslices, List.take_of_length_le (hbytes.trans hlen)] at happended

/-- What was lost is not found again by committing to the last slice. -/
theorem Lost.commit_last (h : d.Lost) {before : List Slice} {slice : Slice} {len : Nat}
    (hslices : d.slices = before ++ [slice]) (hmutable : slice.immutable = false) (hlen : len ≤ slice.reservableSize)
    (hbytes : bytes.length ≤ len) {after : SliceDeque}
    (hafter : (d.fill ⟨before.length, slice.reservable, len⟩ bytes).commitReservation
      ⟨before.length, slice.reservable, len⟩ bytes.length = some after) : after.Lost := by
  by_cases hsome : bytes = []
  · rw [hsome, commitReservation_nil] at hafter
    cases hafter
    exact h
  · rw [SliceDeque.commit_last hslices hmutable hlen hbytes hsome] at hafter
    cases hafter
    exact (appendBack_stays d bytes).2.2.2 h

/-- A reservation in another slice than the last is refused when it is committed. -/
theorem commit_earlier {raw : RawSlice} (hplace : raw.place + 1 ≠ d.slices.length) (hin : raw.place < d.slices.length)
    (hsome : bytes ≠ []) : (d.fill raw bytes).commitReservation raw bytes.length = none := by
  have hlength : (d.fill raw bytes).slices.length = d.slices.length := by
    unfold fill
    split
    · exact List.length_set ..
    · rfl
  have hbytes : bytes.length ≠ 0 := fun hnone => hsome (List.length_eq_zero_iff.mp hnone)
  rw [commitReservation]
  split_ifs with hlong hother
  · rfl
  · rfl
  · rw [hlength] at hother
    omega

/-! ### Reserving -/

/-- What a slice that has room offers. -/
theorem reserveForRead_of_room {place : Nat} (h : d.firstRoom = some place) :
    ∃ before slice after, d.slices = before ++ slice :: after ∧ before.length = place ∧ slice.immutable = false ∧
      d.reserveForRead grow = (d, some ⟨place, slice.reservable, slice.reservableSize⟩) := by
  obtain ⟨hplace, hroom, -⟩ := List.findIdx?_eq_some_iff_getElem.mp h
  rw [Bool.and_eq_true, Bool.not_eq_true'] at hroom
  refine ⟨d.slices.take place, d.slices[place], d.slices.drop (place + 1), ?_, ?_, hroom.1, ?_⟩
  · rw [List.cons_getElem_drop_succ, List.take_append_drop]
  · exact List.length_take_of_le hplace.le
  · have hfind := h
    unfold firstRoom at hfind
    rw [reserveForRead, hfind]
    simp [List.getElem?_eq_getElem hplace, Slice.reserve, hroom.1]

/-- The slice that is added where no other has room. -/
def readSlice : Slice := Slice.ofSize (min kDefaultReservationSize kDefaultSliceSize)

theorem data_readSlice : readSlice.data = [] := Slice.data_ofSize _

theorem immutable_readSlice : readSlice.immutable = false := rfl

theorem reserveForRead_of_none (h : d.firstRoom = none) :
    d.reserveForRead grow =
      (d.pushBack grow readSlice, some ⟨d.slices.length, readSlice.reservable, kDefaultReservationSize⟩) := by
  unfold firstRoom at h
  rw [reserveForRead, h]
  rfl

theorem kDefaultReservationSize_le : kDefaultReservationSize ≤ readSlice.reservableSize :=
  Slice.le_capacity_ofSize kDefaultReservationSize

/-- The new slice is the last one. -/
theorem pushBack_readSlice (d : SliceDeque) :
    ∃ before, (d.pushBack grow readSlice).slices = before ++ [readSlice] ∧ before.length = d.slices.length := by
  refine ⟨if d.slices.length = d.capacity then d.slices.map Slice.moved else d.slices, ?_, ?_⟩
  · rw [pushBack, readSlice, Slice.moved_ofSize]
  · split_ifs
    · exact List.length_map ..
    · rfl

theorem appends_of_room {place : Nat} (h : d.Holds text) (hfirst : d.firstRoom = some place)
    (hbytes : bytes.length ≤ d.reservationLength grow) :
    d.Appends grow text bytes ↔ bytes = [] ∨ place + 1 = d.slices.length := by
  obtain ⟨before, slice, after, hslices, hplace, hmutable, hreserve⟩ := @reserveForRead_of_room d grow place hfirst
  have hcount : d.slices.length = place + 1 + after.length := by
    rw [hslices, List.length_append, List.length_cons, hplace]
    omega
  rw [reservationLength, hreserve] at hbytes
  rw [Appends, reserveWriteCommit, hreserve]
  constructor
  · rintro ⟨result, hresult, -⟩
    by_contra hnot
    push Not at hnot
    have hrefused := @commit_earlier d bytes ⟨place, slice.reservable, slice.reservableSize⟩ hnot.2
      (show place < d.slices.length by omega) hnot.1
    exact Option.some_ne_none result (hresult.symm.trans hrefused)
  · rintro (rfl | hlast)
    · rw [List.append_nil]
      exact ⟨d, commitReservation_nil d _, h⟩
    · have hnone : after = [] := List.length_eq_zero_iff.mp (by omega)
      rw [hnone] at hslices
      rw [← hplace]
      exact h.commit_last hslices hmutable (Nat.le_refl _) hbytes

theorem appends_of_none (h : d.Holds text) (hfirst : d.firstRoom = none)
    (hbytes : bytes.length ≤ d.reservationLength grow) :
    d.Appends grow text bytes ↔ (d.slices.length = d.capacity → d.Movable) := by
  obtain ⟨before, hslices, hplace⟩ := @pushBack_readSlice grow d
  rw [reservationLength, reserveForRead_of_none hfirst] at hbytes
  rw [Appends, reserveWriteCommit, reserveForRead_of_none hfirst, ← hplace]
  constructor
  · rintro ⟨result, hresult, hholds⟩ hfull
    by_contra hnot
    have hlost : (d.pushBack grow readSlice).Lost := lost_pushBack (hplace.symm.trans hfull) hnot _
    exact hholds.not_lost (hlost.commit_last hslices immutable_readSlice kDefaultReservationSize_le hbytes hresult)
  · intro hmovable
    have hpushed : (d.pushBack grow readSlice).Holds (text ++ readSlice.data) :=
      h.pushBack (Slice.owned_ofSize _) (rooted_ofSize _) fun hfull => hmovable (hplace.trans hfull)
    rw [data_readSlice, List.append_nil] at hpushed
    exact hpushed.commit_last hslices immutable_readSlice kDefaultReservationSize_le hbytes

/-- **Reserve, write, commit is append** just where the first slice that has room is the last, or none has and the
vector can grow. -/
theorem appends_iff (h : d.Holds text) (hbytes : bytes.length ≤ d.reservationLength grow) :
    d.Appends grow text bytes ↔ d.RoomAtEnd bytes := by
  cases hfirst : d.firstRoom with
  | some place =>
      rw [appends_of_room h hfirst hbytes]
      constructor
      · intro hlast
        refine ⟨fun other hother => ?_, fun hnone => absurd (hnone.symm.trans hfirst) (Option.some_ne_none _).symm⟩
        rwa [Option.some.inj (hfirst.symm.trans hother)] at hlast
      · exact fun hend => hend.last place hfirst
  | none =>
      rw [appends_of_none h hfirst hbytes]
      constructor
      · exact fun hgrows =>
          ⟨fun place hplace => absurd (hfirst.symm.trans hplace) (Option.some_ne_none _).symm, fun _ => hgrows⟩
      · exact fun hend => hend.grows hfirst

/-- A byte in an inline array, and a fragment behind it. -/
def fragmentBehind : SliceDeque := (empty.prepend (2 * ·) (ascii "a")).addBufferFragment (2 * ·) (ascii "b")

theorem reservationLength_empty : empty.reservationLength grow = kDefaultReservationSize := by
  rw [reservationLength, reserveForRead_of_none rfl]
  rfl

theorem appends_iff_empty : empty.Appends (2 * ·) [] (ascii "a") ↔ empty.RoomAtEnd (ascii "a") :=
  appends_iff holds_empty (by rw [reservationLength_empty]; decide)

theorem firstRoom_fragmentBehind : fragmentBehind.firstRoom = some 0 := by decide

theorem holds_fragmentBehind : fragmentBehind.Holds (ascii "ab") := by
  have hcareful : fragmentBehind.Careful := by
    simp only [Careful]
    decide
  have hprepended : Acts empty (empty.prepend (2 * ·) (ascii "a")) (ascii "a" ++ ·) := acts_prepend empty (ascii "a")
  have hacts := hprepended.trans (@acts_addBufferFragment (2 * ·) _ (ascii "b"))
  have hholds := (hacts.sound hcareful sound_empty).holds
  rw [hacts.text hcareful sound_empty] at hholds
  exact hholds

/-- The room is in the first slice, and the second is committed to. -/
theorem not_appends_fragmentBehind :
    ¬ ∀ (d : SliceDeque) (text bytes : Bytes), d.Holds text → bytes.length ≤ d.reservationLength (2 * ·) →
      d.Appends (2 * ·) text bytes := by
  intro hall
  have happends := hall fragmentBehind (ascii "ab") (ascii "c") holds_fragmentBehind (by decide)
  have hlast := (appends_of_room holds_fragmentBehind firstRoom_fragmentBehind (by decide)).mp happends
  exact absurd hlast (by decide)

end SliceDeque

end GopherMcp
