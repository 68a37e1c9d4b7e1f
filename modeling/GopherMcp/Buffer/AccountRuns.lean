import GopherMcp.Buffer.Accounts

/-!
# What an account is off by

An account is right where what was charged to it is credited or held. Slices for small sizes hold more than
was charged for them, since they have their inline array, and bytes that are drained are never credited. So an
account is off from the first operation on that does either.
-/

namespace GopherMcp

namespace AccountedBuffer

variable {b : AccountedBuffer} {grow : Nat → Nat}

/-! ### What the slices hold -/

/-- The total capacity of some slices. -/
def capacityOf (slices : List Slice) : Nat := (slices.map Slice.capacity).sum

def held (b : AccountedBuffer) : Nat := capacityOf b.slices.slices

/-- What was charged for and is neither held nor credited; negative where more is held or credited. -/
def imbalance (b : AccountedBuffer) : Int := b.account.charged - b.account.credited - b.held

theorem capacityOf_append (slices others : List Slice) :
    capacityOf (slices ++ others) = capacityOf slices + capacityOf others := by
  rw [capacityOf, List.map_append, List.sum_append]
  rfl

theorem capacityOf_cons (slice : Slice) (slices : List Slice) :
    capacityOf (slice :: slices) = slice.capacity + capacityOf slices :=
  List.sum_cons

theorem capacityOf_map_moved (slices : List Slice) : capacityOf (slices.map Slice.moved) = capacityOf slices := by
  rw [capacityOf, List.map_map]
  exact congrArg List.sum (List.map_congr_left fun slice _ => Slice.capacity_moved slice)

theorem capacityOf_pushBack (d : SliceDeque) (slice : Slice) :
    capacityOf (d.pushBack grow slice).slices = capacityOf d.slices + slice.capacity := by
  have hkept : capacityOf (if d.slices.length = d.capacity then d.slices.map Slice.moved else d.slices) =
      capacityOf d.slices := by
    split_ifs
    · exact capacityOf_map_moved d.slices
    · rfl
  rw [SliceDeque.pushBack, capacityOf_append, hkept, capacityOf_cons, Slice.capacity_moved]
  rfl

theorem capacityOf_pushFront (d : SliceDeque) (slice : Slice) :
    capacityOf (d.pushFront grow slice).slices = slice.capacity + capacityOf d.slices := by
  rw [SliceDeque.pushFront, capacityOf_cons, Slice.capacity_moved, capacityOf_map_moved]

theorem capacity_append (slice : Slice) (bytes : Bytes) : (slice.append bytes).1.capacity = slice.capacity := by
  rw [Slice.append]
  split_ifs
  · rfl
  · exact Slice.capacity_write _ _ _

theorem capacity_prepend (slice : Slice) (bytes : Bytes) : (slice.prepend bytes).1.capacity = slice.capacity := by
  rw [Slice.prepend]
  split_ifs
  · rfl
  · exact (Slice.capacity_write _ _ _).trans (Slice.capacity_write _ _ _)

theorem capacityOf_appendBack (d : SliceDeque) (bytes : Bytes) :
    capacityOf (d.appendBack bytes).1.slices = capacityOf d.slices := by
  obtain hsame | ⟨slices, back, hslices, happended⟩ := d.appendBack_cases bytes
  · rw [hsame]
  · rw [happended, hslices, capacityOf_append, capacityOf_append, capacityOf_cons, capacityOf_cons, capacity_append]

theorem capacityOf_commitAt {d d' : SliceDeque} {place size : Nat} {raw : RawSlice}
    (h : d.commitAt place raw size = some d') : capacityOf d'.slices = capacityOf d.slices := by
  obtain ⟨slice, hslice, hcommitted⟩ := Option.bind_eq_some_iff.mp h
  obtain ⟨committed, hcommit, hd'⟩ := Option.map_eq_some_iff.mp hcommitted
  have hsame : committed.capacity = slice.capacity := by
    rw [Slice.commit] at hcommit
    split_ifs at hcommit
    rw [← Option.some.inj hcommit]
  obtain ⟨hplace, hget⟩ := List.getElem?_eq_some_iff.mp hslice
  have hin : place < (d.slices.map Slice.capacity).length := by rwa [List.length_map]
  have hmapped : (d.slices.map Slice.capacity)[place] = slice.capacity := by rw [List.getElem_map, hget]
  rw [← hd', capacityOf, List.map_set, hsame, ← hmapped, List.set_getElem_self hin]
  rfl

theorem capacityOf_commitReservation {d d' : SliceDeque} {size : Nat} {raw : RawSlice}
    (h : d.commitReservation raw size = some d') : capacityOf d'.slices = capacityOf d.slices := by
  rw [SliceDeque.commitReservation] at h
  split_ifs at h
  · rw [Option.some.inj h]
  · exact capacityOf_commitAt h

theorem capacityOf_commit {d d' : SliceDeque} {size : Nat} {raw : RawSlice}
    (h : d.commit raw size = some d') : capacityOf d'.slices = capacityOf d.slices := by
  rw [SliceDeque.commit] at h
  split_ifs at h
  exact capacityOf_commitAt h

/-! ### What one operation changes -/

/-- How far the capacity of a new slice is from the size it is charged at. -/
def shortfall (size : Nat) : Int := size - (Slice.ofSize size).capacity

theorem shortfall_eq_zero_iff {size : Nat} : shortfall size = 0 ↔ kInlineDataSize ≤ size := by
  simp only [shortfall, Slice.ofSize]
  split_ifs with hsmall <;> omega

theorem imbalance_charge (b : AccountedBuffer) (size : Nat) :
    (b.charge size).imbalance = b.imbalance + size := by
  simp only [imbalance, charge, held]
  push_cast
  ring

theorem imbalance_credit (b : AccountedBuffer) (size : Nat) :
    (b.credit size).imbalance = b.imbalance - size := by
  simp only [imbalance, credit, held]
  push_cast
  ring

/-- With other slices a buffer is off by what these hold more or less. -/
theorem imbalance_slices (b : AccountedBuffer) (slices : SliceDeque) :
    { b with slices }.imbalance = b.imbalance + b.held - capacityOf slices.slices := by
  simp only [imbalance, held]
  ring

theorem imbalance_addTurns (turns : Nat) (b : AccountedBuffer) (bytes : Bytes) :
    (b.addTurns grow turns bytes).imbalance = b.imbalance := by
  induction turns generalizing b bytes with
  | zero => rfl
  | succ turns ih =>
      have hkept := capacityOf_appendBack b.slices bytes
      rw [addTurns]
      split_ifs with hnone
      · rfl
      · generalize b.slices.appendBack bytes = appended at hkept
        obtain ⟨slices, left⟩ := appended
        simp only at hkept ⊢
        split_ifs with hdone
        · rw [imbalance_slices, hkept, held]
          ring
        · have hlarge : (Slice.ofSize (max left.length kDefaultSliceSize)).capacity =
              max left.length kDefaultSliceSize := by
            have hinline : ¬max left.length kDefaultSliceSize ≤ kInlineDataSize := by
              unfold kDefaultSliceSize kInlineDataSize
              omega
            exact if_neg hinline
          rw [ih, imbalance_charge, imbalance_slices, capacityOf_pushBack, hkept, hlarge, held]
          push_cast
          ring

theorem imbalance_addBufferFragment (b : AccountedBuffer) (fragment : Bytes) :
    (b.addBufferFragment grow fragment).imbalance = b.imbalance := by
  have hcapacity : (Slice.ofFragment fragment).capacity = fragment.length := rfl
  rw [addBufferFragment, imbalance_charge, imbalance_slices, capacityOf_pushBack, hcapacity, held]
  push_cast
  ring

/-- Whether the first slice has room for all the bytes before its data. -/
def takesInFront (d : SliceDeque) (bytes : Bytes) : Bool :=
  d.slices.head?.any fun front => !front.immutable && bytes.length ≤ front.capacity - front.reservable

theorem imbalance_prependSlice (b : AccountedBuffer) (bytes : Bytes) :
    (b.prependSlice grow bytes).imbalance = b.imbalance + shortfall bytes.length := by
  rw [prependSlice, imbalance_charge, imbalance_slices, capacityOf_pushFront, capacity_append, held, shortfall]
  push_cast
  ring

theorem imbalance_prepend (b : AccountedBuffer) (bytes : Bytes) :
    (b.prepend grow bytes).imbalance =
      b.imbalance + if bytes = [] ∨ takesInFront b.slices bytes then 0 else shortfall bytes.length := by
  rw [prepend]
  by_cases hnone : bytes = []
  · rw [if_pos hnone, if_pos (Or.inl hnone), add_zero]
  rw [if_neg hnone]
  cases hslices : b.slices.slices with
  | nil =>
      have htakes : ¬(bytes = [] ∨ takesInFront b.slices bytes = true) := by
        simp [takesInFront, hslices, hnone]
      rw [if_neg htakes]
      exact imbalance_prependSlice b bytes
  | cons front rest =>
      have htakes : takesInFront b.slices bytes =
          (!front.immutable && decide (bytes.length ≤ front.capacity - front.reservable)) := by
        simp [takesInFront, hslices]
      simp only
      by_cases himmutable : front.immutable = true
      · rw [if_pos himmutable, imbalance_prependSlice, if_neg (by simp [htakes, himmutable, hnone])]
      rw [if_neg himmutable]
      by_cases hroom : bytes.length ≤ front.capacity - front.reservable
      · have hopened := capacity_prepend front bytes
        have hall : (front.prepend bytes).2 = bytes.length := by
          rw [Slice.prepend, if_neg (by simp [himmutable, hroom])]
        rw [if_pos hall, imbalance_slices, if_pos (Or.inr (by simp [htakes, himmutable, hroom])), held,
          SliceDeque.modifyFront, hslices, List.modifyHead_cons]
        simp only [capacityOf_cons, hopened]
        ring
      · have hrefused : front.prepend bytes = (front, 0) := by
          rw [Slice.prepend, if_pos (Or.inr (by omega))]
        have hpart : ¬0 = bytes.length := fun h => hnone (List.eq_nil_of_length_eq_zero h.symm)
        have hkept : b.slices.modifyFront (fun _ => front) = b.slices := by
          rw [SliceDeque.modifyFront, hslices, List.modifyHead_cons, ← hslices]
        have hnew : ¬(bytes = [] ∨ takesInFront b.slices bytes = true) := by simp [htakes, hroom, hnone]
        simp only [hrefused, hkept, if_neg hpart, if_neg hnew, List.drop_zero]
        exact imbalance_prependSlice b bytes

/-! ### Slices that hold no more than they can -/

def Roomy (d : SliceDeque) : Prop := ∀ slice ∈ d.slices, slice.reservable ≤ slice.capacity

variable {d : SliceDeque}

theorem moved_roomy {slices : List Slice} (h : ∀ slice ∈ slices, slice.reservable ≤ slice.capacity) :
    ∀ slice ∈ slices.map Slice.moved, slice.reservable ≤ slice.capacity := by
  intro slice hslice
  obtain ⟨before, hbefore, rfl⟩ := List.mem_map.mp hslice
  rw [Slice.reservable_moved, Slice.capacity_moved]
  exact h before hbefore

theorem Roomy.pushBack (h : Roomy d) {slice : Slice} (hslice : slice.reservable ≤ slice.capacity) :
    Roomy (d.pushBack grow slice) := by
  intro other hother
  rw [SliceDeque.pushBack] at hother
  obtain hold | hnew := List.mem_append.mp hother
  · split_ifs at hold
    · exact moved_roomy h other hold
    · exact h other hold
  · rw [List.mem_singleton.mp hnew, Slice.reservable_moved, Slice.capacity_moved]
    exact hslice

theorem Roomy.pushFront (h : Roomy d) {slice : Slice} (hslice : slice.reservable ≤ slice.capacity) :
    Roomy (d.pushFront grow slice) := by
  intro other hother
  rw [SliceDeque.pushFront] at hother
  obtain rfl | hold := List.mem_cons.mp hother
  · rw [Slice.reservable_moved, Slice.capacity_moved]
    exact hslice
  · exact moved_roomy h other hold

theorem append_roomy {slice : Slice} (h : slice.reservable ≤ slice.capacity) (bytes : Bytes) :
    (slice.append bytes).1.reservable ≤ (slice.append bytes).1.capacity := by
  have hcopied := slice.append_snd bytes
  have hroom : slice.reservableSize ≤ slice.capacity - slice.reservable := by
    rw [Slice.reservableSize]
    split_ifs <;> omega
  rw [Slice.reservable_append, capacity_append]
  omega

theorem Roomy.appendBack (h : Roomy d) (bytes : Bytes) : Roomy (d.appendBack bytes).1 := by
  obtain hsame | ⟨slices, back, hslices, happended⟩ := d.appendBack_cases bytes
  · rwa [hsame]
  · rw [happended]
    intro slice hslice
    obtain hold | hnew := List.mem_append.mp hslice
    · exact h slice (by rw [hslices]; exact List.mem_append_left _ hold)
    · rw [List.mem_singleton.mp hnew]
      exact append_roomy (h back (by simp [hslices])) bytes

theorem Roomy.add (h : Roomy d) (bytes : Bytes) : Roomy (d.add grow bytes) := by
  obtain ⟨-, hadd⟩ | ⟨-, hadd⟩ | ⟨size, -, hadd⟩ := @SliceDeque.add_cases grow d bytes
  · rwa [hadd]
  · rw [hadd]
    exact h.appendBack bytes
  · rw [hadd]
    exact ((h.appendBack bytes).pushBack (Nat.zero_le _)).appendBack _

theorem Roomy.prepend (h : Roomy d) (bytes : Bytes) : Roomy (d.prepend grow bytes) := by
  obtain ⟨-, hsame⟩ | ⟨front, rest, hslices, hall, hfront⟩ | hpushed := @SliceDeque.prepend_cases grow d bytes
  · rwa [hsame]
  · rw [hfront]
    intro slice hslice
    obtain rfl | hold := List.mem_cons.mp hslice
    · have hbefore := h front (by simp [hslices])
      rw [Slice.reservable_prepend, capacity_prepend]
      rw [Slice.prepend] at hall ⊢
      split_ifs at hall ⊢ with hrefused
      · exact hbefore
      · simp only [not_or] at hrefused ⊢
        omega
    · exact h slice (by rw [hslices]; exact List.mem_cons_of_mem _ hold)
  · rw [hpushed]
    exact h.pushFront (append_roomy (Nat.zero_le _) bytes)

theorem Roomy.drainTurns (turns : Nat) (h : Roomy d) (size : Nat) : Roomy (d.drainTurns turns size) := by
  induction turns generalizing d size with
  | zero => exact h
  | succ turns ih =>
      rw [SliceDeque.drainTurns]
      split_ifs with hdone
      · exact h
      cases hslices : d.slices with
      | nil => exact h
      | cons front rest =>
          have hrest : ∀ slice ∈ rest, slice.reservable ≤ slice.capacity := fun slice hslice =>
            h slice (by rw [hslices]; exact List.mem_cons_of_mem _ hslice)
          simp only
          split_ifs with hwhole
          · rw [SliceDeque.eraseFront_modifyFront]
            apply ih
            intro slice hslice
            rw [SliceDeque.eraseFront, hslices] at hslice
            exact moved_roomy hrest slice hslice
          · intro slice hslice
            rw [SliceDeque.modifyFront, hslices] at hslice
            obtain rfl | hold := List.mem_cons.mp hslice
            · exact Nat.sub_le_sub_right (h front (by simp [hslices])) size
            · exact hrest slice hold

theorem Roomy.drain (h : Roomy d) (size : Nat) : Roomy (d.drain size) := by
  rw [SliceDeque.drain]
  split_ifs
  · exact h
  · exact h.drainTurns _ size

theorem Roomy.linearize (h : Roomy d) (size : Nat) : Roomy (d.linearize grow size) := by
  rw [SliceDeque.linearize]
  simp only
  split_ifs
  · exact h
  · exact h
  · refine (h.drain _).pushFront ?_
    rw [Slice.capacity_write]
    exact Slice.le_capacity_ofSize _

/-- A commit within the room a slice has leaves it holding no more than it can. -/
theorem Roomy.commitAt (h : Roomy d) {place size : Nat} {raw : RawSlice} {d' : SliceDeque}
    (hraw : ∀ slice, d.slices[place]? = some slice → raw.len ≤ slice.capacity - slice.reservable)
    (hcommit : d.commitAt place raw size = some d') : Roomy d' := by
  obtain ⟨slice, hslice, hcommitted⟩ := Option.bind_eq_some_iff.mp hcommit
  obtain ⟨committed, hslice', hd'⟩ := Option.map_eq_some_iff.mp hcommitted
  have hbefore := h slice (List.mem_of_getElem? hslice)
  have hroom := hraw slice hslice
  have hfits : committed.reservable ≤ committed.capacity := by
    rw [Slice.commit] at hslice'
    split_ifs at hslice' with himmutable hinvalid
    rw [← Option.some.inj hslice']
    simp only
    omega
  rw [← hd']
  intro other hother
  obtain hold | rfl := List.mem_or_eq_of_mem_set hother
  · exact h other hold
  · exact hfits

/-! ### Reserving and taking away -/

theorem getElem?_pushBack_last (d : SliceDeque) (slice : Slice) :
    (d.pushBack grow slice).slices[d.slices.length]? = some slice.moved := by
  obtain ⟨kept, hkept, hlength⟩ : ∃ kept,
      (if d.slices.length = d.capacity then d.slices.map Slice.moved else d.slices) = kept ∧
        kept.length = d.slices.length := by
    refine ⟨_, rfl, ?_⟩
    split_ifs
    · exact List.length_map _
    · rfl
  rw [SliceDeque.pushBack, hkept, ← hlength]
  exact List.getElem?_concat_length

/-- What a reservation does: it has the room of the slice it is made in. -/
theorem reserveForRead_cases (b : AccountedBuffer) (size : Nat) (hroomy : Roomy b.slices) :
    (b.reserveForRead grow size).imbalance = b.imbalance ∧ Roomy (b.reserveForRead grow size).slices := by
  obtain ⟨d, raw, charged, hafter, hbalanced, hd, hraw⟩ :
      ∃ (d : SliceDeque) (raw : RawSlice) (charged : AccountedBuffer),
        b.reserveForRead grow size = { charged with slices := (d.commitReservation raw size).getD d } ∧
          { charged with slices := d }.imbalance = b.imbalance ∧ Roomy d ∧
          ∀ slice, d.slices[raw.place]? = some slice → raw.len ≤ slice.capacity - slice.reservable := by
    cases hfirst : b.slices.firstRoom with
    | some place =>
        obtain ⟨before, slice, after, hslices, hplace, hmutable, hreserve⟩ :=
          @SliceDeque.reserveForRead_of_room b.slices grow place hfirst
        refine ⟨b.slices, ⟨place, slice.reservable, slice.reservableSize⟩, b, ?_, rfl, hroomy, ?_⟩
        · rw [reserveForRead, hreserve, hfirst]
          rfl
        · intro other hother
          rw [hslices, List.getElem?_append_right (by rw [hplace]), hplace, Nat.sub_self] at hother
          rw [← Option.some.inj hother, Slice.reservableSize, hmutable]
          exact Nat.le_refl _
    | none =>
        refine ⟨b.slices.pushBack grow SliceDeque.readSlice,
          ⟨b.slices.slices.length, SliceDeque.readSlice.reservable, kDefaultReservationSize⟩,
          b.charge kDefaultReservationSize, ?_, ?_, hroomy.pushBack (Nat.zero_le _), ?_⟩
        · rw [reserveForRead, SliceDeque.reserveForRead_of_none hfirst, hfirst]
          rfl
        · have hcapacity : SliceDeque.readSlice.capacity = kDefaultReservationSize := rfl
          have hheld : (b.charge kDefaultReservationSize).held = capacityOf b.slices.slices := rfl
          rw [imbalance_slices, imbalance_charge, hheld, capacityOf_pushBack, hcapacity]
          push_cast
          ring
        · intro other hother
          rw [getElem?_pushBack_last] at hother
          rw [← Option.some.inj hother, Slice.reservable_moved, Slice.capacity_moved]
          exact SliceDeque.kDefaultReservationSize_le
  rw [hafter]
  cases hcommit : d.commitReservation raw size with
  | none => exact ⟨hbalanced, hd⟩
  | some committed =>
      constructor
      · simp only [Option.getD_some, imbalance, held, capacityOf_commitReservation hcommit] at hbalanced ⊢
        exact hbalanced
      · rw [SliceDeque.commitReservation] at hcommit
        split_ifs at hcommit with hlong hnothing hother
        · cases hcommit
          exact hd
        · rw [Classical.not_not.mp hother] at hraw
          exact hd.commitAt hraw hcommit

theorem reserveSingleSlice_cases (b : AccountedBuffer) (length size : Nat) (hroomy : Roomy b.slices) :
    (b.reserveSingleSlice grow length size).imbalance = b.imbalance + shortfall length ∧
      Roomy (b.reserveSingleSlice grow length size).slices := by
  have hpushed : Roomy (b.slices.pushBack grow (Slice.ofSize length)) := hroomy.pushBack (Nat.zero_le _)
  have hheld : (b.charge length).held = capacityOf b.slices.slices := rfl
  have hbalanced (d : SliceDeque)
      (hsame : capacityOf d.slices = capacityOf (b.slices.pushBack grow (Slice.ofSize length)).slices) :
      { b.charge length with slices := d }.imbalance = b.imbalance + shortfall length := by
    rw [imbalance_slices, imbalance_charge, hheld, hsame, capacityOf_pushBack, shortfall]
    push_cast
    ring
  rw [reserveSingleSlice, SliceDeque.reserveSingleSlice]
  simp only
  cases hreserve : (Slice.ofSize length).reserve b.slices.slices.length length with
  | none => exact ⟨hbalanced _ rfl, hpushed⟩
  | some raw =>
      rw [Option.bind_some]
      cases hcommit : (b.slices.pushBack grow (Slice.ofSize length)).commit raw size with
      | none => exact ⟨hbalanced _ rfl, hpushed⟩
      | some committed =>
          refine ⟨hbalanced _ (capacityOf_commit hcommit), ?_⟩
          have hraw : raw = ⟨b.slices.slices.length, 0, length⟩ := by
            rw [Slice.reserve] at hreserve
            split_ifs at hreserve
            exact (Option.some.inj hreserve).symm
          rw [SliceDeque.commit] at hcommit
          split_ifs at hcommit with hfound
          refine hpushed.commitAt ?_ hcommit
          rw [hraw]
          intro other hother
          rw [getElem?_pushBack_last] at hother
          rw [← Option.some.inj hother, Slice.reservable_moved, Slice.capacity_moved]
          exact Slice.le_capacity_ofSize length

/-- **What draining loses.** A slice that goes is credited without the bytes that were drained off it. -/
theorem imbalance_drainTurns (turns : Nat) (b : AccountedBuffer) (size : Nat) (hroomy : Roomy b.slices)
    (hturns : b.slices.slices.length < turns) (hsize : size ≤ (b.slices.slices.map Slice.reservable).sum) :
    (b.drainTurns turns size).imbalance = b.imbalance + size := by
  induction turns generalizing b size with
  | zero => omega
  | succ turns ih =>
      rw [drainTurns]
      by_cases hdone : size = 0
      · rw [if_pos hdone, hdone]
        exact (add_zero _).symm
      rw [if_neg hdone]
      cases hslices : b.slices.slices with
      | nil =>
          rw [hslices] at hsize
          exact absurd (Nat.le_zero.mp hsize) hdone
      | cons front rest =>
          have hfront : front.reservable ≤ front.capacity := hroomy front (by simp [hslices])
          have hheld : b.held = front.capacity + capacityOf rest := by rw [held, hslices, capacityOf_cons]
          rw [hslices, List.map_cons, List.sum_cons] at hsize
          rw [hslices, List.length_cons] at hturns
          simp only
          by_cases hwhole : front.reservable ≤ size
          · rw [if_pos hwhole]
            simp only [slices_credit, SliceDeque.eraseFront_modifyFront]
            have hrest : b.slices.eraseFront.slices = rest.map Slice.moved := by
              rw [SliceDeque.eraseFront, hslices, List.tail_cons]
            rw [ih]
            · rw [imbalance_slices, imbalance_credit]
              have hcredit : (b.credit (front.drain front.reservable).capacity).held = b.held := rfl
              have hleft : (front.drain front.reservable).capacity = front.capacity - front.reservable := rfl
              have hgone : capacityOf b.slices.eraseFront.slices = capacityOf rest := by
                rw [hrest, capacityOf_map_moved]
              simp only [hgone]
              rw [hcredit, hheld, hleft]
              omega
            · intro slice hslice
              simp only [hrest] at hslice
              refine moved_roomy (fun other hother => hroomy other ?_) slice hslice
              rw [hslices]
              exact List.mem_cons_of_mem _ hother
            · simp only [hrest, List.length_map]
              omega
            · simp only [hrest, SliceDeque.reservable_map_moved]
              omega
          · rw [if_neg hwhole, imbalance_slices, SliceDeque.modifyFront, hslices, List.modifyHead_cons]
            have hleft : (front.drain size).capacity = front.capacity - size := rfl
            simp only [capacityOf_cons, hheld, hleft]
            omega

theorem imbalance_drain (b : AccountedBuffer) (size : Nat) (hroomy : Roomy b.slices) (hcounted : b.slices.Counted) :
    (b.drain size).imbalance = b.imbalance + if b.slices.length < size then (0 : Int) else size := by
  rw [drain]
  by_cases hover : b.slices.length < size
  · rw [if_pos hover, if_pos hover, add_zero]
  · rw [if_neg hover, if_neg hover]
    refine imbalance_drainTurns _ b size hroomy (Nat.lt_succ_self _) ?_
    rw [← hcounted]
    exact Nat.not_lt.mp hover

/-- The bytes that are put together were drained, and the slice they come into is not charged for. -/
theorem imbalance_linearize (b : AccountedBuffer) (size : Nat) (hroomy : Roomy b.slices)
    (hcounted : b.slices.Counted) :
    (b.linearize grow size).imbalance =
      b.imbalance +
        if min size b.slices.length = 0 ∨ isLinear b.slices (min size b.slices.length) then 0
        else shortfall (min size b.slices.length) := by
  rw [linearize]
  simp only
  by_cases hnothing : min size b.slices.length = 0
  · rw [if_pos hnothing, if_pos (Or.inl hnothing), add_zero]
  rw [if_neg hnothing]
  by_cases hlinear : isLinear b.slices (min size b.slices.length) = true
  · rw [if_pos hlinear, if_pos (Or.inr hlinear), add_zero]
  rw [if_neg hlinear, if_neg (not_or.mpr ⟨hnothing, hlinear⟩), imbalance_slices, capacityOf_pushFront,
    imbalance_drain b _ hroomy hcounted, if_neg (by omega), Slice.capacity_write, shortfall, held]
  push_cast
  ring

/-! ### Runs -/

/-- The operation credits what it charged: it makes no slice for fewer bytes than the inline array has, and
drains nothing. -/
def Even (b : AccountedBuffer) : AccountedBufferOp → Prop
  | .add _ | .addBufferFragment _ | .reserveForRead _ => True
  | .prepend bytes => bytes = [] ∨ takesInFront b.slices bytes ∨ kInlineDataSize ≤ bytes.length
  | .reserveSingleSlice length _ => kInlineDataSize ≤ length
  | .drain size => size = 0 ∨ b.slices.length < size
  | .linearize size =>
      min size b.slices.length = 0 ∨ isLinear b.slices (min size b.slices.length) ∨
        kInlineDataSize ≤ min size b.slices.length

/-- What was charged was credited or is held, so all of it was credited once nothing is held, and at no time
was more. -/
structure Conserved (b : AccountedBuffer) : Prop where
  conserved : b.account.charged = b.account.credited + b.held
  released : b.slices.slices = [] → b.account.charged = b.account.credited
  never_more : b.account.credited ≤ b.account.charged

theorem conserved_iff (b : AccountedBuffer) : b.Conserved ↔ b.imbalance = 0 := by
  constructor
  · intro h
    have hheld := h.conserved
    rw [imbalance]
    omega
  · intro h
    rw [imbalance] at h
    refine ⟨by omega, ?_, by omega⟩
    intro hslices
    have hnothing : b.held = 0 := by
      rw [held, hslices]
      rfl
    omega

/-- The invariant of every run: sizes add up, and no slice holds more than it can. -/
structure Sound (b : AccountedBuffer) : Prop where
  counted : b.slices.Counted
  roomy : Roomy b.slices

theorem counted_reserved {d' : SliceDeque} {committed : Option SliceDeque} {size : Nat} (h : d'.Counted)
    (hcommit : ∀ after, committed = some after → after.Counted ∧ after.length = d'.length + size) :
    (committed.getD d').Counted := by
  cases committed with
  | none => exact h
  | some after => exact (hcommit after rfl).1

theorem Sound.step {b : AccountedBuffer} (h : b.Sound) (op : AccountedBufferOp) : (b.step grow op).Sound := by
  obtain ⟨hcounted, hroomy⟩ := h
  cases op with
  | add bytes =>
      show (b.add grow bytes).Sound
      constructor
      · rw [slices_add]
        exact hcounted.add bytes
      · rw [slices_add]
        exact hroomy.add bytes
  | addBufferFragment fragment =>
      exact ⟨hcounted.pushBack _, hroomy.pushBack (Nat.le_refl _)⟩
  | prepend bytes =>
      show (b.prepend grow bytes).Sound
      constructor
      · rw [slices_prepend]
        exact hcounted.prepend bytes
      · rw [slices_prepend]
        exact hroomy.prepend bytes
  | reserveForRead size =>
      refine ⟨?_, (reserveForRead_cases b size hroomy).2⟩
      show (b.reserveForRead grow size).slices.Counted
      rw [reserveForRead]
      have hreserved : (b.slices.reserveForRead grow).1.Counted := hcounted.reserveForRead
      generalize b.slices.reserveForRead grow = reserved at hreserved
      obtain ⟨d', raw⟩ := reserved
      refine @counted_reserved d' _ size hreserved fun after hafter => ?_
      obtain ⟨raw, -, hcommit⟩ := Option.bind_eq_some_iff.mp hafter
      exact hreserved.commitReservation hcommit
  | reserveSingleSlice length size =>
      refine ⟨?_, (reserveSingleSlice_cases b length size hroomy).2⟩
      show (b.reserveSingleSlice grow length size).slices.Counted
      have hreserved : (b.slices.reserveSingleSlice grow length).1.Counted := hcounted.pushBack _
      refine @counted_reserved _ _ size hreserved fun after hafter => ?_
      obtain ⟨raw, -, hcommit⟩ := Option.bind_eq_some_iff.mp hafter
      exact hreserved.commit hcommit
  | drain size =>
      show (b.drain size).Sound
      constructor
      · rw [slices_drain]
        exact (hcounted.drain size).1
      · rw [slices_drain]
        exact hroomy.drain size
  | linearize size =>
      show (b.linearize grow size).Sound
      constructor
      · rw [slices_linearize]
        exact hcounted.linearize size
      · rw [slices_linearize]
        exact hroomy.linearize size

/-- What an operation puts the account off by. -/
def shift (b : AccountedBuffer) : AccountedBufferOp → Int
  | .add _ | .addBufferFragment _ | .reserveForRead _ => 0
  | .prepend bytes => if bytes = [] ∨ takesInFront b.slices bytes then 0 else shortfall bytes.length
  | .reserveSingleSlice length _ => shortfall length
  | .drain size => if b.slices.length < size then 0 else size
  | .linearize size =>
      if min size b.slices.length = 0 ∨ isLinear b.slices (min size b.slices.length) then 0
      else shortfall (min size b.slices.length)

theorem Sound.imbalance_step {b : AccountedBuffer} (h : b.Sound) (op : AccountedBufferOp) :
    (b.step grow op).imbalance = b.imbalance + b.shift op := by
  cases op with
  | add bytes => exact (imbalance_addTurns 2 b bytes).trans (add_zero _).symm
  | addBufferFragment fragment => exact (imbalance_addBufferFragment b fragment).trans (add_zero _).symm
  | prepend bytes => exact imbalance_prepend b bytes
  | reserveForRead size => exact (reserveForRead_cases b size h.roomy).1.trans (add_zero _).symm
  | reserveSingleSlice length size => exact (reserveSingleSlice_cases b length size h.roomy).1
  | drain size => exact imbalance_drain b size h.roomy h.counted
  | linearize size => exact imbalance_linearize b size h.roomy h.counted

theorem shift_eq_zero_iff (b : AccountedBuffer) (op : AccountedBufferOp) : b.shift op = 0 ↔ b.Even op := by
  cases op with
  | add bytes => exact iff_of_true rfl trivial
  | addBufferFragment fragment => exact iff_of_true rfl trivial
  | reserveForRead size => exact iff_of_true rfl trivial
  | reserveSingleSlice length size => exact shortfall_eq_zero_iff
  | prepend bytes =>
      simp only [shift, Even, ← or_assoc]
      split_ifs with hnone
      · exact iff_of_true rfl (Or.inl hnone)
      · rw [or_iff_right hnone]
        exact shortfall_eq_zero_iff
  | drain size =>
      simp only [shift, Even]
      split_ifs with hover
      · simp [hover]
      · simp [hover]
  | linearize size =>
      simp only [shift, Even, ← or_assoc]
      split_ifs with hnone
      · exact iff_of_true rfl (Or.inl hnone)
      · rw [or_iff_right hnone]
        exact shortfall_eq_zero_iff

theorem sound_new : new.Sound := ⟨rfl, fun _ hslice => absurd hslice List.not_mem_nil⟩

/-- **When the account is right.** In every state of a run what was charged was credited or is held, exactly
when no operation of the run drains anything and none makes a slice for fewer bytes than an inline array has. -/
theorem conserved_everywhere_iff (grow : Nat → Nat) (ops : List AccountedBufferOp) :
    (∀ before after, ops = before ++ after → (Runs.run (step grow) new before).Conserved) ↔
      Runs.Guarded (step grow) Even new ops := by
  refine @Runs.everywhere_iff_of_inv _ _ (step grow) (fun _ _ => True) Even
    (fun b => b.Sound ∧ b.imbalance = 0) Conserved ?_ ?_ ?_ new ⟨sound_new, rfl⟩ ops
    (Runs.guarded_of_forall _ (fun _ _ => trivial) _)
  · intro b op _ heven ⟨hsound, hbalanced⟩
    refine ⟨hsound.step op, ?_⟩
    rw [hsound.imbalance_step, hbalanced, (shift_eq_zero_iff b op).mpr heven, add_zero]
  · intro b ⟨_, hbalanced⟩
    exact (conserved_iff b).mpr hbalanced
  · intro b op _ ⟨hsound, hbalanced⟩ hnot hconserved
    have hafter := (conserved_iff _).mp hconserved
    rw [hsound.imbalance_step, hbalanced, zero_add] at hafter
    exact hnot ((shift_eq_zero_iff b op).mp hafter)

/-- A byte is added and drained: nothing is left in the buffer, and one byte was charged that is not credited. -/
theorem not_conserved_drained :
    ¬∀ (ops before after : List AccountedBufferOp), ops = before ++ after →
      (Runs.run (step (2 * ·)) new before).Conserved := by
  intro hall
  have hconserved := hall [.add (ascii "a"), .drain 1] [.add (ascii "a"), .drain 1] [] rfl
  have hadded : (new.step (2 * ·) (.add (ascii "a"))).Sound := sound_new.step _
  have hlength : (new.step (2 * ·) (.add (ascii "a"))).slices.length = 1 := by
    show (new.add (2 * ·) (ascii "a")).slices.length = 1
    rw [slices_add, SliceDeque.length_add]
    rfl
  have hshift : (new.step (2 * ·) (.add (ascii "a"))).shift (.drain 1) = 1 := by
    rw [shift, hlength]
    rfl
  have hoff : (Runs.run (step (2 * ·)) new [.add (ascii "a"), .drain 1]).imbalance = 1 := by
    rw [Runs.run_cons, Runs.run_cons, Runs.run_nil, hadded.imbalance_step, sound_new.imbalance_step, hshift]
    rfl
  rw [(conserved_iff _).mp hconserved] at hoff
  exact zero_ne_one hoff

end AccountedBuffer

end GopherMcp
