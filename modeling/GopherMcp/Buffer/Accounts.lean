import GopherMcp.Buffer.Reserving

/-!
# Memory accounts

A buffer may be made with an account, which is charged for the slices the buffer makes and credited for
those it lets go. What is charged is the size that was asked for, and what is credited is the capacity a
slice is left with once its data was drained off it. The account here keeps the two sums.
-/

namespace GopherMcp

structure BufferMemoryAccount where
  charged : Nat
  credited : Nat

/-- `OwnedBuffer::Impl` that was made with an account. -/
structure AccountedBuffer where
  slices : SliceDeque
  account : BufferMemoryAccount

/-- A reservation and the commit of so many bytes to it are one operation; where the commit throws, the
reservation stands. -/
inductive AccountedBufferOp
  | add (bytes : Bytes)
  | addBufferFragment (fragment : Bytes)
  | prepend (bytes : Bytes)
  | reserveForRead (size : Nat)
  | reserveSingleSlice (length size : Nat)
  | drain (size : Nat)
  | linearize (size : Nat)

namespace AccountedBuffer

def new : AccountedBuffer := { slices := .empty, account := { charged := 0, credited := 0 } }

def charge (b : AccountedBuffer) (size : Nat) : AccountedBuffer :=
  { b with account := { b.account with charged := b.account.charged + size } }

def credit (b : AccountedBuffer) (size : Nat) : AccountedBuffer :=
  { b with account := { b.account with credited := b.account.credited + size } }

/-! ### The operations -/

/-- The turns of `add`; a turn that makes a slice is charged for it. -/
def addTurns (grow : Nat → Nat) : Nat → AccountedBuffer → Bytes → AccountedBuffer
  | 0, b, _ => b
  | turns + 1, b, bytes =>
      if bytes = [] then b
      else
        let (slices, left) := b.slices.appendBack bytes
        let b := { b with slices }
        if left = [] then b
        else
          let sliceSize := max left.length kDefaultSliceSize
          addTurns grow turns
            ({ b with slices := slices.pushBack grow (Slice.ofSize sliceSize) }.charge sliceSize) left

def add (grow : Nat → Nat) (b : AccountedBuffer) (bytes : Bytes) : AccountedBuffer := addTurns grow 2 b bytes

def addBufferFragment (grow : Nat → Nat) (b : AccountedBuffer) (fragment : Bytes) : AccountedBuffer :=
  { b with slices := b.slices.pushBack grow (Slice.ofFragment fragment) }.charge fragment.length

/-- The new slice a part that could not be prepended goes to. -/
def prependSlice (grow : Nat → Nat) (b : AccountedBuffer) (bytes : Bytes) : AccountedBuffer :=
  { b with slices := b.slices.pushFront grow ((Slice.ofSize bytes.length).append bytes).1 }.charge bytes.length

def prepend (grow : Nat → Nat) (b : AccountedBuffer) (bytes : Bytes) : AccountedBuffer :=
  if bytes = [] then b
  else
    match b.slices.slices with
    | [] => b.prependSlice grow bytes
    | front :: _ =>
        if front.immutable then b.prependSlice grow bytes
        else
          let (opened, prepended) := front.prepend bytes
          let b :=
            { b with
              slices :=
                { b.slices.modifyFront (fun _ => opened) with byteSize := b.slices.byteSize + prepended } }
          if prepended = bytes.length then b else b.prependSlice grow (bytes.drop prepended)

/-- The turns of `drain`. The credit is for the capacity of a slice whose data is gone. -/
def drainTurns : Nat → AccountedBuffer → Nat → AccountedBuffer
  | 0, b, _ => b
  | turns + 1, b, size =>
      if size = 0 then b
      else
        match b.slices.slices with
        | [] => b
        | front :: _ =>
            let sliceSize := front.reservable
            if sliceSize ≤ size then
              let b := b.credit (front.drain sliceSize).capacity
              let slices := (b.slices.modifyFront fun front => front.drain sliceSize).eraseFront
              drainTurns turns { b with slices := { slices with byteSize := slices.byteSize - sliceSize } }
                (size - sliceSize)
            else
              { b with
                slices :=
                  { b.slices.modifyFront fun front => front.drain size with
                    byteSize := b.slices.byteSize - size } }

def drain (b : AccountedBuffer) (size : Nat) : AccountedBuffer :=
  if b.slices.length < size then b else drainTurns (b.slices.slices.length + 1) b size

/-- Whether the first bytes lie in one slice already. -/
def isLinear (d : SliceDeque) (size : Nat) : Bool := (d.slices.head?.map Slice.reservable).any (size ≤ ·)

/-- The new slice of `linearize` is not charged for. -/
def linearize (grow : Nat → Nat) (b : AccountedBuffer) (size : Nat) : AccountedBuffer :=
  let size := min size b.slices.length
  if size = 0 then b
  else if isLinear b.slices size then b
  else
    let newSlice :=
      { (Slice.ofSize size).write 0 (SliceDeque.gather b.slices.slices size) with reservable := size }
    let b := b.drain size
    { b with slices := b.slices.pushFront grow newSlice }

/-- `ReservationImpl`, charged where it adds a slice, and its commit. -/
def reserveForRead (grow : Nat → Nat) (b : AccountedBuffer) (size : Nat) : AccountedBuffer :=
  let (slices, raw) := b.slices.reserveForRead grow
  let b :=
    if b.slices.firstRoom.isSome then b else b.charge (min kDefaultReservationSize kDefaultSliceSize)
  { b with slices := (raw.bind fun raw => slices.commitReservation raw size).getD slices }

def reserveSingleSlice (grow : Nat → Nat) (b : AccountedBuffer) (length size : Nat) : AccountedBuffer :=
  let (slices, raw) := b.slices.reserveSingleSlice grow length
  let b := b.charge length
  { b with slices := (raw.bind fun raw => slices.commit raw size).getD slices }

def step (grow : Nat → Nat) (b : AccountedBuffer) : AccountedBufferOp → AccountedBuffer
  | .add bytes => b.add grow bytes
  | .addBufferFragment fragment => b.addBufferFragment grow fragment
  | .prepend bytes => b.prepend grow bytes
  | .reserveForRead size => b.reserveForRead grow size
  | .reserveSingleSlice length size => b.reserveSingleSlice grow length size
  | .drain size => b.drain size
  | .linearize size => b.linearize grow size

/-! ### The slices are those of a buffer without an account -/

variable {b : AccountedBuffer} {grow : Nat → Nat}

@[simp] theorem slices_charge (b : AccountedBuffer) (size : Nat) : (b.charge size).slices = b.slices := rfl

@[simp] theorem slices_credit (b : AccountedBuffer) (size : Nat) : (b.credit size).slices = b.slices := rfl

theorem slices_addTurns (turns : Nat) (b : AccountedBuffer) (bytes : Bytes) :
    (b.addTurns grow turns bytes).slices = b.slices.addTurns grow turns bytes := by
  induction turns generalizing b bytes with
  | zero => rfl
  | succ turns ih =>
      rw [addTurns, SliceDeque.addTurns]
      split_ifs with hnone
      · rfl
      · obtain ⟨slices, left⟩ := b.slices.appendBack bytes
        simp only
        split_ifs with hdone
        · rfl
        · exact ih _ _

theorem slices_add (b : AccountedBuffer) (bytes : Bytes) : (b.add grow bytes).slices = b.slices.add grow bytes :=
  slices_addTurns 2 b bytes

theorem slices_prepend (b : AccountedBuffer) (bytes : Bytes) :
    (b.prepend grow bytes).slices = b.slices.prepend grow bytes := by
  rw [prepend, SliceDeque.prepend]
  split_ifs with hnone
  · rfl
  · cases b.slices.slices with
    | nil => rfl
    | cons front rest =>
        simp only
        split_ifs with himmutable hall
        · rfl
        · rfl
        · rfl

theorem slices_drainTurns (turns : Nat) (b : AccountedBuffer) (size : Nat) :
    (b.drainTurns turns size).slices = b.slices.drainTurns turns size := by
  induction turns generalizing b size with
  | zero => rfl
  | succ turns ih =>
      rw [drainTurns, SliceDeque.drainTurns]
      split_ifs with hdone
      · rfl
      · cases b.slices.slices with
        | nil => rfl
        | cons front rest =>
            simp only
            split_ifs with hwhole
            · exact ih _ _
            · rfl

theorem slices_drain (b : AccountedBuffer) (size : Nat) : (b.drain size).slices = b.slices.drain size := by
  rw [drain, SliceDeque.drain]
  split_ifs with hover
  · rfl
  · exact slices_drainTurns _ b size

theorem slices_linearize (b : AccountedBuffer) (size : Nat) :
    (b.linearize grow size).slices = b.slices.linearize grow size := by
  rw [linearize, SliceDeque.linearize]
  simp only
  by_cases hnothing : min size b.slices.length = 0
  · rw [if_pos hnothing, if_pos hnothing]
  rw [if_neg hnothing, if_neg hnothing]
  by_cases hlinear : isLinear b.slices (min size b.slices.length) = true
  · rw [if_pos hlinear]
    exact (if_pos hlinear).symm
  · rw [if_neg hlinear, slices_drain]
    exact (if_neg hlinear).symm

end AccountedBuffer

end GopherMcp
