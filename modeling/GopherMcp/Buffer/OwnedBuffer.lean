import GopherMcp.Buffer.Slice
import GopherMcp.Lib.Runs

/-!
# Buffers of slices

A buffer is a vector of slices. The vector relocates its slices when it grows and whenever one is put
or taken at its front, and every relocation is a move of the slice. A buffer keeps the slices that were
moved, each as it was then; nothing reads that history but the proofs.
-/

namespace GopherMcp

structure SliceDeque where
  slices : List Slice
  capacity : Nat
  byteSize : Nat
  relocated : List Slice
  deriving DecidableEq

namespace SliceDeque

def empty : SliceDeque := { slices := [], capacity := 0, byteSize := 0, relocated := [] }

/-- The capacity of a vector that was full, by the growth policy of the library. -/
def grown (grow : Nat → Nat) (d : SliceDeque) : Nat :=
  if d.slices.length = d.capacity then max (grow d.capacity) (d.capacity + 1) else d.capacity

def pushBack (grow : Nat → Nat) (d : SliceDeque) (slice : Slice) : SliceDeque where
  slices :=
    (if d.slices.length = d.capacity then d.slices.map Slice.moved else d.slices) ++ [slice.moved]
  capacity := d.grown grow
  byteSize := d.byteSize + slice.reservable
  relocated :=
    d.relocated ++ (if d.slices.length = d.capacity then d.slices else []) ++ [slice]

def pushFront (grow : Nat → Nat) (d : SliceDeque) (slice : Slice) : SliceDeque where
  slices := slice.moved :: d.slices.map Slice.moved
  capacity := d.grown grow
  byteSize := d.byteSize + slice.reservable
  relocated := d.relocated ++ d.slices ++ [slice]

/-- `slices_.erase(slices_.begin())`. -/
def eraseFront (d : SliceDeque) : SliceDeque :=
  { d with
    slices := d.slices.tail.map Slice.moved
    relocated := d.relocated ++ d.slices.tail }

def updateByteSize (d : SliceDeque) : SliceDeque :=
  { d with byteSize := (d.slices.map Slice.reservable).sum }

def modifyFront (d : SliceDeque) (f : Slice → Slice) : SliceDeque :=
  { d with slices := d.slices.modifyHead f }

def setBack (d : SliceDeque) (slice : Slice) : SliceDeque :=
  { d with slices := d.slices.dropLast ++ [slice] }

def length (d : SliceDeque) : Nat := d.byteSize

def toString (d : SliceDeque) : Bytes := d.slices.flatMap Slice.data

/-! ### Adding -/

/-- The first half of a turn of `add`: what fits goes to the end of the last slice. -/
def appendBack (d : SliceDeque) (bytes : Bytes) : SliceDeque × Bytes :=
  match d.slices.getLast? with
  | none => (d, bytes)
  | some back =>
      if back.immutable then (d, bytes)
      else
        let (appended, copied) := back.append bytes
        ({ d.setBack appended with byteSize := d.byteSize + copied }, bytes.drop copied)

/-- The turns of `add`. The slice that a turn adds takes all that is left, so two are enough. -/
def addTurns (grow : Nat → Nat) : Nat → SliceDeque → Bytes → SliceDeque
  | 0, d, _ => d
  | turns + 1, d, bytes =>
      if bytes = [] then d
      else
        let (d, left) := d.appendBack bytes
        if left = [] then d
        else
          addTurns grow turns (d.pushBack grow (Slice.ofSize (max left.length kDefaultSliceSize))) left

def add (grow : Nat → Nat) (d : SliceDeque) (bytes : Bytes) : SliceDeque := addTurns grow 2 d bytes

def addBufferFragment (grow : Nat → Nat) (d : SliceDeque) (fragment : Bytes) : SliceDeque :=
  d.pushBack grow (Slice.ofFragment fragment)

def prepend (grow : Nat → Nat) (d : SliceDeque) (bytes : Bytes) : SliceDeque :=
  if bytes = [] then d
  else
    match d.slices with
    | [] => d.pushFront grow ((Slice.ofSize bytes.length).append bytes).1
    | front :: _ =>
        if front.immutable then d.pushFront grow ((Slice.ofSize bytes.length).append bytes).1
        else
          let (opened, prepended) := front.prepend bytes
          let d := { d.modifyFront (fun _ => opened) with byteSize := d.byteSize + prepended }
          if prepended = bytes.length then d
          else
            let rest := bytes.drop prepended
            d.pushFront grow ((Slice.ofSize rest.length).append rest).1

/-! ### Taking away -/

/-- The turns of `drain`; each but the last takes a slice away. -/
def drainTurns : Nat → SliceDeque → Nat → SliceDeque
  | 0, d, _ => d
  | turns + 1, d, size =>
      if size = 0 then d
      else
        match d.slices with
        | [] => d
        | front :: _ =>
            let sliceSize := front.reservable
            if sliceSize ≤ size then
              let d := (d.modifyFront fun front => front.drain sliceSize).eraseFront
              drainTurns turns { d with byteSize := d.byteSize - sliceSize } (size - sliceSize)
            else
              { d.modifyFront fun front => front.drain size with byteSize := d.byteSize - size }

/-- Draining more than there is throws before anything is changed. -/
def drain (d : SliceDeque) (size : Nat) : SliceDeque :=
  if d.length < size then d else drainTurns (d.slices.length + 1) d size

/-- The turns of `move`. A slice that goes as a whole is pushed onto the vector of the destination, and
a part of one is added to it. -/
def moveTurns {δ : Type} (push : δ → Slice → δ) (add : δ → Bytes → δ) :
    Nat → SliceDeque → δ → Nat → SliceDeque × δ
  | 0, d, dest, _ => (d, dest)
  | turns + 1, d, dest, remaining =>
      if remaining = 0 then (d, dest)
      else
        match d.slices with
        | [] => (d, dest)
        | front :: _ =>
            if front.reservable ≤ remaining then
              moveTurns push add turns d.eraseFront.updateByteSize (push dest front)
                (remaining - front.reservable)
            else
              ({ d.modifyFront fun front => front.drain remaining with
                  byteSize := d.byteSize - remaining },
                add dest (front.read remaining))

def moveTo {δ : Type} (push : δ → Slice → δ) (add : δ → Bytes → δ) (d : SliceDeque) (dest : δ)
    (length : Nat) : SliceDeque × δ :=
  moveTurns push add (d.slices.length + 1) d dest (min length d.length)

def move (grow : Nat → Nat) (d dest : SliceDeque) (length : Nat) : SliceDeque × SliceDeque :=
  d.moveTo (pushBack grow) (add grow) dest length

/-! ### One piece -/

/-- The copying loop of `linearize`. -/
def gather : List Slice → Nat → Bytes
  | [], _ => []
  | slice :: rest, size =>
      if size = 0 then []
      else
        let toCopy := min size slice.reservable
        slice.read toCopy ++ gather rest (size - toCopy)

def linearize (grow : Nat → Nat) (d : SliceDeque) (size : Nat) : SliceDeque :=
  let size := min size d.length
  if size = 0 then d
  else if (d.slices.head?.map Slice.reservable).any (size ≤ ·) then d
  else
    let newSlice := { (Slice.ofSize size).write 0 (gather d.slices size) with reservable := size }
    (d.drain size).pushFront grow newSlice

/-! ### Reserving and committing -/

/-- `ReservationImpl`: the room in the first slice that has some, else a new slice. A reservation is one
raw slice. -/
def reserveForRead (grow : Nat → Nat) (d : SliceDeque) : SliceDeque × Option RawSlice :=
  match d.slices.findIdx? fun slice => !slice.immutable && 0 < slice.reservableSize with
  | some place =>
      (d, d.slices[place]?.bind fun slice => slice.reserve place slice.reservableSize)
  | none =>
      let slice := Slice.ofSize (min kDefaultReservationSize kDefaultSliceSize)
      (d.pushBack grow slice,
        slice.reserve d.slices.length (min kDefaultReservationSize kDefaultSliceSize))

def reserveSingleSlice (grow : Nat → Nat) (d : SliceDeque) (length : Nat) :
    SliceDeque × Option RawSlice :=
  let slice := Slice.ofSize length
  (d.pushBack grow slice, slice.reserve d.slices.length length)

/-- Commit to the slice at a place; none where that throws. -/
def commitAt (d : SliceDeque) (place : Nat) (raw : RawSlice) (size : Nat) : Option SliceDeque :=
  d.slices[place]?.bind fun slice =>
    (slice.commit raw size).map fun committed =>
      { d with slices := d.slices.set place committed, byteSize := d.byteSize + size }

/-- The slice that holds the address is looked up; none where nothing does or the commit throws. -/
def commit (d : SliceDeque) (raw : RawSlice) (size : Nat) : Option SliceDeque :=
  if (d.slices[raw.place]?).any (raw.distance < ·.capacity) then d.commitAt raw.place raw size
  else none

/-- `ReservationImpl::commit`, to the last slice of the vector, whichever the reservation was made in. -/
def commitReservation (d : SliceDeque) (raw : RawSlice) (size : Nat) : Option SliceDeque :=
  if raw.len < size then none
  else if size = 0 then some d
  else if raw.place ≠ d.slices.length - 1 then none
  else d.commitAt (d.slices.length - 1) raw (min size raw.len)

/-- The data of the slices that hold some, as many as there is room for. -/
def getRawSlices (d : SliceDeque) (maxSlices : Nat) : List Bytes :=
  ((d.slices.filter fun slice => 0 < slice.reservable).take maxSlices).map Slice.data

end SliceDeque

end GopherMcp
