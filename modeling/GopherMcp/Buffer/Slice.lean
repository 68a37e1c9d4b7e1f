import GopherMcp.Core.Bytes
import GopherMcp.Lib.Windows

/-!
# Slices

A slice is a window into memory: its inline array, a block from the pool or the bytes of a fragment.
The window moves forward as data is drained off its front. A slice that is moved to another place takes
its inline array along only when the window begins where the array does; otherwise its pointer stays
behind, in the array of the object that was moved from.
-/

namespace GopherMcp

def kDefaultSliceSize : Nat := 16384
def kInlineDataSize : Nat := 512
def kDefaultReservationSize : Nat := 4096

/-- What `base_` points into. -/
inductive Region
  | inlineData | storage | fragment | elsewhere
  deriving DecidableEq

/-- `base_` is `offset` bytes into its region. -/
structure Slice where
  base : Region
  offset : Nat
  capacity : Nat
  reservable : Nat
  immutable : Bool
  inlineData : Bytes
  storage : Bytes
  fragment : Bytes
  deriving DecidableEq

/-- `len_` writable bytes at `mem_`. The address is told by the slice of the buffer it is found in and
the distance from that slice's `base_`. -/
structure RawSlice where
  place : Nat
  distance : Nat
  len : Nat
  deriving DecidableEq

namespace Slice

open Windows

/-- Memory that nothing was written to yet. What is in it is never read. -/
def blank (size : Nat) : Bytes := List.replicate size 0

def ofSize (size : Nat) : Slice where
  base := if size ≤ kInlineDataSize then .inlineData else .storage
  offset := 0
  capacity := if size ≤ kInlineDataSize then kInlineDataSize else size
  reservable := 0
  immutable := false
  inlineData := blank kInlineDataSize
  storage := if size ≤ kInlineDataSize then [] else blank size
  fragment := []

def ofFragment (bytes : Bytes) : Slice where
  base := .fragment
  offset := 0
  capacity := bytes.length
  reservable := bytes.length
  immutable := true
  inlineData := blank kInlineDataSize
  storage := []
  fragment := bytes

/-- What the move constructor and the move assignment make of a slice. -/
def moved (s : Slice) : Slice :=
  if s.base = .inlineData ∧ s.offset = 0 then s
  else
    { s with
      base := if s.base = .inlineData then .elsewhere else s.base
      inlineData := blank kInlineDataSize }

/-- The memory `base_` points into, when the slice owns it. -/
def block? (s : Slice) : Option Bytes :=
  match s.base with
  | .inlineData => some s.inlineData
  | .storage => some s.storage
  | .fragment => some s.fragment
  | .elsewhere => none

/-- Bytes are copied to `base_ + place`. -/
def write (s : Slice) (place : Nat) (bytes : Bytes) : Slice :=
  match s.base with
  | .inlineData => { s with inlineData := overwrite s.inlineData (s.offset + place) bytes }
  | .storage => { s with storage := overwrite s.storage (s.offset + place) bytes }
  | .fragment => { s with fragment := overwrite s.fragment (s.offset + place) bytes }
  | .elsewhere => s

/-- The bytes at `base_`. In the array of another object they could be anything. -/
def read (s : Slice) (count : Nat) : Bytes :=
  match s.block? with
  | some block => window block s.offset count
  | none => blank count

/-- All the data of the slice. -/
def data (s : Slice) : Bytes := s.read s.reservable

def reservableSize (s : Slice) : Nat := if s.immutable then 0 else s.capacity - s.reservable

/-- `Slice::reserve` of the slice at a place; none where it throws. -/
def reserve (s : Slice) (place size : Nat) : Option RawSlice :=
  if s.immutable ∨ s.reservableSize < size then none
  else some { place, distance := s.reservable, len := size }

/-- `Slice::commit` of a raw slice that was found in this one; none where it throws. -/
def commit (s : Slice) (raw : RawSlice) (size : Nat) : Option Slice :=
  if s.immutable then none
  else if raw.distance ≠ s.reservable ∨ raw.len < size then none
  else some { s with reservable := s.reservable + size }

/-- The slice and how much was appended. -/
def append (s : Slice) (bytes : Bytes) : Slice × Nat :=
  if s.immutable then (s, 0)
  else
    let toCopy := min bytes.length s.reservableSize
    ({ s.write s.reservable (bytes.take toCopy) with reservable := s.reservable + toCopy }, toCopy)

/-- The slice and how much was prepended: all or nothing. -/
def prepend (s : Slice) (bytes : Bytes) : Slice × Nat :=
  if s.immutable ∨ s.capacity - s.reservable < bytes.length then (s, 0)
  else
    ({ (s.write bytes.length s.data).write 0 bytes with
        reservable := s.reservable + bytes.length }, bytes.length)

/-- `Slice::drain`, of no more than the slice holds. -/
def drain (s : Slice) (size : Nat) : Slice :=
  { s with
    offset := s.offset + size
    capacity := s.capacity - size
    reservable := s.reservable - size }

/-! ### Slices that point into their own storage -/

/-- The slice points into storage it owns, and its window fits. -/
def Owned (s : Slice) : Prop :=
  ∃ block, s.block? = some block ∧ s.offset + s.capacity ≤ block.length ∧ s.reservable ≤ s.capacity

/-- Data that lies in the inline array begins where the array does. -/
def Rooted (s : Slice) : Prop := s.base = .inlineData → s.offset = 0

instance decidableRooted (s : Slice) : Decidable s.Rooted :=
  inferInstanceAs (Decidable (_ → _))

variable {s : Slice}

theorem Owned.not_elsewhere (h : s.Owned) : s.base ≠ .elsewhere := by
  intro helsewhere
  obtain ⟨block, hblock, -⟩ := h
  rw [block?, helsewhere] at hblock
  cases hblock

theorem read_eq {block : Bytes} (h : s.block? = some block) (count : Nat) :
    s.read count = window block s.offset count := by
  rw [read, h]

theorem Owned.length_data (h : s.Owned) : s.data.length = s.reservable := by
  obtain ⟨block, hblock, hroom, hused⟩ := h
  rw [data, read_eq hblock, length_window (by omega)]

theorem Owned.read_eq_take (h : s.Owned) {count : Nat} (hcount : count ≤ s.reservable) :
    s.read count = s.data.take count := by
  obtain ⟨block, hblock, -⟩ := h
  rw [data, read_eq hblock, read_eq hblock, take_window _ _ _ _ hcount]

theorem length_read_le (s : Slice) (count : Nat) : (s.read count).length ≤ count := by
  rw [read]
  split
  · exact List.length_take_le _ _
  · exact (List.length_replicate).le

/-! ### New slices -/

theorem owned_ofSize (size : Nat) : (ofSize size).Owned := by
  by_cases hsmall : size ≤ kInlineDataSize
  · refine ⟨blank kInlineDataSize, ?_, ?_, Nat.zero_le _⟩
    · simp only [block?, ofSize, if_pos hsmall]
    · simp only [ofSize, if_pos hsmall, blank, List.length_replicate]
      omega
  · refine ⟨blank size, ?_, ?_, Nat.zero_le _⟩
    · simp only [block?, ofSize, if_neg hsmall]
    · simp only [ofSize, if_neg hsmall, blank, List.length_replicate]
      omega

@[simp] theorem data_ofSize (size : Nat) : (ofSize size).data = [] := by
  obtain ⟨block, hblock, -⟩ := owned_ofSize size
  rw [data, read_eq hblock]
  exact window_zero _ _

theorem le_capacity_ofSize (size : Nat) : size ≤ (ofSize size).capacity := by
  simp only [ofSize]
  split_ifs with hsmall <;> omega

theorem moved_ofSize (size : Nat) : (ofSize size).moved = ofSize size := by
  by_cases hsmall : size ≤ kInlineDataSize
  · rw [moved, if_pos ⟨if_pos hsmall, rfl⟩]
  · have hbase : (ofSize size).base = .storage := if_neg hsmall
    have hother : (ofSize size).base ≠ .inlineData := by
      rw [hbase]
      exact nofun
    rw [moved, if_neg (fun h => hother h.1), if_neg hother]
    rfl

theorem owned_ofFragment (bytes : Bytes) : (ofFragment bytes).Owned :=
  ⟨bytes, rfl, by simp [ofFragment], Nat.le_refl _⟩

@[simp] theorem data_ofFragment (bytes : Bytes) : (ofFragment bytes).data = bytes :=
  window_whole bytes

/-! ### Moving -/

@[simp] theorem reservable_moved (s : Slice) : s.moved.reservable = s.reservable := by
  rw [moved]
  split_ifs <;> rfl

theorem block?_moved (hrooted : s.Rooted) : s.moved.block? = s.block? := by
  rw [moved]
  by_cases hinline : s.base = .inlineData
  · rw [if_pos ⟨hinline, hrooted hinline⟩]
  · rw [if_neg (fun h => hinline h.1), if_neg hinline, block?, block?]
    cases hbase : s.base with
    | inlineData => exact absurd hbase hinline
    | storage => rfl
    | fragment => rfl
    | elsewhere => rfl

theorem offset_moved (s : Slice) : s.moved.offset = s.offset := by
  rw [moved]
  split_ifs <;> rfl

theorem capacity_moved (s : Slice) : s.moved.capacity = s.capacity := by
  rw [moved]
  split_ifs <;> rfl

theorem Owned.moved (h : s.Owned) (hrooted : s.Rooted) : s.moved.Owned := by
  obtain ⟨block, hblock, hroom, hused⟩ := h
  refine ⟨block, (block?_moved hrooted).trans hblock, ?_, ?_⟩
  · rwa [offset_moved, capacity_moved]
  · rwa [reservable_moved, capacity_moved]

theorem data_moved (hrooted : s.Rooted) : s.moved.data = s.data := by
  rw [data, data, read, read, block?_moved hrooted, reservable_moved, offset_moved]

/-! ### Writing -/

theorem block?_write {block : Bytes} (h : s.block? = some block) (place : Nat) (bytes : Bytes) :
    (s.write place bytes).block? = some (overwrite block (s.offset + place) bytes) := by
  rw [block?] at h
  rw [write]
  split at h <;> cases h <;> simp_all [block?]

@[simp] theorem offset_write (s : Slice) (place : Nat) (bytes : Bytes) :
    (s.write place bytes).offset = s.offset := by
  rw [write]
  split <;> rfl

@[simp] theorem capacity_write (s : Slice) (place : Nat) (bytes : Bytes) :
    (s.write place bytes).capacity = s.capacity := by
  rw [write]
  split <;> rfl

theorem append_snd (s : Slice) (bytes : Bytes) :
    (s.append bytes).2 = min bytes.length s.reservableSize := by
  rw [append, reservableSize]
  split_ifs with himmutable
  · exact (Nat.min_zero _).symm
  · rfl

/-- A new slice has room for what it was made for. -/
theorem append_ofSize {size : Nat} {bytes : Bytes} (h : bytes.length ≤ size) :
    ((ofSize size).append bytes).2 = bytes.length := by
  have hroom := le_capacity_ofSize size
  have hreservable : (ofSize size).reservableSize = (ofSize size).capacity := rfl
  rw [append_snd, hreservable]
  omega

theorem reservable_append (s : Slice) (bytes : Bytes) :
    (s.append bytes).1.reservable = s.reservable + (s.append bytes).2 := by
  rw [append]
  split_ifs <;> rfl

theorem Owned.append (h : s.Owned) (bytes : Bytes) :
    (s.append bytes).1.Owned ∧
      (s.append bytes).1.data = s.data ++ bytes.take (s.append bytes).2 := by
  obtain ⟨block, hblock, hroom, hused⟩ := h
  rw [Slice.append]
  by_cases himmutable : s.immutable = true
  · rw [if_pos himmutable]
    exact ⟨⟨block, hblock, hroom, hused⟩, by simp⟩
  rw [if_neg himmutable]
  obtain ⟨n, hn⟩ : ∃ n, n = min bytes.length s.reservableSize := ⟨_, rfl⟩
  have hfits : s.reservable + n ≤ s.capacity := by
    rw [reservableSize, if_neg himmutable] at hn
    omega
  have hcopied : (bytes.take n).length = n := by
    rw [List.length_take]
    omega
  simp only [← hn]
  have hwritten := block?_write hblock s.reservable (bytes.take n)
  constructor
  · refine ⟨_, hwritten, ?_, ?_⟩
    · rw [length_overwrite (by rw [hcopied]; omega), offset_write, capacity_write]
      exact hroom
    · rw [capacity_write]
      exact hfits
  · have hread := @window_overwrite_behind UInt8 block s.offset s.reservable (bytes.take n)
      (by rw [hcopied]; omega)
    rw [hcopied] at hread
    rw [data, data, read_eq hblock, ← hread]
    refine (read_eq hwritten _).trans ?_
    rw [offset_write]

/-- A new slice that bytes were copied into. -/
theorem owned_written {size : Nat} {bytes : Bytes} (h : bytes.length ≤ size) :
    Owned { (ofSize size).write 0 bytes with reservable := size } ∧
      (bytes.length = size → data { (ofSize size).write 0 bytes with reservable := size } = bytes) := by
  obtain ⟨block, hblock, hroom, -⟩ := owned_ofSize size
  have hcapacity := le_capacity_ofSize size
  have hoffset : (ofSize size).offset = 0 := rfl
  have hwritten : block? { (ofSize size).write 0 bytes with reservable := size } =
      some (overwrite block 0 bytes) := block?_write hblock 0 bytes
  constructor
  · refine ⟨_, hwritten, ?_, ?_⟩
    · rw [length_overwrite (by omega)]
      simp only [offset_write, capacity_write]
      exact hroom
    · simp only [capacity_write]
      exact hcapacity
  · intro hlength
    refine (read_eq hwritten _).trans ?_
    simp only [offset_write, ← hlength]
    exact window_overwrite_self (Nat.zero_le _)

theorem prepend_snd (s : Slice) (bytes : Bytes) :
    (s.prepend bytes).2 = 0 ∧ (s.prepend bytes).1 = s ∨ (s.prepend bytes).2 = bytes.length := by
  rw [prepend]
  split_ifs
  · exact Or.inl ⟨rfl, rfl⟩
  · exact Or.inr rfl

theorem reservable_prepend (s : Slice) (bytes : Bytes) :
    (s.prepend bytes).1.reservable = s.reservable + (s.prepend bytes).2 := by
  rw [prepend]
  split_ifs <;> rfl

theorem Owned.prepend (h : s.Owned) (bytes : Bytes) :
    (s.prepend bytes).1.Owned ∧
      (s.prepend bytes).1.data = bytes.take (s.prepend bytes).2 ++ s.data := by
  obtain ⟨block, hblock, hroom, hused⟩ := h
  rw [Slice.prepend]
  split_ifs with hrefused
  · exact ⟨⟨block, hblock, hroom, hused⟩, by simp⟩
  have hfits : s.reservable + bytes.length ≤ s.capacity := by
    by_contra hover
    exact hrefused (Or.inr (by omega))
  have hdata : s.data = window block s.offset s.reservable := read_eq hblock _
  have hlength : s.data.length = s.reservable := by
    rw [hdata, length_window (by omega)]
  have hopened := block?_write hblock bytes.length s.data
  have hwritten := block?_write hopened 0 bytes
  rw [offset_write, Nat.add_zero] at hwritten
  have hkept : (overwrite block (s.offset + bytes.length) s.data).length = block.length :=
    length_overwrite (by rw [hlength]; omega)
  constructor
  · refine ⟨_, hwritten, ?_, ?_⟩
    · rw [length_overwrite (by rw [hkept]; omega), hkept]
      simp only [offset_write, capacity_write]
      exact hroom
    · simp only [capacity_write]
      exact hfits
  · have hread := @window_overwrite_front UInt8 block s.offset s.reservable bytes (by omega)
    rw [← hdata] at hread
    rw [List.take_length, ← hread, Nat.add_comm]
    refine (read_eq hwritten _).trans ?_
    simp only [offset_write]

theorem Owned.drain (h : s.Owned) {size : Nat} (hsize : size ≤ s.reservable) :
    (s.drain size).Owned ∧ (s.drain size).data = s.data.drop size := by
  obtain ⟨block, hblock, hroom, hused⟩ := h
  constructor
  · refine ⟨block, hblock, ?_, ?_⟩
    · simp only [Slice.drain]
      omega
    · simp only [Slice.drain]
      omega
  · have hdrained : (s.drain size).block? = some block := hblock
    rw [data, data, read_eq hblock, drop_window]
    exact read_eq hdrained _

end Slice

end GopherMcp
