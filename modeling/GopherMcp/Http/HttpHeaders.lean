import GopherMcp.Http.WireWriter
import GopherMcp.Lib.Groups
import GopherMcp.Lib.Runs

/-!
# The headers of a message

The headers of a message are stored twice: as the list in which they were added, and as the values under each name in
lower case. A size is kept beside both, from which the headers under a name are taken off by the length of the name
they are asked for with, which is the length of the name they were added with. So the two stores and the size always
say the same.
-/

namespace GopherMcp

open Groups (group under)
open WireWriter (Headers lowercase)

/-- `HttpHeadersImpl`. -/
structure HttpHeaders where
  headers : OrdMap Bytes (List Bytes)
  orderedHeaders : Headers
  byteSize : Nat

inductive HttpHeadersOperation
  | add (name value : Bytes)
  | set (name value : Bytes)
  | remove (name : Bytes)
  | clear

namespace HttpHeaders

def new : HttpHeaders := ⟨.empty, [], 0⟩

/-- A name and a value with the colon, the blank and the line end. -/
def sizeOf (name value : Bytes) : Nat := name.length + value.length + 4

def add (s : HttpHeaders) (name value : Bytes) : HttpHeaders where
  headers := s.headers.insert (lowercase name) ((s.headers.find? (lowercase name)).getD [] ++ [value])
  orderedHeaders := s.orderedHeaders ++ [(name, value)]
  byteSize := s.byteSize + sizeOf name value

def remove (s : HttpHeaders) (name : Bytes) : HttpHeaders where
  headers := s.headers.erase (lowercase name)
  orderedHeaders := s.orderedHeaders.filter fun header => lowercase header.1 ≠ lowercase name
  byteSize := ((s.headers.find? (lowercase name)).getD []).foldl (fun size value => size - sizeOf name value) s.byteSize

/-- What is there is removed, as `remove` does it. -/
def set (s : HttpHeaders) (name value : Bytes) : HttpHeaders := (s.remove name).add name value

def clear (_ : HttpHeaders) : HttpHeaders := new

def get (s : HttpHeaders) (name : Bytes) : Option Bytes := (s.headers.find? (lowercase name)).bind List.head?

def getAll (s : HttpHeaders) (name : Bytes) : List Bytes := (s.headers.find? (lowercase name)).getD []

def has (s : HttpHeaders) (name : Bytes) : Bool := s.headers.contains (lowercase name)

def step (s : HttpHeaders) : HttpHeadersOperation → HttpHeaders
  | .add name value => s.add name value
  | .set name value => s.set name value
  | .remove name => s.remove name
  | .clear => s.clear

/-! ### What is promised -/

def totalSize (headers : Headers) : Nat := (headers.map fun header => sizeOf header.1 header.2).sum

/-- The headers by their names in lower case. -/
def byName (headers : Headers) : OrdMap Bytes (List Bytes) := group (fun header => lowercase header.1) Prod.snd headers

/-- The two stores and the size say the same. -/
structure InStep (s : HttpHeaders) : Prop where
  grouped : s.headers = byName s.orderedHeaders
  size : s.byteSize = totalSize s.orderedHeaders

/-- The values of a name after one more operation: those added since it was last set or removed. -/
def addedSince (name : Bytes) (values : List Bytes) : HttpHeadersOperation → List Bytes
  | .add other value => if lowercase other = lowercase name then values ++ [value] else values
  | .set other value => if lowercase other = lowercase name then [value] else values
  | .remove other => if lowercase other = lowercase name then [] else values
  | .clear => []

/-! ### Steps -/

variable {s : HttpHeaders} {name other value : Bytes}

theorem InStep.find? (h : s.InStep) (name : Bytes) :
    (s.headers.find? (lowercase name)).getD [] =
      under (fun header => lowercase header.1) Prod.snd (lowercase name) s.orderedHeaders := by
  rw [h.grouped, byName, Groups.getD_find?_group]

/-- The headers under a name weigh the same however the name is written. -/
theorem sum_sizeOf_under (headers : Headers) (name : Bytes) :
    ((under (fun header : Bytes × Bytes => lowercase header.1) Prod.snd (lowercase name) headers).map
      (sizeOf name)).sum = totalSize (headers.filter fun header => lowercase header.1 = lowercase name) := by
  unfold under totalSize
  rw [List.map_map]
  refine congrArg List.sum (List.map_congr_left fun header hheader => ?_)
  have hname : lowercase header.1 = lowercase name := by simpa using (List.mem_filter.mp hheader).2
  have hlength := congrArg List.length hname
  unfold lowercase at hlength
  rw [List.length_map, List.length_map] at hlength
  show name.length + header.2.length + 4 = header.1.length + header.2.length + 4
  rw [hlength]

theorem totalSize_eq_add (headers : Headers) (name : Bytes) :
    totalSize headers = totalSize (headers.filter fun header => lowercase header.1 = lowercase name) +
      totalSize (headers.filter fun header => lowercase header.1 ≠ lowercase name) := by
  have hsum := @Groups.sum_filter_add_sum_filter_ne (Bytes × Bytes) Bytes (fun header => lowercase header.1) _
    (fun header => sizeOf header.1 header.2) (lowercase name) headers
  exact hsum.symm

theorem foldl_sub (sizes : List Nat) (size : Nat) :
    sizes.foldl (fun size part => size - part) size = size - sizes.sum := by
  induction sizes generalizing size with
  | nil => rfl
  | cons part rest ih =>
      rw [List.foldl_cons, ih, List.sum_cons]
      omega

theorem InStep.add (h : s.InStep) (name value : Bytes) : (s.add name value).InStep := by
  refine ⟨?_, ?_⟩
  · show s.headers.insert _ _ = byName (s.orderedHeaders ++ [(name, value)])
    rw [byName, Groups.group_concat, ← byName, ← h.grouped]
    rfl
  · show s.byteSize + sizeOf name value = totalSize (s.orderedHeaders ++ [(name, value)])
    rw [h.size, totalSize, totalSize, List.map_append, List.sum_append]
    rfl

theorem InStep.remove (h : s.InStep) (name : Bytes) : (s.remove name).InStep := by
  refine ⟨?_, ?_⟩
  · show s.headers.erase _ = byName (s.orderedHeaders.filter fun header => lowercase header.1 ≠ lowercase name)
    rw [h.grouped, byName, Groups.erase_group]
    rfl
  · show List.foldl _ s.byteSize _ = totalSize (s.orderedHeaders.filter _)
    rw [h.find?, h.size, ← List.foldl_map (f := sizeOf name) (g := fun size part => size - part), foldl_sub,
      sum_sizeOf_under, totalSize_eq_add s.orderedHeaders name, Nat.add_sub_cancel_left]

theorem inStep_new : new.InStep := ⟨rfl, rfl⟩

theorem InStep.step (h : s.InStep) (operation : HttpHeadersOperation) : (s.step operation).InStep := by
  cases operation with
  | add name value => exact h.add name value
  | set name value => exact (h.remove name).add name value
  | remove name => exact h.remove name
  | clear => exact inStep_new

theorem getAll_add (s : HttpHeaders) (name value other : Bytes) :
    (s.add name value).getAll other =
      if lowercase name = lowercase other then s.getAll other ++ [value] else s.getAll other := by
  unfold getAll add
  rw [OrdMap.find?_insert]
  by_cases h : lowercase name = lowercase other
  · rw [if_pos h.symm, if_pos h, h]
    rfl
  · rw [if_neg (Ne.symm h), if_neg h]

theorem getAll_remove (s : HttpHeaders) (name other : Bytes) :
    (s.remove name).getAll other = if lowercase name = lowercase other then [] else s.getAll other := by
  unfold getAll remove
  rw [OrdMap.find?_erase]
  by_cases h : lowercase name = lowercase other
  · rw [if_pos h.symm, if_pos h]
    rfl
  · rw [if_neg (Ne.symm h), if_neg h]

theorem getAll_step (s : HttpHeaders) (operation : HttpHeadersOperation) (name : Bytes) :
    (s.step operation).getAll name = addedSince name (s.getAll name) operation := by
  cases operation with
  | add other value => exact getAll_add s other value name
  | set other value =>
      show ((s.remove other).add other value).getAll name = if _ then _ else _
      rw [getAll_add, getAll_remove]
      split_ifs
      · rfl
      · rfl
  | remove other => exact getAll_remove s other name
  | clear => rfl

theorem get_eq_head? (s : HttpHeaders) (name : Bytes) : s.get name = (s.getAll name).head? := by
  unfold get getAll
  cases s.headers.find? (lowercase name) with
  | none => rfl
  | some values => rfl

/-- No more is taken off than there is. -/
theorem InStep.sum_sizeOf_getAll_le (h : s.InStep) (name : Bytes) :
    ((s.getAll name).map (sizeOf name)).sum ≤ s.byteSize := by
  unfold getAll
  rw [h.find?, sum_sizeOf_under, h.size, totalSize_eq_add s.orderedHeaders name]
  exact Nat.le_add_right _ _

/-! ### Runs -/

theorem getAll_run (operations : List HttpHeadersOperation) (s : HttpHeaders) (name : Bytes) :
    (Runs.run step s operations).getAll name = operations.foldl (addedSince name) (s.getAll name) := by
  induction operations generalizing s with
  | nil => rfl
  | cons operation rest ih =>
      show (Runs.run step (s.step operation) rest).getAll name = _
      rw [ih, getAll_step]
      rfl

/-- **Two stores in step.** After any operations the map is the list by names and the size is that of the list, what a
name weighs is never more than the size it is taken off, and what is got under a name is what was added since it was
last set or removed. -/
theorem run_inStep (operations : List HttpHeadersOperation) :
    let s := Runs.run step new operations
    s.InStep ∧
      ∀ name, ((s.getAll name).map (sizeOf name)).sum ≤ s.byteSize ∧
        s.getAll name = operations.foldl (addedSince name) [] ∧
        s.get name = (operations.foldl (addedSince name) []).head? := by
  have hinStep : (Runs.run step new operations).InStep :=
    Runs.invariant_of_every_step step (fun s operation h => h.step operation) inStep_new operations
  refine ⟨hinStep, fun name => ⟨hinStep.sum_sizeOf_getAll_le name, getAll_run operations new name, ?_⟩⟩
  rw [get_eq_head?, getAll_run]
  rfl

end HttpHeaders

end GopherMcp
