import Mathlib

/-!
# Lines and chunks

A line ends with a carriage return and a line feed, and a head is lines up to an empty one. In the chunked
coding a body is cut into chunks, each behind a line that states its size in hexadecimal, and a chunk of size
zero is the last. Taking the coding off gives the chunks one after another, and says where the body ends.
-/

namespace Chunking

def crlf : List UInt8 := [13, 10]

/-! ### Lines -/

/-- The first line, and what is behind its end. -/
def readLine : List UInt8 → Option (List UInt8 × List UInt8)
  | [] => none
  | [_] => none
  | byte :: next :: rest =>
      if byte = 13 ∧ next = 10 then some ([], rest)
      else (readLine (next :: rest)).map fun read => (byte :: read.1, read.2)

theorem readLine_crlf (rest : List UInt8) : readLine (crlf ++ rest) = some ([], rest) := rfl

theorem readLine_cons {byte : UInt8} (h : byte ≠ 13) {rest : List UInt8} (hrest : rest ≠ []) :
    readLine (byte :: rest) = (readLine rest).map fun read => (byte :: read.1, read.2) := by
  obtain ⟨next, others, rfl⟩ := List.exists_cons_of_ne_nil hrest
  rw [readLine, if_neg fun hboth => h hboth.1]

/-- A line without a carriage return ends where its ending stands. -/
theorem readLine_append {line : List UInt8} (h : 13 ∉ line) (rest : List UInt8) :
    readLine (line ++ (crlf ++ rest)) = some (line, rest) := by
  induction line with
  | nil => exact readLine_crlf rest
  | cons byte line ih =>
      rw [List.mem_cons, not_or] at h
      rw [List.cons_append, readLine_cons (Ne.symm h.1) (by simp [crlf]), ih h.2]
      rfl

theorem length_of_readLine {bytes line rest : List UInt8} (h : readLine bytes = some (line, rest)) :
    rest.length < bytes.length := by
  induction bytes using readLine.induct generalizing line with
  | case1 => cases h
  | case2 => cases h
  | case3 byte next others hend =>
      rw [readLine, if_pos hend] at h
      cases h
      simp only [List.length_cons]
      omega
  | case4 byte next others hend ih =>
      rw [readLine, if_neg hend] at h
      obtain ⟨read, hread, heq⟩ := Option.map_eq_some_iff.mp h
      cases heq
      have hlt := ih hread
      rw [List.length_cons]
      omega

/-- The lines up to the empty one, and what is behind that. -/
def readLinesWithin : Nat → List UInt8 → Option (List (List UInt8) × List UInt8)
  | 0, _ => none
  | fuel + 1, bytes =>
      (readLine bytes).bind fun read =>
        if read.1 = [] then some ([], read.2)
        else (readLinesWithin fuel read.2).map fun more => (read.1 :: more.1, more.2)

def readLines (bytes : List UInt8) : Option (List (List UInt8) × List UInt8) :=
  readLinesWithin (bytes.length + 1) bytes

theorem readLinesWithin_lines {lines : List (List UInt8)} (h : ∀ line ∈ lines, line ≠ [] ∧ 13 ∉ line)
    {fuel : Nat} (hfuel : lines.length < fuel) (rest : List UInt8) :
    readLinesWithin fuel (lines.flatMap (· ++ crlf) ++ (crlf ++ rest)) = some (lines, rest) := by
  induction lines generalizing fuel with
  | nil =>
      obtain ⟨fuel, rfl⟩ : ∃ k, fuel = k + 1 := ⟨fuel - 1, (Nat.succ_pred_eq_of_pos hfuel).symm⟩
      rfl
  | cons line lines ih =>
      rw [List.length_cons] at hfuel
      obtain ⟨fuel, rfl⟩ : ∃ k, fuel = k + 1 := ⟨fuel - 1, by omega⟩
      obtain ⟨hline, hplain⟩ := h line List.mem_cons_self
      rw [List.flatMap_cons, List.append_assoc, List.append_assoc, readLinesWithin,
        readLine_append hplain, Option.bind_some]
      simp only [if_neg hline]
      rw [ih (fun other hother => h other (List.mem_cons_of_mem _ hother)) (by omega)]
      rfl

/-- Lines are read back, up to the empty one. -/
theorem readLines_lines {lines : List (List UInt8)} (h : ∀ line ∈ lines, line ≠ [] ∧ 13 ∉ line)
    (rest : List UInt8) :
    readLines (lines.flatMap (· ++ crlf) ++ (crlf ++ rest)) = some (lines, rest) := by
  refine readLinesWithin_lines h ?_ rest
  have hlength (lines : List (List UInt8)) : lines.length ≤ (lines.flatMap (· ++ crlf)).length := by
    induction lines with
    | nil => exact le_rfl
    | cons line lines ih =>
        rw [List.flatMap_cons, List.length_append, List.length_append, List.length_cons]
        have hcrlf : crlf.length = 2 := rfl
        omega
  have hle := hlength lines
  rw [List.length_append]
  omega

theorem length_of_readLines {bytes rest : List UInt8} {lines : List (List UInt8)}
    (h : readLines bytes = some (lines, rest)) : rest.length < bytes.length := by
  have hwithin (fuel : Nat) (bytes : List UInt8) (lines : List (List UInt8))
      (h : readLinesWithin fuel bytes = some (lines, rest)) : rest.length < bytes.length := by
    induction fuel generalizing bytes lines with
    | zero => cases h
    | succ fuel ih =>
        obtain ⟨read, hread, h⟩ := Option.bind_eq_some_iff.mp h
        have hlt := length_of_readLine hread
        split_ifs at h with hempty
        · cases h
          exact hlt
        · obtain ⟨more, hmore, heq⟩ := Option.map_eq_some_iff.mp h
          cases heq
          exact (ih read.2 more.1 hmore).trans hlt
  exact hwithin _ bytes lines h

/-! ### Hexadecimal sizes -/

/-- `std::hex`. -/
def hexOf (n : Nat) : List UInt8 := (Nat.toDigits 16 n).map Char.toUInt8

def digitOf (byte : UInt8) : Option Nat :=
  if 48 ≤ byte ∧ byte ≤ 57 then some (byte.toNat - 48)
  else if 65 ≤ byte ∧ byte ≤ 70 then some (byte.toNat - 55)
  else if 97 ≤ byte ∧ byte ≤ 102 then some (byte.toNat - 87)
  else none

def readDigit (size : Nat) (byte : UInt8) : Option Nat := (digitOf byte).map (16 * size + ·)

def readHex (digits : List UInt8) : Option Nat :=
  if digits = [] then none else digits.foldlM readDigit 0

theorem digitOf_digitChar {n : Nat} (h : n < 16) : digitOf n.digitChar.toUInt8 = some n := by
  interval_cases n <;> rfl

theorem foldlM_hexOf (n : Nat) : (hexOf n).foldlM readDigit 0 = some n := by
  induction n using Nat.strong_induction_on with
  | _ n ih =>
      rw [hexOf, Nat.toDigits_eq_if (by omega)]
      split_ifs with hlt
      · simp [readDigit, digitOf_digitChar hlt]
      · have hfront := ih (n / 16) (by omega)
        rw [hexOf] at hfront
        have hlast : n % 16 < 16 := by omega
        have hsplit : 16 * (n / 16) + n % 16 = n := by omega
        rw [List.map_append, List.foldlM_append, hfront]
        simp [readDigit, digitOf_digitChar hlast, hsplit]

theorem hexOf_ne_nil (n : Nat) : hexOf n ≠ [] := by
  rw [hexOf, ne_eq, List.map_eq_nil_iff]
  exact Nat.toDigits_ne_nil

theorem readHex_hexOf (n : Nat) : readHex (hexOf n) = some n := by
  rw [readHex, if_neg (hexOf_ne_nil n), foldlM_hexOf]

theorem not_mem_hexOf (n : Nat) : 13 ∉ hexOf n := by
  have hdigit (d : Nat) (h : d < 16) : d.digitChar.toUInt8 ≠ 13 := by
    interval_cases d <;> decide
  induction n using Nat.strong_induction_on with
  | _ n ih =>
      rw [hexOf, Nat.toDigits_eq_if (by omega)]
      split_ifs with hlt
      · simpa using (hdigit n hlt).symm
      · rw [List.map_append, List.mem_append, not_or]
        exact ⟨ih (n / 16) (by omega), by simpa using (hdigit (n % 16) (by omega)).symm⟩

/-! ### Chunks -/

def encode (chunk : List UInt8) : List UInt8 := hexOf chunk.length ++ crlf ++ chunk ++ crlf

/-- The chunk of size zero, and no trailers behind it. -/
def lastChunk : List UInt8 := 48 :: crlf ++ crlf

def readSize (bytes : List UInt8) : Option (Nat × List UInt8) :=
  (readLine bytes).bind fun read => (readHex read.1).map fun size => (size, read.2)

/-- The body, and what is behind it. -/
def decodeWithin : Nat → List UInt8 → Option (List UInt8 × List UInt8)
  | 0, _ => none
  | fuel + 1, bytes =>
      (readSize bytes).bind fun read =>
        if read.1 = 0 then
          if read.2.take 2 = crlf then some ([], read.2.drop 2) else none
        else if (read.2.drop read.1).take 2 = crlf then
          (decodeWithin fuel (read.2.drop (read.1 + 2))).map fun more =>
            (read.2.take read.1 ++ more.1, more.2)
        else none

/-- A turn for each byte is enough, for a chunk is not empty. -/
def decode (bytes : List UInt8) : Option (List UInt8 × List UInt8) :=
  decodeWithin (bytes.length + 1) bytes

theorem readSize_hexOf (n : Nat) (rest : List UInt8) :
    readSize (hexOf n ++ (crlf ++ rest)) = some (n, rest) := by
  rw [readSize, readLine_append (not_mem_hexOf n), Option.bind_some, readHex_hexOf]
  rfl

/-- One chunk is taken off. -/
theorem decodeWithin_encode {chunk : List UInt8} (h : chunk ≠ []) (fuel : Nat) (rest : List UInt8) :
    decodeWithin (fuel + 1) (encode chunk ++ rest) =
      (decodeWithin fuel rest).map fun more => (chunk ++ more.1, more.2) := by
  have hsplit : encode chunk ++ rest = hexOf chunk.length ++ (crlf ++ (chunk ++ (crlf ++ rest))) := by
    simp only [encode, List.append_assoc]
  have hsize : chunk.length ≠ 0 := fun hzero => h (List.length_eq_zero_iff.mp hzero)
  have hend : (chunk ++ (crlf ++ rest)).drop chunk.length = crlf ++ rest := List.drop_left
  have hdrop : (chunk ++ (crlf ++ rest)).drop (chunk.length + 2) = rest := by
    rw [← List.drop_drop, hend]
    rfl
  rw [hsplit, decodeWithin, readSize_hexOf, Option.bind_some]
  simp only [if_neg hsize, hend, hdrop, List.take_left]
  exact if_pos rfl

theorem decodeWithin_lastChunk (fuel : Nat) (rest : List UInt8) :
    decodeWithin (fuel + 1) (lastChunk ++ rest) = some ([], rest) := rfl

theorem decodeWithin_chunks {chunks : List (List UInt8)} (h : ∀ chunk ∈ chunks, chunk ≠ [])
    {fuel : Nat} (hfuel : chunks.length ≤ fuel) (rest : List UInt8) :
    decodeWithin fuel (chunks.flatMap encode ++ rest) =
      (decodeWithin (fuel - chunks.length) rest).map fun more => (chunks.flatten ++ more.1, more.2) := by
  induction chunks generalizing fuel with
  | nil => simp
  | cons chunk chunks ih =>
      rw [List.length_cons] at hfuel
      obtain ⟨fuel, rfl⟩ : ∃ k, fuel = k + 1 := ⟨fuel - 1, by omega⟩
      have hleft : fuel + 1 - (chunk :: chunks).length = fuel - chunks.length := by
        rw [List.length_cons]
        omega
      rw [List.flatMap_cons, List.append_assoc, decodeWithin_encode (h chunk List.mem_cons_self),
        ih (fun other hother => h other (List.mem_cons_of_mem _ hother)) (by omega), hleft,
        Option.map_map]
      congr 1
      funext more
      simp

theorem length_le_flatMap_encode (chunks : List (List UInt8)) :
    chunks.length ≤ (chunks.flatMap encode).length := by
  induction chunks with
  | nil => exact le_rfl
  | cons chunk chunks ih =>
      have hpos : 0 < (encode chunk).length := by simp [encode, crlf]
      rw [List.flatMap_cons, List.length_append, List.length_cons]
      omega

/-- **The coding comes off**: the chunks one after another, and where they end. -/
theorem decode_chunks {chunks : List (List UInt8)} (h : ∀ chunk ∈ chunks, chunk ≠ [])
    (rest : List UInt8) :
    decode (chunks.flatMap encode ++ (lastChunk ++ rest)) = some (chunks.flatten, rest) := by
  have hlength := length_le_flatMap_encode chunks
  have hfuel : chunks.length < (chunks.flatMap encode ++ (lastChunk ++ rest)).length + 1 := by
    rw [List.length_append]
    omega
  obtain ⟨left, hleft⟩ : ∃ k,
      (chunks.flatMap encode ++ (lastChunk ++ rest)).length + 1 - chunks.length = k + 1 :=
    ⟨_, (Nat.succ_pred_eq_of_pos (by omega)).symm⟩
  rw [decode, decodeWithin_chunks h hfuel.le, hleft, decodeWithin_lastChunk, Option.map_some,
    List.append_nil]

/-- Chunks without the last do not end the body. -/
theorem decode_open {chunks : List (List UInt8)} (h : ∀ chunk ∈ chunks, chunk ≠ []) :
    decode (chunks.flatMap encode) = none := by
  have hlength := length_le_flatMap_encode chunks
  have hnothing (fuel : Nat) : decodeWithin fuel [] = none := by
    cases fuel <;> rfl
  have hread := decodeWithin_chunks h (Nat.le_succ_of_le hlength) []
  rw [List.append_nil, hnothing] at hread
  exact hread

end Chunking
