import Mathlib

/-!
# Bytes spelled in letters

A strict text form of bytes cuts them into small digits and writes each digit as one letter. An
alphabet says which letter is which digit. Two cuts are given, into halves of a byte and into groups
of six bits; in the second the last letter may hold stray bits, and only the spellings without them
are canonical.
-/

/-- `n` digits, each with its own letter. -/
structure Alphabet (n : Nat) where
  letter : Fin n → UInt8
  value : UInt8 → Option (Fin n)
  value_eq_some_iff : ∀ c digit, value c = some digit ↔ c = letter digit

namespace Alphabet

variable {n : Nat} (alphabet : Alphabet n)

def spell (digits : List (Fin n)) : List UInt8 := digits.map alphabet.letter

@[simp] theorem spell_nil : alphabet.spell [] = [] := rfl

@[simp] theorem spell_cons (digit : Fin n) (digits : List (Fin n)) :
    alphabet.spell (digit :: digits) = alphabet.letter digit :: alphabet.spell digits := rfl

@[simp] theorem length_spell (digits : List (Fin n)) :
    (alphabet.spell digits).length = digits.length := List.length_map _

@[simp] theorem value_letter (digit : Fin n) :
    alphabet.value (alphabet.letter digit) = some digit :=
  (alphabet.value_eq_some_iff _ _).mpr rfl

/-- A letter of the alphabet, in a spelling. -/
theorem exists_letter_of_mem_spell {digits : List (Fin n)} {c : UInt8}
    (h : c ∈ alphabet.spell digits) : ∃ digit, c = alphabet.letter digit := by
  obtain ⟨digit, -, hc⟩ := List.mem_map.mp h
  exact ⟨digit, hc.symm⟩

end Alphabet

namespace Spelling

/-! ### Halves of a byte -/

/-- The lowest four bits of a number. -/
abbrev halfByte (n : Nat) : Fin 16 := Fin.ofNat 16 n

def nibblesOf : List UInt8 → List (Fin 16)
  | [] => []
  | byte :: rest => halfByte (byte.toNat / 16) :: halfByte byte.toNat :: nibblesOf rest

def octetOf (high low : Fin 16) : UInt8 := UInt8.ofNat (high.val * 16 + low.val)

theorem toNat_octetOf (high low : Fin 16) : (octetOf high low).toNat = high.val * 16 + low.val := by
  have hhigh := high.isLt
  have hlow := low.isLt
  rw [octetOf, UInt8.toNat_ofNat']
  omega

theorem length_nibblesOf (bytes : List UInt8) : (nibblesOf bytes).length = 2 * bytes.length := by
  induction bytes with
  | nil => rfl
  | cons byte rest ih =>
      simp only [nibblesOf, List.length_cons, ih]
      omega

theorem octetOf_nibbles (byte : UInt8) :
    octetOf (halfByte (byte.toNat / 16)) (halfByte byte.toNat) = byte := by
  have hbyte := byte.toNat_lt
  apply UInt8.toNat_inj.mp
  rw [toNat_octetOf]
  change byte.toNat / 16 % 16 * 16 + byte.toNat % 16 = byte.toNat
  omega

theorem nibblesOf_octetOf_cons (high low : Fin 16) (rest : List UInt8) :
    nibblesOf (octetOf high low :: rest) = high :: low :: nibblesOf rest := by
  have hhigh := high.isLt
  have hlow := low.isLt
  rw [nibblesOf, toNat_octetOf]
  congr 1
  · apply Fin.ext
    change (high.val * 16 + low.val) / 16 % 16 = high.val
    omega
  · congr 1
    apply Fin.ext
    change (high.val * 16 + low.val) % 16 = low.val
    omega

/-! ### Groups of six bits -/

/-- The lowest six bits of a number. -/
abbrev sextet (n : Nat) : Fin 64 := Fin.ofNat 64 n

/-- The digits of three bytes, or of the one or two bytes at the end, filled up with zero bits. -/
def sextetsOf : List UInt8 → List (Fin 64)
  | a :: b :: c :: rest =>
      let word := a.toNat * 65536 + b.toNat * 256 + c.toNat
      sextet (word / 262144) :: sextet (word / 4096) :: sextet (word / 64) ::
        sextet word :: sextetsOf rest
  | [a, b] =>
      let word := a.toNat * 65536 + b.toNat * 256
      [sextet (word / 262144), sextet (word / 4096), sextet (word / 64)]
  | [a] =>
      let word := a.toNat * 65536
      [sextet (word / 262144), sextet (word / 4096)]
  | [] => []

/-- The whole octets in a run of digits; bits that fill no octet are dropped. -/
def octetsOf : List (Fin 64) → List UInt8
  | p :: q :: r :: s :: rest =>
      let word := p.val * 262144 + q.val * 4096 + r.val * 64 + s.val
      UInt8.ofNat (word / 65536) :: UInt8.ofNat (word / 256) :: UInt8.ofNat word :: octetsOf rest
  | [p, q, r] =>
      let word := p.val * 262144 + q.val * 4096 + r.val * 64
      [UInt8.ofNat (word / 65536), UInt8.ofNat (word / 256)]
  | [p, q] => [UInt8.ofNat ((p.val * 262144 + q.val * 4096) / 65536)]
  | [_] => []
  | [] => []

/-- Every bit belongs to an octet, or is one of the zeros that fill up the last digit. -/
def Canonical : List (Fin 64) → Prop
  | _ :: _ :: _ :: _ :: rest => Canonical rest
  | [_, _, r] => r.val % 4 = 0
  | [_, q] => q.val % 16 = 0
  | [_] => False
  | [] => True

theorem octetsOf_sextetsOf (bytes : List UInt8) : octetsOf (sextetsOf bytes) = bytes := by
  induction bytes using sextetsOf.induct with
  | case1 a b c rest ih =>
      have ha := a.toNat_lt
      have hb := b.toNat_lt
      have hc := c.toNat_lt
      simp only [sextetsOf, octetsOf, ih, Fin.val_ofNat, List.cons.injEq, and_true]
      refine ⟨?_, ?_, ?_⟩ <;>
        · apply UInt8.toNat_inj.mp
          rw [UInt8.toNat_ofNat']
          omega
  | case2 a b =>
      have ha := a.toNat_lt
      have hb := b.toNat_lt
      simp only [sextetsOf, octetsOf, Fin.val_ofNat, List.cons.injEq, and_true]
      refine ⟨?_, ?_⟩ <;>
        · apply UInt8.toNat_inj.mp
          rw [UInt8.toNat_ofNat']
          omega
  | case3 a =>
      have ha := a.toNat_lt
      simp only [sextetsOf, octetsOf, Fin.val_ofNat, List.cons.injEq, and_true]
      apply UInt8.toNat_inj.mp
      rw [UInt8.toNat_ofNat']
      omega
  | case4 => rfl

theorem canonical_sextetsOf (bytes : List UInt8) : Canonical (sextetsOf bytes) := by
  induction bytes using sextetsOf.induct with
  | case1 a b c rest ih => exact ih
  | case2 a b =>
      simp only [sextetsOf, Canonical, Fin.val_ofNat]
      omega
  | case3 a =>
      simp only [sextetsOf, Canonical, Fin.val_ofNat]
      omega
  | case4 => trivial

/-- A canonical run of digits is the one its octets are cut into. -/
theorem sextetsOf_octetsOf {digits : List (Fin 64)} (h : Canonical digits) :
    sextetsOf (octetsOf digits) = digits := by
  induction digits using octetsOf.induct with
  | case1 p q r s rest ih =>
      have hp := p.isLt
      have hq := q.isLt
      have hr := r.isLt
      have hs := s.isLt
      simp only [octetsOf, sextetsOf, ih h, UInt8.toNat_ofNat', List.cons.injEq, and_true]
      refine ⟨?_, ?_, ?_, ?_⟩ <;>
        · apply Fin.ext
          rw [Fin.val_ofNat]
          omega
  | case2 p q r =>
      have hp := p.isLt
      have hq := q.isLt
      have hr := r.isLt
      change r.val % 4 = 0 at h
      simp only [octetsOf, sextetsOf, UInt8.toNat_ofNat', List.cons.injEq, and_true]
      refine ⟨?_, ?_, ?_⟩ <;>
        · apply Fin.ext
          rw [Fin.val_ofNat]
          omega
  | case3 p q =>
      have hp := p.isLt
      have hq := q.isLt
      change q.val % 16 = 0 at h
      simp only [octetsOf, sextetsOf, UInt8.toNat_ofNat', List.cons.injEq, and_true]
      refine ⟨?_, ?_⟩ <;>
        · apply Fin.ext
          rw [Fin.val_ofNat]
          omega
  | case4 p => exact h.elim
  | case5 => rfl

end Spelling
