import GopherMcp.Lib.Bits

/-!
# First bits

The bits of a byte string are counted from the most significant one of its first byte. Whether two of them have the
same first bits is found by comparing whole bytes and then what a mask leaves of one more, or, for a number, what a
mask of its highest bits leaves of it.
-/

namespace Bits

/-- The bit of a byte string at a place; behind its end there are zeros. -/
def bitAt (bytes : List UInt8) (i : Nat) : Bool := (bytes.getD (i / 8) 0).toNat.testBit (7 - i % 8)

/-- The highest `count` of `width` bits. -/
def highMask (width count : Nat) : Nat := ((2 ^ width - 1) <<< (width - count)) % 2 ^ width

theorem testBit_highMask {width count : Nat} (j : Nat) :
    (highMask width count).testBit j = (decide (j < width) && decide (width - count ≤ j)) := by
  rw [highMask, Nat.testBit_mod_two_pow, Nat.testBit_shiftLeft, Nat.testBit_two_pow_sub_one]
  by_cases hlow : width - count ≤ j
  · by_cases hwidth : j < width
    · have hbelow : j - (width - count) < width := by omega
      simp [hlow, hwidth, hbelow]
    · simp [hwidth]
  · simp [hlow]

/-- What the mask leaves of two numbers is the same if their highest bits are. -/
theorem and_highMask_eq_iff {width count x y : Nat} (hcount : count ≤ width) :
    x &&& highMask width count = y &&& highMask width count ↔
      ∀ i < count, x.testBit (width - 1 - i) = y.testBit (width - 1 - i) := by
  constructor
  · intro heq i hi
    have hbit := congrArg (fun n => Nat.testBit n (width - 1 - i)) heq
    have hlow : width - count ≤ width - 1 - i := by omega
    have hwidth : width - 1 - i < width := by omega
    simpa [testBit_highMask, hlow, hwidth] using hbit
  · intro hbits
    apply Nat.eq_of_testBit_eq
    intro j
    rw [Nat.testBit_and, Nat.testBit_and, testBit_highMask]
    by_cases hin : j < width ∧ width - count ≤ j
    · have hplace : width - 1 - (width - 1 - j) = j := by omega
      have hbit := hbits (width - 1 - j) (by omega)
      rw [hplace] at hbit
      rw [hbit]
    · have hout : (decide (j < width) && decide (width - count ≤ j)) = false := by
        rw [Bool.and_eq_false_iff, decide_eq_false_iff_not, decide_eq_false_iff_not]
        omega
      rw [hout, Bool.and_false, Bool.and_false]

theorem byte_eq_iff (a b : UInt8) : a = b ↔ ∀ i < 8, a.toNat.testBit (7 - i) = b.toNat.testBit (7 - i) := by
  constructor
  · rintro rfl _ _
    rfl
  · intro hbits
    apply UInt8.toNat_inj.mp
    apply Nat.eq_of_testBit_eq
    intro j
    by_cases hj : j < 8
    · have hplace : 7 - (7 - j) = j := by omega
      have hbit := hbits (7 - j) (by omega)
      rwa [hplace] at hbit
    · have hlarge : 2 ^ 8 ≤ 2 ^ j := Nat.pow_le_pow_right (by decide) (by omega)
      rw [Nat.testBit_lt_two_pow (a.toNat_lt.trans_le hlarge), Nat.testBit_lt_two_pow (b.toNat_lt.trans_le hlarge)]

/-- Whole bytes and the first bits of one more. -/
theorem forall_bitAt_iff {a b : List UInt8} {full rest : Nat} (hrest : rest ≤ 8) :
    (∀ i < 8 * full + rest, bitAt a i = bitAt b i) ↔
      (∀ j < full, a.getD j 0 = b.getD j 0) ∧
        ∀ i < rest, (a.getD full 0).toNat.testBit (7 - i) = (b.getD full 0).toNat.testBit (7 - i) := by
  unfold bitAt
  constructor
  · intro hbits
    refine ⟨fun j hj => (byte_eq_iff _ _).mpr fun i hi => ?_, fun i hi => ?_⟩
    · have hbit := hbits (8 * j + i) (by omega)
      have hplace : (8 * j + i) / 8 = j := by omega
      have hin : (8 * j + i) % 8 = i := by omega
      rwa [hplace, hin] at hbit
    · by_cases hwhole : i < 8
      · have hbit := hbits (8 * full + i) (by omega)
        have hplace : (8 * full + i) / 8 = full := by omega
        have hin : (8 * full + i) % 8 = i := by omega
        rwa [hplace, hin] at hbit
      · omega
  · rintro ⟨hwhole, hpart⟩ i hi
    by_cases hfull : i / 8 < full
    · rw [hwhole _ hfull]
    · have hplace : i / 8 = full := by omega
      rw [hplace]
      exact hpart (i % 8) (by omega)

theorem take_eq_take_iff {a b : List UInt8} {count : Nat} (ha : count ≤ a.length) (hb : count ≤ b.length) :
    a.take count = b.take count ↔ ∀ j < count, a.getD j 0 = b.getD j 0 := by
  constructor
  · intro heq j hj
    have hget := congrArg (fun bytes => bytes[j]?) heq
    simp only [List.getElem?_take, hj, if_true] at hget
    rw [List.getD_eq_getElem?_getD, List.getD_eq_getElem?_getD, hget]
  · intro hbytes
    apply List.ext_getElem
    · rw [List.length_take, List.length_take]
      omega
    · intro j hleft hright
      rw [List.length_take] at hleft
      have hget := hbytes j (by omega)
      rw [List.getD_eq_getElem _ _ (by omega), List.getD_eq_getElem _ _ (by omega)] at hget
      rw [List.getElem_take, List.getElem_take, hget]

/-- The bits of a number are those of its bytes. -/
theorem testBit_ofBigEndian {bytes : List UInt8} {i : Nat} (hi : i < 8 * bytes.length) :
    (ofBigEndian bytes).testBit (8 * bytes.length - 1 - i) = bitAt bytes i := by
  induction bytes using List.reverseRecOn generalizing i with
  | nil => exact absurd hi (Nat.not_lt_zero i)
  | append_singleton bytes byte ih =>
      rw [List.length_append, List.length_singleton] at hi ⊢
      rw [ofBigEndian_concat, Nat.mul_comm]
      rw [Nat.testBit_two_pow_mul_add (ofBigEndian bytes) (i := 8) byte.toNat_lt]
      unfold bitAt
      by_cases hlast : i < 8 * bytes.length
      · have hplace : 8 * (bytes.length + 1) - 1 - i - 8 = 8 * bytes.length - 1 - i := by omega
        rw [if_neg (by omega), hplace, ih hlast, bitAt, List.getD_append _ _ _ _ (by omega)]
      · have hindex : i / 8 = bytes.length := by omega
        have hplace : 8 * (bytes.length + 1) - 1 - i = 7 - i % 8 := by omega
        rw [if_pos (by omega), hplace, hindex, List.getD_append_right _ _ _ _ (Nat.le_refl _), Nat.sub_self]
        rfl

end Bits
