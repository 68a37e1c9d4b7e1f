import Mathlib

/-!
# Bits and bytes of numbers

Numbers put together by shifts are sums, and a number of fixed width is its bytes, the most
significant first.
-/

namespace Bits

theorem shiftLeft_or {a b shift : Nat} (hb : b < 2 ^ shift) :
    a <<< shift ||| b = a * 2 ^ shift + b := by
  rw [← Nat.shiftLeft_add_eq_or_of_lt hb, Nat.shiftLeft_eq]

theorem ofNat_and (n : Nat) : UInt8.ofNat (n &&& 0xff) = UInt8.ofNat n := by
  apply UInt8.toNat_inj.mp
  rw [UInt8.toNat_ofNat', UInt8.toNat_ofNat', Nat.and_two_pow_sub_one_eq_mod _ 8, Nat.mod_mod]

theorem three_bytes (a b c : UInt8) :
    a.toNat <<< 16 ||| (b.toNat <<< 8 ||| c.toNat) = a.toNat * 65536 + b.toNat * 256 + c.toNat := by
  have hb := b.toNat_lt
  have hc := c.toNat_lt
  have hlow : b.toNat <<< 8 ||| c.toNat = b.toNat * 2 ^ 8 + c.toNat := shiftLeft_or hc
  rw [hlow, shiftLeft_or (by omega)]
  omega

theorem two_bytes (a b : UInt8) :
    a.toNat <<< 16 ||| b.toNat <<< 8 = a.toNat * 65536 + b.toNat * 256 := by
  have hb := b.toNat_lt
  rw [Nat.shiftLeft_eq b.toNat, shiftLeft_or (by omega)]
  omega

/-! ### Big-endian bytes -/

def bigEndian : Nat → Nat → List UInt8
  | 0, _ => []
  | width + 1, n => bigEndian width (n / 256) ++ [UInt8.ofNat n]

def ofBigEndian (bytes : List UInt8) : Nat := bytes.foldl (fun n byte => n * 256 + byte.toNat) 0

@[simp] theorem length_bigEndian (width n : Nat) : (bigEndian width n).length = width := by
  induction width generalizing n with
  | zero => rfl
  | succ width ih => rw [bigEndian, List.length_append, ih, List.length_singleton]

theorem ofBigEndian_concat (bytes : List UInt8) (byte : UInt8) :
    ofBigEndian (bytes ++ [byte]) = ofBigEndian bytes * 256 + byte.toNat := by
  rw [ofBigEndian, List.foldl_append]
  rfl

theorem ofBigEndian_lt (bytes : List UInt8) : ofBigEndian bytes < 256 ^ bytes.length := by
  induction bytes using List.reverseRecOn with
  | nil => exact Nat.one_pos
  | append_singleton bytes byte ih =>
      have hbyte := byte.toNat_lt
      rw [ofBigEndian_concat, List.length_append, List.length_singleton, pow_succ]
      omega

/-- The number that was written, but for the bytes that did not fit. -/
theorem ofBigEndian_bigEndian (width n : Nat) : ofBigEndian (bigEndian width n) = n % 256 ^ width := by
  induction width generalizing n with
  | zero => rw [pow_zero, Nat.mod_one]; rfl
  | succ width ih =>
      rw [bigEndian, ofBigEndian_concat, ih, pow_succ', Nat.mod_mul, UInt8.toNat_ofNat']
      omega

theorem ofBigEndian_bigEndian_of_lt {width n : Nat} (h : n < 256 ^ width) :
    ofBigEndian (bigEndian width n) = n := by
  rw [ofBigEndian_bigEndian, Nat.mod_eq_of_lt h]

theorem bigEndian_injective {width n m : Nat} (hn : n < 256 ^ width) (hm : m < 256 ^ width)
    (h : bigEndian width n = bigEndian width m) : n = m := by
  rw [← ofBigEndian_bigEndian_of_lt hn, h, ofBigEndian_bigEndian_of_lt hm]

theorem bigEndian_ofBigEndian (bytes : List UInt8) :
    bigEndian bytes.length (ofBigEndian bytes) = bytes := by
  induction bytes using List.reverseRecOn with
  | nil => rfl
  | append_singleton bytes byte ih =>
      have hbyte := byte.toNat_lt
      have hhigh : ofBigEndian (bytes ++ [byte]) / 256 = ofBigEndian bytes := by
        rw [ofBigEndian_concat]
        omega
      have hlow : UInt8.ofNat (ofBigEndian (bytes ++ [byte])) = byte := by
        apply UInt8.toNat_inj.mp
        rw [UInt8.toNat_ofNat', ofBigEndian_concat]
        omega
      rw [List.length_append, List.length_singleton, bigEndian, hhigh, hlow, ih]

end Bits
