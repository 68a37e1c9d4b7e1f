import Mathlib

/-!
# Strings and machine integers

A `std::string` is a list of bytes, compared byte by byte as unsigned. The orders on bytes and on
the 64-bit integers are the ones their comparison operators already have; they are stated here so
that both can key an ordered map.
-/

namespace GopherMcp

/-- A `std::string`: any bytes, not necessarily text. -/
abbrev Bytes := List UInt8

/-- The bytes of an ASCII literal of the source. -/
def ascii (literal : String) : Bytes := literal.toList.map Char.toUInt8

/-- 32 bytes, of SHA-256 or of a MAC made with it. -/
abbrev Digest := { bytes : Bytes // bytes.length = 32 }

def kLF : UInt8 := 10
def kCR : UInt8 := 13
def kColon : UInt8 := 58
def kSpace : UInt8 := 32

instance linearOrderUInt8 : LinearOrder UInt8 where
  le_refl := UInt8.le_refl
  le_trans _ _ _ := UInt8.le_trans
  le_antisymm _ _ := UInt8.le_antisymm
  le_total := UInt8.le_total
  lt_iff_le_not_ge a b := by
    rw [UInt8.lt_iff_toNat_lt, UInt8.le_iff_toNat_le, UInt8.le_iff_toNat_le]
    omega
  toDecidableLE := inferInstance
  toDecidableEq := inferInstance
  toDecidableLT := inferInstance

instance linearOrderInt64 : LinearOrder Int64 where
  le_refl := Int64.le_refl
  le_trans _ _ _ := Int64.le_trans
  le_antisymm _ _ := Int64.le_antisymm
  le_total := Int64.le_total
  lt_iff_le_not_ge a b := by
    rw [Int64.lt_iff_toInt_lt, Int64.le_iff_toInt_le, Int64.le_iff_toInt_le]
    omega
  toDecidableLE := inferInstance
  toDecidableEq := inferInstance
  toDecidableLT := inferInstance

end GopherMcp
