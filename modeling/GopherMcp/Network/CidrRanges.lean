import GopherMcp.Lib.FirstBits
import GopherMcp.Network.InternetAddresses

/-!
# Ranges of addresses

A range is an address with the number of its first bits that count. The bits that count are kept masked, in network
order, and an address is in the range if the mask leaves the same of it; of an address of the other family there is
nothing to compare. The number of bits is read by `std::stoi`, which is content with a number at the front of the text.
-/

namespace GopherMcp

open AddressInstance (parseInternetAddressNoPort cString stoi_of_readNumber)
open HttpRequest (readNumber)
open Bits (bitAt highMask)

structure CidrRange where
  address : AddressInstance
  prefixLen : UInt32
  networkBits : Bytes

namespace CidrRange

def kSlash : UInt8 := 47

/-- The number whose bytes in network order these are. -/
def ntohl (bytes : Bytes) : UInt32 := UInt32.ofNat (Bits.ofBigEndian bytes)

def htonl (number : UInt32) : Bytes := Bits.bigEndian 4 number.toNat

def mask32 (prefixLen : UInt32) : UInt32 := if prefixLen = 0 then 0 else ~~~0 <<< (32 - prefixLen)

def mask8 (remainingBits : Nat) : UInt8 := UInt8.ofNat (0xff <<< (8 - remainingBits))

/-- The mask is applied to the byte it ends in, and the bytes behind are zeros. -/
def maskedBytes (bytes : Bytes) (prefixLen : Nat) : Bytes :=
  let fullBytes := prefixLen / 8
  let remainingBits := prefixLen % 8
  if fullBytes < 16 then
    if 0 < remainingBits then
      bytes.take fullBytes ++ (bytes.getD fullBytes 0 &&& mask8 remainingBits) :: List.replicate (15 - fullBytes) 0
    else bytes.take fullBytes ++ List.replicate (16 - fullBytes) 0
  else bytes

/-- The constructor; none where it throws. -/
def make (address : AddressInstance) (prefixLen : UInt32) : Option CidrRange :=
  match address with
  | .ipv4 bytes _ =>
      if 32 < prefixLen then none
      else some ⟨address, prefixLen, htonl (ntohl bytes.val &&& mask32 prefixLen)⟩
  | .ipv6 bytes _ =>
      if 128 < prefixLen then none else some ⟨address, prefixLen, maskedBytes bytes.val prefixLen.toNat⟩
  | .pipe _ => none

def parse (net : InternetText) (range : Bytes) : Option CidrRange :=
  match Delimited.cut range kSlash with
  | none => none
  | some (addrPart, prefixPart) =>
      (stoi prefixPart).bind fun number =>
        (parseInternetAddressNoPort net addrPart 0).bind fun address => make address (UInt32.ofInt number)

/-- Whole bytes are compared, and then what the mask leaves of one more. -/
def samePrefix (bytes networkBits : Bytes) (prefixLen : Nat) : Bool :=
  let fullBytes := prefixLen / 8
  let remainingBits := prefixLen % 8
  if bytes.take fullBytes ≠ networkBits.take fullBytes then false
  else if 0 < remainingBits ∧ fullBytes < 16 then
    (bytes.getD fullBytes 0 &&& mask8 remainingBits) == (networkBits.getD fullBytes 0 &&& mask8 remainingBits)
  else true

def contains (range : CidrRange) (address : AddressInstance) : Bool :=
  match range.address, address with
  | .ipv4 _ _, .ipv4 bytes _ => (ntohl bytes.val &&& mask32 range.prefixLen) == ntohl range.networkBits
  | .ipv6 _ _, .ipv6 bytes _ => samePrefix bytes.val range.networkBits range.prefixLen.toNat
  | _, _ => false

/-! ### What is promised -/

/-- The bits of the family's addresses. -/
def width : AddressInstance → Nat
  | .ipv4 _ _ => 32
  | .ipv6 _ _ => 128
  | .pipe _ => 0

/-- The addresses are of one family and have the same first bits. -/
def AgreeOn (count : Nat) : AddressInstance → AddressInstance → Prop
  | .ipv4 bytes _, .ipv4 other _ => ∀ i < count, bitAt bytes.val i = bitAt other.val i
  | .ipv6 bytes _, .ipv6 other _ => ∀ i < count, bitAt bytes.val i = bitAt other.val i
  | _, _ => False

/-- The text is one of the address, and holds no zero. -/
def Names (net : InternetText) (text : Bytes) : AddressInstance → Prop
  | .ipv4 bytes _ => 0 ∉ text ∧ net.pton4 text = some bytes
  | .ipv6 bytes _ => 0 ∉ text ∧ net.pton6 text = some bytes
  | .pipe _ => False

/-- An address, a slash and a decimal number of bits the family has, and nothing else. -/
def WellWritten (net : InternetText) (text : Bytes) (range : CidrRange) : Prop :=
  ∃ addrPart prefixPart, text = addrPart ++ kSlash :: prefixPart ∧ kSlash ∉ addrPart ∧
    Names net addrPart range.address ∧ readNumber prefixPart = some range.prefixLen.toNat ∧
      range.prefixLen.toNat ≤ width range.address

/-- An address is in the range exactly if it agrees with that of the range on the bits that count. -/
def Exact (range : CidrRange) : Prop :=
  ∀ address, range.contains address = true ↔ AgreeOn range.prefixLen.toNat range.address address

/-- Where an address is followed by a slash and a number of bits that it has, the number is written in digits, and no
zero ends the address before the slash does. -/
def Plain (net : InternetText) (text : Bytes) : Prop :=
  ∀ addrPart prefixPart number address, Delimited.cut text kSlash = some (addrPart, prefixPart) →
    stoi prefixPart = some number → parseInternetAddressNoPort net addrPart 0 = some address →
    (UInt32.ofInt number).toNat ≤ width address → 0 ∉ addrPart ∧ (readNumber prefixPart).isSome = true

/-! ### Masks -/

variable {bytes other : Bytes} {prefixLen : UInt32} {count : Nat}

theorem ntohl_htonl (number : UInt32) : ntohl (htonl number) = number := by
  unfold ntohl htonl
  rw [Bits.ofBigEndian_bigEndian_of_lt number.toNat_lt, UInt32.ofNat_toNat]

theorem toNat_ntohl (hbytes : bytes.length = 4) : (ntohl bytes).toNat = Bits.ofBigEndian bytes := by
  have hbound := Bits.ofBigEndian_lt bytes
  rw [hbytes] at hbound
  have hsmall : Bits.ofBigEndian bytes < 2 ^ 32 := hbound.trans_eq (by norm_num)
  rw [ntohl, UInt32.toNat_ofNat', Nat.mod_eq_of_lt hsmall]

theorem toNat_mask32 (h : prefixLen.toNat ≤ 32) : (mask32 prefixLen).toNat = highMask 32 prefixLen.toNat := by
  unfold mask32
  split_ifs with hzero
  · rw [hzero]
    rfl
  · have hpositive : prefixLen.toNat ≠ 0 := fun heq => hzero (UInt32.toNat_inj.mp heq)
    have hshift : (32 - prefixLen).toNat = 32 - prefixLen.toNat :=
      UInt32.toNat_sub_of_le _ _ (UInt32.le_iff_toNat_le.mpr h)
    have hless : (32 - prefixLen.toNat) % 32 = 32 - prefixLen.toNat := Nat.mod_eq_of_lt (by omega)
    rw [UInt32.toNat_shiftLeft, hshift, hless]
    rfl

theorem toNat_mask8 (remainingBits : Nat) : (mask8 remainingBits).toNat = highMask 8 remainingBits :=
  UInt8.toNat_ofNat'

/-- The mask leaves the same of two numbers if their bytes begin with the same bits. -/
theorem and_mask32_eq_iff (hbytes : bytes.length = 4) (hother : other.length = 4) (h : prefixLen.toNat ≤ 32) :
    ntohl bytes &&& mask32 prefixLen = ntohl other &&& mask32 prefixLen ↔
      ∀ i < prefixLen.toNat, bitAt bytes i = bitAt other i := by
  rw [← UInt32.toNat_inj, UInt32.toNat_and, UInt32.toNat_and, toNat_ntohl hbytes, toNat_ntohl hother, toNat_mask32 h,
    Bits.and_highMask_eq_iff h]
  refine forall_congr' fun i => forall_congr' fun hi => ?_
  have hleft := @Bits.testBit_ofBigEndian bytes i (by omega)
  have hright := @Bits.testBit_ofBigEndian other i (by omega)
  rw [hbytes] at hleft
  rw [hother] at hright
  rw [hleft, hright]

theorem and_mask8_eq_iff {a b : UInt8} {remainingBits : Nat} (h : remainingBits ≤ 8) :
    a &&& mask8 remainingBits = b &&& mask8 remainingBits &&& mask8 remainingBits ↔
      ∀ i < remainingBits, a.toNat.testBit (7 - i) = b.toNat.testBit (7 - i) := by
  rw [UInt8.and_assoc, UInt8.and_self, ← UInt8.toNat_inj, UInt8.toNat_and, UInt8.toNat_and, toNat_mask8,
    Bits.and_highMask_eq_iff h]

theorem take_maskedBytes (hbytes : bytes.length = 16) (h : count ≤ 128) :
    (maskedBytes bytes count).take (count / 8) = bytes.take (count / 8) := by
  have hlength : (bytes.take (count / 8)).length = count / 8 := by
    rw [List.length_take]
    omega
  unfold maskedBytes
  dsimp only
  split_ifs
  · rw [List.take_append_of_le_length (by omega), List.take_take, Nat.min_self]
  · rw [List.take_append_of_le_length (by omega), List.take_take, Nat.min_self]
  · rfl

theorem getD_maskedBytes (hbytes : bytes.length = 16) (hfull : count / 8 < 16) (hrest : 0 < count % 8) :
    (maskedBytes bytes count).getD (count / 8) 0 = bytes.getD (count / 8) 0 &&& mask8 (count % 8) := by
  have hlength : (bytes.take (count / 8)).length = count / 8 := by
    rw [List.length_take]
    omega
  unfold maskedBytes
  dsimp only
  rw [if_pos hfull, if_pos hrest, List.getD_append_right _ _ _ _ (by omega), hlength, Nat.sub_self]
  rfl

/-- Bytes are compared as far as the bits count. -/
theorem samePrefix_iff (hbytes : bytes.length = 16) (hother : other.length = 16) (h : count ≤ 128) :
    samePrefix bytes (maskedBytes other count) count = true ↔ ∀ i < count, bitAt bytes i = bitAt other i := by
  have hcount : count = 8 * (count / 8) + count % 8 := (Nat.div_add_mod count 8).symm
  have hwhole := @Bits.take_eq_take_iff bytes other (count / 8) (by omega) (by omega)
  have hbits := @Bits.forall_bitAt_iff bytes other (count / 8) (count % 8) (by omega)
  rw [← hcount] at hbits
  unfold samePrefix
  dsimp only
  rw [hbits, ← hwhole, take_maskedBytes hother h]
  by_cases hsame : bytes.take (count / 8) = other.take (count / 8)
  · by_cases hrest : 0 < count % 8
    · rw [if_neg (not_not_intro hsame), if_pos ⟨hrest, by omega⟩, getD_maskedBytes hother (by omega) hrest, beq_iff_eq,
        and_mask8_eq_iff (by omega)]
      exact (and_iff_right hsame).symm
    · rw [if_neg (not_not_intro hsame), if_neg fun hboth => hrest hboth.1]
      exact iff_of_true rfl ⟨hsame, fun i hi => absurd hi (by omega)⟩
  · rw [if_pos hsame]
    exact iff_of_false Bool.false_ne_true fun hboth => hsame hboth.1

/-! ### Ranges -/

variable {net : InternetText} {address : AddressInstance} {range : CidrRange} {text : Bytes}

theorem make_eq_some (h : make address prefixLen = some range) :
    range.address = address ∧ range.prefixLen = prefixLen ∧ prefixLen.toNat ≤ width address := by
  cases address with
  | pipe path => cases h
  | ipv4 bytes port | ipv6 bytes port =>
      rw [make] at h
      split_ifs at h with hlarge
      obtain rfl := Option.some.inj h
      exact ⟨rfl, rfl, UInt32.le_iff_toNat_le.mp (UInt32.not_lt.mp hlarge)⟩

/-- A range that is made holds exactly the addresses that agree with its own. -/
theorem exact_of_make (h : make address prefixLen = some range) : Exact range := by
  obtain ⟨-, -, hwidth⟩ := make_eq_some h
  intro other
  cases address with
  | pipe path => cases h
  | ipv4 bytes port =>
      rw [make] at h
      split_ifs at h with hlarge
      obtain rfl := Option.some.inj h
      cases other with
      | ipv4 given otherPort =>
          have hiff := and_mask32_eq_iff given.property bytes.property hwidth
          show (_ == ntohl (htonl _)) = true ↔ ∀ i < _, bitAt bytes.val i = bitAt given.val i
          rw [ntohl_htonl, beq_iff_eq, hiff]
          exact forall_congr' fun i => forall_congr' fun _ => eq_comm
      | ipv6 given otherPort => exact iff_of_false Bool.false_ne_true id
      | pipe path => exact iff_of_false Bool.false_ne_true id
  | ipv6 bytes port =>
      rw [make] at h
      split_ifs at h with hlarge
      obtain rfl := Option.some.inj h
      cases other with
      | ipv6 given otherPort =>
          have hiff := samePrefix_iff given.property bytes.property hwidth
          show samePrefix _ _ _ = true ↔ ∀ i < _, bitAt bytes.val i = bitAt given.val i
          rw [hiff]
          exact forall_congr' fun i => forall_congr' fun _ => eq_comm
      | ipv4 given otherPort => exact iff_of_false Bool.false_ne_true id
      | pipe path => exact iff_of_false Bool.false_ne_true id

theorem parse_eq_some (h : parse net text = some range) :
    ∃ addrPart prefixPart number, Delimited.cut text kSlash = some (addrPart, prefixPart) ∧
      stoi prefixPart = some number ∧ parseInternetAddressNoPort net addrPart 0 = some range.address ∧
      range.prefixLen = UInt32.ofInt number ∧ range.prefixLen.toNat ≤ width range.address ∧ Exact range := by
  unfold parse at h
  cases hcut : Delimited.cut text kSlash with
  | none =>
      rw [hcut] at h
      cases h
  | some parts =>
      rw [hcut] at h
      obtain ⟨number, hnumber, h⟩ := Option.bind_eq_some_iff.mp h
      obtain ⟨address, haddress, hmake⟩ := Option.bind_eq_some_iff.mp h
      obtain ⟨hsame, hprefix, hwidth⟩ := make_eq_some hmake
      rw [← hsame] at haddress hwidth
      rw [← hprefix] at hwidth
      exact ⟨parts.1, parts.2, number, rfl, hnumber, haddress, hprefix, hwidth, exact_of_make hmake⟩

theorem exists_make (h : prefixLen.toNat ≤ width address) (hip : 0 < width address) :
    ∃ range, make address prefixLen = some range := by
  cases address with
  | pipe path => exact absurd hip (Nat.lt_irrefl 0)
  | ipv4 bytes port | ipv6 bytes port =>
      exact ⟨_, if_neg (UInt32.not_lt.mpr (UInt32.le_iff_toNat_le.mpr h))⟩

/-- What is read without a port is an Internet address, and named by the text up to its first zero. -/
theorem names_of_parse (h : parseInternetAddressNoPort net text 0 = some address) :
    0 < width address ∧ (0 ∉ text → Names net text address) := by
  have heither : (AddressInstance.makeIpv4 net text 0 <|> AddressInstance.makeIpv6 net text 0) = some address := h
  rw [Option.orElse_eq_some] at heither
  obtain h | ⟨-, h⟩ := heither
  · obtain ⟨bytes, hbytes, rfl⟩ := Option.map_eq_some_iff.mp h
    refine ⟨Nat.succ_pos _, fun hzero => ⟨hzero, ?_⟩⟩
    rwa [AddressInstance.cString_of_not_mem hzero] at hbytes
  · obtain ⟨bytes, hbytes, rfl⟩ := Option.map_eq_some_iff.mp h
    refine ⟨Nat.succ_pos _, fun hzero => ⟨hzero, ?_⟩⟩
    rwa [AddressInstance.cString_of_not_mem hzero] at hbytes

theorem zero_not_mem_of_names (h : Names net text address) : 0 ∉ text := by
  cases address with
  | ipv4 bytes port => exact h.1
  | ipv6 bytes port => exact h.1
  | pipe path => exact absurd h id

theorem toNat_ofInt {number : Nat} (h : number < 2 ^ 31) : (UInt32.ofInt (number : Int)).toNat = number := by
  rw [UInt32.ofInt, UInt32.toNat_ofNat']
  omega

/-- **Ranges.** What is read as a range is written as one, and holds exactly the addresses that agree with its own on
the bits that count, if the text is plain, and only then. -/
theorem parse_exact_iff (net : InternetText) (text : Bytes) :
    (∀ range, parse net text = some range → WellWritten net text range ∧ Exact range) ↔ Plain net text := by
  constructor
  · intro hall addrPart prefixPart number address hcut hnumber haddress hwidth
    obtain ⟨range, hrange⟩ := exists_make hwidth (names_of_parse haddress).1
    have hparse : parse net text = some range := by
      unfold parse
      rw [hcut]
      dsimp only
      rw [hnumber, Option.bind_some, haddress, Option.bind_some, hrange]
    obtain ⟨hsame, -, -⟩ := make_eq_some hrange
    obtain ⟨⟨named, digits, htext, hslash, hnames, hdigits, -⟩, -⟩ := hall range hparse
    rw [htext, Delimited.cut_append hslash, Option.some.injEq, Prod.mk.injEq] at hcut
    obtain ⟨rfl, rfl⟩ := hcut
    rw [hsame] at hnames
    exact ⟨zero_not_mem_of_names hnames, by rw [hdigits]; rfl⟩
  · intro hplain range hparse
    obtain ⟨addrPart, prefixPart, number, hcut, hnumber, haddress, hprefix, hwidth, hexact⟩ := parse_eq_some hparse
    obtain ⟨hzero, hdigits⟩ := hplain addrPart prefixPart number range.address hcut hnumber haddress
      (by rw [← hprefix]; exact hwidth)
    obtain ⟨written, hwritten⟩ := Option.isSome_iff_exists.mp hdigits
    obtain ⟨htext, hslash⟩ := Delimited.cut_eq_some_iff.mp hcut
    refine ⟨⟨addrPart, prefixPart, htext, hslash, (names_of_parse haddress).2 hzero, ?_, hwidth⟩, hexact⟩
    rw [stoi_of_readNumber hwritten, Option.ite_none_right_eq_some] at hnumber
    obtain ⟨hsmall, hsame⟩ := hnumber
    rw [hwritten, hprefix, ← Option.some.inj hsame, toNat_ofInt hsmall]

/-- Text behind the number is not looked at. -/
theorem not_parse_exact :
    ¬ ∀ (net : InternetText) (text : Bytes) (range : CidrRange), parse net text = some range →
      WellWritten net text range ∧ Exact range := by
  intro h
  obtain ⟨range, hrange⟩ : ∃ range, parse AddressInstance.loopbackText (ascii "127.0.0.1/8abc") = some range :=
    Option.isSome_iff_exists.mp (by decide +kernel)
  obtain ⟨⟨addrPart, digits, htext, hslash, -, hdigits, -⟩, -⟩ := h _ _ _ hrange
  have hcut : Delimited.cut (ascii "127.0.0.1/8abc") kSlash = some (ascii "127.0.0.1", ascii "8abc") := by
    decide +kernel
  rw [htext, Delimited.cut_append hslash, Option.some.injEq, Prod.mk.injEq] at hcut
  have hnone : readNumber (ascii "8abc") = none := by decide +kernel
  rw [hcut.2, hnone] at hdigits
  cases hdigits

end CidrRange

end GopherMcp
