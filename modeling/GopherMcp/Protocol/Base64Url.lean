import GopherMcp.Core.Bytes
import GopherMcp.Lib.Bits
import GopherMcp.Lib.Spelling

/-!
# base64url

The spelling of sealed request states: base64 without padding, in letters that are safe in a URL. The
reader keeps the bits of the letters in one number and takes a byte off it whenever it can. It refuses
what no writer wrote, so a text is read exactly when it is the spelling of what it is read as.
-/

namespace GopherMcp

namespace Base64Url

def kAlphabet : Bytes :=
  ascii "ABCDEFGHIJKLMNOPQRSTUVWXYZabcdefghijklmnopqrstuvwxyz0123456789-_"

/-- `kAlphabet[(n >> shift) & 63]`. -/
def letterAt (n shift : Nat) : UInt8 := kAlphabet.getD (n >>> shift &&& 63) 0

def base64url : Bytes → Bytes
  | a :: b :: c :: rest =>
      let n := a.toNat <<< 16 ||| (b.toNat <<< 8 ||| c.toNat)
      letterAt n 18 :: letterAt n 12 :: letterAt n 6 :: letterAt n 0 :: base64url rest
  | [a, b] =>
      let n := a.toNat <<< 16 ||| b.toNat <<< 8
      [letterAt n 18, letterAt n 12, letterAt n 6]
  | [a] =>
      let n := a.toNat <<< 16
      [letterAt n 18, letterAt n 12]
  | [] => []

def value (c : UInt8) : Option (Fin 64) :=
  if 65 ≤ c ∧ c ≤ 90 then some (Spelling.sextet (c.toNat - 65))
  else if 97 ≤ c ∧ c ≤ 122 then some (Spelling.sextet (c.toNat - 97 + 26))
  else if 48 ≤ c ∧ c ≤ 57 then some (Spelling.sextet (c.toNat - 48 + 52))
  else if c = 45 then some (Spelling.sextet 62)
  else if c = 95 then some (Spelling.sextet 63)
  else none

/-- The local variables of the reader. `buffer` is a `uint32_t`: old bits leave it at the top. -/
structure Reader where
  out : Bytes
  buffer : Nat
  bits : Nat

namespace Reader

def takeBits (s : Reader) (v : Fin 64) : Reader :=
  let buffer := (s.buffer <<< 6 ||| v.val) % 2 ^ 32
  let bits := s.bits + 6
  if 8 ≤ bits then
    { out := s.out ++ [UInt8.ofNat (buffer >>> (bits - 8) &&& 0xff)], buffer, bits := bits - 8 }
  else { s with buffer, bits }

def takeChar (s : Reader) (c : UInt8) : Option Reader := (value c).map s.takeBits

/-- Leftover bits must be zero, so each sealed state has one spelling. -/
def hasStrayBits (s : Reader) : Bool := 0 < s.bits ∧ s.buffer &&& (1 <<< s.bits - 1) ≠ 0

end Reader

def fromBase64url (text : Bytes) : Option Bytes :=
  if text.length % 4 = 1 then none
  else do
    let s ← text.foldlM Reader.takeChar { out := [], buffer := 0, bits := 0 }
    if s.hasStrayBits then none else some s.out


/-! ### The alphabet -/

def letter (digit : Fin 64) : UInt8 := kAlphabet.getD digit.val 0

theorem kAlphabet_eq : kAlphabet =
    (List.range 26).map (fun n => UInt8.ofNat (65 + n)) ++
      (List.range 26).map (fun n => UInt8.ofNat (97 + n)) ++
      (List.range 10).map (fun n => UInt8.ofNat (48 + n)) ++ [45, 95] := by
  rfl

theorem toNat_letter : ∀ digit : Fin 64, (letter digit).toNat =
    if digit.val < 26 then digit.val + 65 else if digit.val < 52 then digit.val + 71
    else if digit.val < 62 then digit.val - 4 else if digit.val = 62 then 45 else 95 := by
  simp only [letter, kAlphabet_eq]
  decide

theorem value_letter : ∀ digit, value (letter digit) = some digit := by
  simp only [letter, kAlphabet_eq]
  decide

theorem letter_of_value (c : UInt8) (digit : Fin 64) (h : value c = some digit) :
    c = letter digit := by
  apply UInt8.toNat_inj.mp
  rw [toNat_letter]
  simp only [value, UInt8.le_iff_toNat_le, UInt8.reduceToNat] at h
  split_ifs at h with hupper hlower hnumber hdash hunderscore <;> cases h
  · simp only [Fin.val_ofNat]
    split_ifs <;> omega
  · simp only [Fin.val_ofNat]
    split_ifs <;> omega
  · simp only [Fin.val_ofNat]
    split_ifs <;> omega
  · rw [hdash]
    rfl
  · rw [hunderscore]
    rfl

def alphabet : Alphabet 64 where
  letter := letter
  value := value
  value_eq_some_iff c digit := ⟨letter_of_value c digit, fun h => h ▸ value_letter digit⟩

/-! ### Writing -/

theorem letterAt_eq (n shift : Nat) :
    letterAt n shift = alphabet.letter (Spelling.sextet (n / 2 ^ shift)) := by
  rw [letterAt, Nat.shiftRight_eq_div_pow, Nat.and_two_pow_sub_one_eq_mod _ 6]
  rfl

theorem base64url_eq (bytes : Bytes) :
    base64url bytes = alphabet.spell (Spelling.sextetsOf bytes) := by
  induction bytes using base64url.induct with
  | case1 a b c rest ih =>
      simp only [base64url, Spelling.sextetsOf, Bits.three_bytes, letterAt_eq, ih]
      simp
  | case2 a b =>
      simp only [base64url, Spelling.sextetsOf, Bits.two_bytes, letterAt_eq]
      rfl
  | case3 a =>
      simp only [base64url, Spelling.sextetsOf, Nat.shiftLeft_eq, letterAt_eq]
      rfl
  | case4 => rfl

/-! ### Reading -/

theorem foldlM_takeChar_eq_some_iff (text : Bytes) (s s' : Reader) :
    text.foldlM Reader.takeChar s = some s' ↔
      ∃ digits, text = alphabet.spell digits ∧ s' = digits.foldl Reader.takeBits s := by
  induction text generalizing s with
  | nil =>
      constructor
      · intro h
        cases h
        exact ⟨[], rfl, rfl⟩
      · rintro ⟨digits, htext, rfl⟩
        cases digits with
        | nil => rfl
        | cons => cases htext
  | cons c text ih =>
      simp only [List.foldlM_cons, Option.bind_eq_bind, Option.bind_eq_some_iff, ih,
        Reader.takeChar, Option.map_eq_some_iff]
      constructor
      · rintro ⟨_, ⟨digit, hdigit, rfl⟩, digits, rfl, rfl⟩
        exact ⟨digit :: digits, by rw [letter_of_value c digit hdigit]; rfl, rfl⟩
      · rintro ⟨digits, htext, rfl⟩
        cases digits with
        | nil => cases htext
        | cons digit digits =>
            obtain ⟨rfl, rfl⟩ := List.cons.inj htext
            exact ⟨_, ⟨digit, value_letter digit, rfl⟩, digits, rfl, rfl⟩

theorem takeBits_few (out : Bytes) (buffer : Nat) (v : Fin 64) :
    Reader.takeBits ⟨out, buffer, 0⟩ v = ⟨out, (buffer * 64 + v.val) % 2 ^ 32, 6⟩ := by
  rw [Reader.takeBits, Bits.shiftLeft_or v.isLt]
  rfl

theorem takeBits_many (out : Bytes) (buffer : Nat) (v : Fin 64) (left : Nat) :
    Reader.takeBits ⟨out, buffer, left + 2⟩ v =
      ⟨out ++ [UInt8.ofNat ((buffer * 64 + v.val) % 2 ^ 32 / 2 ^ left)],
        (buffer * 64 + v.val) % 2 ^ 32, left⟩ := by
  have hbits : left + 2 + 6 - 8 = left := by omega
  rw [Reader.takeBits, Bits.shiftLeft_or v.isLt]
  dsimp only
  rw [if_pos (by omega), hbits, Bits.ofNat_and, Nat.shiftRight_eq_div_pow]
  rfl

theorem takeBits_six (out : Bytes) (buffer : Nat) (v : Fin 64) :
    Reader.takeBits ⟨out, buffer, 6⟩ v =
      ⟨out ++ [UInt8.ofNat ((buffer * 64 + v.val) % 2 ^ 32 / 16)],
        (buffer * 64 + v.val) % 2 ^ 32, 4⟩ :=
  takeBits_many out buffer v 4

theorem takeBits_four (out : Bytes) (buffer : Nat) (v : Fin 64) :
    Reader.takeBits ⟨out, buffer, 4⟩ v =
      ⟨out ++ [UInt8.ofNat ((buffer * 64 + v.val) % 2 ^ 32 / 4)],
        (buffer * 64 + v.val) % 2 ^ 32, 2⟩ :=
  takeBits_many out buffer v 2

theorem takeBits_two (out : Bytes) (buffer : Nat) (v : Fin 64) :
    Reader.takeBits ⟨out, buffer, 2⟩ v =
      ⟨out ++ [UInt8.ofNat ((buffer * 64 + v.val) % 2 ^ 32)],
        (buffer * 64 + v.val) % 2 ^ 32, 0⟩ := by
  rw [takeBits_many out buffer v 0, pow_zero, Nat.div_one]

theorem hasStrayBits_eq (s : Reader) : s.hasStrayBits = decide (s.buffer % 2 ^ s.bits ≠ 0) := by
  rw [Reader.hasStrayBits, Nat.one_shiftLeft, Nat.and_two_pow_sub_one_eq_mod]
  rcases Nat.eq_zero_or_pos s.bits with h | h
  · simp [h, Nat.mod_one]
  · simp [h]

/-- Four letters hand on three bytes and leave no bits behind; what was in the buffer before does not
matter. -/
theorem foldl_takeBits (digits : List (Fin 64)) (out : Bytes) (buffer : Nat)
    (hlength : digits.length % 4 ≠ 1) :
    (digits.foldl Reader.takeBits ⟨out, buffer, 0⟩).out = out ++ Spelling.octetsOf digits ∧
      ((digits.foldl Reader.takeBits ⟨out, buffer, 0⟩).hasStrayBits = false ↔
        Spelling.Canonical digits) := by
  induction digits using Spelling.octetsOf.induct generalizing out buffer with
  | case1 p q r s rest ih =>
      have hp := p.isLt
      have hq := q.isLt
      have hr := r.isLt
      have hs := s.isLt
      have hrest : rest.length % 4 ≠ 1 := by
        simp only [List.length_cons] at hlength
        omega
      simp only [List.foldl_cons, takeBits_few, takeBits_six, takeBits_four,
        takeBits_two, ih _ _ hrest, Spelling.octetsOf, Spelling.Canonical, and_true,
        List.append_assoc, List.cons_append, List.nil_append, List.append_cancel_left_eq,
        List.cons.injEq]
      refine ⟨?_, ?_, ?_⟩ <;>
        · apply UInt8.toNat_inj.mp
          rw [UInt8.toNat_ofNat', UInt8.toNat_ofNat']
          omega
  | case2 p q r =>
      have hp := p.isLt
      have hq := q.isLt
      have hr := r.isLt
      simp only [List.foldl_cons, List.foldl_nil, takeBits_few, takeBits_six,
        takeBits_four, hasStrayBits_eq, Spelling.octetsOf, Spelling.Canonical,
        List.append_assoc, List.singleton_append, List.append_cancel_left_eq, List.cons.injEq,
        and_true, decide_eq_false_iff_not, not_not]
      refine ⟨⟨?_, ?_⟩, by omega⟩ <;>
        · apply UInt8.toNat_inj.mp
          rw [UInt8.toNat_ofNat', UInt8.toNat_ofNat']
          omega
  | case3 p q =>
      have hp := p.isLt
      have hq := q.isLt
      simp only [List.foldl_cons, List.foldl_nil, takeBits_few, takeBits_six,
        hasStrayBits_eq, Spelling.octetsOf, Spelling.Canonical, List.append_cancel_left_eq,
        List.cons.injEq, and_true, decide_eq_false_iff_not, not_not]
      refine ⟨?_, by omega⟩
      apply UInt8.toNat_inj.mp
      rw [UInt8.toNat_ofNat', UInt8.toNat_ofNat']
      omega
  | case4 p => exact absurd rfl hlength
  | case5 => simp [Reader.hasStrayBits, Spelling.octetsOf, Spelling.Canonical]

theorem length_ne_of_canonical {digits : List (Fin 64)} (h : Spelling.Canonical digits) :
    digits.length % 4 ≠ 1 := by
  induction digits using Spelling.octetsOf.induct with
  | case1 p q r s rest ih =>
      have hrest := ih h
      simp only [List.length_cons]
      omega
  | case4 p => exact h.elim
  | _ => simp

/-- A text is read exactly when it is the spelling of what it is read as. -/
theorem fromBase64url_eq_some_iff (text bytes : Bytes) :
    fromBase64url text = some bytes ↔ text = base64url bytes := by
  rw [base64url_eq]
  constructor
  · intro h
    rw [fromBase64url] at h
    split_ifs at h with hlength
    obtain ⟨s, hs, hout⟩ := Option.bind_eq_some_iff.mp h
    obtain ⟨digits, rfl, rfl⟩ := (foldlM_takeChar_eq_some_iff text _ s).mp hs
    rw [Alphabet.length_spell] at hlength
    obtain ⟨hbytes, hstray⟩ := foldl_takeBits digits [] 0 hlength
    by_cases hleft : (digits.foldl Reader.takeBits ⟨[], 0, 0⟩).hasStrayBits = true
    · rw [if_pos hleft] at hout
      cases hout
    · rw [if_neg hleft, hbytes, List.nil_append] at hout
      rw [← Option.some.inj hout,
        Spelling.sextetsOf_octetsOf (hstray.mp (Bool.eq_false_iff.mpr hleft))]
  · rintro rfl
    have hcanonical := Spelling.canonical_sextetsOf bytes
    have hlength := length_ne_of_canonical hcanonical
    obtain ⟨hbytes, hstray⟩ := foldl_takeBits (Spelling.sextetsOf bytes) [] 0 hlength
    have hread := (foldlM_takeChar_eq_some_iff _ ⟨[], 0, 0⟩ _).mpr
      ⟨Spelling.sextetsOf bytes, rfl, rfl⟩
    rw [fromBase64url, if_neg (by rw [Alphabet.length_spell]; exact hlength), hread,
      Option.bind_eq_bind, Option.bind_some, if_neg (by rw [hstray.mpr hcanonical]; simp), hbytes,
      List.nil_append, Spelling.octetsOf_sextetsOf]

end Base64Url

end GopherMcp
