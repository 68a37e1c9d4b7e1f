import GopherMcp.Core.Bytes
import GopherMcp.Lib.Bits
import GopherMcp.Lib.Spelling

/-!
# Header values that survive the trip

A value that can stand in a header as it is travels as itself. Any other travels as the base64 of its
bytes between two markers, and so does a value that already wears the markers. The reader of base64
is strict about letters and padding and refuses markers around nothing, but it does not look at the
stray bits of the last letter.
-/

namespace GopherMcp

namespace HeaderSentinel

def kEquals : UInt8 := 61
def kTab : UInt8 := 9

/-! ### Base64 -/

def kAlphabet : Bytes :=
  ascii "ABCDEFGHIJKLMNOPQRSTUVWXYZabcdefghijklmnopqrstuvwxyz0123456789+/"

/-- The value of one base64 character, or none for anything that is not one. -/
def sixBits (c : UInt8) : Option (Fin 64) :=
  if 65 ≤ c ∧ c ≤ 90 then some (Spelling.sextet (c.toNat - 65))
  else if 97 ≤ c ∧ c ≤ 122 then some (Spelling.sextet (c.toNat - 97 + 26))
  else if 48 ≤ c ∧ c ≤ 57 then some (Spelling.sextet (c.toNat - 48 + 52))
  else if c = 43 then some (Spelling.sextet 62)
  else if c = 47 then some (Spelling.sextet 63)
  else none

/-- `kAlphabet[(triple >> shift) & 0x3f]`. -/
def letterAt (triple shift : Nat) : UInt8 := kAlphabet.getD (triple >>> shift &&& 0x3f) 0

def toBase64 : Bytes → Bytes
  | a :: b :: c :: rest =>
      let triple := a.toNat <<< 16 ||| (b.toNat <<< 8 ||| c.toNat)
      letterAt triple 18 :: letterAt triple 12 :: letterAt triple 6 :: letterAt triple 0 ::
        toBase64 rest
  | [a, b] =>
      let triple := a.toNat <<< 16 ||| b.toNat <<< 8
      [letterAt triple 18, letterAt triple 12, letterAt triple 6, kEquals]
  | [a] =>
      let triple := a.toNat <<< 16
      [letterAt triple 18, letterAt triple 12, kEquals, kEquals]
  | [] => []

/-- The padding at the end of a text, as far as the reader looks for it. -/
def paddingOf (text : Bytes) : Nat :=
  if text[text.length - 1]? = some kEquals then
    if 2 ≤ text.length ∧ text[text.length - 2]? = some kEquals then 2 else 1
  else 0

/-- One turn of the inner loop: the character at `place` of its group. Padding may stand only in the
last group, and only at its end. -/
def readChar (padding : Nat) (lastGroup : Bool) (quad : Nat) (placed : Nat × UInt8) : Option Nat :=
  let (place, c) := placed
  if c = kEquals then
    if !lastGroup ∨ ¬4 - padding ≤ place then none else some (quad <<< 6)
  else (sixBits c).map fun value => quad <<< 6 ||| value.val

/-- The outer loop, four characters a turn. -/
def readGroups (padding : Nat) : Bytes → Option Bytes
  | c0 :: c1 :: c2 :: c3 :: rest => do
      let lastGroup := rest.isEmpty
      let quad ← [(0, c0), (1, c1), (2, c2), (3, c3)].foldlM (readChar padding lastGroup) 0
      let second := if padding < 2 ∨ !lastGroup then [UInt8.ofNat (quad >>> 8 &&& 0xff)] else []
      let third := if padding < 1 ∨ !lastGroup then [UInt8.ofNat (quad &&& 0xff)] else []
      let out ← readGroups padding rest
      return UInt8.ofNat (quad >>> 16 &&& 0xff) :: (second ++ third ++ out)
  | _ => some []

def fromBase64 (text : Bytes) : Option Bytes :=
  if text = [] ∨ text.length % 4 ≠ 0 then none
  else readGroups (paddingOf text) text

/-! ### Header values -/

def kSentinelPrefix : Bytes := ascii "=?base64?"
def kSentinelSuffix : Bytes := ascii "?="

def wearsSentinel (value : Bytes) : Bool :=
  kSentinelPrefix.length + kSentinelSuffix.length ≤ value.length ∧
    value.take kSentinelPrefix.length = kSentinelPrefix ∧
    value.drop (value.length - kSentinelSuffix.length) = kSentinelSuffix

/-- Whether this value can be carried as itself. -/
def isHeaderSafe (value : Bytes) : Bool :=
  if value = [] then true
  else if value.head? = some kSpace ∨ value.head? = some kTab ∨ value.getLast? = some kSpace ∨
      value.getLast? = some kTab then false
  else if value.any fun byte => byte ≠ 0x09 ∧ (byte < 0x20 ∨ 0x7e < byte) then false
  else !wearsSentinel value

def encodeHeaderValue (value : Bytes) : Bytes :=
  if isHeaderSafe value then value
  else kSentinelPrefix ++ toBase64 value ++ kSentinelSuffix

/-- What a header value means; none when it wears the sentinel around something else than base64. -/
def decodeHeaderValue (header : Bytes) : Option Bytes :=
  if !wearsSentinel header then some header
  else
    fromBase64 ((header.drop kSentinelPrefix.length).take
      (header.length - kSentinelPrefix.length - kSentinelSuffix.length))

/-! ### The alphabet -/

def letter (digit : Fin 64) : UInt8 := kAlphabet.getD digit.val 0

theorem kAlphabet_eq : kAlphabet =
    (List.range 26).map (fun n => UInt8.ofNat (65 + n)) ++
      (List.range 26).map (fun n => UInt8.ofNat (97 + n)) ++
      (List.range 10).map (fun n => UInt8.ofNat (48 + n)) ++ [43, 47] := by
  rfl

theorem toNat_letter : ∀ digit : Fin 64, (letter digit).toNat =
    if digit.val < 26 then digit.val + 65 else if digit.val < 52 then digit.val + 71
    else if digit.val < 62 then digit.val - 4 else if digit.val = 62 then 43 else 47 := by
  simp only [letter, kAlphabet_eq]
  decide

theorem sixBits_letter : ∀ digit, sixBits (letter digit) = some digit := by
  simp only [letter, kAlphabet_eq]
  decide

theorem letter_of_sixBits (c : UInt8) (digit : Fin 64) (h : sixBits c = some digit) :
    c = letter digit := by
  apply UInt8.toNat_inj.mp
  rw [toNat_letter]
  simp only [sixBits, UInt8.le_iff_toNat_le, UInt8.reduceToNat] at h
  split_ifs at h with hupper hlower hnumber hplus hslash <;> cases h
  · simp only [Fin.val_ofNat]
    split_ifs <;> omega
  · simp only [Fin.val_ofNat]
    split_ifs <;> omega
  · simp only [Fin.val_ofNat]
    split_ifs <;> omega
  · rw [hplus]
    rfl
  · rw [hslash]
    rfl

def base64 : Alphabet 64 where
  letter := letter
  value := sixBits
  value_eq_some_iff c digit :=
    ⟨letter_of_sixBits c digit, fun h => h ▸ sixBits_letter digit⟩

theorem letter_ne_kEquals : ∀ digit, base64.letter digit ≠ kEquals := by
  simp only [base64, letter, kAlphabet_eq]
  decide

theorem kEquals_not_mem_spell (digits : List (Fin 64)) : kEquals ∉ base64.spell digits := by
  intro h
  obtain ⟨digit, hdigit⟩ := base64.exists_letter_of_mem_spell h
  exact letter_ne_kEquals digit hdigit.symm

/-- A text of the base64 grammar and the bytes it denotes: letters, then fewer than three padding
characters, a multiple of four in all. -/
def IsBase64 (text bytes : Bytes) : Prop :=
  ∃ digits padding, text = base64.spell digits ++ List.replicate padding kEquals ∧ padding < 3 ∧
    (digits.length + padding) % 4 = 0 ∧ bytes = Spelling.octetsOf digits

/-! ### Writing -/

theorem letterAt_eq (triple shift : Nat) :
    letterAt triple shift = base64.letter (Spelling.sextet (triple / 2 ^ shift)) := by
  rw [letterAt, Nat.shiftRight_eq_div_pow, Nat.and_two_pow_sub_one_eq_mod _ 6]
  rfl

theorem toBase64_eq (bytes : Bytes) :
    toBase64 bytes = base64.spell (Spelling.sextetsOf bytes) ++
      List.replicate ((3 - bytes.length % 3) % 3) kEquals := by
  induction bytes using toBase64.induct with
  | case1 a b c rest ih =>
      have hlength : (a :: b :: c :: rest).length % 3 = rest.length % 3 := by
        simp only [List.length_cons]
        omega
      simp only [toBase64, Spelling.sextetsOf, Bits.three_bytes, letterAt_eq, ih, hlength]
      simp
  | case2 a b =>
      simp only [toBase64, Spelling.sextetsOf, Bits.two_bytes, letterAt_eq]
      rfl
  | case3 a =>
      simp only [toBase64, Spelling.sextetsOf, Nat.shiftLeft_eq, letterAt_eq]
      rfl
  | case4 => rfl

theorem length_sextetsOf (bytes : Bytes) :
    ((Spelling.sextetsOf bytes).length + (3 - bytes.length % 3) % 3) % 4 = 0 := by
  induction bytes using Spelling.sextetsOf.induct with
  | case1 a b c rest ih =>
      simp only [Spelling.sextetsOf, List.length_cons]
      omega
  | _ => simp [Spelling.sextetsOf]

theorem isBase64_toBase64 (bytes : Bytes) : IsBase64 (toBase64 bytes) bytes :=
  ⟨Spelling.sextetsOf bytes, (3 - bytes.length % 3) % 3, toBase64_eq bytes, by omega,
    length_sextetsOf bytes, (Spelling.octetsOf_sextetsOf bytes).symm⟩

/-! ### Reading -/

theorem readChar_letter (padding : Nat) (lastGroup : Bool) (quad place : Nat) (digit : Fin 64) :
    readChar padding lastGroup quad (place, base64.letter digit) =
      some (quad * 64 + digit.val) := by
  have hvalue : sixBits (base64.letter digit) = some digit := base64.value_letter digit
  rw [readChar, if_neg (letter_ne_kEquals digit), hvalue, Option.map_some,
    Bits.shiftLeft_or digit.isLt]
  rfl

theorem readChar_kEquals {padding place : Nat} (h : 4 - padding ≤ place) (quad : Nat) :
    readChar padding true quad (place, kEquals) = some (quad * 64) := by
  rw [readChar, if_pos rfl, if_neg (by simp [h]), Nat.shiftLeft_eq]

/-- What a turn of the inner loop accepts. -/
theorem readChar_cases {padding quad quad' place : Nat} {lastGroup : Bool} {c : UInt8}
    (h : readChar padding lastGroup quad (place, c) = some quad') :
    (c = kEquals ∧ lastGroup = true ∧ 4 - padding ≤ place ∧ quad' = quad * 64) ∨
      ∃ digit, c = base64.letter digit ∧ quad' = quad * 64 + digit.val := by
  by_cases hc : c = kEquals
  · left
    rw [readChar, if_pos hc] at h
    by_cases hrefused : !lastGroup ∨ ¬4 - padding ≤ place
    · rw [if_pos hrefused] at h
      cases h
    · rw [if_neg hrefused, Nat.shiftLeft_eq] at h
      cases h
      simp only [Bool.not_eq_true', not_or, Bool.not_eq_false, not_not] at hrefused
      exact ⟨hc, hrefused.1, hrefused.2, rfl⟩
  · right
    rw [readChar, if_neg hc] at h
    obtain ⟨digit, hdigit, hquad⟩ := Option.map_eq_some_iff.mp h
    refine ⟨digit, letter_of_sixBits c digit hdigit, ?_⟩
    rw [← hquad, Bits.shiftLeft_or digit.isLt]
    rfl

/-- The padding is looked for in the last group. -/
theorem paddingOf_group (c0 c1 c2 c3 : UInt8) {rest : Bytes} (hrest : rest ≠ [])
    (hlength : rest.length % 4 = 0) :
    paddingOf (c0 :: c1 :: c2 :: c3 :: rest) = paddingOf rest := by
  obtain ⟨n, hn⟩ : ∃ n, rest.length = n + 4 := by
    have hpos := List.length_pos_iff.mpr hrest
    exact ⟨rest.length - 4, by omega⟩
  simp [paddingOf, hn]

theorem readGroups_group (padding : Nat) (p q r s : Fin 64) {rest : Bytes}
    (hfull : padding < 1 ∨ rest ≠ []) :
    readGroups padding (base64.letter p :: base64.letter q :: base64.letter r ::
        base64.letter s :: rest) =
      (readGroups padding rest).map (Spelling.octetsOf [p, q, r, s] ++ ·) := by
  have hlast : padding < 1 ∨ (!rest.isEmpty) = true := by
    simpa [List.isEmpty_iff] using hfull
  have hsecond : padding < 2 ∨ (!rest.isEmpty) = true := hlast.imp_left (by omega)
  have hquad : (((0 * 64 + p.val) * 64 + q.val) * 64 + r.val) * 64 + s.val =
      p.val * 262144 + q.val * 4096 + r.val * 64 + s.val := by
    omega
  simp only [readGroups, List.foldlM_cons, List.foldlM_nil, readChar_letter, hlast, hsecond, hquad,
    Bits.ofNat_and, Nat.shiftRight_eq_div_pow, Option.pure_def, Option.bind_eq_bind, Option.bind_some, if_true]
  cases readGroups padding rest <;> rfl

theorem readGroups_one (p q r : Fin 64) :
    readGroups 1 [base64.letter p, base64.letter q, base64.letter r, kEquals] =
      some (Spelling.octetsOf [p, q, r]) := by
  have hquad : (((0 * 64 + p.val) * 64 + q.val) * 64 + r.val) * 64 =
      p.val * 262144 + q.val * 4096 + r.val * 64 := by
    omega
  simp only [readGroups, List.foldlM_cons, List.foldlM_nil, readChar_letter, List.isEmpty_nil,
    readChar_kEquals (show 4 - 1 ≤ 3 by omega), hquad, Bits.ofNat_and, Nat.shiftRight_eq_div_pow,
    Option.pure_def, Option.bind_eq_bind, Option.bind_some]
  rfl

theorem readGroups_two (p q : Fin 64) :
    readGroups 2 [base64.letter p, base64.letter q, kEquals, kEquals] =
      some (Spelling.octetsOf [p, q]) := by
  have hquad : ((0 * 64 + p.val) * 64 + q.val) * 64 * 64 = p.val * 262144 + q.val * 4096 := by
    omega
  simp only [readGroups, List.foldlM_cons, List.foldlM_nil, readChar_letter, List.isEmpty_nil,
    readChar_kEquals (show 4 - 2 ≤ 3 by omega), readChar_kEquals (show 4 - 2 ≤ 2 by omega), hquad,
    Bits.ofNat_and, Nat.shiftRight_eq_div_pow, Option.pure_def, Option.bind_eq_bind,
    Option.bind_some]
  rfl

theorem readGroups_spell {digits : List (Fin 64)} {padding : Nat} (hpadding : padding < 3)
    (hlength : (digits.length + padding) % 4 = 0) :
    readGroups padding (base64.spell digits ++ List.replicate padding kEquals) =
      some (Spelling.octetsOf digits) := by
  induction digits using Spelling.octetsOf.induct with
  | case1 p q r s rest ih =>
      have hrest : (rest.length + padding) % 4 = 0 := by
        simp only [List.length_cons] at hlength
        omega
      have hfull : padding < 1 ∨ base64.spell rest ++ List.replicate padding kEquals ≠ [] := by
        rcases Nat.eq_zero_or_pos padding with h | h
        · exact Or.inl (by omega)
        · refine Or.inr fun hnil => ?_
          have := congrArg List.length hnil
          simp only [List.length_append, List.length_replicate, List.length_nil] at this
          omega
      simp only [Alphabet.spell_cons, List.cons_append]
      rw [readGroups_group padding p q r s hfull, ih hrest]
      rfl
  | case2 p q r =>
      obtain rfl : padding = 1 := by
        simp only [List.length_cons, List.length_nil] at hlength
        omega
      exact readGroups_one p q r
  | case3 p q =>
      obtain rfl : padding = 2 := by
        simp only [List.length_cons, List.length_nil] at hlength
        omega
      exact readGroups_two p q
  | case4 p =>
      simp only [List.length_cons, List.length_nil] at hlength
      omega
  | case5 =>
      obtain rfl : padding = 0 := by
        simp only [List.length_nil] at hlength
        omega
      rfl

theorem paddingOf_spell {digits : List (Fin 64)} {padding : Nat} (hpadding : padding < 3)
    (hlength : (digits.length + padding) % 4 = 0) :
    paddingOf (base64.spell digits ++ List.replicate padding kEquals) = padding := by
  have hletters : ∀ place : Nat, (base64.spell digits)[place]? ≠ some kEquals := by
    intro place h
    exact kEquals_not_mem_spell digits (List.mem_of_getElem? h)
  obtain rfl | rfl | rfl : padding = 0 ∨ padding = 1 ∨ padding = 2 := by omega
  · rw [List.replicate_zero, List.append_nil, paddingOf, if_neg (hletters _)]
  · have hpos : 3 ≤ digits.length := by omega
    have hbefore : (base64.spell digits ++ [kEquals])[digits.length - 1]? ≠ some kEquals := by
      rw [List.getElem?_append_left (by rw [Alphabet.length_spell]; omega)]
      exact hletters _
    have hlast : (base64.spell digits ++ [kEquals])[digits.length]? = some kEquals := by
      rw [List.getElem?_append_right (by rw [Alphabet.length_spell]), Alphabet.length_spell,
        Nat.sub_self]
      rfl
    rw [paddingOf, List.replicate_one, List.length_append, Alphabet.length_spell,
      List.length_singleton, Nat.add_sub_cancel, if_pos hlast, if_neg (fun h => hbefore h.2)]
  · simp [paddingOf, List.replicate]

/-- A character of a group that is read is a letter, or padding where padding may stand. -/
theorem readGroups_chars {padding : Nat} {c0 c1 c2 c3 : UInt8} {rest bytes : Bytes}
    (h : readGroups padding (c0 :: c1 :: c2 :: c3 :: rest) = some bytes) :
    ∀ (place : Nat) c, [c0, c1, c2, c3][place]? = some c →
      (c = kEquals ∧ rest = [] ∧ 4 - padding ≤ place) ∨ ∃ digit, c = base64.letter digit := by
  simp only [readGroups, List.foldlM_cons, List.foldlM_nil, Option.pure_def, Option.bind_eq_bind,
    Option.bind_eq_some_iff] at h
  obtain ⟨_, ⟨q0, h0, q1, h1, q2, h2, q3, h3, -⟩, -⟩ := h
  have hread : ∀ {quad quad' place c}, readChar padding rest.isEmpty quad (place, c) = some quad' →
      (c = kEquals ∧ rest = [] ∧ 4 - padding ≤ place) ∨ ∃ digit, c = base64.letter digit := by
    intro quad quad' place c hc
    obtain ⟨hequals, hlast, hplace, -⟩ | ⟨digit, hdigit, -⟩ := readChar_cases hc
    · exact Or.inl ⟨hequals, List.isEmpty_iff.mp hlast, hplace⟩
    · exact Or.inr ⟨digit, hdigit⟩
  intro place c hc
  match place with
  | 0 => cases hc; exact hread h0
  | 1 => cases hc; exact hread h1
  | 2 => cases hc; exact hread h2
  | 3 => cases hc; exact hread h3
  | _ + 4 => cases hc

theorem paddingOf_lastGroup (c0 c1 c2 c3 : UInt8) :
    paddingOf [c0, c1, c2, c3] =
      if c3 = kEquals then if c2 = kEquals then 2 else 1 else 0 := by
  simp [paddingOf]

theorem isBase64_of_lastGroup {c0 c1 c2 c3 : UInt8} {bytes : Bytes}
    (h : readGroups (paddingOf [c0, c1, c2, c3]) [c0, c1, c2, c3] = some bytes) :
    IsBase64 [c0, c1, c2, c3] bytes := by
  have hletter : ∀ (place : Nat) c, [c0, c1, c2, c3][place]? = some c →
      place < 4 - paddingOf [c0, c1, c2, c3] → ∃ digit, c = base64.letter digit := by
    intro place c hc hplace
    exact (readGroups_chars h place c hc).resolve_left fun hpad => absurd hpad.2.2 (by omega)
  rw [paddingOf_lastGroup] at h hletter
  by_cases hthird : c3 = kEquals
  · rw [if_pos hthird] at h hletter
    by_cases hsecond : c2 = kEquals
    · rw [if_pos hsecond] at h hletter
      obtain ⟨p, rfl⟩ := hletter 0 c0 rfl (by omega)
      obtain ⟨q, rfl⟩ := hletter 1 c1 rfl (by omega)
      rw [hthird, hsecond, readGroups_two] at h
      rw [hthird, hsecond, ← Option.some.inj h]
      exact ⟨[p, q], 2, rfl, by omega, by simp, rfl⟩
    · rw [if_neg hsecond] at h hletter
      obtain ⟨p, rfl⟩ := hletter 0 c0 rfl (by omega)
      obtain ⟨q, rfl⟩ := hletter 1 c1 rfl (by omega)
      obtain ⟨r, rfl⟩ := hletter 2 c2 rfl (by omega)
      rw [hthird, readGroups_one] at h
      rw [hthird, ← Option.some.inj h]
      exact ⟨[p, q, r], 1, rfl, by omega, by simp, rfl⟩
  · rw [if_neg hthird] at h hletter
    obtain ⟨p, rfl⟩ := hletter 0 c0 rfl (by omega)
    obtain ⟨q, rfl⟩ := hletter 1 c1 rfl (by omega)
    obtain ⟨r, rfl⟩ := hletter 2 c2 rfl (by omega)
    obtain ⟨s, rfl⟩ := hletter 3 c3 rfl (by omega)
    rw [readGroups_group 0 p q r s (Or.inl Nat.one_pos), readGroups, Option.map_some] at h
    · rw [← Option.some.inj h]
      exact ⟨[p, q, r, s], 0, rfl, by omega, by simp, rfl⟩
    · simp

/-- What the reader of groups accepts, four letters or the padded end at a time. -/
theorem isBase64_of_readGroups {text bytes : Bytes} (hlength : text.length % 4 = 0)
    (h : readGroups (paddingOf text) text = some bytes) : IsBase64 text bytes := by
  induction text using readGroups.induct generalizing bytes with
  | case1 c0 c1 c2 c3 rest ih =>
      have hrest : rest.length % 4 = 0 := by
        simp only [List.length_cons] at hlength
        omega
      by_cases hend : rest = []
      · subst hend
        exact isBase64_of_lastGroup h
      · have hletter : ∀ (place : Nat) c, [c0, c1, c2, c3][place]? = some c →
            ∃ digit, c = base64.letter digit := by
          intro place c hc
          exact (readGroups_chars h place c hc).resolve_left fun hpad => hend hpad.2.1
        obtain ⟨p, rfl⟩ := hletter 0 c0 rfl
        obtain ⟨q, rfl⟩ := hletter 1 c1 rfl
        obtain ⟨r, rfl⟩ := hletter 2 c2 rfl
        obtain ⟨s, rfl⟩ := hletter 3 c3 rfl
        rw [paddingOf_group _ _ _ _ hend hrest, readGroups_group _ p q r s (Or.inr hend)] at h
        obtain ⟨out, hout, rfl⟩ := Option.map_eq_some_iff.mp h
        obtain ⟨digits, padding, htext, hpadding, hfour, hbytes⟩ := ih hrest hout
        refine ⟨p :: q :: r :: s :: digits, padding, ?_, hpadding, ?_, ?_⟩
        · rw [htext]
          rfl
        · simp only [List.length_cons]
          omega
        · rw [hbytes]
          rfl
  | case2 text hshort =>
      obtain rfl : text = [] := by
        match text, hlength with
        | [], _ => rfl
        | c0 :: c1 :: c2 :: c3 :: rest, _ => exact (hshort c0 c1 c2 c3 rest rfl).elim
      cases h
      exact ⟨[], 0, rfl, by omega, rfl, rfl⟩

theorem fromBase64_eq_some_iff (text bytes : Bytes) :
    fromBase64 text = some bytes ↔ text ≠ [] ∧ IsBase64 text bytes := by
  constructor
  · intro h
    rw [fromBase64] at h
    split_ifs at h with hrefused
    rw [not_or, ne_eq, not_not] at hrefused
    exact ⟨hrefused.1, isBase64_of_readGroups hrefused.2 h⟩
  · rintro ⟨hne, digits, padding, rfl, hpadding, hlength, rfl⟩
    have hfour : (base64.spell digits ++ List.replicate padding kEquals).length % 4 = 0 := by
      rw [List.length_append, Alphabet.length_spell, List.length_replicate]
      exact hlength
    rw [fromBase64, if_neg (not_or.mpr ⟨hne, not_not.mpr hfour⟩), paddingOf_spell hpadding hlength,
      readGroups_spell hpadding hlength]

/-! ### The coding of header values -/

/-- A legal field value: visible ASCII, space and tab, with neither of the last two at an end. -/
def IsFieldValue (value : Bytes) : Prop :=
  (∀ byte ∈ value, byte = kTab ∨ (kSpace ≤ byte ∧ byte ≤ 0x7e)) ∧
    ∀ edge, value.head? = some edge ∨ value.getLast? = some edge → edge ≠ kSpace ∧ edge ≠ kTab

def wrapped (payload : Bytes) : Bytes := kSentinelPrefix ++ payload ++ kSentinelSuffix

theorem wearsSentinel_iff (value : Bytes) :
    wearsSentinel value ↔ ∃ payload, value = wrapped payload := by
  simp only [wearsSentinel, Bool.decide_and, Bool.and_eq_true, decide_eq_true_eq]
  constructor
  · rintro ⟨hlength, hfront, hback⟩
    obtain ⟨inner, hinner⟩ : ∃ inner, value.length - kSentinelSuffix.length =
        kSentinelPrefix.length + inner :=
      ⟨value.length - kSentinelSuffix.length - kSentinelPrefix.length, by omega⟩
    have hrest : (value.drop kSentinelPrefix.length).drop inner = kSentinelSuffix := by
      rw [List.drop_drop, ← hinner]
      exact hback
    refine ⟨(value.drop kSentinelPrefix.length).take inner, ?_⟩
    calc value
        = value.take kSentinelPrefix.length ++ value.drop kSentinelPrefix.length :=
          (List.take_append_drop _ _).symm
      _ = kSentinelPrefix ++ ((value.drop kSentinelPrefix.length).take inner ++
            (value.drop kSentinelPrefix.length).drop inner) := by
          rw [hfront, List.take_append_drop]
      _ = wrapped ((value.drop kSentinelPrefix.length).take inner) := by
          rw [hrest, wrapped, List.append_assoc]
  · rintro ⟨payload, rfl⟩
    refine ⟨by simp [wrapped], by simp [wrapped], ?_⟩
    rw [wrapped, List.length_append, Nat.add_sub_cancel, List.drop_left]

theorem decodeHeaderValue_wrapped (payload : Bytes) :
    decodeHeaderValue (wrapped payload) = fromBase64 payload := by
  have hworn : wearsSentinel (wrapped payload) = true := (wearsSentinel_iff _).mpr ⟨payload, rfl⟩
  have hlength : (wrapped payload).length - kSentinelPrefix.length - kSentinelSuffix.length =
      payload.length := by
    simp only [wrapped, List.length_append]
    omega
  rw [decodeHeaderValue, hworn, hlength, wrapped, List.append_assoc, List.drop_left, List.take_left]
  rfl

theorem encodeHeaderValue_of_safe {value : Bytes} (h : isHeaderSafe value = true) :
    encodeHeaderValue value = value := if_pos h

theorem encodeHeaderValue_of_not_safe {value : Bytes} (h : ¬isHeaderSafe value = true) :
    encodeHeaderValue value = wrapped (toBase64 value) := if_neg h

theorem isFieldValue_of_safe {value : Bytes} (h : isHeaderSafe value = true) :
    IsFieldValue value := by
  rw [isHeaderSafe] at h
  by_cases hnil : value = []
  · subst hnil
    exact ⟨by simp, by simp⟩
  rw [if_neg hnil] at h
  split_ifs at h with hedge hbytes
  simp only [not_or] at hedge
  obtain ⟨hfrontSpace, hfrontTab, hbackSpace, hbackTab⟩ := hedge
  constructor
  · intro byte hbyte
    have hgood : ¬(byte ≠ 0x09 ∧ (byte < 0x20 ∨ 0x7e < byte)) := by
      intro hbad
      exact hbytes (List.any_eq_true.mpr ⟨byte, hbyte, decide_eq_true hbad⟩)
    rw [not_and_or, not_or, UInt8.not_lt, UInt8.not_lt] at hgood
    exact hgood.imp_left not_not.mp
  · intro edge hedge
    refine ⟨fun hspace => ?_, fun htab => ?_⟩
    · rw [hspace] at hedge
      exact hedge.elim hfrontSpace hbackSpace
    · rw [htab] at hedge
      exact hedge.elim hfrontTab hbackTab

theorem not_wearsSentinel_of_safe {value : Bytes} (h : isHeaderSafe value = true) :
    wearsSentinel value = false := by
  rw [isHeaderSafe] at h
  by_cases hnil : value = []
  · subst hnil
    decide
  rw [if_neg hnil] at h
  split_ifs at h
  exact (Bool.not_eq_true' _).mp h

theorem letter_visible : ∀ digit, kSpace ≤ base64.letter digit ∧ base64.letter digit ≤ 0x7e := by
  simp only [base64, letter, kAlphabet_eq]
  decide

theorem isFieldValue_wrapped_toBase64 (value : Bytes) : IsFieldValue (wrapped (toBase64 value)) := by
  constructor
  · intro byte hbyte
    have hmarkers : ∀ byte ∈ kSentinelPrefix ++ kSentinelSuffix ++ [kEquals],
        kSpace ≤ byte ∧ byte ≤ 0x7e := by
      set_option maxRecDepth 2000 in decide
    rw [wrapped, toBase64_eq] at hbyte
    simp only [List.mem_append] at hbyte
    right
    obtain (hfront | hletter | hpadding) | hback := hbyte
    · exact hmarkers byte (by simp [hfront])
    · obtain ⟨digit, rfl⟩ := base64.exists_letter_of_mem_spell hletter
      exact letter_visible digit
    · exact hmarkers byte (by simp [List.eq_of_mem_replicate hpadding])
    · exact hmarkers byte (by simp [hback])
  · intro edge hedge
    have hequals : edge = kEquals := by
      obtain hhead | hlast := hedge
      · rw [wrapped, List.append_assoc] at hhead
        exact (Option.some.inj hhead).symm
      · rw [wrapped, List.getLast?_append] at hlast
        exact (Option.some.inj hlast).symm
    rw [hequals]
    decide

theorem decodeHeaderValue_encodeHeaderValue (value : Bytes) :
    decodeHeaderValue (encodeHeaderValue value) = some value := by
  by_cases hsafe : isHeaderSafe value = true
  · rw [encodeHeaderValue_of_safe hsafe, decodeHeaderValue, not_wearsSentinel_of_safe hsafe]
    rfl
  · rw [encodeHeaderValue_of_not_safe hsafe, decodeHeaderValue_wrapped, fromBase64_eq_some_iff]
    refine ⟨fun hnil => hsafe ?_, isBase64_toBase64 value⟩
    obtain ⟨digits, padding, htext, -, -, hvalue⟩ := isBase64_toBase64 value
    rw [hnil] at htext
    have hdigits : digits = [] := by
      cases digits with
      | nil => rfl
      | cons => cases htext
    rw [hvalue, hdigits]
    rfl

/-- Any value travels as a legal field value and comes back as it was, a value that looks encoded is
encoded, and what wears the sentinel is read exactly when it holds base64 of something. -/
theorem headerValue_coding :
    (∀ value, IsFieldValue (encodeHeaderValue value) ∧
      decodeHeaderValue (encodeHeaderValue value) = some value) ∧
    Function.Injective encodeHeaderValue ∧
    (∀ payload, ∃ text, IsBase64 text (wrapped payload) ∧
      encodeHeaderValue (wrapped payload) = wrapped text) ∧
    ∀ payload value, decodeHeaderValue (wrapped payload) = some value ↔
      payload ≠ [] ∧ IsBase64 payload value := by
  refine ⟨fun value => ⟨?_, decodeHeaderValue_encodeHeaderValue value⟩, ?_, ?_, ?_⟩
  · by_cases hsafe : isHeaderSafe value = true
    · rw [encodeHeaderValue_of_safe hsafe]
      exact isFieldValue_of_safe hsafe
    · rw [encodeHeaderValue_of_not_safe hsafe]
      exact isFieldValue_wrapped_toBase64 value
  · intro left right h
    have hleft := decodeHeaderValue_encodeHeaderValue left
    rw [h, decodeHeaderValue_encodeHeaderValue] at hleft
    exact (Option.some.inj hleft).symm
  · intro payload
    refine ⟨toBase64 (wrapped payload), isBase64_toBase64 _, encodeHeaderValue_of_not_safe ?_⟩
    intro hsafe
    have hworn := (wearsSentinel_iff (wrapped payload)).mpr ⟨payload, rfl⟩
    rw [not_wearsSentinel_of_safe hsafe] at hworn
    exact absurd hworn Bool.false_ne_true
  · intro payload value
    rw [decodeHeaderValue_wrapped, fromBase64_eq_some_iff]

/-- Markers around nothing: a base64 text, of nothing, that is refused. -/
theorem headerValue_empty_refused :
    IsBase64 [] [] ∧ decodeHeaderValue (wrapped []) = none := by
  refine ⟨⟨[], 0, rfl, by omega, rfl, rfl⟩, ?_⟩
  rw [decodeHeaderValue_wrapped]
  rfl

end HeaderSentinel

end GopherMcp
