import GopherMcp.Json.Sameness
import GopherMcp.Protocol.DesignatedParams
import GopherMcp.Protocol.HeaderSentinel
import GopherMcp.Transport.EventId

/-!
# What a header says of the body beside it

The newest revision mirrors values of the body in headers: the method, the name of what the request is
about and the arguments a tool designates. Both ends find a designated argument by the same walk, write
a scalar by the same rule and compare an integer exactly, whichever way the header spells it.
-/

namespace GopherMcp

namespace MirroredHeaders

def kProtocolVersionHeader : Bytes := ascii "MCP-Protocol-Version"
def kSessionIdHeader : Bytes := ascii "Mcp-Session-Id"
def kMethodHeader : Bytes := ascii "Mcp-Method"
def kNameHeader : Bytes := ascii "Mcp-Name"
def kParamHeaderPrefix : Bytes := ascii "Mcp-Param-"

def kMethodToolsCall : Bytes := ascii "tools/call"
def kMethodResourcesRead : Bytes := ascii "resources/read"
def kMethodPromptsGet : Bytes := ascii "prompts/get"

def kHeaderMismatch : Int := -32020

/-- Version strings are ISO dates, so their order is that of time. -/
def isModernVersion (version : Bytes) : Bool := ascii "2026-07-28" ≤ version

/-- The field of `params` that says what a request is about, or nothing. -/
def nameFieldFor (method : Bytes) : Bytes :=
  if method = kMethodToolsCall ∨ method = kMethodPromptsGet then ascii "name"
  else if method = kMethodResourcesRead then ascii "uri"
  else if method = ascii "tasks/get" ∨ method = ascii "tasks/update" ∨ method = ascii "tasks/cancel" then
    ascii "taskId"
  else []

def carriesName (method : Bytes) : Bool := nameFieldFor method ≠ []

/-- `DesignatedParam::headerName`. -/
def paramHeader (param : DesignatedParam) : Bytes := kParamHeaderPrefix ++ param.headerName

/-! ### Finding an argument -/

/-- The value a chain of property names leads to. A null is an argument that was not given. -/
def valueAtPath (arguments : JsonValue) (path : List Bytes) : Option JsonValue :=
  if path = [] then none
  else
    match path.foldlM (fun node step => JsonValue.get? node step) arguments with
    | none | some .null => none
    | some value => some value

/-! ### Writing -/

/-- The header text of a scalar; none for a value that has no header form. -/
def headerTextForScalar : JsonValue → Option Bytes
  | .string text => some text
  | .boolean value => some (if value then ascii "true" else ascii "false")
  | .integer value => some (toDecimalSigned value)
  | .unsignedInteger value => some (toDecimalSigned value.toInt64)
  | _ => none

/-! ### Reading -/

def kPlus : UInt8 := 43
def kMinus : UInt8 := 45
def kDot : UInt8 := 46
def kZero : UInt8 := 48

def isDigit (c : UInt8) : Bool := 48 ≤ c && c ≤ 57

/-- The number decimal digits stand for. -/
def numberOf (digits : Bytes) : Nat := digits.foldl (fun number c => 10 * number + (c.toNat - 48)) 0

/-- `std::stoll` of a sign and digits, which throws on what 64 bits do not hold. -/
def stoll (negative : Bool) (digits : Bytes) : Option Int64 :=
  let value : Int := if negative then -numberOf digits else numberOf digits
  if -2 ^ 63 ≤ value ∧ value < 2 ^ 63 then some (Int64.ofInt value) else none

def afterSign : Bytes → Bytes
  | [] => []
  | c :: rest => if c = kPlus ∨ c = kMinus then rest else c :: rest

/-- What may follow the digits: nothing, or a fraction that changes nothing. -/
def changesNothing : Bytes → Bool
  | [] => true
  | c :: fraction => c = kDot && fraction.all (· = kZero)

/-- The exact integer a header names, if it names one. -/
def exactIntegerFrom (text : Bytes) : Option Int64 :=
  let digits := (afterSign text).takeWhile isDigit
  if digits = [] then none
  else if !changesNothing ((afterSign text).dropWhile isDigit) then none
  else stoll (text.head? = some kMinus) digits

/-- `==` of two binary64 values: a NaN equals nothing, and the two zeros equal each other. -/
def sameFloat (left right : UInt64) : Bool :=
  let magnitude (bits : UInt64) : Nat := bits.toNat % 2 ^ 63
  magnitude left ≤ 0x7ff0000000000000 && magnitude right ≤ 0x7ff0000000000000 &&
    (left = right || (magnitude left = 0 && magnitude right = 0))

/-- Whether a header value and a value of the body are the same value. `stod` reads a float off the
front of a text and says how much of it that took; it may throw. -/
def headerMatchesValue (stod : Bytes → Option (UInt64 × Nat)) (header : Bytes) (value : JsonValue) : Bool :=
  match HeaderSentinel.decodeHeaderValue header with
  | none => false
  | some decoded =>
      match value with
      | .integer number => exactIntegerFrom decoded = some number
      | .unsignedInteger number => exactIntegerFrom decoded = some number.toInt64
      | .float bits =>
          match stod decoded with
          | none => false
          | some (fromHeader, consumed) => consumed = decoded.length && sameFloat fromHeader bits
      | other => headerTextForScalar other = some decoded

/-! ### What a text denotes -/

/-- A text spells an integer: a sign or none, digits, and a fraction of zeros or none. -/
def SpellsInteger (text : Bytes) (number : Int) : Prop :=
  ∃ sign digits fraction, text = sign ++ digits ++ fraction ∧ digits ≠ [] ∧
    (∀ c ∈ digits, isDigit c = true) ∧
    (fraction = [] ∨ ∃ zeros, fraction = kDot :: List.replicate zeros kZero) ∧
    ((sign = [] ∨ sign = [kPlus]) ∧ number = numberOf digits ∨
      sign = [kMinus] ∧ number = -numberOf digits)

/-- The integer a binary64 value is, if it is one. -/
def wholeNumber (bits : UInt64) : Option Int :=
  let exponent := bits.toNat / 2 ^ 52 % 2 ^ 11
  let fraction := bits.toNat % 2 ^ 52
  let significand := if exponent = 0 then fraction else 2 ^ 52 + fraction
  let up := max exponent 1 - 1075
  let down := 1075 - max exponent 1
  if exponent = 2047 ∨ ¬2 ^ down ∣ significand then none
  else some ((if 2 ^ 63 ≤ bits.toNat then -1 else 1) * (significand / 2 ^ down * 2 ^ up : Nat))

/-- A header denotes a value of the body: decoded, it is the text of a string or of a boolean, or it
spells the integer, whether the body holds that as an integer or as a float. -/
def Denotes (header : Bytes) (value : JsonValue) : Prop :=
  ∃ text, HeaderSentinel.decodeHeaderValue header = some text ∧
    match value with
    | .string held => text = held
    | .boolean held => text = if held then ascii "true" else ascii "false"
    | .integer number => SpellsInteger text number.toInt
    | .unsignedInteger number => SpellsInteger text number.toNat
    | .float bits => ∃ number, wholeNumber bits = some number ∧ SpellsInteger text number
    | _ => False

/-! ### Integers -/

theorem stoll_eq_some_iff {negative : Bool} {digits : Bytes} {number : Int64} :
    stoll negative digits = some number ↔
      number.toInt = if negative then -(numberOf digits : Int) else numberOf digits := by
  have hlow := number.le_toInt
  have hhigh := number.toInt_lt
  simp only [stoll]
  generalize (if negative then -(numberOf digits : Int) else numberOf digits) = value
  constructor
  · intro h
    split_ifs at h with hfits
    cases h
    exact Int64.toInt_ofInt_of_le hfits.1 hfits.2
  · intro h
    rw [if_pos (by omega), ← h, Int64.ofInt_toInt]

theorem changesNothing_iff {fraction : Bytes} :
    changesNothing fraction = true ↔
      fraction = [] ∨ ∃ zeros, fraction = kDot :: List.replicate zeros kZero := by
  cases fraction with
  | nil => simp [changesNothing]
  | cons c rest =>
      simp only [changesNothing, Bool.and_eq_true, decide_eq_true_eq, List.all_eq_true, List.cons_ne_nil,
        false_or, List.cons.injEq, List.eq_replicate_iff]
      constructor
      · intro h
        exact ⟨rest.length, h.1, rfl, h.2⟩
      · intro h
        obtain ⟨zeros, hdot, -, hall⟩ := h
        exact ⟨hdot, hall⟩

/-- A text that is a sign, digits and a fraction of zeros is read as such. -/
theorem exactIntegerFrom_append {sign digits fraction : Bytes} (hdigits : digits ≠ [])
    (hall : ∀ c ∈ digits, isDigit c = true) (hsign : sign = [] ∨ sign = [kPlus] ∨ sign = [kMinus])
    (hfraction : fraction = [] ∨ ∃ zeros, fraction = kDot :: List.replicate zeros kZero) :
    exactIntegerFrom (sign ++ digits ++ fraction) = stoll (sign = [kMinus]) digits := by
  obtain ⟨first, rest, rfl⟩ := List.exists_cons_of_ne_nil hdigits
  have hfirst := hall first List.mem_cons_self
  have hplus : first ≠ kPlus := by
    intro h
    rw [h] at hfirst
    exact absurd hfirst (by decide)
  have hminus : first ≠ kMinus := by
    intro h
    rw [h] at hfirst
    exact absurd hfirst (by decide)
  have hfractionHead : fraction.takeWhile isDigit = [] := by
    obtain rfl | ⟨zeros, rfl⟩ := hfraction
    · rfl
    · exact List.takeWhile_cons_of_neg (by decide)
  have hfractionRest : fraction.dropWhile isDigit = fraction := by
    obtain rfl | ⟨zeros, rfl⟩ := hfraction
    · rfl
    · exact List.dropWhile_cons_of_neg (by decide)
  have hafter : afterSign (sign ++ (first :: rest) ++ fraction) = (first :: rest) ++ fraction := by
    obtain rfl | rfl | rfl := hsign
    · simp [afterSign, hplus, hminus]
    · simp [afterSign]
    · simp [afterSign]
  have hnegative : ((sign ++ (first :: rest) ++ fraction).head? = some kMinus) = (sign = [kMinus]) := by
    obtain rfl | rfl | rfl := hsign
    · simp [hminus]
    · simp
    · simp
  have htake : ((first :: rest) ++ fraction).takeWhile isDigit = first :: rest := by
    rw [List.takeWhile_append_of_pos hall, hfractionHead, List.append_nil]
  have hdrop : ((first :: rest) ++ fraction).dropWhile isDigit = fraction := by
    rw [List.dropWhile_append_of_pos hall, hfractionRest]
  unfold exactIntegerFrom
  simp only [hafter, htake, hdrop, hnegative, if_neg hdigits, changesNothing_iff.mpr hfraction]
  rfl

/-- What is read is a sign or none, digits, and a fraction of zeros or none. -/
theorem append_of_exactIntegerFrom {text : Bytes} {number : Int64}
    (h : exactIntegerFrom text = some number) :
    ∃ sign digits fraction, text = sign ++ digits ++ fraction ∧ digits ≠ [] ∧
      (∀ c ∈ digits, isDigit c = true) ∧
      (fraction = [] ∨ ∃ zeros, fraction = kDot :: List.replicate zeros kZero) ∧
      (sign = [] ∨ sign = [kPlus] ∨ sign = [kMinus]) := by
  obtain ⟨sign, htext, hsign⟩ : ∃ sign, text = sign ++ afterSign text ∧
      (sign = [] ∨ sign = [kPlus] ∨ sign = [kMinus]) := by
    cases text with
    | nil => exact ⟨[], rfl, Or.inl rfl⟩
    | cons c rest =>
        rw [afterSign]
        split_ifs with hsigned
        · refine ⟨[c], rfl, Or.inr ?_⟩
          simpa using hsigned
        · exact ⟨[], rfl, Or.inl rfl⟩
  simp only [exactIntegerFrom] at h
  split_ifs at h with hdigits hrest
  refine ⟨sign, (afterSign text).takeWhile isDigit, (afterSign text).dropWhile isDigit, ?_, hdigits,
    fun c hc => List.mem_takeWhile_imp hc, changesNothing_iff.mp (by simpa using hrest), hsign⟩
  rw [List.append_assoc, List.takeWhile_append_dropWhile, ← htext]

/-- The integer read off a text is the one it spells, if that fits in 64 bits. -/
theorem exactIntegerFrom_eq_some_iff {text : Bytes} {number : Int64} :
    exactIntegerFrom text = some number ↔ SpellsInteger text number.toInt := by
  constructor
  · intro h
    obtain ⟨sign, digits, fraction, rfl, hdigits, hall, hfraction, hsign⟩ := append_of_exactIntegerFrom h
    rw [exactIntegerFrom_append hdigits hall hsign hfraction, stoll_eq_some_iff] at h
    refine ⟨sign, digits, fraction, rfl, hdigits, hall, hfraction, ?_⟩
    obtain rfl | rfl | rfl := hsign
    · exact Or.inl ⟨Or.inl rfl, by simpa using h⟩
    · exact Or.inl ⟨Or.inr rfl, by simpa [kPlus, kMinus] using h⟩
    · exact Or.inr ⟨rfl, by simpa using h⟩
  · intro h
    obtain ⟨sign, digits, fraction, rfl, hdigits, hall, hfraction, hvalue⟩ := h
    obtain ⟨hsign, hnumber⟩ | ⟨rfl, hnumber⟩ := hvalue
    · rw [exactIntegerFrom_append hdigits hall (hsign.imp_right Or.inl) hfraction, stoll_eq_some_iff, hnumber]
      obtain rfl | rfl := hsign
      · rfl
      · rfl
    · rw [exactIntegerFrom_append hdigits hall (Or.inr (Or.inr rfl)) hfraction, stoll_eq_some_iff, hnumber]
      simp

theorem numberOf_toDecimal (number : Nat) : numberOf (toDecimal number) = number := by
  have hfold (chars : List Char) (hall : ∀ c ∈ chars, c.isDigit = true) (start : Nat) :
      (chars.map Char.toUInt8).foldl (fun number c => 10 * number + (c.toNat - 48)) start =
        Nat.ofDigitChars 10 chars start := by
    induction chars generalizing start with
    | nil => rfl
    | cons c rest ih =>
        rw [List.map_cons, List.foldl_cons, Nat.ofDigitChars_cons,
          toUInt8_toNat_of_isDigit (hall c List.mem_cons_self),
          ih fun other hother => hall other (List.mem_cons_of_mem _ hother)]
        rfl
  rw [numberOf, toDecimal, hfold _ (fun _ => isDigit_of_mem_toDigits), Nat.ofDigitChars_ten_toDigits]

theorem isDigit_of_mem_toDecimal {number : Nat} {c : UInt8} (h : c ∈ toDecimal number) :
    isDigit c = true := by
  obtain ⟨hlow, hhigh⟩ := toNat_of_mem_toDecimal h
  simpa [isDigit, UInt8.le_iff_toNat_le] using And.intro hlow hhigh

theorem spellsInteger_toDecimalSigned (number : Int64) :
    SpellsInteger (toDecimalSigned number) number.toInt := by
  have hdigits : toDecimal number.toInt.natAbs ≠ [] := by
    simp [toDecimal]
  unfold toDecimalSigned
  split_ifs with hnegative
  · refine ⟨[kMinus], toDecimal number.toInt.natAbs, [], (List.append_nil _).symm, hdigits,
      fun c hc => isDigit_of_mem_toDecimal hc, Or.inl rfl, Or.inr ⟨rfl, ?_⟩⟩
    rw [numberOf_toDecimal]
    omega
  · refine ⟨[], toDecimal number.toInt.natAbs, [], (List.append_nil _).symm, hdigits,
      fun c hc => isDigit_of_mem_toDecimal hc, Or.inl rfl, Or.inl ⟨Or.inl rfl, ?_⟩⟩
    rw [numberOf_toDecimal]
    omega

/-- A text that begins with a minus spells nothing positive. -/
theorem le_zero_of_spellsInteger {text : Bytes} {number : Int} (h : SpellsInteger (kMinus :: text) number) :
    number ≤ 0 := by
  obtain ⟨sign, digits, fraction, htext, hdigits, hall, -, ⟨hsign, -⟩ | ⟨-, hnumber⟩⟩ := h
  · obtain ⟨first, rest, rfl⟩ := List.exists_cons_of_ne_nil hdigits
    have hfirst := hall first List.mem_cons_self
    obtain rfl | rfl := hsign
    · rw [← (List.cons.inj htext).1] at hfirst
      exact absurd hfirst (by decide)
    · exact absurd (List.cons.inj htext).1 (by decide)
  · omega

/-! ### Values that mirror -/

/-- A string, a boolean, or an integer of 64 signed bits. -/
def Mirrorable : JsonValue → Prop
  | .string _ | .boolean _ => True
  | value => value.FitsInt64

theorem toInt_toInt64 {number : UInt64} (h : number.toNat < 2 ^ 63) : number.toInt64.toInt = number.toNat := by
  rw [UInt64.toInt64, Int64.toInt, BitVec.toInt_eq_toNat_of_lt]
  · rfl
  · change 2 * number.toNat < 2 ^ 64
    omega

/-- On what mirrors, the reader is right about every header. -/
theorem headerMatchesValue_iff (stod : Bytes → Option (UInt64 × Nat)) {value : JsonValue} (h : Mirrorable value)
    (header : Bytes) : headerMatchesValue stod header value = true ↔ Denotes header value := by
  unfold headerMatchesValue Denotes
  cases HeaderSentinel.decodeHeaderValue header with
  | none => simp
  | some text =>
      cases value with
      | string held => simp [headerTextForScalar, eq_comm]
      | boolean held => simp [headerTextForScalar, eq_comm]
      | integer number => simp [exactIntegerFrom_eq_some_iff]
      | unsignedInteger number => simp [exactIntegerFrom_eq_some_iff, toInt_toInt64 h]
      | _ => exact absurd h id

theorem exists_headerTextForScalar {value : JsonValue} (h : Mirrorable value) :
    ∃ text, headerTextForScalar value = some text := by
  cases value with
  | null => exact absurd h id
  | float bits => exact absurd h id
  | array items => exact absurd h id
  | object fields => exact absurd h id
  | _ => exact ⟨_, rfl⟩

/-- What the writer writes of a value denotes it. -/
theorem denotes_encodeHeaderValue {value : JsonValue} (h : Mirrorable value) {text : Bytes}
    (htext : headerTextForScalar value = some text) :
    Denotes (HeaderSentinel.encodeHeaderValue text) value := by
  refine ⟨text, HeaderSentinel.decodeHeaderValue_encodeHeaderValue text, ?_⟩
  cases value with
  | string held => exact (Option.some.inj htext).symm
  | boolean held => exact (Option.some.inj htext).symm
  | integer number =>
      rw [← Option.some.inj htext]
      exact spellsInteger_toDecimalSigned number
  | unsignedInteger number =>
      rw [← Option.some.inj htext]
      have hspells := spellsInteger_toDecimalSigned number.toInt64
      rw [toInt_toInt64 h] at hspells
      exact hspells
  | _ => cases htext

/-- A value with a header form that does not mirror is an integer past 63 bits. Its header names another
number, and the reader takes it for this one. -/
theorem matches_of_not_mirrorable (stod : Bytes → Option (UInt64 × Nat)) {value : JsonValue} {text : Bytes}
    (htext : headerTextForScalar value = some text) (h : ¬Mirrorable value) :
    headerMatchesValue stod (HeaderSentinel.encodeHeaderValue text) value = true ∧
      ¬Denotes (HeaderSentinel.encodeHeaderValue text) value := by
  cases value with
  | string held => exact absurd trivial h
  | boolean held => exact absurd trivial h
  | integer number => exact absurd trivial h
  | unsignedInteger number =>
      have hlarge : ¬number.toNat < 2 ^ 63 := h
      have hnegative : number.toInt64.toInt < 0 := by
        rw [UInt64.toInt64, Int64.toInt, BitVec.toInt_neg_iff]
        change 2 ^ 64 ≤ 2 * number.toNat
        omega
      have hread : text = toDecimalSigned number.toInt64 := (Option.some.inj htext).symm
      constructor
      · unfold headerMatchesValue
        simp only [HeaderSentinel.decodeHeaderValue_encodeHeaderValue, decide_eq_true_eq]
        rw [hread, exactIntegerFrom_eq_some_iff]
        exact spellsInteger_toDecimalSigned _
      · intro hdenotes
        obtain ⟨decoded, hdecoded, hspells⟩ := hdenotes
        rw [HeaderSentinel.decodeHeaderValue_encodeHeaderValue, Option.some.injEq] at hdecoded
        rw [← hdecoded, hread, toDecimalSigned, if_pos hnegative] at hspells
        have hle : (number.toNat : Int) ≤ 0 := le_zero_of_spellsInteger hspells
        omega
  | _ => cases htext

/-- A value with a header form matches the header written for it, and a header that matches it denotes it. -/
def AgreesWithItsOwn (stod : Bytes → Option (UInt64 × Nat)) (value : JsonValue) : Prop :=
  (∃ text, headerTextForScalar value = some text ∧
    headerMatchesValue stod (HeaderSentinel.encodeHeaderValue text) value = true) ∧
  ∀ header, headerMatchesValue stod header value = true → Denotes header value

/-- **Which values agree with their own header and with no other**: strings, booleans and the integers of 64
signed bits. -/
theorem agreesWithItsOwn_iff (stod : Bytes → Option (UInt64 × Nat)) (value : JsonValue) :
    AgreesWithItsOwn stod value ↔ Mirrorable value := by
  constructor
  · intro h
    obtain ⟨⟨text, htext, hmatches⟩, honly⟩ := h
    by_contra hnot
    exact (matches_of_not_mirrorable stod htext hnot).2 (honly _ hmatches)
  · intro h
    obtain ⟨text, htext⟩ := exists_headerTextForScalar h
    refine ⟨⟨text, htext, ?_⟩, fun header => (headerMatchesValue_iff stod h header).mp⟩
    exact (headerMatchesValue_iff stod h _).mpr (denotes_encodeHeaderValue h htext)

/-- The largest unsigned integer is taken for the one that the header `-1` names. -/
theorem not_agreesWithItsOwn_largest :
    ¬∀ (stod : Bytes → Option (UInt64 × Nat)) (value : JsonValue),
      value.isString ∨ value.isBoolean ∨ value.isInteger → AgreesWithItsOwn stod value := by
  intro hall
  have hown := hall (fun _ => none) (.unsignedInteger 18446744073709551615) (Or.inr (Or.inr rfl))
  have hlarge : ¬(18446744073709551615 : UInt64).toNat < 2 ^ 63 := by decide
  have hmirrors : ¬Mirrorable (.unsignedInteger 18446744073709551615) := hlarge
  obtain ⟨⟨text, htext, hmatches⟩, honly⟩ := hown
  exact (matches_of_not_mirrorable (fun _ => none) htext hmirrors).2 (honly _ hmatches)

theorem headerMatchesValue_null (stod : Bytes → Option (UInt64 × Nat)) (header : Bytes) :
    headerMatchesValue stod header .null = false := by
  unfold headerMatchesValue
  cases HeaderSentinel.decodeHeaderValue header with
  | none => rfl
  | some text => rfl

/-! ### Meanings -/

/-- What one mirrored header is to say: a text as it stands, a scalar of the body, or, for an argument
that is not there, nothing. -/
inductive Meaning where
  | exactly (text : Bytes)
  | scalar (value : JsonValue)
  | absent

namespace Meaning

def ofArgument : Option JsonValue → Meaning
  | some value => scalar value
  | none => absent

/-- What a client sends for it. -/
def sent : Meaning → Option Bytes
  | exactly text => some text
  | scalar value => (headerTextForScalar value).map HeaderSentinel.encodeHeaderValue
  | absent => none

/-- What a server lets through for it. -/
def Admits (stod : Bytes → Option (UInt64 × Nat)) : Meaning → Option Bytes → Prop
  | exactly text, header? => header? = some text
  | scalar value, header? => ∃ header, header? = some header ∧ headerMatchesValue stod header value = true
  | absent, header? => header? = none

/-- A header that is there says what it is to say. -/
def Says : Meaning → Bytes → Prop
  | exactly text, header => header = text
  | scalar value, header => Denotes header value
  | absent, _ => False

/-- What is to be sent can be. -/
def Mirrors : Meaning → Prop
  | scalar value => Mirrorable value
  | _ => True

variable (stod : Bytes → Option (UInt64 × Nat)) {meaning : Meaning}

theorem admits_sent (h : meaning.Mirrors) : meaning.Admits stod meaning.sent := by
  cases meaning with
  | exactly text => rfl
  | scalar value =>
      obtain ⟨text, htext⟩ := exists_headerTextForScalar h
      refine ⟨HeaderSentinel.encodeHeaderValue text, by rw [sent, htext]; rfl, ?_⟩
      rw [headerMatchesValue_iff stod h]
      exact denotes_encodeHeaderValue h htext
  | absent => rfl

/-- Only a header that says what it is to say is let through. -/
theorem says_of_admits (h : meaning.Mirrors) {header : Bytes} (hadmits : meaning.Admits stod (some header)) :
    meaning.Says header := by
  cases meaning with
  | exactly text => exact Option.some.inj hadmits
  | scalar value =>
      obtain ⟨_, hheader, hmatches⟩ := hadmits
      cases hheader
      exact (headerMatchesValue_iff stod h header).mp hmatches
  | absent => cases hadmits

theorem eq_absent_of_admits_none (hadmits : meaning.Admits stod none) : meaning = absent := by
  cases meaning with
  | exactly text => cases hadmits
  | scalar value =>
      obtain ⟨_, hheader, -⟩ := hadmits
      cases hheader
  | absent => rfl

/-- A header that is let through although its value does not mirror says something else. -/
theorem exists_not_says (h : ¬meaning.Mirrors) (hadmits : meaning.Admits stod meaning.sent) :
    ∃ header, meaning.sent = some header ∧ ¬meaning.Says header := by
  cases meaning with
  | exactly text => exact absurd trivial h
  | scalar value =>
      obtain ⟨header, hsent, -⟩ := hadmits
      obtain ⟨text, htext, rfl⟩ := Option.map_eq_some_iff.mp hsent
      exact ⟨_, hsent, (matches_of_not_mirrorable stod htext h).2⟩
  | absent => exact absurd trivial h

end Meaning

end MirroredHeaders

end GopherMcp
