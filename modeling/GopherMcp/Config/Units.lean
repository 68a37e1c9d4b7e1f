import GopherMcp.Protocol.MirroredHeaders

/-!
# Durations and sizes

A duration or a size is a number with a unit right behind it. A size is read exactly wherever `size_t` holds it. A
duration is kept in milliseconds, and read exactly as long as its nanoseconds would fit as well. What is printed in the
largest unit that divides it is read back.
-/

namespace GopherMcp

open MirroredHeaders (isDigit numberOf stoll numberOf_toDecimal isDigit_of_mem_toDecimal)

namespace UnitText

/-- `regex_match` with `^([0-9]+)(unit|unit|...)$`: the digits and the unit. -/
def regexMatch (units : List Bytes) (text : Bytes) : Option (Bytes × Bytes) :=
  let digits := text.takeWhile isDigit
  let unit := text.dropWhile isDigit
  if digits ≠ [] ∧ units.contains unit then some (digits, unit) else none

/-- `std::stoull` of digits, which throws on what 64 bits do not hold. -/
def stoull (digits : Bytes) : Option UInt64 :=
  if numberOf digits < 2 ^ 64 then some (UInt64.ofNat (numberOf digits)) else none

/-- What a number and a unit say, in the unit that counts once. -/
def Denotes (scale : List (Bytes × Nat)) (text : Bytes) (value : Nat) : Prop :=
  ∃ digits unit factor, (unit, factor) ∈ scale ∧ digits ≠ [] ∧ (∀ c ∈ digits, isDigit c = true) ∧
    text = digits ++ unit ∧ value = numberOf digits * factor

/-- The units of the grammar are not digits, so where the number ends is where they begin. -/
theorem regexMatch_eq_some_iff {units : List Bytes} (hunits : ∀ unit ∈ units, ∀ c ∈ unit.head?, isDigit c = false)
    {text digits unit : Bytes} :
    regexMatch units text = some (digits, unit) ↔
      unit ∈ units ∧ digits ≠ [] ∧ (∀ c ∈ digits, isDigit c = true) ∧ text = digits ++ unit := by
  constructor
  · intro hmatch
    simp only [regexMatch] at hmatch
    split_ifs at hmatch with hboth
    obtain ⟨rfl, rfl⟩ := Prod.mk.inj (Option.some.inj hmatch)
    exact ⟨List.contains_iff_mem.mp hboth.2, hboth.1, fun c hc => List.mem_takeWhile_imp hc, List.takeWhile_append_dropWhile.symm⟩
  · rintro ⟨hunit, hdigits, hall, rfl⟩
    have hrest : unit.takeWhile isDigit = [] ∧ unit.dropWhile isDigit = unit := by
      cases unit with
      | nil => exact ⟨rfl, rfl⟩
      | cons first rest =>
          have hfirst : isDigit first = false := hunits _ hunit first rfl
          rw [List.takeWhile_cons_of_neg (by simp [hfirst]), List.dropWhile_cons_of_neg (by simp [hfirst])]
          exact ⟨rfl, rfl⟩
    unfold regexMatch
    rw [List.takeWhile_append_of_pos hall, List.dropWhile_append_of_pos hall, hrest.1, hrest.2, List.append_nil]
    exact if_pos ⟨hdigits, List.contains_iff_mem.mpr hunit⟩

theorem stoull_eq_some_iff {digits : Bytes} {value : UInt64} :
    stoull digits = some value ↔ value.toNat = numberOf digits := by
  unfold stoull
  constructor
  · intro h
    split_ifs at h with hfits
    rw [← Option.some.inj h, UInt64.toNat_ofNat', Nat.mod_eq_of_lt hfits]
  · intro h
    have hfits : numberOf digits < 2 ^ 64 := h ▸ value.toNat_lt
    rw [if_pos hfits, ← h, UInt64.ofNat_toNat]

/-- A number that is printed is denoted with the unit that is printed behind it. -/
theorem denotes_toDecimal {scale : List (Bytes × Nat)} {unit : Bytes} {factor : Nat} (hunit : (unit, factor) ∈ scale)
    (number : Nat) : Denotes scale (toDecimal number ++ unit) (number * factor) := by
  refine ⟨toDecimal number, unit, factor, hunit, by simp [toDecimal], fun c => isDigit_of_mem_toDecimal, rfl, ?_⟩
  rw [numberOf_toDecimal]

/-- Where what is read is reported with its value, and nothing else is, it is read just where it is reported. -/
theorem reported_iff {α : Type} {outcome : Except Bytes α} {reported : Bool × α} {value : α}
    (hok : ∀ read, outcome = .ok read → reported = (true, read))
    (herror : ∀ what, outcome = .error what → reported.1 = false) : reported = (true, value) ↔ outcome = .ok value := by
  cases outcome with
  | ok read => rw [hok read rfl, Prod.mk.injEq, Except.ok.injEq, and_iff_right rfl]
  | error what =>
      refine iff_of_false (fun heq => ?_) fun heq => by cases heq
      have hfalse := herror what rfl
      rw [heq] at hfalse
      cases hfalse

end UnitText

open UnitText (regexMatch stoull Denotes)

namespace Duration

def units : List Bytes := [ascii "ms", ascii "s", ascii "m", ascii "h"]

def kMaxCount : Int64 := 9223372036854775807
def kNsPerMs : Int64 := 1000000
def kMsPerSecond : Int64 := 1000
def kMsPerMinute : Int64 := 60 * kMsPerSecond
def kMsPerHour : Int64 := 60 * kMsPerMinute

def multiplierOf (unit : Bytes) : Int64 :=
  if unit = ascii "ms" then 1
  else if unit = ascii "s" then kMsPerSecond
  else if unit = ascii "m" then kMsPerMinute
  else if unit = ascii "h" then kMsPerHour
  else 1

def isValid (text : Bytes) : Bool := (regexMatch units text).isSome

def overflow (text : Bytes) : Bytes := ascii "Duration value too large (overflow): " ++ text

/-- The number in milliseconds, as long as its nanoseconds are counted as well. -/
def scaled (text unit : Bytes) (value : Int64) : Except Bytes Int64 :=
  if value < 0 then .error (ascii "Duration value cannot be negative: " ++ text)
  else if value > kMaxCount / multiplierOf unit then .error (overflow text)
  else if value > kMaxCount / (multiplierOf unit * kNsPerMs) then .error (overflow text)
  else .ok (value * multiplierOf unit)

/-- What follows `std::stoll`, whose exception is caught. -/
def afterStoll (text unit : Bytes) : Option Int64 → Except Bytes Int64
  | none => .error (ascii "Failed to parse duration value: stoll")
  | some value => scaled text unit value

/-- The milliseconds, or what is wrong with the text. -/
def parseWithError (text : Bytes) : Except Bytes Int64 :=
  match regexMatch units text with
  | none =>
      .error <| ascii "Invalid duration format '" ++ text ++
        ascii "'. Expected format: <number><unit> where unit is ms, s, m, or h (e.g., '30s', '5m', '1h')"
  | some (digits, unit) => afterStoll text unit (stoll false digits)

def parse (text : Bytes) : Bool × Int64 :=
  match parseWithError text with
  | .ok ms => (true, ms)
  | .error _ => (false, 0)

def toString (ms : Int64) : Bytes :=
  if ms = 0 then ascii "0ms"
  else if ms % kMsPerHour = 0 then toDecimalSigned (ms / kMsPerHour) ++ ascii "h"
  else if ms % kMsPerMinute = 0 then toDecimalSigned (ms / kMsPerMinute) ++ ascii "m"
  else if ms % kMsPerSecond = 0 then toDecimalSigned (ms / kMsPerSecond) ++ ascii "s"
  else toDecimalSigned ms ++ ascii "ms"

/-- The units, in milliseconds. -/
def scale : List (Bytes × Nat) :=
  [(ascii "ms", 1), (ascii "s", 1000), (ascii "m", 60 * 1000), (ascii "h", 60 * 60 * 1000)]

end Duration

namespace Size

def units : List Bytes := [ascii "B", ascii "KB", ascii "MB", ascii "GB"]

def kMaxSize : UInt64 := 18446744073709551615
def kKilobyte : UInt64 := 1024
def kMegabyte : UInt64 := kKilobyte * 1024
def kGigabyte : UInt64 := kMegabyte * 1024

def tooLarge (text : Bytes) : Bytes := ascii "Size value too large (overflow): " ++ text

/-- A number of a unit that counts more than once. -/
def scaled (text : Bytes) (value multiplier : UInt64) : Except Bytes UInt64 :=
  if value > kMaxSize / multiplier then .error (tooLarge text) else .ok (value * multiplier)

def isValid (text : Bytes) : Bool := (regexMatch units text).isSome

/-- What follows `std::stoull`, whose exception is caught. -/
def afterStoull (text unit : Bytes) : Option UInt64 → Except Bytes UInt64
  | none => .error (ascii "Failed to parse size value: stoull")
  | some value =>
      if unit = ascii "B" then if value > kMaxSize then .error (tooLarge text) else .ok value
      else if unit = ascii "KB" then scaled text value kKilobyte
      else if unit = ascii "MB" then scaled text value kMegabyte
      else if unit = ascii "GB" then scaled text value kGigabyte
      else .ok 0

/-- The bytes, or what is wrong with the text. -/
def parseWithError (text : Bytes) : Except Bytes UInt64 :=
  match regexMatch units text with
  | none =>
      .error <| ascii "Invalid size format '" ++ text ++
        ascii "'. Expected format: <number><unit> where unit is B, KB, MB, or GB (e.g., '1024B', '10MB', '2GB')"
  | some (digits, unit) => afterStoull text unit (stoull digits)

def parse (text : Bytes) : Bool × UInt64 :=
  match parseWithError text with
  | .ok bytes => (true, bytes)
  | .error _ => (false, 0)

def toString (bytes : UInt64) : Bytes :=
  if bytes = 0 then ascii "0B"
  else if bytes ≥ kGigabyte ∧ bytes % kGigabyte = 0 then toDecimal (bytes / kGigabyte).toNat ++ ascii "GB"
  else if bytes ≥ kMegabyte ∧ bytes % kMegabyte = 0 then toDecimal (bytes / kMegabyte).toNat ++ ascii "MB"
  else if bytes ≥ kKilobyte ∧ bytes % kKilobyte = 0 then toDecimal (bytes / kKilobyte).toNat ++ ascii "KB"
  else toDecimal bytes.toNat ++ ascii "B"

/-- The units, in bytes. -/
def scale : List (Bytes × Nat) :=
  [(ascii "B", 1), (ascii "KB", 1024), (ascii "MB", 1024 ^ 2), (ascii "GB", 1024 ^ 3)]

end Size

/-! ### Durations -/

namespace Duration

theorem head_units : ∀ unit ∈ units, ∀ c ∈ unit.head?, isDigit c = false := by
  intro unit hunit
  simp only [units, List.mem_cons, List.not_mem_nil, or_false] at hunit
  obtain rfl | rfl | rfl | rfl := hunit <;> exact fun c hc => Option.some.inj hc ▸ rfl

/-- What is added up at most. -/
def kMost : Nat := 2 ^ 63 - 1

/-- Each unit with what it multiplies by, and how large a number it lets through. -/
theorem multiplierOf_spec {unit : Bytes} (hunit : unit ∈ units) :
    ∃ factor, (unit, factor) ∈ scale ∧ 0 < factor ∧ (multiplierOf unit).toInt = factor ∧
      (kMaxCount / multiplierOf unit).toInt = (kMost / factor : Nat) ∧
      (kMaxCount / (multiplierOf unit * kNsPerMs)).toInt = (kMost / (factor * 1000000) : Nat) := by
  simp only [units, List.mem_cons, List.not_mem_nil, or_false] at hunit
  obtain rfl | rfl | rfl | rfl := hunit
  · exact ⟨1, by decide⟩
  · exact ⟨1000, by decide⟩
  · exact ⟨60 * 1000, by decide⟩
  · exact ⟨60 * 60 * 1000, by decide⟩

theorem toInt_mul_of_le {value multiplier : Int64} {number factor : Nat} (hvalue : value.toInt = number)
    (hmultiplier : multiplier.toInt = factor) (hfits : number * factor ≤ kMost) :
    (value * multiplier).toInt = (number * factor : Nat) := by
  have hmost : number * factor < 2 ^ 63 := Nat.lt_of_le_of_lt hfits (by decide)
  rw [Int64.toInt_mul, hvalue, hmultiplier, ← Nat.cast_mul, Int.bmod_eq_of_le_mul_two]
  · omega
  · omega

theorem scaled_ok_iff {text unit : Bytes} {value ms : Int64} {number factor : Nat} (hread : value.toInt = number)
    (hpos : 0 < factor) (hfactor : (multiplierOf unit).toInt = factor)
    (hmax : (kMaxCount / multiplierOf unit).toInt = (kMost / factor : Nat))
    (hmaxNs : (kMaxCount / (multiplierOf unit * kNsPerMs)).toInt = (kMost / (factor * 1000000) : Nat)) :
    scaled text unit value = .ok ms ↔
      number * (factor * 1000000) ≤ kMost ∧ ms.toInt = (number * factor : Nat) := by
  have hfits (count : Nat) (hcount : 0 < count) : number * count ≤ kMost ↔ ¬ kMost / count < number := by
    rw [not_lt, Nat.le_div_iff_mul_le hcount]
  have hnonneg : ¬ value < 0 := by
    rw [Int64.lt_iff_toInt_lt, hread]
    exact not_lt.mpr (Int.natCast_nonneg _)
  rw [scaled, if_neg hnonneg]
  simp only [gt_iff_lt, Int64.lt_iff_toInt_lt, hmax, hmaxNs, hread, Nat.cast_lt]
  by_cases hns : number * (factor * 1000000) ≤ kMost
  · have hms : number * factor ≤ kMost :=
      (Nat.mul_le_mul_left number (Nat.le_mul_of_pos_right factor (by decide))).trans hns
    rw [if_neg ((hfits _ hpos).mp hms), if_neg ((hfits _ (by omega)).mp hns), Except.ok.injEq, ← Int64.toInt_inj,
      toInt_mul_of_le hread hfactor hms]
    exact ⟨fun h => ⟨hns, h.symm⟩, fun h => h.2.symm⟩
  · refine iff_of_false ?_ fun hboth => hns hboth.1
    rw [hfits _ (by omega), not_not] at hns
    rw [if_pos hns]
    split_ifs <;> exact fun herror => by cases herror

theorem afterStoll_ok {text unit : Bytes} {ms : Int64} {read : Option Int64} (h : afterStoll text unit read = .ok ms) :
    ∃ value, read = some value ∧ scaled text unit value = .ok ms := by
  cases read with
  | none => cases h
  | some value => exact ⟨value, rfl, h⟩

theorem parseWithError_ok {text : Bytes} {ms : Int64} (h : parseWithError text = .ok ms) :
    ∃ digits unit value, regexMatch units text = some (digits, unit) ∧ stoll false digits = some value ∧
      scaled text unit value = .ok ms := by
  unfold parseWithError at h
  split at h
  · cases h
  · next digits unit hmatch =>
      obtain ⟨value, hvalue, hscaled⟩ := afterStoll_ok h
      exact ⟨digits, unit, value, hmatch, hvalue, hscaled⟩

theorem parseWithError_of_match {text digits unit : Bytes} {value : Int64}
    (hmatch : regexMatch units text = some (digits, unit)) (hvalue : stoll false digits = some value) :
    parseWithError text = scaled text unit value := by
  rw [parseWithError, hmatch]
  exact congrArg (afterStoll text unit) hvalue

/-- A unit counts once only. -/
theorem scale_injective {unit : Bytes} {factor other : Nat} (hfactor : (unit, factor) ∈ scale)
    (hother : (unit, other) ∈ scale) : factor = other := by
  simp only [scale, List.mem_cons, List.not_mem_nil, or_false, Prod.mk.injEq] at hfactor hother
  obtain ⟨rfl, rfl⟩ | ⟨rfl, rfl⟩ | ⟨rfl, rfl⟩ | ⟨rfl, rfl⟩ := hfactor <;>
    obtain ⟨hunit, rfl⟩ | ⟨hunit, rfl⟩ | ⟨hunit, rfl⟩ | ⟨hunit, rfl⟩ := hother <;>
      first | rfl | exact absurd hunit (by decide)

/-- **Durations are read exactly.** -/
theorem parseWithError_ok_iff {text : Bytes} {ms : Int64} :
    parseWithError text = .ok ms ↔
      ∃ value, Denotes scale text value ∧ value * 1000000 ≤ kMost ∧ ms.toInt = value := by
  constructor
  · intro h
    obtain ⟨digits, unit, value, hmatch, hvalue, hscaled⟩ := parseWithError_ok h
    have hread : value.toInt = numberOf digits := MirroredHeaders.stoll_eq_some_iff.mp hvalue
    obtain ⟨hunit, hdigits, hall, htext⟩ := (UnitText.regexMatch_eq_some_iff head_units).mp hmatch
    obtain ⟨factor, hscale, hpos, hfactor, hmax, hmaxNs⟩ := multiplierOf_spec hunit
    obtain ⟨hfits, hms⟩ := (scaled_ok_iff hread hpos hfactor hmax hmaxNs).mp hscaled
    rw [← mul_assoc] at hfits
    exact ⟨numberOf digits * factor, ⟨digits, unit, factor, hscale, hdigits, hall, htext, rfl⟩, hfits, hms⟩
  · rintro ⟨number, ⟨digits, unit, factor, hscale, hdigits, hall, htext, rfl⟩, hfits, hms⟩
    have hunit : unit ∈ units := by
      have hmem : unit ∈ scale.map Prod.fst := List.mem_map_of_mem hscale
      exact hmem
    have hmatch := (UnitText.regexMatch_eq_some_iff head_units).mpr ⟨hunit, hdigits, hall, htext⟩
    obtain ⟨other, hother, hpos, hfactor, hmax, hmaxNs⟩ := multiplierOf_spec hunit
    obtain rfl : other = factor := scale_injective hother hscale
    rw [mul_assoc] at hfits
    have hnumber : numberOf digits < 2 ^ 63 := by
      have hmost : numberOf digits ≤ kMost :=
        (Nat.le_mul_of_pos_right _ (by omega)).trans hfits
      exact Nat.lt_of_le_of_lt hmost (by decide)
    have hread : (Int64.ofNat (numberOf digits)).toInt = numberOf digits := Int64.toInt_ofNat_of_lt hnumber
    rw [parseWithError_of_match hmatch (MirroredHeaders.stoll_eq_some_iff.mpr hread),
      scaled_ok_iff hread hpos hfactor hmax hmaxNs]
    exact ⟨hfits, hms⟩

theorem parse_eq_iff {text : Bytes} {ms : Int64} : parse text = (true, ms) ↔ parseWithError text = .ok ms := by
  refine UnitText.reported_iff (fun read hread => ?_) fun what hwhat => ?_
  · rw [parse, hread]
  · rw [parse, hwhat]

/-- What is printed with a unit that divides it. -/
theorem denotes_printed {ms multiplier : Int64} {number factor : Nat} {unit : Bytes} (hms : ms.toInt = number)
    (hfactor : multiplier.toInt = factor) (hscale : (unit, factor) ∈ scale) (hdivides : ms % multiplier = 0) :
    Denotes scale (toDecimalSigned (ms / multiplier) ++ unit) number := by
  have hmod : factor ∣ number := by
    have hzero : (ms % multiplier).toInt = 0 := by rw [hdivides]; rfl
    rw [Int64.toInt_mod, hms, hfactor, ← Int.ofNat_tmod, Int.natCast_eq_zero] at hzero
    exact Nat.dvd_of_mod_eq_zero hzero
  have hleast : ms ≠ Int64.minValue := by
    rintro rfl
    have hbelow : (Int64.minValue.toInt : Int) < 0 := by decide
    omega
  have hquotient : (ms / multiplier).toInt = (number / factor : Nat) := by
    rw [Int64.toInt_div_of_ne_left _ _ hleast, hms, hfactor, ← Int.ofNat_tdiv]
  have hprinted : toDecimalSigned (ms / multiplier) = toDecimal (number / factor) := by
    rw [toDecimalSigned, hquotient, if_neg (not_lt.mpr (Int.natCast_nonneg _)), Int.natAbs_natCast]
  have hdenotes := UnitText.denotes_toDecimal hscale (number / factor)
  rwa [Nat.div_mul_cancel hmod, ← hprinted] at hdenotes

theorem denotes_toString {ms : Int64} {number : Nat} (hms : ms.toInt = number) :
    Denotes scale (toString ms) number := by
  unfold toString
  split_ifs with hzero hhours hminutes hseconds
  · have hnumber : number = 0 := by
      rw [hzero, Int64.toInt_zero] at hms
      omega
    rw [hnumber]
    exact @UnitText.denotes_toDecimal scale (ascii "ms") 1 (by decide) 0
  · exact @denotes_printed ms _ number (60 * 60 * 1000) _ hms rfl (by decide) hhours
  · exact @denotes_printed ms _ number (60 * 1000) _ hms rfl (by decide) hminutes
  · exact @denotes_printed ms _ number 1000 _ hms rfl (by decide) hseconds
  · have hprinted : toDecimalSigned ms = toDecimal number := by
      rw [toDecimalSigned, hms, if_neg (not_lt.mpr (Int.natCast_nonneg _)), Int.natAbs_natCast]
    have hdenotes := @UnitText.denotes_toDecimal scale (ascii "ms") 1 (by decide) number
    rwa [mul_one, ← hprinted] at hdenotes

/-- What is printed is read back wherever it is accepted. -/
theorem parse_toString_iff {ms : Int64} :
    parse (toString ms) = (true, ms) ↔ 0 ≤ ms.toInt ∧ ms.toInt * 1000000 ≤ kMost := by
  rw [parse_eq_iff, parseWithError_ok_iff]
  constructor
  · rintro ⟨value, -, hfits, hms⟩
    omega
  · rintro ⟨hnonneg, hfits⟩
    obtain ⟨number, hnumber⟩ := Int.eq_ofNat_of_zero_le hnonneg
    exact ⟨number, denotes_toString hnumber, by omega, hnumber⟩

end Duration

/-! ### Sizes -/

namespace Size

theorem head_units : ∀ unit ∈ units, ∀ c ∈ unit.head?, isDigit c = false := by
  intro unit hunit
  simp only [units, List.mem_cons, List.not_mem_nil, or_false] at hunit
  obtain rfl | rfl | rfl | rfl := hunit <;> exact fun c hc => Option.some.inj hc ▸ rfl

theorem scaled_ok_iff {text : Bytes} {value multiplier bytes : UInt64} {number factor : Nat}
    (hread : value.toNat = number) (hfactor : multiplier.toNat = factor) (hpos : 0 < factor) :
    scaled text value multiplier = .ok bytes ↔ bytes.toNat = number * factor := by
  have hbelow := bytes.toNat_lt
  have hmax : kMaxSize.toNat = 2 ^ 64 - 1 := rfl
  rw [scaled]
  simp only [gt_iff_lt, UInt64.lt_iff_toNat_lt, UInt64.toNat_div, hmax, hread, hfactor]
  have hfits : ¬ (2 ^ 64 - 1) / factor < number ↔ number * factor ≤ 2 ^ 64 - 1 := by
    rw [not_lt, Nat.le_div_iff_mul_le hpos]
  by_cases hlarge : (2 ^ 64 - 1) / factor < number
  · rw [if_pos hlarge]
    refine iff_of_false (fun h => by cases h) fun h => (hfits.not.mp (not_not.mpr hlarge)) (by omega)
  · rw [if_neg hlarge, Except.ok.injEq, ← UInt64.toNat_inj, UInt64.toNat_mul, hread, hfactor,
      Nat.mod_eq_of_lt (by have := hfits.mp hlarge; omega)]
    exact eq_comm

theorem afterStoull_ok_iff {text unit : Bytes} {factor : Nat} {value bytes : UInt64}
    (hscale : (unit, factor) ∈ scale) :
    afterStoull text unit (some value) = .ok bytes ↔ bytes.toNat = value.toNat * factor := by
  simp only [scale, List.mem_cons, List.not_mem_nil, or_false, Prod.mk.injEq] at hscale
  obtain ⟨rfl, rfl⟩ | ⟨rfl, rfl⟩ | ⟨rfl, rfl⟩ | ⟨rfl, rfl⟩ := hscale
  · have hfits : ¬ value > kMaxSize := by
      have hbelow := value.toNat_lt
      have hmax : kMaxSize.toNat = 2 ^ 64 - 1 := rfl
      rw [gt_iff_lt, UInt64.lt_iff_toNat_lt, hmax]
      omega
    rw [afterStoull, if_pos rfl, if_neg hfits, Except.ok.injEq, mul_one, UInt64.toNat_inj]
    exact eq_comm
  · rw [afterStoull, if_neg (by decide), if_pos rfl]
    exact scaled_ok_iff rfl rfl (by decide)
  · rw [afterStoull, if_neg (by decide), if_neg (by decide), if_pos rfl]
    exact scaled_ok_iff rfl rfl (by decide)
  · rw [afterStoull, if_neg (by decide), if_neg (by decide), if_neg (by decide), if_pos rfl]
    exact scaled_ok_iff rfl rfl (by decide)

/-- **Sizes are read exactly.** -/
theorem parseWithError_ok_iff {text : Bytes} {bytes : UInt64} :
    parseWithError text = .ok bytes ↔ Denotes scale text bytes.toNat := by
  constructor
  · intro h
    unfold parseWithError at h
    split at h
    · cases h
    · next digits unit hmatch =>
        obtain ⟨hunit, hdigits, hall, htext⟩ := (UnitText.regexMatch_eq_some_iff head_units).mp hmatch
        obtain ⟨⟨unit, factor⟩, hscale, rfl⟩ : ∃ pair ∈ scale, pair.1 = unit := List.mem_map.mp hunit
        cases hvalue : stoull digits with
        | none => rw [hvalue] at h; cases h
        | some value =>
            rw [hvalue, afterStoull_ok_iff hscale, UnitText.stoull_eq_some_iff.mp hvalue] at h
            exact ⟨digits, unit, factor, hscale, hdigits, hall, htext, h⟩
  · rintro ⟨digits, unit, factor, hscale, hdigits, hall, htext, hbytes⟩
    have hunit : unit ∈ units := (List.mem_map_of_mem hscale : unit ∈ scale.map Prod.fst)
    have hfactor : 0 < factor := (by decide : ∀ pair ∈ scale, 0 < pair.2) _ hscale
    have hnumber : numberOf digits < 2 ^ 64 := by
      have hle : numberOf digits ≤ numberOf digits * factor := Nat.le_mul_of_pos_right _ hfactor
      have hbelow := bytes.toNat_lt
      omega
    have hvalue : stoull digits = some (UInt64.ofNat (numberOf digits)) := if_pos hnumber
    rw [parseWithError, (UnitText.regexMatch_eq_some_iff head_units).mpr ⟨hunit, hdigits, hall, htext⟩]
    simp only [hvalue]
    rw [afterStoull_ok_iff hscale, UInt64.toNat_ofNat', Nat.mod_eq_of_lt hnumber, hbytes]

theorem parse_eq_iff {text : Bytes} {bytes : UInt64} :
    parse text = (true, bytes) ↔ parseWithError text = .ok bytes := by
  refine UnitText.reported_iff (fun read hread => ?_) fun what hwhat => ?_
  · rw [parse, hread]
  · rw [parse, hwhat]

/-- What is printed with a unit that divides it. -/
theorem denotes_printed {bytes multiplier : UInt64} {unit : Bytes} (hscale : (unit, multiplier.toNat) ∈ scale)
    (hdivides : bytes % multiplier = 0) :
    Denotes scale (toDecimal (bytes / multiplier).toNat ++ unit) bytes.toNat := by
  have hmod : multiplier.toNat ∣ bytes.toNat := by
    have hzero : (bytes % multiplier).toNat = 0 := by rw [hdivides]; rfl
    rw [UInt64.toNat_mod] at hzero
    exact Nat.dvd_of_mod_eq_zero hzero
  have hdenotes := UnitText.denotes_toDecimal hscale (bytes / multiplier).toNat
  rwa [UInt64.toNat_div, Nat.div_mul_cancel hmod, ← UInt64.toNat_div] at hdenotes

theorem denotes_toString (bytes : UInt64) : Denotes scale (toString bytes) bytes.toNat := by
  unfold toString
  split_ifs with hzero hgiga hmega hkilo
  · rw [hzero]
    exact @UnitText.denotes_toDecimal scale (ascii "B") 1 (by decide) 0
  · exact denotes_printed (by decide) hgiga.2
  · exact denotes_printed (by decide) hmega.2
  · exact denotes_printed (by decide) hkilo.2
  · have hdenotes := @UnitText.denotes_toDecimal scale (ascii "B") 1 (by decide) bytes.toNat
    rwa [mul_one] at hdenotes

end Size

/-- **Units are parsed exactly.** A duration is accepted as far as its nanoseconds fit as well, a size as far as it
fits, and each then for what it says. What is printed is read back, unless it is a duration out of that range. -/
theorem UnitText.parse_exact :
    (∀ text ms, Duration.parse text = (true, ms) ↔
      ∃ value, Denotes Duration.scale text value ∧ value * 1000000 < 2 ^ 63 ∧ ms.toInt = value) ∧
    (∀ text bytes, Size.parse text = (true, bytes) ↔ Denotes Size.scale text bytes.toNat) ∧
    (∀ ms, Duration.parse (Duration.toString ms) = (true, ms) ↔ 0 ≤ ms.toInt ∧ ms.toInt * 1000000 < 2 ^ 63) ∧
    ∀ bytes, Size.parse (Size.toString bytes) = (true, bytes) := by
  have hmost (number : Nat) : number ≤ Duration.kMost ↔ number < 2 ^ 63 := Nat.le_sub_one_iff_lt (by decide)
  refine ⟨fun text ms => ?_, fun text bytes => Size.parse_eq_iff.trans Size.parseWithError_ok_iff, fun ms => ?_,
    fun bytes => Size.parse_eq_iff.mpr (Size.parseWithError_ok_iff.mpr (Size.denotes_toString bytes))⟩
  · rw [Duration.parse_eq_iff, Duration.parseWithError_ok_iff]
    simp only [hmost]
  · rw [Duration.parse_toString_iff, Duration.kMost]
    omega

/-- A number of milliseconds that 64 bits hold, but not its nanoseconds. -/
theorem Duration.parse_nanoseconds :
    ¬ ∀ text ms, Duration.parse text = (true, ms) ↔ ∃ value, Denotes Duration.scale text value ∧ ms.toInt = value := by
  intro hclaim
  have hparsed := (hclaim (ascii "9223372036855ms") 9223372036855).mpr
    ⟨9223372036855, @UnitText.denotes_toDecimal Duration.scale (ascii "ms") 1 (by decide) 9223372036855, rfl⟩
  have hrefused : Duration.parse (ascii "9223372036855ms") = (false, 0) := by decide
  rw [hrefused] at hparsed
  exact Bool.false_ne_true (Prod.mk.inj hparsed).1

end GopherMcp
