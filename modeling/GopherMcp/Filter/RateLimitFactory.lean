import GopherMcp.Filter.RateLimiter
import GopherMcp.Json.Value

/-!
# Limiters made from a configuration

The factory fills in the defaults, checks that each number is a whole number in its range and then reads it as an
`int`. A float counts as whole where it is no further than a millionth from a whole number, but is read with its
fraction cut off, so that what is read may be one less than what was checked.
-/

namespace GopherMcp

open JsonValue

/-- What is configured beside what the limiter looks at. -/
structure ClientRateLimitConfig extends RateLimitConfig where
  perClientLimiting : Bool
  clientLimits : List (Bytes × Nat)

namespace RateLimitFactory

/-! ### Numbers -/

/-- How often the least positive float fits into one. -/
def one : Int := 2 ^ 1074

/-- A float as a multiple of the least positive one; infinities and what is no number are none. -/
def multiple (bits : UInt64) : Option Int :=
  let exponent := bits.toNat / 2 ^ 52 % 2 ^ 11
  let fraction := bits.toNat % 2 ^ 52
  let significand := if exponent = 0 then fraction else 2 ^ 52 + fraction
  if exponent = 2047 then none
  else some ((if 2 ^ 63 ≤ bits.toNat then -1 else 1) * (significand * 2 ^ (max exponent 1 - 1) : Nat))

/-- `std::round`: halves go away from zero. -/
def rounded (number : Int) : Int := number.sign * ((2 * number.natAbs + one) / (2 * one))

/-- The double nearest to a millionth. -/
def millionth : Int := 4722366482869645 * 2 ^ 1002

/-- `getInt(default)`. A float outside the range of `int` is read here as it is: none is read that was not checked
before. -/
def getInt (json : JsonValue) (default : Int) : Int :=
  match json with
  | .integer value => value.toInt32.toInt
  | .unsignedInteger value => value.toUInt32.toInt32.toInt
  | .float bits => ((multiple bits).map (·.tdiv one)).getD 0
  | _ => default

def getBool (json : JsonValue) (default : Bool) : Bool :=
  match json with
  | .boolean value => value
  | _ => default

def getString (json : JsonValue) (default : Bytes) : Bytes :=
  match json with
  | .string text => text
  | _ => default

def isNumber (json : JsonValue) : Bool := json.isInteger || json.isFloat

/-- `validateRange`. A number that no `int` holds becomes the least one, which is in no range. -/
def validateRange (value : JsonValue) (least greatest : Int) : Bool :=
  match value with
  | .integer number => least ≤ number.toInt ∧ number.toInt ≤ greatest
  | .unsignedInteger number => least ≤ number.toNat ∧ (number.toNat : Int) ≤ greatest
  | .float bits =>
      match multiple bits with
      | none => false
      | some number =>
          |number - rounded number * one| ≤ millionth ∧ least ≤ rounded number ∧ rounded number ≤ greatest
  | _ => false

/-! ### The factory -/

def makeDefaultConfig : JsonValue :=
  ofFields
    [(ascii "strategy", some (.string (ascii "token_bucket"))),
      (ascii "bucket_capacity", some (.ofInt 100)),
      (ascii "refill_rate", some (.ofInt 10)),
      (ascii "window_size_seconds", some (.ofInt 60)),
      (ascii "max_requests_per_window", some (.ofInt 100)),
      (ascii "leak_rate", some (.ofInt 10)),
      (ascii "allow_burst", some (.boolean true)),
      (ascii "burst_size", some (.ofInt 20)),
      (ascii "per_client_limiting", some (.boolean false))]

/-- A value of the configuration as it is copied: an unsigned integer becomes a signed one. -/
def copied : JsonValue → JsonValue
  | .unsignedInteger value => .integer value.toInt64
  | other => other

def mergeWithDefaults (config : JsonValue) : JsonValue :=
  if !config.isObject then makeDefaultConfig
  else config.keys.foldl (fun result key => result.set key (copied (config.get key))) makeDefaultConfig

/-- A number of the configuration, if it is there, is in its range. -/
def fieldInRange (config : JsonValue) (key : Bytes) (least greatest : Int) : Bool :=
  !config.contains key || validateRange (config.get key) least greatest

def strategies : List Bytes :=
  [ascii "token_bucket", ascii "sliding_window", ascii "fixed_window", ascii "leaky_bucket"]

def validateConfig (config : JsonValue) : Bool :=
  config.isObject &&
    (!config.contains (ascii "strategy") || strategies.contains (getString (config.get (ascii "strategy")) [])) &&
    fieldInRange config (ascii "bucket_capacity") 1 100000 &&
    fieldInRange config (ascii "refill_rate") 1 10000 &&
    fieldInRange config (ascii "window_size_seconds") 1 3600 &&
    fieldInRange config (ascii "max_requests_per_window") 1 100000 &&
    fieldInRange config (ascii "leak_rate") 1 10000 &&
    fieldInRange config (ascii "burst_size") 0 1000 &&
    (!config.contains (ascii "per_client_limiting") || (config.get (ascii "per_client_limiting")).isBoolean) &&
    (!config.contains (ascii "client_limits") ||
      (config.get (ascii "client_limits")).isObject &&
        (config.get (ascii "client_limits")).keys.all fun client =>
          validateRange ((config.get (ascii "client_limits")).get client) 1 100000)

def parseStrategy (strategy : Bytes) : RateLimitStrategy :=
  if strategy = ascii "token_bucket" then .tokenBucket
  else if strategy = ascii "sliding_window" then .slidingWindow
  else if strategy = ascii "fixed_window" then .fixedWindow
  else if strategy = ascii "leaky_bucket" then .leakyBucket
  else RateLimitConfig.default.strategy

/-- The limits of those clients that have a number. -/
def parseClientLimits (config : JsonValue) : List (Bytes × Nat) :=
  let clientLimits := config.get (ascii "client_limits")
  clientLimits.keys.filterMap fun client =>
    if isNumber (clientLimits.get client) then some (client, sizeT (getInt (clientLimits.get client) 0)) else none

def parseRateLimitConfig (config : JsonValue) : ClientRateLimitConfig where
  strategy := parseStrategy (getString (config.get (ascii "strategy")) (ascii "token_bucket"))
  bucketCapacity := sizeT (getInt (config.get (ascii "bucket_capacity")) 100)
  refillRate := sizeT (getInt (config.get (ascii "refill_rate")) 10)
  windowSize := getInt (config.get (ascii "window_size_seconds")) 60
  maxRequestsPerWindow := sizeT (getInt (config.get (ascii "max_requests_per_window")) 100)
  leakRate := sizeT (getInt (config.get (ascii "leak_rate")) 10)
  allowBurst := getBool (config.get (ascii "allow_burst")) true
  burstSize := sizeT (getInt (config.get (ascii "burst_size")) 20)
  perClientLimiting := getBool (config.get (ascii "per_client_limiting")) false
  clientLimits := parseClientLimits config

/-- The limiter, unless the configuration is refused with an exception. -/
def createRateLimitFilter (config : JsonValue) (now : Int) : Option RateLimiter :=
  if validateConfig (mergeWithDefaults config) then
    some (.new (parseRateLimitConfig (mergeWithDefaults config)).toRateLimitConfig now)
  else none

/-! ### What an accepted configuration holds -/

/-- What is close to a whole number is that or one less with its fraction cut off. -/
theorem truncated_of_close {number whole unit distance : Int} (hwhole : 0 ≤ whole) (hunit : distance < unit)
    (hclose : |number - whole * unit| ≤ distance) : 0 ≤ number.tdiv unit ∧ number.tdiv unit ≤ whole := by
  obtain ⟨hlow, hhigh⟩ := abs_le.mp hclose
  have hpositive : 0 < unit := by omega
  by_cases hnegative : 0 ≤ number
  · rw [Int.tdiv_eq_ediv_of_nonneg hnegative]
    refine ⟨Int.ediv_nonneg hnegative hpositive.le, ?_⟩
    have hlt : number < (whole + 1) * unit := by linarith
    exact Int.lt_add_one_iff.mp (Int.ediv_lt_of_lt_mul hpositive hlt)
  · have hproduct := Int.mul_nonneg hwhole hpositive.le
    have hzero : (-number).tdiv unit = 0 := Int.tdiv_eq_zero_of_lt (by omega) (by omega)
    rw [Int.neg_tdiv, Int.neg_eq_zero] at hzero
    rw [hzero]
    exact ⟨le_refl 0, hwhole⟩

theorem getInt_of_validateRange {value : JsonValue} {least greatest : Int} (hleast : 0 ≤ least)
    (hgreatest : greatest < 2 ^ 31) (h : validateRange value least greatest) (default : Int) :
    0 ≤ getInt value default ∧ getInt value default ≤ greatest := by
  cases value with
  | integer number =>
      have hrange := of_decide_eq_true h
      rw [getInt, Int64.toInt_toInt32, Int.bmod_eq_of_le (by omega) (by omega)]
      omega
  | unsignedInteger number =>
      have hrange := of_decide_eq_true h
      have hnarrow : number.toUInt32.toInt32.toInt = (number.toNat : Int).bmod (2 ^ 32) :=
        BitVec.toInt_setWidth number.toBitVec
      rw [getInt, hnarrow, Int.bmod_eq_of_le (by omega) (by omega)]
      omega
  | float bits =>
      rw [validateRange] at h
      cases hmultiple : multiple bits with
      | none => simp [hmultiple] at h
      | some number =>
          rw [hmultiple] at h
          obtain ⟨hclose, hlow, hhigh⟩ := of_decide_eq_true h
          obtain ⟨hnonneg, hle⟩ :=
            truncated_of_close (hleast.trans hlow) (show millionth < one by decide +kernel) hclose
          rw [getInt, hmultiple, Option.map_some, Option.getD_some]
          exact ⟨hnonneg, hle.trans hhigh⟩
  | _ => exact absurd h (by simp [validateRange])

/-- What is read of a number that was checked. -/
theorem getInt_of_fieldInRange {config : JsonValue} {key : Bytes} {least greatest : Int} (hleast : 0 ≤ least)
    (hgreatest : greatest < 2 ^ 31) (h : fieldInRange config key least greatest) (default : Int)
    (hdefault : 0 ≤ default ∧ default ≤ greatest) :
    0 ≤ getInt (config.get key) default ∧ getInt (config.get key) default ≤ greatest := by
  rw [fieldInRange, Bool.or_eq_true, Bool.not_eq_true', contains_eq, Option.isSome_eq_false_iff,
    Option.isNone_iff_eq_none] at h
  rcases h with habsent | hrange
  · rw [get_eq, habsent, Option.getD_none]
    exact hdefault
  · exact getInt_of_validateRange hleast hgreatest hrange default

theorem sizeT_le_of_fieldInRange {config : JsonValue} {key : Bytes} {least greatest : Int} (hleast : 0 ≤ least)
    (hgreatest : greatest < 2 ^ 31) (h : fieldInRange config key least greatest) (default : Int)
    (hdefault : 0 ≤ default ∧ default ≤ greatest) : (sizeT (getInt (config.get key) default) : Int) ≤ greatest := by
  obtain ⟨hnonneg, hle⟩ := getInt_of_fieldInRange hleast hgreatest h default hdefault
  exact (sizeT_le hnonneg).trans hle

/-- Each number that was read is small. -/
structure InBounds (config : RateLimitConfig) : Prop where
  bucketCapacity : config.bucketCapacity ≤ 100000
  refillRate : config.refillRate ≤ 10000
  windowSize : 0 ≤ config.windowSize
  leakRate : config.leakRate ≤ 10000
  burstSize : config.burstSize ≤ 1000

theorem inBounds_parseRateLimitConfig {config : JsonValue} (h : validateConfig config) :
    InBounds (parseRateLimitConfig config).toRateLimitConfig := by
  simp only [validateConfig, Bool.and_eq_true] at h
  obtain ⟨⟨⟨⟨⟨⟨⟨⟨-, hcapacity⟩, hrefill⟩, hwindow⟩, -⟩, hleak⟩, hburst⟩, -⟩, -⟩ := h
  have hcapacity' := sizeT_le_of_fieldInRange (by decide) (by decide) hcapacity 100 (by decide)
  have hrefill' := sizeT_le_of_fieldInRange (by decide) (by decide) hrefill 10 (by decide)
  have hwindow' := getInt_of_fieldInRange (by decide) (by decide) hwindow 60 (by decide)
  have hleak' := sizeT_le_of_fieldInRange (by decide) (by decide) hleak 10 (by decide)
  have hburst' := sizeT_le_of_fieldInRange (by decide) (by decide) hburst 20 (by decide)
  rw [parseRateLimitConfig]
  exact {
    bucketCapacity := Int.ofNat_le.mp hcapacity'
    refillRate := Int.ofNat_le.mp hrefill'
    windowSize := hwindow'.1
    leakRate := Int.ofNat_le.mp hleak'
    burstSize := Int.ofNat_le.mp hburst' }

theorem inBounds_of_created {config : JsonValue} {now : Int} {s : RateLimiter}
    (h : createRateLimitFilter config now = some s) : ∃ accepted, InBounds accepted ∧ s = .new accepted now := by
  rw [createRateLimitFilter] at h
  split_ifs at h with hvalid
  exact ⟨_, inBounds_parseRateLimitConfig hvalid, (Option.some.inj h).symm⟩

end RateLimitFactory

end GopherMcp
