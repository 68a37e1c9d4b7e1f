import GopherMcp.Filter.RateLimiter
import Mathlib.Tactic.LinearCombination

/-!
# What polling a rate limiter costs

A request that is refused changes nothing, so it costs the others nothing. But the time since the last refill or
leak is rounded down, and what is rounded off is lost: only where each refill and each leak comes at a time that
needs no rounding, and has room, is as much admitted as the rate and the time are worth.
-/

namespace GopherMcp

open Admission

namespace RateLimiter

variable {config : RateLimitConfig} {s t : RateLimiter} {now : Int}

theorem allowRequest_tokenBucket (h : s.config.strategy = .tokenBucket) (now : Int) :
    s.allowRequest now = s.allowRequestTokenBucket now := by
  rw [allowRequest, h]

theorem allowRequest_leakyBucket (h : s.config.strategy = .leakyBucket) (now : Int) :
    s.allowRequest now = s.allowRequestLeakyBucket now := by
  rw [allowRequest, h]

theorem sizeT_eq {n : Int} (hnonneg : 0 ≤ n) (hlt : n < 2 ^ 64) : (sizeT n : Int) = n := by
  rw [sizeT, Int.emod_eq_of_lt hnonneg hlt, Int.toNat_of_nonneg hnonneg]

/-! ### The token bucket -/

/-- What the time is worth fits beside the tokens there are. -/
def TokensFit (s : RateLimiter) (now : Int) : Prop :=
  (s.tokens : Int) + s.config.refillRate * durationSeconds (now - s.lastRefill) < 2 ^ 64

instance : Decidable (s.TokensFit now) := inferInstanceAs (Decidable (_ < _))

/-- A refill comes after a whole number of seconds, and there is room for all of it. -/
def WholeRefill (s : RateLimiter) (now : Int) : Prop :=
  s.TokensFit now ∧ (0 < durationSeconds (now - s.lastRefill) →
    1000000000 ∣ now - s.lastRefill ∧
      (s.tokens : Int) + s.config.refillRate * durationSeconds (now - s.lastRefill) ≤ s.config.maxCapacity)

instance : Decidable (s.WholeRefill now) := inferInstanceAs (Decidable (_ ∧ (_ → _)))

theorem tokensAfter_eq (hfit : s.TokensFit now) (hdue : 0 < durationSeconds (now - s.lastRefill)) :
    (s.tokensAfter (durationSeconds (now - s.lastRefill)) : Int) =
      min (s.tokens + s.config.refillRate * durationSeconds (now - s.lastRefill)) s.config.maxCapacity := by
  have hworth : (0 : Int) ≤ s.config.refillRate * durationSeconds (now - s.lastRefill) :=
    Int.mul_nonneg (Int.natCast_nonneg _) hdue.le
  rw [TokensFit] at hfit
  have hadded := sizeT_eq hworth (by omega)
  rw [tokensAfter, Nat.cast_min, hadded, sizeT_eq (by omega) hfit]

theorem refill_of_not_due (h : ¬0 < durationSeconds (now - s.lastRefill)) : s.refill now = s := if_neg h

theorem takeToken_refused (h : s.takeToken.1 = false) : s.tokens = 0 ∧ s.takeToken.2 = s := by
  rw [takeToken] at h ⊢
  split_ifs at h ⊢ with htokens
  exact ⟨by omega, rfl⟩

/-- A refill that comes at all gives a token, so a request that is refused changes nothing. -/
theorem allowRequestTokenBucket_refused (hrate : 0 < s.config.refillRate) (hroom : 0 < s.config.maxCapacity)
    (hfit : s.TokensFit now) (h : (s.allowRequestTokenBucket now).1 = false) :
    (s.allowRequestTokenBucket now).2 = s := by
  obtain ⟨hnone, hsame⟩ := takeToken_refused h
  have hnotDue : ¬0 < durationSeconds (now - s.lastRefill) := by
    intro hdue
    have hworth : (0 : Int) < s.config.refillRate * durationSeconds (now - s.lastRefill) :=
      Int.mul_pos (by omega) hdue
    have htokens := tokensAfter_eq hfit hdue
    rw [refill, if_pos hdue] at hnone
    dsimp only at hnone
    omega
  rw [allowRequestTokenBucket, hsame, refill_of_not_due hnotDue]

theorem tokens_allowRequest_le (h : s.tokens ≤ s.config.maxCapacity) (now : Int) :
    (s.allowRequestTokenBucket now).2.tokens ≤ s.config.maxCapacity := by
  have hrefill := refill_tokens_le h now
  rw [allowRequestTokenBucket, takeToken]
  split
  · exact (Nat.sub_le _ 1).trans hrefill
  · exact hrefill

theorem allowRequest_of_no_room (h : s.tokens ≤ s.config.maxCapacity) (hnone : s.config.maxCapacity = 0) (now : Int) :
    (s.allowRequestTokenBucket now).1 = false := by
  have hrefill := refill_tokens_le h now
  rw [allowRequestTokenBucket, takeToken, if_neg]
  omega

/-- **Being refused costs the others nothing.** -/
theorem tokenBucket_refusals (hstrategy : config.strategy = .tokenBucket) (hrate : 0 < config.refillRate) (start : Int)
    {requests : List (Int × Bool)}
    (hfit : Runs.Guarded (after allowRequest) TokensFit (new config start) (requests.map Prod.fst))
    (hrefused : ExtrasRefused allowRequest (new config start) requests) :
    answersAmong allowRequest (new config start) (withoutExtras requests) =
      answersAmong allowRequest (new config start) requests := by
  refine answersAmong_withoutExtras allowRequest (fun s => s.config = config ∧ s.tokens ≤ config.maxCapacity)
    (config.maxCapacity = 0) ?_ ?_ ?_ ⟨rfl, ?_⟩ hfit hrefused
  · rintro s now ⟨rfl, hfits⟩
    rw [after]
    refine ⟨config_allowRequest s now, ?_⟩
    rw [allowRequest_tokenBucket hstrategy]
    exact tokens_allowRequest_le hfits now
  · rintro hnone s now ⟨rfl, hfits⟩
    rw [allowRequest_tokenBucket hstrategy]
    exact allowRequest_of_no_room hfits hnone now
  · rintro hroom s now ⟨rfl, hfits⟩ hok hanswer
    rw [allowRequest_tokenBucket hstrategy] at hanswer
    rw [after, allowRequest_tokenBucket hstrategy]
    exact allowRequestTokenBucket_refused hrate (Nat.pos_of_ne_zero hroom) hok hanswer
  · rw [new, if_pos hstrategy]

/-- A whole refill gives just what the time was worth. -/
theorem potential_refill (hwhole : s.WholeRefill now) (deadline : Int) :
    potential s.config.refillRate deadline (s.refill now) = potential s.config.refillRate deadline s := by
  obtain ⟨hfit, hroom⟩ := hwhole
  by_cases hdue : 0 < durationSeconds (now - s.lastRefill)
  · obtain ⟨⟨seconds, hseconds⟩, hfull⟩ := hroom hdue
    have htokens := tokensAfter_eq hfit hdue
    rw [min_eq_left hfull] at htokens
    have hduration : durationSeconds (now - s.lastRefill) = seconds := by
      rw [durationSeconds, hseconds]
      exact Int.mul_tdiv_cancel_left seconds (by decide)
    rw [refill, if_pos hdue, potential, potential]
    dsimp only
    rw [htokens, hduration]
    linear_combination (s.config.refillRate : Int) * -hseconds
  · rw [refill_of_not_due hdue]

/-- The bucket was filled less than a second ago. -/
def Refilled (config : RateLimitConfig) (s : RateLimiter) (now : Int) : Prop :=
  BucketFits config s now ∧ now < s.lastRefill + 1000000000

theorem lastRefill_allowRequest (s : RateLimiter) (now : Int) :
    (s.allowRequestTokenBucket now).2.lastRefill = (s.refill now).lastRefill := by
  rw [allowRequestTokenBucket, takeToken]
  split <;> rfl

/-- **Nothing is lost by whole refills.** -/
theorem tokenBucket_admitted_ge (hstrategy : config.strategy = .tokenBucket) {start : Int} {times : List Int}
    (sorted : (start :: times).Pairwise (· ≤ ·))
    (hwhole : Runs.Guarded (after allowRequest) WholeRefill (new config start) times) :
    (config.refillRate : Int) * (times.getLastD start - start) - config.refillRate * 1000000000 ≤
      1000000000 * (admitted allowRequest (new config start) times).length := by
  have hrate : (0 : Int) ≤ config.refillRate := Int.natCast_nonneg _
  have hstart : Refilled config (new config start) start := by
    refine ⟨⟨rfl, ?_, le_refl start⟩, Int.lt_add_of_pos_right start (by decide)⟩
    rw [new, if_pos hstrategy]
  have hkeeps (s : RateLimiter) (now next : Int) (h : Refilled config s now) (hle : now ≤ next)
      (_ : s.WholeRefill next) : Refilled config (after allowRequest s next) next := by
    obtain ⟨hbucket, -⟩ := h
    have hallow := allowRequest_tokenBucket (hbucket.1 ▸ hstrategy) next
    rw [after, hallow]
    refine ⟨bucketFits_allowRequest hbucket hle, ?_⟩
    rw [lastRefill_allowRequest]
    exact (refill_lastRefill (hbucket.2.2.trans hle)).2
  have hpays (s : RateLimiter) (now next : Int) (h : Refilled config s now) (_ : now ≤ next)
      (hok : s.WholeRefill next) : potential config.refillRate 0 s ≤
        1000000000 * fare allowRequest s next + potential config.refillRate 0 (after allowRequest s next) := by
    have hconfig : s.config = config := h.1.1
    have hrefill := potential_refill hok 0
    rw [hconfig] at hrefill
    rw [← hrefill, after, fare, allowRequest_tokenBucket (hconfig ▸ hstrategy) next]
    exact (potential_take s next config.refillRate 0).ge
  obtain ⟨⟨-, hfits, -⟩, hlast⟩ :=
    invariant_of_sorted allowRequest (Refilled config) hkeeps hstart sorted hwhole
  have hsum :=
    potential_le_weight_mul_admitted_add allowRequest (potential config.refillRate 0) (Refilled config) hkeeps hpays
      hstart sorted hwhole
  have htokens : (new config start).tokens = config.maxCapacity := by
    rw [new, if_pos hstrategy]
  have hrefill : (new config start).lastRefill = start := rfl
  have hworth := Int.mul_le_mul_of_nonneg_left hlast.le hrate
  rw [potential, potential, htokens, hrefill] at hsum
  linarith

/-! ### The leaky bucket -/

/-- What the time is worth fits. -/
def LeakFits (s : RateLimiter) (now : Int) : Prop :=
  (s.config.leakRate : Int) * durationMilliseconds (now - s.lastLeak) < 2 ^ 64

/-- A leak comes after a whole number of milliseconds and is of a whole number of requests, and there are so
many in the bucket. -/
def WholeLeak (s : RateLimiter) (now : Int) : Prop :=
  s.LeakFits now ∧ (1000 ≤ s.config.leakRate * durationMilliseconds (now - s.lastLeak) →
    1000000 ∣ now - s.lastLeak ∧ 1000 ∣ (s.config.leakRate : Int) * durationMilliseconds (now - s.lastLeak) ∧
      s.config.leakRate * durationMilliseconds (now - s.lastLeak) ≤ 1000 * s.bucketLevel)

/-- What has leaked. -/
def leaked (s : RateLimiter) (now : Int) : Nat :=
  sizeT (s.config.leakRate * durationMilliseconds (now - s.lastLeak)) / 1000

def leak (s : RateLimiter) (now : Int) : RateLimiter :=
  if 0 < s.leaked now then { s with bucketLevel := s.bucketLevel - s.leaked now, lastLeak := now } else s

def addToBucket (s : RateLimiter) : Bool × RateLimiter :=
  if s.bucketLevel < s.config.bucketCapacity then (true, { s with bucketLevel := s.bucketLevel + 1 }) else (false, s)

theorem allowRequestLeakyBucket_eq (s : RateLimiter) (now : Int) :
    s.allowRequestLeakyBucket now = (s.leak now).addToBucket := rfl

@[simp] theorem leak_config (s : RateLimiter) (now : Int) : (s.leak now).config = s.config := by
  rw [leak]
  split <;> rfl

theorem leak_level_le (s : RateLimiter) (now : Int) : (s.leak now).bucketLevel ≤ s.bucketLevel := by
  rw [leak]
  split
  · exact Nat.sub_le _ _
  · exact Nat.le_refl _

theorem addToBucket_refused (h : s.addToBucket.1 = false) :
    s.config.bucketCapacity ≤ s.bucketLevel ∧ s.addToBucket.2 = s := by
  rw [addToBucket] at h ⊢
  split_ifs at h ⊢ with hroom
  exact ⟨Nat.le_of_not_lt hroom, rfl⟩

/-- A leak that comes at all makes room, so a request that is refused changes nothing. -/
theorem allowRequestLeakyBucket_refused (hlevel : s.bucketLevel ≤ s.config.bucketCapacity)
    (hroom : 0 < s.config.bucketCapacity) (h : (s.allowRequestLeakyBucket now).1 = false) :
    (s.allowRequestLeakyBucket now).2 = s := by
  rw [allowRequestLeakyBucket_eq] at h ⊢
  obtain ⟨hfull, hsame⟩ := addToBucket_refused h
  rw [hsame]
  rw [leak] at hfull ⊢
  split_ifs at hfull ⊢ with hleaked
  · dsimp only at hfull
    omega
  · rfl

theorem level_allowRequest_le (h : s.bucketLevel ≤ s.config.bucketCapacity) (now : Int) :
    (s.allowRequestLeakyBucket now).2.bucketLevel ≤ s.config.bucketCapacity := by
  have hleak := (leak_level_le s now).trans h
  rw [allowRequestLeakyBucket_eq, addToBucket]
  split
  case isTrue hroom =>
    rw [leak_config] at hroom
    exact hroom
  case isFalse => exact hleak

theorem allowRequest_of_no_bucket (hnone : s.config.bucketCapacity = 0) (now : Int) :
    (s.allowRequestLeakyBucket now).1 = false := by
  rw [allowRequestLeakyBucket_eq, addToBucket, leak_config, hnone, if_neg (Nat.not_lt_zero _)]

theorem leakyBucket_refusals (hstrategy : config.strategy = .leakyBucket) (start : Int) {requests : List (Int × Bool)}
    (hrefused : ExtrasRefused allowRequest (new config start) requests) :
    answersAmong allowRequest (new config start) (withoutExtras requests) =
      answersAmong allowRequest (new config start) requests := by
  have hany : Runs.Guarded (after allowRequest) (fun _ _ => True) (new config start) (requests.map Prod.fst) :=
    Runs.guarded_of_forall _ (fun _ _ => trivial) _
  refine answersAmong_withoutExtras allowRequest
    (fun s => s.config = config ∧ s.bucketLevel ≤ config.bucketCapacity) (config.bucketCapacity = 0) ?_ ?_ ?_
    ⟨rfl, Nat.zero_le _⟩ hany hrefused
  · rintro s now ⟨rfl, hlevel⟩
    rw [after]
    refine ⟨config_allowRequest s now, ?_⟩
    rw [allowRequest_leakyBucket hstrategy]
    exact level_allowRequest_le hlevel now
  · rintro hnone s now ⟨rfl, -⟩
    rw [allowRequest_leakyBucket hstrategy]
    exact allowRequest_of_no_bucket hnone now
  · rintro hroom s now ⟨rfl, hlevel⟩ - hanswer
    rw [allowRequest_leakyBucket hstrategy] at hanswer
    rw [after, allowRequest_leakyBucket hstrategy]
    exact allowRequestLeakyBucket_refused hlevel (Nat.pos_of_ne_zero hroom) hanswer

/-- What is in the bucket and what leaks until some time, as debts. -/
def credit (rate : Nat) (s : RateLimiter) : ℤ := -(s.bucketLevel * 1000000000) - rate * s.lastLeak

theorem credit_addToBucket (s : RateLimiter) (rate : Nat) :
    1000000000 * (if s.addToBucket.1 then 1 else 0) + credit rate s.addToBucket.2 = credit rate s := by
  rw [addToBucket]
  split
  · rw [if_pos rfl, credit, credit]
    push_cast
    ring
  · simp

theorem worth_nonneg (hpast : s.lastLeak ≤ now) :
    0 ≤ (s.config.leakRate : Int) * durationMilliseconds (now - s.lastLeak) := by
  refine Int.mul_nonneg (Int.natCast_nonneg _) ?_
  exact Int.tdiv_nonneg (Int.sub_nonneg_of_le hpast) (by decide)

theorem leaked_eq (hfit : s.LeakFits now) (hpast : s.lastLeak ≤ now) :
    (s.leaked now : Int) = s.config.leakRate * durationMilliseconds (now - s.lastLeak) / 1000 := by
  rw [leaked, Int.natCast_ediv, sizeT_eq (worth_nonneg hpast) hfit, Nat.cast_ofNat]

/-- A whole leak takes just what the time was worth. -/
theorem credit_leak (hwhole : s.WholeLeak now) (hpast : s.lastLeak ≤ now) :
    credit s.config.leakRate (s.leak now) = credit s.config.leakRate s := by
  obtain ⟨hfit, hroom⟩ := hwhole
  have hleaked := leaked_eq hfit hpast
  rw [leak]
  split
  case isFalse => rfl
  case isTrue hsome =>
    obtain ⟨⟨milliseconds, htime⟩, ⟨whole, hwhole⟩, hlevel⟩ := hroom (by omega)
    have hduration : durationMilliseconds (now - s.lastLeak) = milliseconds := by
      rw [durationMilliseconds, htime]
      exact Int.mul_tdiv_cancel_left milliseconds (by decide)
    rw [hwhole] at hleaked hlevel
    rw [hduration] at hwhole
    have hcount : (s.leaked now : Int) = whole := by omega
    have hfits : s.leaked now ≤ s.bucketLevel := by omega
    rw [credit, credit]
    dsimp only
    rw [Nat.cast_sub hfits, hcount]
    linear_combination -1000000 * hwhole - (s.config.leakRate : Int) * htime

/-- The time since the last leak is worth less than a request and a millisecond. -/
def Leaked (config : RateLimitConfig) (s : RateLimiter) (now : Int) : Prop :=
  s.config = config ∧ s.lastLeak ≤ now ∧
    (config.leakRate : Int) * (now - s.lastLeak) < 1000000000 + config.leakRate * 1000000

theorem lastLeak_allowRequest (s : RateLimiter) (now : Int) :
    (s.allowRequestLeakyBucket now).2.lastLeak = (s.leak now).lastLeak := by
  rw [allowRequestLeakyBucket_eq, addToBucket]
  split <;> rfl

theorem config_allowRequestLeakyBucket (s : RateLimiter) (now : Int) :
    (s.allowRequestLeakyBucket now).2.config = s.config := by
  rw [allowRequestLeakyBucket_eq, addToBucket]
  split <;> exact leak_config s now

theorem leaked_allowRequest {next : Int} (h : Leaked config s now) (hle : now ≤ next) (hfit : s.LeakFits next) :
    Leaked config (s.allowRequestLeakyBucket next).2 next := by
  obtain ⟨rfl, hpast, -⟩ := h
  have hpast' := hpast.trans hle
  have hleaked := leaked_eq hfit hpast'
  have hrate : (0 : Int) ≤ s.config.leakRate := Int.natCast_nonneg _
  refine ⟨config_allowRequestLeakyBucket s next, ?_⟩
  rw [lastLeak_allowRequest, leak]
  split
  case isTrue =>
    dsimp only
    refine ⟨le_refl next, ?_⟩
    rw [sub_self, mul_zero]
    omega
  case isFalse hnone =>
    refine ⟨hpast', ?_⟩
    have hworth : (s.config.leakRate : Int) * durationMilliseconds (next - s.lastLeak) < 1000 := by omega
    have hrounded : next - s.lastLeak ≤ 1000000 * durationMilliseconds (next - s.lastLeak) + 1000000 := by
      rw [durationMilliseconds, Int.tdiv_eq_ediv_of_nonneg (by omega)]
      omega
    have hscaled := Int.mul_le_mul_of_nonneg_left hrounded hrate
    linarith

/-- **Nothing is lost by whole leaks.** -/
theorem leakyBucket_admitted_ge (hstrategy : config.strategy = .leakyBucket) {start : Int} {times : List Int}
    (sorted : (start :: times).Pairwise (· ≤ ·))
    (hwhole : Runs.Guarded (after allowRequest) WholeLeak (new config start) times) :
    (config.leakRate : Int) * (times.getLastD start - start) - (1000000000 + config.leakRate * 1000000) ≤
      1000000000 * (admitted allowRequest (new config start) times).length := by
  have hlast : (new config start).lastLeak = start := if_pos hstrategy
  have hlevel : (new config start).bucketLevel = 0 := rfl
  have hstart : Leaked config (new config start) start := by
    refine ⟨rfl, hlast.le, ?_⟩
    rw [hlast, sub_self, mul_zero]
    omega
  have hkeeps (s : RateLimiter) (now next : Int) (h : Leaked config s now) (hle : now ≤ next)
      (hok : s.WholeLeak next) : Leaked config (after allowRequest s next) next := by
    rw [after, allowRequest_leakyBucket (h.1 ▸ hstrategy) next]
    exact leaked_allowRequest h hle hok.1
  have hpays (s : RateLimiter) (now next : Int) (h : Leaked config s now) (hle : now ≤ next)
      (hok : s.WholeLeak next) : credit config.leakRate s ≤
        1000000000 * fare allowRequest s next + credit config.leakRate (after allowRequest s next) := by
    have hconfig : s.config = config := h.1
    have hleak := credit_leak hok (h.2.1.trans hle)
    rw [hconfig] at hleak
    rw [← hleak, after, fare, allowRequest_leakyBucket (hconfig ▸ hstrategy) next, allowRequestLeakyBucket_eq]
    exact (credit_addToBucket (s.leak next) config.leakRate).ge
  obtain ⟨-, -, hworth⟩ := invariant_of_sorted allowRequest (Leaked config) hkeeps hstart sorted hwhole
  have hsum :=
    potential_le_weight_mul_admitted_add allowRequest (credit config.leakRate) (Leaked config) hkeeps hpays hstart
      sorted hwhole
  rw [credit, credit, hlast, hlevel, Nat.cast_zero] at hsum
  have hfilled := Int.natCast_nonneg (Runs.run (after allowRequest) (new config start) times).bucketLevel
  linarith

/-! ### A bucket of one -/

/-- The milliseconds until a leak takes one request, at least. -/
def leakGap (config : RateLimitConfig) : Int := (999 + config.leakRate) / config.leakRate

/-- The bucket belongs to the configuration, holds no more than one and leaked in the past. -/
def HoldsOne (config : RateLimitConfig) (s : RateLimiter) (now : Int) : Prop :=
  s.config = config ∧ s.bucketLevel ≤ 1 ∧ s.lastLeak ≤ now

/-- What is in the bucket, as time that passed. -/
def timeSpent (gap : Int) (s : RateLimiter) : ℤ := gap * 1000000 * s.bucketLevel + s.lastLeak

theorem leakGap_le (hrate : 0 < s.config.leakRate) (hpast : s.lastLeak ≤ now) (hsome : 0 < s.leaked now) :
    leakGap s.config * 1000000 ≤ now - s.lastLeak := by
  have hworth := sizeT_le (worth_nonneg hpast)
  have hdue : 1000 ≤ (s.config.leakRate : Int) * durationMilliseconds (now - s.lastLeak) := by
    rw [leaked] at hsome
    omega
  have hgap : leakGap s.config < durationMilliseconds (now - s.lastLeak) + 1 := by
    refine Int.ediv_lt_of_lt_mul (by omega) ?_
    rw [add_mul, one_mul, mul_comm]
    omega
  rw [durationMilliseconds, Int.tdiv_eq_ediv_of_nonneg (by omega)] at hgap
  omega

theorem timeSpent_leak (hrate : 0 < s.config.leakRate) (hone : s.bucketLevel ≤ 1) (hpast : s.lastLeak ≤ now) :
    timeSpent (leakGap s.config) s ≤ timeSpent (leakGap s.config) (s.leak now) := by
  rw [leak]
  split
  case isFalse => exact le_refl _
  case isTrue hsome =>
    have hgap := leakGap_le hrate hpast hsome
    have hnonneg : 0 ≤ leakGap s.config := Int.ediv_nonneg (by omega) (by omega)
    have hempty : s.bucketLevel - s.leaked now = 0 := by omega
    have hfull := Int.mul_le_mul_of_nonneg_left (show (s.bucketLevel : Int) ≤ 1 by omega)
      (show 0 ≤ leakGap s.config * 1000000 by omega)
    rw [timeSpent, timeSpent]
    dsimp only
    rw [hempty, Nat.cast_zero, mul_zero]
    omega

theorem timeSpent_addToBucket (s : RateLimiter) (gap : Int) :
    timeSpent gap s = -(gap * 1000000) * (if s.addToBucket.1 then 1 else 0) + timeSpent gap s.addToBucket.2 := by
  rw [addToBucket]
  split
  · rw [if_pos rfl, timeSpent, timeSpent]
    push_cast
    ring
  · simp

theorem holdsOne_allowRequest {next : Int} (h : HoldsOne config s now) (hcapacity : config.bucketCapacity = 1)
    (hle : now ≤ next) : HoldsOne config (s.allowRequestLeakyBucket next).2 next := by
  obtain ⟨rfl, hone, hpast⟩ := h
  have hlevel := level_allowRequest_le (hone.trans hcapacity.ge) next
  refine ⟨config_allowRequestLeakyBucket s next, hlevel.trans hcapacity.le, ?_⟩
  rw [lastLeak_allowRequest, leak]
  split
  · exact le_refl next
  · exact hpast.trans hle

/-- Polled however often, a bucket of one admits one request every whole number of milliseconds at most. -/
theorem admitted_le_of_bucket_of_one (hstrategy : config.strategy = .leakyBucket) (hrate : 0 < config.leakRate)
    (hcapacity : config.bucketCapacity = 1) {start : Int} {times : List Int}
    (sorted : (start :: times).Pairwise (· ≤ ·)) :
    leakGap config * 1000000 * (admitted allowRequest (new config start) times).length ≤
      times.getLastD start - start + leakGap config * 1000000 := by
  have hlast : (new config start).lastLeak = start := if_pos hstrategy
  have hlevel : (new config start).bucketLevel = 0 := rfl
  have hstart : HoldsOne config (new config start) start := ⟨rfl, Nat.zero_le 1, hlast.le⟩
  have hany : Runs.Guarded (after allowRequest) (fun _ _ => True) (new config start) times :=
    Runs.guarded_of_forall _ (fun _ _ => trivial) _
  have hkeeps (s : RateLimiter) (now next : Int) (h : HoldsOne config s now) (hle : now ≤ next) (_ : True) :
      HoldsOne config (after allowRequest s next) next := by
    rw [after, allowRequest_leakyBucket (h.1 ▸ hstrategy) next]
    exact holdsOne_allowRequest h hcapacity hle
  have hpays (s : RateLimiter) (now next : Int) (h : HoldsOne config s now) (hle : now ≤ next) (_ : True) :
      timeSpent (leakGap config) s ≤ -(leakGap config * 1000000) * fare allowRequest s next +
        timeSpent (leakGap config) (after allowRequest s next) := by
    obtain ⟨rfl, hone, hpast⟩ := h
    rw [after, fare, allowRequest_leakyBucket hstrategy next, allowRequestLeakyBucket_eq, ← timeSpent_addToBucket]
    exact timeSpent_leak hrate hone (hpast.trans hle)
  obtain ⟨-, hone, hpast⟩ := invariant_of_sorted allowRequest (HoldsOne config) hkeeps hstart sorted hany
  have hsum :=
    potential_le_weight_mul_admitted_add allowRequest (timeSpent (leakGap config)) (HoldsOne config) hkeeps hpays
      hstart sorted hany
  have hnonneg : 0 ≤ leakGap config := Int.ediv_nonneg (by omega) (by omega)
  have hfull := Int.mul_le_mul_of_nonneg_left
    (show ((Runs.run (after allowRequest) (new config start) times).bucketLevel : Int) ≤ 1 by omega)
    (show 0 ≤ leakGap config * 1000000 by omega)
  rw [timeSpent, timeSpent, hlast, hlevel, Nat.cast_zero] at hsum
  linarith

/-! ### What polling costs -/

/-- Requests that are refused can be left out of a run whose requests are as they should be. -/
def RefusalsCostNothing (config : RateLimitConfig) (start : Int) (ok : RateLimiter → Int → Prop) : Prop :=
  ∀ requests : List (Int × Bool),
    Runs.Guarded (after allowRequest) ok (new config start) (requests.map Prod.fst) →
      ExtrasRefused allowRequest (new config start) requests →
        answersAmong allowRequest (new config start) (withoutExtras requests) =
          answersAmong allowRequest (new config start) requests

/-- Over a run as it should be, as much is admitted as the rate and the time are worth, but for a constant. -/
def EarnsRate (config : RateLimitConfig) (start : Int) (rate : Nat) (runs : List Int → Prop) : Prop :=
  ∃ lost : Int, ∀ times : List Int, (start :: times).Pairwise (· ≤ ·) → runs times →
    rate * (times.getLastD start - start) - lost ≤
      1000000000 * (admitted allowRequest (new config start) times).length

/-- **Nothing is lost by refusals, and by whole refills and whole leaks.** -/
theorem polled_for_nothing (config : RateLimitConfig) (start : Int) :
    (config.strategy = .tokenBucket → 0 < config.refillRate →
      RefusalsCostNothing config start TokensFit ∧
        EarnsRate config start config.refillRate
          (Runs.Guarded (after allowRequest) WholeRefill (new config start))) ∧
    (config.strategy = .leakyBucket → 0 < config.leakRate →
      RefusalsCostNothing config start (fun _ _ => True) ∧
        EarnsRate config start config.leakRate
          (Runs.Guarded (after allowRequest) WholeLeak (new config start))) := by
  constructor
  · intro hstrategy hrate
    refine ⟨fun requests hfit hrefused => tokenBucket_refusals hstrategy hrate start hfit hrefused, ?_⟩
    exact ⟨_, fun times sorted hwhole => tokenBucket_admitted_ge hstrategy sorted hwhole⟩
  · intro hstrategy _
    refine ⟨fun requests _ hrefused => leakyBucket_refusals hstrategy start hrefused, ?_⟩
    exact ⟨_, fun times sorted hwhole => leakyBucket_admitted_ge hstrategy sorted hwhole⟩

/-- A bucket of one that is refilled once a second. -/
def oneASecond : RateLimitConfig :=
  { RateLimitConfig.default with
    bucketCapacity := 1
    refillRate := 1
    allowBurst := false }

theorem polled_for_nothing_oneASecond :
    EarnsRate oneASecond 0 1 (Runs.Guarded (after allowRequest) WholeRefill (new oneASecond 0)) ∧
      Runs.Guarded (after allowRequest) WholeRefill (new oneASecond 0) [0, 400000000, 1000000000, 1000000000] ∧
      RefusalsCostNothing { RateLimitConfig.default with strategy := .leakyBucket } 0 (fun _ _ => True) :=
  ⟨((polled_for_nothing oneASecond 0).1 rfl (by decide)).2, by decide,
    ((polled_for_nothing { RateLimitConfig.default with strategy := .leakyBucket } 0).2 rfl (by decide)).1⟩

/-- A bucket of one that leaks three a second. -/
def threeASecond : RateLimitConfig :=
  { RateLimitConfig.default with
    strategy := .leakyBucket
    bucketCapacity := 1
    leakRate := 3
    allowBurst := false }

/-- At every tick of the clock there are more requests than the limiter could admit. -/
def DemandPresent (config : RateLimitConfig) (start : Int) (times : List Int) : Prop :=
  ∀ tick, start ≤ tick → tick ≤ times.getLastD start →
    max config.maxCapacity config.bucketCapacity < times.count tick

/-- Two requests at every tick. -/
def everyTick : Nat → List Int
  | 0 => [0, 0]
  | n + 1 => everyTick n ++ [(n : Int) + 1, (n : Int) + 1]

@[simp] theorem getLastD_everyTick (n : Nat) (start : Int) : (everyTick n).getLastD start = n := by
  cases n with
  | zero => rfl
  | succ n => simp [everyTick]

theorem mem_everyTick_iff {n : Nat} {time : Int} : time ∈ everyTick n ↔ 0 ≤ time ∧ time ≤ n := by
  induction n with
  | zero =>
      simp only [everyTick, List.mem_cons, List.not_mem_nil, or_false]
      omega
  | succ n ih =>
      simp only [everyTick, List.mem_append, ih, List.mem_cons, List.not_mem_nil, or_false]
      omega

theorem pairwise_everyTick (n : Nat) : (0 :: everyTick n).Pairwise (· ≤ ·) := by
  refine List.pairwise_cons.mpr ⟨fun time htime => (mem_everyTick_iff.mp htime).1, ?_⟩
  induction n with
  | zero => decide
  | succ n ih =>
      refine List.pairwise_append.mpr ⟨ih, by simp, fun time htime next hnext => ?_⟩
      have hbefore := (mem_everyTick_iff.mp htime).2
      have hnext' : next = n + 1 := by simpa using hnext
      omega

theorem two_le_count_everyTick {n : Nat} {tick : Int} (hnonneg : 0 ≤ tick) (hle : tick ≤ n) :
    2 ≤ (everyTick n).count tick := by
  induction n with
  | zero =>
      have : tick = 0 := by omega
      subst this
      decide
  | succ n ih =>
      rw [everyTick, List.count_append]
      by_cases hlast : tick = n + 1
      · subst hlast
        simp
      · have := ih (by omega)
        omega

/-- A third of a second is no whole number of milliseconds. -/
theorem not_earnsRate_threeASecond : ¬EarnsRate threeASecond 0 3 (DemandPresent threeASecond 0) := by
  rintro ⟨lost, hearns⟩
  obtain ⟨n, hn⟩ : ∃ n : Nat, 167 * lost + 167000000000 < n := by
    refine ⟨(167 * lost + 167000000001).toNat, ?_⟩
    omega
  have hsorted := pairwise_everyTick n
  have hdemand : DemandPresent threeASecond 0 (everyTick n) := by
    intro tick hnonneg hle
    rw [getLastD_everyTick] at hle
    exact two_le_count_everyTick hnonneg hle
  have hat_least := hearns (everyTick n) hsorted hdemand
  have hat_most := admitted_le_of_bucket_of_one rfl (show 0 < threeASecond.leakRate by decide) rfl hsorted
  have hgap : leakGap threeASecond = 334 := rfl
  rw [getLastD_everyTick] at hat_least hat_most
  rw [hgap] at hat_most
  omega

end RateLimiter

end GopherMcp
