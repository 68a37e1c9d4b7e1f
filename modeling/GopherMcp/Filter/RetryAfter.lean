import GopherMcp.Filter.RateLimitFactory
import GopherMcp.Filter.RateLimiterCredit

/-!
# When a refused request is told to come back

The delay is computed in milliseconds, by a rule of its own. What admits the next request counts whole seconds for
a token bucket and for a window, and whole requests for a leaky bucket, so that the delay is only long enough where
both roundings agree.
-/

namespace GopherMcp

open Admission RateLimitFactory

namespace RateLimiter

variable {config : RateLimitConfig} {s : RateLimiter} {start now : Int}

/-- The delay in milliseconds, unless it would be divided by zero. -/
def calculateRetryAfter (s : RateLimiter) (now : Int) : Option Int :=
  match s.config.strategy with
  | .tokenBucket => if s.config.refillRate = 0 then none else some ((1000 / s.config.refillRate : Nat) : Int)
  | .slidingWindow =>
      match s.requestTimes with
      | [] => some 1000
      | oldest :: _ => some (s.config.windowSize * 1000 - durationMilliseconds (now - oldest))
  | .fixedWindow => some (s.config.windowSize * 1000 - durationMilliseconds (now - s.windowStart))
  | .leakyBucket => if s.config.leakRate = 0 then none else some ((1000 / s.config.leakRate : Nat) : Int)

/-- A request that is refused is told a delay, and the next request is admitted if it comes just then. -/
def HonestRetry (s : RateLimiter) (now : Int) : Prop :=
  ∃ delay, (after allowRequest s now).calculateRetryAfter now = some delay ∧ 0 ≤ delay ∧
    ((after allowRequest s now).allowRequest (now + delay * 1000000)).1 = true

/-- What the delay is long enough for. -/
def RetryDue (s : RateLimiter) (now : Int) : Prop :=
  match s.config.strategy with
  | .tokenBucket =>
      s.config.refillRate ≠ 0 ∧ s.config.maxCapacity ≠ 0 ∧
        1000000000 ≤ now - s.lastRefill + (1000 / s.config.refillRate : Nat) * 1000000
  | .slidingWindow => False
  | .fixedWindow => s.config.maxRequestsPerWindow ≠ 0
  | .leakyBucket =>
      s.config.leakRate ≠ 0 ∧ s.config.bucketCapacity ≠ 0 ∧
        (1000 % s.config.leakRate : Nat) ≤ s.config.leakRate * durationMilliseconds (now - s.lastLeak)

@[simp] theorem config_after (s : RateLimiter) (now : Int) : (after allowRequest s now).config = s.config :=
  config_allowRequest s now

theorem honestRetry_iff_of_delay {delay : Int}
    (h : (after allowRequest s now).calculateRetryAfter now = some delay) :
    s.HonestRetry now ↔
      0 ≤ delay ∧ ((after allowRequest s now).allowRequest (now + delay * 1000000)).1 = true := by
  rw [HonestRetry, h]
  constructor
  · rintro ⟨_, hdelay, hrest⟩
    obtain rfl := Option.some.inj hdelay
    exact hrest
  · intro hrest
    exact ⟨delay, rfl, hrest⟩

theorem not_honestRetry_of_none (h : (after allowRequest s now).calculateRetryAfter now = none) :
    ¬s.HonestRetry now := by
  rintro ⟨delay, hdelay, -⟩
  simp [h] at hdelay

theorem not_honestRetry_of_never (h : ∀ later, ((after allowRequest s now).allowRequest later).1 = false) :
    ¬s.HonestRetry now := by
  rintro ⟨delay, -, -, hadmitted⟩
  rw [h] at hadmitted
  exact Bool.false_ne_true hadmitted

/-! ### The token bucket -/

theorem calculateRetryAfter_tokenBucket (h : s.config.strategy = .tokenBucket) (now : Int) :
    s.calculateRetryAfter now =
      if s.config.refillRate = 0 then none else some ((1000 / s.config.refillRate : Nat) : Int) := by
  rw [calculateRetryAfter, h]

theorem takeToken_fst (s : RateLimiter) : s.takeToken.1 = true ↔ 0 < s.tokens := by
  rw [takeToken]
  split
  case isTrue h => exact iff_of_true rfl h
  case isFalse h => exact iff_of_false Bool.false_ne_true h

/-- An empty bucket admits a request once it is refilled. -/
theorem allowRequestTokenBucket_of_empty (hempty : s.tokens = 0) (hrate : 0 < s.config.refillRate)
    (hroom : 0 < s.config.maxCapacity) (hfit : s.TokensFit now) :
    (s.allowRequestTokenBucket now).1 = true ↔ 0 < durationSeconds (now - s.lastRefill) := by
  rw [allowRequestTokenBucket, takeToken_fst]
  by_cases hdue : 0 < durationSeconds (now - s.lastRefill)
  · have hworth : (0 : Int) < s.config.refillRate * durationSeconds (now - s.lastRefill) :=
      Int.mul_pos (by omega) hdue
    have htokens := tokensAfter_eq hfit hdue
    rw [refill, if_pos hdue]
    dsimp only
    omega
  · rw [refill_of_not_due hdue, hempty]
    omega

theorem honestRetry_tokenBucket_iff (hstrategy : s.config.strategy = .tokenBucket) (hbounds : InBounds s.config)
    (hfits : s.tokens ≤ s.config.maxCapacity) (hpast : s.lastRefill ≤ now) (hfit : s.TokensFit now)
    (hrefused : (s.allowRequest now).1 = false) : s.HonestRetry now ↔ s.RetryDue now := by
  have hstrategy' : (after allowRequest s now).config.strategy = .tokenBucket := by rw [config_after, hstrategy]
  have hdelay := calculateRetryAfter_tokenBucket hstrategy' now
  rw [config_after] at hdelay
  rw [RetryDue, hstrategy]
  dsimp only
  by_cases hrate : s.config.refillRate = 0
  · rw [if_pos hrate] at hdelay
    exact iff_of_false (not_honestRetry_of_none hdelay) fun h => h.1 hrate
  rw [if_neg hrate] at hdelay
  by_cases hroom : s.config.maxCapacity = 0
  · refine iff_of_false (not_honestRetry_of_never fun later => ?_) fun h => h.2.1 hroom
    rw [allowRequest_tokenBucket hstrategy']
    refine allowRequest_of_no_room ?_ (by rw [config_after, hroom]) later
    rw [config_after, after, allowRequest_tokenBucket hstrategy]
    exact tokens_allowRequest_le hfits now
  have hrate' := Nat.pos_of_ne_zero hrate
  have hroom' := Nat.pos_of_ne_zero hroom
  rw [allowRequest_tokenBucket hstrategy] at hrefused
  have hsame := allowRequestTokenBucket_refused hrate' hroom' hfit hrefused
  rw [honestRetry_iff_of_delay hdelay, allowRequest_tokenBucket hstrategy', after,
    allowRequest_tokenBucket hstrategy, hsame]
  obtain ⟨hempty, hrefill⟩ := takeToken_refused hrefused
  rw [← hrefill, ← allowRequestTokenBucket, hsame] at hempty
  have hnotDue : ¬0 < durationSeconds (now - s.lastRefill) := by
    intro hdue
    rw [(allowRequestTokenBucket_of_empty hempty hrate' hroom' hfit).mpr hdue] at hrefused
    exact Bool.noConfusion hrefused
  rw [durationSeconds_of_nonneg (by omega)] at hnotDue
  have hdelay_le : 1000 / s.config.refillRate ≤ 1000 := Nat.div_le_self _ _
  generalize 1000 / s.config.refillRate = delay at hdelay_le ⊢
  have hsoon : durationSeconds (now + delay * 1000000 - s.lastRefill) ≤ 1 := by
    rw [durationSeconds_of_nonneg (by omega)]
    omega
  have hfit' : s.TokensFit (now + delay * 1000000) := by
    have hworth := Int.mul_le_mul_of_nonneg_left hsoon (Int.natCast_nonneg s.config.refillRate)
    have hrate_le := hbounds.refillRate
    rw [TokensFit, hempty]
    omega
  rw [allowRequestTokenBucket_of_empty hempty hrate' hroom' hfit', durationSeconds_of_nonneg (by omega)]
  omega

/-! ### The windows -/

theorem lt_durationMilliseconds (d : Int) : d < durationMilliseconds d * 1000000 + 1000000 := by
  rw [durationMilliseconds]
  rcases le_total 0 d with hnonneg | hnonpos
  · rw [Int.tdiv_eq_ediv_of_nonneg hnonneg]
    omega
  · rw [← Int.neg_neg d, Int.neg_tdiv, Int.tdiv_eq_ediv_of_nonneg (by omega)]
    omega

theorem durationSeconds_le {d seconds : Int} (hseconds : 0 ≤ seconds) (h : d < (seconds + 1) * 1000000000) :
    durationSeconds d ≤ seconds := by
  rw [durationSeconds]
  rcases le_total 0 d with hnonneg | hnonpos
  · rw [Int.tdiv_eq_ediv_of_nonneg hnonneg]
    omega
  · rw [← Int.neg_neg d, Int.neg_tdiv, Int.tdiv_eq_ediv_of_nonneg (by omega)]
    omega

theorem allowRequest_slidingWindow (h : s.config.strategy = .slidingWindow) (now : Int) :
    s.allowRequest now = s.allowRequestSlidingWindow now := by
  rw [allowRequest, h]

theorem allowRequest_fixedWindow (h : s.config.strategy = .fixedWindow) (now : Int) :
    s.allowRequest now = s.allowRequestFixedWindow now := by
  rw [allowRequest, h]

theorem addRequest_refused (h : (s.addRequest now).1 = false) :
    s.config.maxRequestsPerWindow ≤ s.requestTimes.length ∧ (s.addRequest now).2 = s := by
  rw [addRequest] at h ⊢
  split_ifs at h ⊢ with hroom
  exact ⟨Nat.le_of_not_lt hroom, rfl⟩

/-- Where the oldest request is kept, all are. -/
theorem dropOld_of_kept {oldest : Int} {rest : List Int} (hrequests : s.requestTimes = oldest :: rest)
    (hkept : durationSeconds (now - oldest) ≤ s.config.windowSize) : s.dropOld now = s := by
  have hstay : s.requestTimes.dropWhile (fun time => s.config.windowSize < durationSeconds (now - time)) =
      s.requestTimes := by
    rw [hrequests, List.dropWhile_cons_of_neg]
    simpa using hkept
  rw [dropOld, hstay]

/-- The oldest request still counts when it is just as old as the window is long. -/
theorem not_honestRetry_slidingWindow (hstrategy : s.config.strategy = .slidingWindow)
    (hwindow : 0 ≤ s.config.windowSize) (hrefused : (s.allowRequest now).1 = false) : ¬s.HonestRetry now := by
  have hstrategy' : (after allowRequest s now).config.strategy = .slidingWindow := by rw [config_after, hstrategy]
  have hwindow' : 0 ≤ (after allowRequest s now).config.windowSize := by rwa [config_after]
  have hfull : (after allowRequest s now).config.maxRequestsPerWindow ≤
      (after allowRequest s now).requestTimes.length := by
    rw [allowRequest_slidingWindow hstrategy] at hrefused
    obtain ⟨hfull, hsame⟩ := addRequest_refused hrefused
    rw [after, allowRequest_slidingWindow hstrategy, allowRequestSlidingWindow, hsame]
    exact hfull
  rintro ⟨delay, hdelay, hnonneg, hadmitted⟩
  generalize after allowRequest s now = next at *
  rw [allowRequest_slidingWindow hstrategy', allowRequestSlidingWindow, addRequest] at hadmitted
  rw [calculateRetryAfter, hstrategy'] at hdelay
  cases hrequests : next.requestTimes with
  | nil =>
      rw [hrequests, List.length_nil, Nat.le_zero] at hfull
      have hnone : (next.dropOld (now + delay * 1000000)).config.maxRequestsPerWindow = 0 := hfull
      rw [hnone, if_neg (Nat.not_lt_zero _)] at hadmitted
      exact Bool.false_ne_true hadmitted
  | cons oldest rest =>
      rw [hrequests] at hdelay
      obtain rfl := Option.some.inj hdelay
      rw [dropOld_of_kept hrequests, if_neg (by omega)] at hadmitted
      · exact Bool.false_ne_true hadmitted
      · have hrounded := lt_durationMilliseconds (now - oldest)
        exact durationSeconds_le hwindow' (by omega)

theorem allowRequestFixedWindow_of_over (hroom : 0 < s.config.maxRequestsPerWindow)
    (hover : s.config.windowSize ≤ durationSeconds (now - s.windowStart)) :
    (s.allowRequestFixedWindow now).1 = true := by
  rw [allowRequestFixedWindow]
  rw [if_pos hover, if_pos hroom]

/-- Where the window lets any request in, one that is refused finds the window open. -/
theorem allowRequestFixedWindow_refused (hroom : 0 < s.config.maxRequestsPerWindow)
    (h : (s.allowRequestFixedWindow now).1 = false) :
    durationSeconds (now - s.windowStart) < s.config.windowSize ∧ (s.allowRequestFixedWindow now).2 = s := by
  by_cases hover : s.config.windowSize ≤ durationSeconds (now - s.windowStart)
  · rw [allowRequestFixedWindow_of_over hroom hover] at h
    exact Bool.noConfusion h
  · rw [allowRequestFixedWindow, if_neg hover] at h ⊢
    split_ifs at h ⊢
    exact ⟨not_le.mp hover, rfl⟩

theorem allowRequestFixedWindow_of_no_room (hnone : s.config.maxRequestsPerWindow = 0) (now : Int) :
    (s.allowRequestFixedWindow now).1 = false := by
  rw [allowRequestFixedWindow]
  split_ifs with hover hleft hleft
  · exact absurd hleft (by simp [hnone])
  · rfl
  · exact absurd hleft (by simp [hnone])
  · rfl

theorem honestRetry_fixedWindow_iff (hstrategy : s.config.strategy = .fixedWindow) (hpast : s.windowStart ≤ now)
    (hrefused : (s.allowRequest now).1 = false) : s.HonestRetry now ↔ s.RetryDue now := by
  have hstrategy' : (after allowRequest s now).config.strategy = .fixedWindow := by rw [config_after, hstrategy]
  rw [RetryDue, hstrategy]
  dsimp only
  by_cases hroom : s.config.maxRequestsPerWindow = 0
  · refine iff_of_false (not_honestRetry_of_never fun later => ?_) fun h => h hroom
    rw [allowRequest_fixedWindow hstrategy']
    exact allowRequestFixedWindow_of_no_room (by rw [config_after, hroom]) later
  have hroom' := Nat.pos_of_ne_zero hroom
  rw [allowRequest_fixedWindow hstrategy] at hrefused
  obtain ⟨hopen, hsame⟩ := allowRequestFixedWindow_refused hroom' hrefused
  have hdelay : (after allowRequest s now).calculateRetryAfter now =
      some (s.config.windowSize * 1000 - durationMilliseconds (now - s.windowStart)) := by
    rw [calculateRetryAfter, hstrategy', after, allowRequest_fixedWindow hstrategy, hsame]
  have hrounded := lt_durationMilliseconds (now - s.windowStart)
  rw [durationSeconds_of_nonneg (by omega)] at hopen
  rw [durationMilliseconds, Int.tdiv_eq_ediv_of_nonneg (by omega)] at hdelay hrounded
  rw [honestRetry_iff_of_delay hdelay, allowRequest_fixedWindow hstrategy', after,
    allowRequest_fixedWindow hstrategy, hsame]
  refine iff_of_true ⟨by omega, allowRequestFixedWindow_of_over hroom' ?_⟩ hroom
  rw [durationSeconds_of_nonneg (by omega)]
  omega

/-! ### The leaky bucket -/

theorem addToBucket_fst (s : RateLimiter) : s.addToBucket.1 = true ↔ s.bucketLevel < s.config.bucketCapacity := by
  rw [addToBucket]
  split
  case isTrue h => exact iff_of_true rfl h
  case isFalse h => exact iff_of_false Bool.false_ne_true h

/-- A full bucket admits a request once something has leaked. -/
theorem allowRequestLeakyBucket_of_full (hfull : s.bucketLevel = s.config.bucketCapacity)
    (hroom : 0 < s.config.bucketCapacity) : (s.allowRequestLeakyBucket now).1 = true ↔ 0 < s.leaked now := by
  rw [allowRequestLeakyBucket_eq, addToBucket_fst, leak_config, leak]
  split
  case isTrue hleaked =>
    dsimp only
    omega
  case isFalse hleaked =>
    omega

theorem leaked_pos_iff (hfit : s.LeakFits now) (hpast : s.lastLeak ≤ now) :
    0 < s.leaked now ↔ 1000 ≤ (s.config.leakRate : Int) * durationMilliseconds (now - s.lastLeak) := by
  have hleaked := leaked_eq hfit hpast
  omega

theorem honestRetry_leakyBucket_iff (hstrategy : s.config.strategy = .leakyBucket)
    (hlevel : s.bucketLevel ≤ s.config.bucketCapacity) (hpast : s.lastLeak ≤ now) (hfit : s.LeakFits now)
    (hrefused : (s.allowRequest now).1 = false) : s.HonestRetry now ↔ s.RetryDue now := by
  have hstrategy' : (after allowRequest s now).config.strategy = .leakyBucket := by rw [config_after, hstrategy]
  have hdelay : (after allowRequest s now).calculateRetryAfter now =
      if s.config.leakRate = 0 then none else some ((1000 / s.config.leakRate : Nat) : Int) := by
    rw [calculateRetryAfter, hstrategy', config_after]
  rw [RetryDue, hstrategy]
  dsimp only
  by_cases hrate : s.config.leakRate = 0
  · rw [if_pos hrate] at hdelay
    exact iff_of_false (not_honestRetry_of_none hdelay) fun h => h.1 hrate
  rw [if_neg hrate] at hdelay
  by_cases hroom : s.config.bucketCapacity = 0
  · refine iff_of_false (not_honestRetry_of_never fun later => ?_) fun h => h.2.1 hroom
    rw [allowRequest_leakyBucket hstrategy']
    exact allowRequest_of_no_bucket (by rw [config_after, hroom]) later
  have hrate' := Nat.pos_of_ne_zero hrate
  have hroom' := Nat.pos_of_ne_zero hroom
  rw [allowRequest_leakyBucket hstrategy] at hrefused
  have hsame := allowRequestLeakyBucket_refused hlevel hroom' hrefused
  rw [honestRetry_iff_of_delay hdelay, allowRequest_leakyBucket hstrategy', after,
    allowRequest_leakyBucket hstrategy, hsame]
  have hfull : s.bucketLevel = s.config.bucketCapacity := by
    rw [allowRequestLeakyBucket_eq] at hrefused hsame
    obtain ⟨hfull, hleak⟩ := addToBucket_refused hrefused
    rw [← hleak, hsame] at hfull
    exact Nat.le_antisymm hlevel hfull
  have hnone : ¬0 < s.leaked now := by
    rw [← allowRequestLeakyBucket_of_full hfull hroom', hrefused]
    exact Bool.false_ne_true
  rw [leaked_pos_iff hfit hpast] at hnone
  have hsum := Nat.div_add_mod 1000 s.config.leakRate
  have hdelay_le : 1000 / s.config.leakRate ≤ 1000 := Nat.div_le_self _ _
  generalize hdelay' : 1000 / s.config.leakRate = delay at *
  have hlater : durationMilliseconds (now + delay * 1000000 - s.lastLeak) =
      delay + durationMilliseconds (now - s.lastLeak) := by
    rw [durationMilliseconds, durationMilliseconds, Int.tdiv_eq_ediv_of_nonneg (by omega),
      Int.tdiv_eq_ediv_of_nonneg (by omega)]
    omega
  have hworth : (s.config.leakRate : Int) * durationMilliseconds (now + delay * 1000000 - s.lastLeak) =
      (s.config.leakRate * delay : Nat) + s.config.leakRate * durationMilliseconds (now - s.lastLeak) := by
    rw [hlater, mul_add, Nat.cast_mul]
  have hfit' : s.LeakFits (now + delay * 1000000) := by
    rw [LeakFits, hworth]
    omega
  rw [allowRequestLeakyBucket_of_full hfull hroom', leaked_pos_iff hfit' (by omega), hworth]
  omega

/-! ### From the first request on -/

/-- Points of the clock, which counts nanoseconds in 64 bits. -/
def InClock (time : Int) : Prop := -2 ^ 63 ≤ time ∧ time < 2 ^ 63

/-- What a limiter made at some time holds later: no more than configured, and no time to come. -/
structure Reached (config : RateLimitConfig) (start : Int) (s : RateLimiter) (now : Int) : Prop where
  configured : s.config = config
  bucket : config.strategy = .tokenBucket →
    s.tokens ≤ config.maxCapacity ∧ start ≤ s.lastRefill ∧ s.lastRefill ≤ now
  window : config.strategy = .fixedWindow → s.windowStart ≤ now
  leaky : config.strategy = .leakyBucket →
    s.bucketLevel ≤ config.bucketCapacity ∧ start ≤ s.lastLeak ∧ s.lastLeak ≤ now

theorem reached_new (config : RateLimitConfig) (start : Int) : Reached config start (new config start) start where
  configured := rfl
  bucket hstrategy := ⟨by rw [new, if_pos hstrategy], le_refl start, le_refl start⟩
  window hstrategy := by rw [new, if_pos (Or.inr hstrategy)]
  leaky hstrategy := by
    have hlast : (new config start).lastLeak = start := if_pos hstrategy
    exact ⟨Nat.zero_le _, hlast.ge, hlast.le⟩

theorem windowStart_allowRequest_le {next : Int} (hpast : s.windowStart ≤ next) :
    (s.allowRequestFixedWindow next).2.windowStart ≤ next := by
  rw [allowRequestFixedWindow]
  split_ifs
  · exact le_refl next
  · exact le_refl next
  · exact hpast
  · exact hpast

theorem Reached.step {next : Int} (h : Reached config start s now) (hle : now ≤ next) :
    Reached config start (after allowRequest s next) next := by
  obtain ⟨rfl, hbucket, hwindow, hleaky⟩ := h
  refine ⟨config_after s next, fun hstrategy => ?_, fun hstrategy => ?_, fun hstrategy => ?_⟩
  · obtain ⟨hfits, hstart, hpast⟩ := hbucket hstrategy
    rw [after, allowRequest_tokenBucket hstrategy, lastRefill_allowRequest]
    refine ⟨tokens_allowRequest_le hfits next, ?_, (refill_lastRefill (hpast.trans hle)).1⟩
    rw [refill]
    split
    · exact hstart.trans (hpast.trans hle)
    · exact hstart
  · rw [after, allowRequest_fixedWindow hstrategy]
    exact windowStart_allowRequest_le ((hwindow hstrategy).trans hle)
  · obtain ⟨hlevel, hstart, hpast⟩ := hleaky hstrategy
    rw [after, allowRequest_leakyBucket hstrategy, lastLeak_allowRequest]
    refine ⟨level_allowRequest_le hlevel next, ?_, ?_⟩
    · rw [leak]
      split
      · exact hstart.trans (hpast.trans hle)
      · exact hstart
    · rw [leak]
      split
      · exact le_refl next
      · exact hpast.trans hle

theorem maxCapacity_le (hbounds : InBounds config) : config.maxCapacity ≤ 101000 := by
  have hcapacity := hbounds.bucketCapacity
  have hburst := hbounds.burstSize
  rw [RateLimitConfig.maxCapacity]
  split
  · have hsum := @sizeT_le (config.bucketCapacity + config.burstSize) (by omega)
    omega
  · omega

theorem tokensFit_of_inClock (hbounds : InBounds s.config) (hfits : s.tokens ≤ s.config.maxCapacity)
    (hstart : InClock start) (hnow : InClock now) (hlast : start ≤ s.lastRefill) : s.TokensFit now := by
  have hseconds : durationSeconds (now - s.lastRefill) ≤ 18446744074 :=
    durationSeconds_le (by decide) (by have := hstart.1; have := hnow.2; omega)
  have hcapacity := maxCapacity_le hbounds
  have hrate := hbounds.refillRate
  have hworth := Int.mul_le_mul_of_nonneg_left hseconds (Int.natCast_nonneg s.config.refillRate)
  rw [TokensFit]
  omega

theorem leakFits_of_inClock (hbounds : InBounds s.config) (hstart : InClock start) (hnow : InClock now)
    (hlast : start ≤ s.lastLeak) (hpast : s.lastLeak ≤ now) : s.LeakFits now := by
  have hmilliseconds : durationMilliseconds (now - s.lastLeak) ≤ 18446744073710 := by
    have := hstart.1
    have := hnow.2
    rw [durationMilliseconds, Int.tdiv_eq_ediv_of_nonneg (by omega)]
    omega
  have hrate := hbounds.leakRate
  have hworth := Int.mul_le_mul_of_nonneg_left hmilliseconds (Int.natCast_nonneg s.config.leakRate)
  rw [LeakFits]
  omega

/-- **The delay is right where both roundings agree.** -/
theorem honestRetry_iff {json : JsonValue} {start : Int} {limiter : RateLimiter}
    (created : createRateLimitFilter json start = some limiter) {times : List Int} {now : Int}
    (clock : ∀ time ∈ start :: now :: times, InClock time) (sorted : (start :: times).Pairwise (· ≤ ·))
    (hlast : times.getLastD start ≤ now)
    (hrefused : ((Runs.run (after allowRequest) limiter times).allowRequest now).1 = false) :
    (Runs.run (after allowRequest) limiter times).HonestRetry now ↔
      (Runs.run (after allowRequest) limiter times).RetryDue now := by
  obtain ⟨config, hbounds, rfl⟩ := inBounds_of_created created
  have hany : Runs.Guarded (after allowRequest) (fun _ _ => True) (new config start) times :=
    Runs.guarded_of_forall _ (fun _ _ => trivial) _
  have hreached := invariant_of_sorted allowRequest (Reached config start) (fun _ _ _ h hle _ => h.step hle)
    (reached_new config start) sorted hany
  generalize Runs.run (after allowRequest) (new config start) times = s at *
  obtain ⟨rfl, hbucket, hwindow, hleaky⟩ := hreached
  have hstart : InClock start := clock start (by simp)
  have hnow : InClock now := clock now (by simp)
  cases hstrategy : s.config.strategy with
  | tokenBucket =>
      obtain ⟨hfits, hfirst, hpast⟩ := hbucket hstrategy
      exact honestRetry_tokenBucket_iff hstrategy hbounds hfits (hpast.trans hlast)
        (tokensFit_of_inClock hbounds hfits hstart hnow hfirst) hrefused
  | slidingWindow =>
      refine iff_of_false (not_honestRetry_slidingWindow hstrategy hbounds.windowSize hrefused) ?_
      rw [RetryDue, hstrategy]
      exact id
  | fixedWindow => exact honestRetry_fixedWindow_iff hstrategy ((hwindow hstrategy).trans hlast) hrefused
  | leakyBucket =>
      obtain ⟨hlevel, hfirst, hpast⟩ := hleaky hstrategy
      exact honestRetry_leakyBucket_iff hstrategy hlevel (hpast.trans hlast)
        (leakFits_of_inClock hbounds hstart hnow hfirst (hpast.trans hlast)) hrefused

/-- One request at a time, ten a second. -/
def oneAtATime : JsonValue :=
  .ofFields [(ascii "bucket_capacity", some (.ofInt 1)), (ascii "allow_burst", some (.boolean false))]

/-- A window of a minute that one request fills. -/
def oneAMinute : JsonValue :=
  .ofFields
    [(ascii "strategy", some (.string (ascii "fixed_window"))), (ascii "max_requests_per_window", some (.ofInt 1))]

theorem createRateLimitFilter_oneAtATime : (createRateLimitFilter oneAtATime 0).isSome := by decide +kernel

theorem createRateLimitFilter_oneAMinute : (createRateLimitFilter oneAMinute 0).isSome := by decide +kernel

theorem honestRetry_iff_oneAMinute :
    (Runs.run (after allowRequest) ((createRateLimitFilter oneAMinute 0).get createRateLimitFilter_oneAMinute)
        [0, 5000000000]).HonestRetry 7000000000 ↔
      (Runs.run (after allowRequest) ((createRateLimitFilter oneAMinute 0).get createRateLimitFilter_oneAMinute)
        [0, 5000000000]).RetryDue 7000000000 :=
  honestRetry_iff (Option.some_get createRateLimitFilter_oneAMinute).symm (by simp [InClock]) (by decide) (by decide)
    (by decide +kernel)

/-- Told to come back in a tenth of a second, the request is refused again. -/
theorem not_honestRetry_oneAtATime :
    ∃ limiter, createRateLimitFilter oneAtATime 0 = some limiter ∧
      ((Runs.run (after allowRequest) limiter [0]).allowRequest 0).1 = false ∧
      ¬(Runs.run (after allowRequest) limiter [0]).HonestRetry 0 := by
  refine ⟨_, (Option.some_get createRateLimitFilter_oneAtATime).symm, by decide +kernel, ?_⟩
  rw [@honestRetry_iff_of_delay _ _ 100 (by decide +kernel)]
  decide +kernel

end RateLimiter

end GopherMcp
