import GopherMcp.Lib.Admission
import Mathlib.Data.Int.ConditionallyCompleteOrder
import Mathlib.Data.List.DropRight
import Mathlib.Tactic.Ring

/-!
# The rate limiter

Every read of a connection asks the limiter first, and the limiter keeps what its strategy needs to answer.
Points of the steady clock are in nanoseconds. The token bucket is refilled in whole seconds and restarts
its second at each refill, and the sliding window drops a request once its age in whole seconds is more than
the window, so that neither rounding lets more through than the configuration says.
-/

namespace GopherMcp

open Admission

inductive RateLimitStrategy
  | tokenBucket | slidingWindow | fixedWindow | leakyBucket
  deriving DecidableEq

/-- The window is in seconds, and the two rates are a second. -/
structure RateLimitConfig where
  strategy : RateLimitStrategy
  bucketCapacity : Nat
  refillRate : Nat
  windowSize : Int
  maxRequestsPerWindow : Nat
  leakRate : Nat
  allowBurst : Bool
  burstSize : Nat

/-- The field initialisers of the source. -/
def RateLimitConfig.default : RateLimitConfig where
  strategy := .tokenBucket
  bucketCapacity := 100
  refillRate := 10
  windowSize := 60
  maxRequestsPerWindow := 100
  leakRate := 10
  allowBurst := true
  burstSize := 20

structure RateLimiter where
  config : RateLimitConfig
  tokens : Nat
  lastRefill : Int
  requestTimes : List Int
  windowStart : Int
  windowRequests : Nat
  bucketLevel : Nat
  lastLeak : Int

/-- A number as a `size_t`. -/
def sizeT (n : Int) : Nat := (n % 2 ^ 64).toNat

theorem sizeT_le {n : Int} (h : 0 ≤ n) : (sizeT n : Int) ≤ n := by
  unfold sizeT
  omega

/-- Whole seconds of a duration, rounded towards zero. -/
def durationSeconds (d : Int) : Int := d.tdiv 1000000000

def durationMilliseconds (d : Int) : Int := d.tdiv 1000000

namespace RateLimitConfig

/-- What the bucket holds at most. -/
def maxCapacity (c : RateLimitConfig) : Nat :=
  if c.allowBurst then sizeT (c.bucketCapacity + c.burstSize) else c.bucketCapacity

end RateLimitConfig

namespace RateLimiter

def new (config : RateLimitConfig) (now : Int) : RateLimiter where
  config := config
  tokens := if config.strategy = .tokenBucket then config.maxCapacity else config.bucketCapacity
  lastRefill := now
  requestTimes := []
  windowStart := if config.strategy = .slidingWindow ∨ config.strategy = .fixedWindow then now else 0
  windowRequests := 0
  bucketLevel := 0
  lastLeak := if config.strategy = .leakyBucket then now else 0

/-! ### The four strategies -/

/-- Tokens for some whole seconds. -/
def tokensAfter (s : RateLimiter) (elapsed : Int) : Nat :=
  min (sizeT (s.tokens + sizeT (s.config.refillRate * elapsed))) s.config.maxCapacity

/-- Tokens for the whole seconds that passed. -/
def refill (s : RateLimiter) (now : Int) : RateLimiter :=
  if 0 < durationSeconds (now - s.lastRefill) then
    { s with tokens := s.tokensAfter (durationSeconds (now - s.lastRefill)), lastRefill := now }
  else s

def takeToken (s : RateLimiter) : Bool × RateLimiter :=
  if 0 < s.tokens then (true, { s with tokens := s.tokens - 1 }) else (false, s)

def allowRequestTokenBucket (s : RateLimiter) (now : Int) : Bool × RateLimiter :=
  (s.refill now).takeToken

/-- Old entries outside the window are dropped, oldest first. -/
def dropOld (s : RateLimiter) (now : Int) : RateLimiter :=
  { s with
    requestTimes := s.requestTimes.dropWhile fun time => s.config.windowSize < durationSeconds (now - time) }

def addRequest (s : RateLimiter) (now : Int) : Bool × RateLimiter :=
  if s.requestTimes.length < s.config.maxRequestsPerWindow then
    (true, { s with requestTimes := s.requestTimes ++ [now] })
  else (false, s)

def allowRequestSlidingWindow (s : RateLimiter) (now : Int) : Bool × RateLimiter :=
  (s.dropOld now).addRequest now

def allowRequestFixedWindow (s : RateLimiter) (now : Int) : Bool × RateLimiter :=
  let s :=
    if s.config.windowSize ≤ durationSeconds (now - s.windowStart) then
      { s with windowRequests := 0, windowStart := now }
    else s
  if s.windowRequests < s.config.maxRequestsPerWindow then
    (true, { s with windowRequests := s.windowRequests + 1 })
  else (false, s)

def allowRequestLeakyBucket (s : RateLimiter) (now : Int) : Bool × RateLimiter :=
  let leaked := sizeT (s.config.leakRate * durationMilliseconds (now - s.lastLeak)) / 1000
  let s :=
    if 0 < leaked then { s with bucketLevel := s.bucketLevel - leaked, lastLeak := now } else s
  if s.bucketLevel < s.config.bucketCapacity then
    (true, { s with bucketLevel := s.bucketLevel + 1 })
  else (false, s)

def allowRequest (s : RateLimiter) (now : Int) : Bool × RateLimiter :=
  match s.config.strategy with
  | .tokenBucket => s.allowRequestTokenBucket now
  | .slidingWindow => s.allowRequestSlidingWindow now
  | .fixedWindow => s.allowRequestFixedWindow now
  | .leakyBucket => s.allowRequestLeakyBucket now

/-! ### The token bucket -/

theorem durationSeconds_of_nonneg {d : Int} (h : 0 ≤ d) : durationSeconds d = d / 1000000000 :=
  Int.tdiv_eq_ediv_of_nonneg h

@[simp] theorem refill_config (s : RateLimiter) (now : Int) : (s.refill now).config = s.config := by
  unfold refill
  split <;> rfl

theorem refill_tokens_le {s : RateLimiter} (h : s.tokens ≤ s.config.maxCapacity) (now : Int) :
    (s.refill now).tokens ≤ s.config.maxCapacity := by
  unfold refill
  split
  · exact Nat.min_le_right _ _
  · exact h

/-- Less than a second is left uncounted. -/
theorem refill_lastRefill {s : RateLimiter} {now : Int} (h : s.lastRefill ≤ now) :
    (s.refill now).lastRefill ≤ now ∧ now < (s.refill now).lastRefill + 1000000000 := by
  unfold refill
  rw [durationSeconds_of_nonneg (by omega)]
  split
  · exact ⟨le_refl now, Int.lt_add_of_pos_right now (by norm_num)⟩
  · omega

/-- What a bucket can give until the end of an interval: its tokens, and those the time until then is
worth. -/
def potential (rate : Nat) (deadline : Int) (s : RateLimiter) : ℤ :=
  s.tokens * 1000000000 + rate * (deadline - s.lastRefill)

theorem tokensAfter_le (s : RateLimiter) {elapsed : Int} (h : 0 ≤ elapsed) :
    (s.tokensAfter elapsed : Int) ≤ s.tokens + s.config.refillRate * elapsed := by
  have hadd := sizeT_le (Int.mul_nonneg (Int.natCast_nonneg s.config.refillRate) h)
  have hsum := @sizeT_le (s.tokens + sizeT (s.config.refillRate * elapsed)) (by omega)
  unfold tokensAfter
  omega

/-- A refill gives no more than the time was worth. -/
theorem potential_refill_le {s : RateLimiter} {now : Int} (h : s.lastRefill ≤ now) (deadline : Int) :
    potential s.config.refillRate deadline (s.refill now) ≤
      potential s.config.refillRate deadline s := by
  unfold refill
  rw [durationSeconds_of_nonneg (by omega)]
  split
  case isFalse => exact le_refl _
  case isTrue helapsed =>
    generalize hsecs : (now - s.lastRefill) / 1000000000 = secs at helapsed
    have hworth : (s.config.refillRate : Int) * (secs * 1000000000) ≤
        s.config.refillRate * (now - s.lastRefill) :=
      Int.mul_le_mul_of_nonneg_left (by omega) (Int.natCast_nonneg _)
    have hgiven := s.tokensAfter_le helapsed.le
    unfold potential
    dsimp only
    nlinarith only [hgiven, hworth]

/-- Taking a token pays for the admission. -/
theorem potential_take (s : RateLimiter) (now : Int) (rate : Nat) (deadline : Int) :
    1000000000 * fare allowRequestTokenBucket s now +
        potential rate deadline (s.allowRequestTokenBucket now).2 =
      potential rate deadline (s.refill now) := by
  unfold fare allowRequestTokenBucket takeToken potential
  split
  case isTrue h =>
    rw [if_pos rfl]
    dsimp only
    rw [Nat.cast_sub h]
    push_cast
    ring
  case isFalse => simp

/-- The bucket belongs to the configuration, holds no more than that allows, and was refilled in the
past. -/
def BucketFits (config : RateLimitConfig) (s : RateLimiter) (now : Int) : Prop :=
  s.config = config ∧ s.tokens ≤ config.maxCapacity ∧ s.lastRefill ≤ now

theorem bucketFits_allowRequest {config : RateLimitConfig} {s : RateLimiter} {now next : Int}
    (h : BucketFits config s now) (hle : now ≤ next) :
    BucketFits config (s.allowRequestTokenBucket next).2 next := by
  obtain ⟨rfl, hfits, hpast⟩ := h
  have htokens := refill_tokens_le hfits next
  have hlast := (refill_lastRefill (hpast.trans hle)).1
  unfold allowRequestTokenBucket takeToken
  split
  · exact ⟨refill_config s next, (Nat.sub_le _ 1).trans htokens, hlast⟩
  · exact ⟨refill_config s next, htokens, hlast⟩

/-- **The token bucket over any interval.** -/
theorem tokenBucket_admittedIn_le {config : RateLimitConfig} {s : RateLimiter} {now : Int}
    (start : BucketFits config s now) {times : List Int} (sorted : (now :: times).Pairwise (· ≤ ·))
    (a : Int) {T : Int} (hT : 0 ≤ T) :
    1000000000 * (admittedIn allowRequestTokenBucket (Set.Icc a (a + T)) s times : ℤ) ≤
      config.maxCapacity * 1000000000 + config.refillRate * (T + 1000000000) := by
  have hrate : (0 : Int) ≤ config.refillRate := Int.natCast_nonneg _
  refine weight_mul_admittedIn_le allowRequestTokenBucket (Set.Icc a (a + T))
    (potential config.refillRate (a + T)) (BucketFits config) ?_ ?_ ?_ ?_ ?_ start sorted
  · intro s now next hinv hle
    exact bucketFits_allowRequest hinv hle
  · intro s now ⟨_, _, hpast⟩ hin
    have hworth := Int.mul_nonneg hrate (show 0 ≤ a + T - s.lastRefill by linarith [hin.2])
    unfold potential
    omega
  · intro s now next ⟨hconfig, _, hpast⟩ hle _ _
    subst hconfig
    rw [potential_take]
    exact potential_refill_le (hpast.trans hle) (a + T)
  · intro s now next ⟨hconfig, hfits, hpast⟩ hle hin
    subst hconfig
    have htokens := refill_tokens_le hfits next
    have hlast := (refill_lastRefill (hpast.trans hle)).2
    -- less than a second before the first request inside, the bucket was refilled, and it is not over full
    have hworth := Int.mul_le_mul_of_nonneg_left
      (show a + T - (s.refill next).lastRefill ≤ T + 1000000000 by linarith [hin.1]) hrate
    rw [potential_take]
    unfold potential
    omega
  · have hworth := Int.mul_nonneg hrate (show 0 ≤ T + 1000000000 by omega)
    omega

/-! ### The sliding window -/

/-- How many of the requests the window remembers came at or after a point in time. -/
def since (a : Int) (s : RateLimiter) : Nat := s.requestTimes.countP (a ≤ ·)

/-- The window belongs to the configuration and remembers no more than that allows. -/
def WindowFits (config : RateLimitConfig) (s : RateLimiter) : Prop :=
  s.config = config ∧ s.requestTimes.length ≤ config.maxRequestsPerWindow

theorem windowFits_allowRequest {config : RateLimitConfig} {s : RateLimiter} (h : WindowFits config s)
    (now : Int) : WindowFits config (s.allowRequestSlidingWindow now).2 := by
  obtain ⟨rfl, hfits⟩ := h
  unfold allowRequestSlidingWindow addRequest
  split
  case isTrue hroom =>
    refine ⟨rfl, ?_⟩
    rw [List.length_append, List.length_singleton]
    exact hroom
  case isFalse => exact ⟨rfl, ((List.dropWhile_sublist _).length_le).trans hfits⟩

/-- Nothing of the last window's length is dropped. -/
theorem since_dropOld {s : RateLimiter} {now a : Int}
    (h : now ∈ Set.Ico a (a + s.config.windowSize * 1000000000)) :
    (s.dropOld now).since a = s.since a := by
  have hyoung : ∀ time, s.config.windowSize < durationSeconds (now - time) → time < a := by
    intro time hold
    by_contra hnot
    have hsecs : durationSeconds (now - time) * 1000000000 ≤ max 0 (now - time) := by
      unfold durationSeconds
      rcases le_total 0 (now - time) with hle | hle
      · rw [Int.tdiv_eq_ediv_of_nonneg hle]
        omega
      · rw [← Int.neg_neg (now - time), Int.neg_tdiv, Int.tdiv_eq_ediv_of_nonneg (by omega)]
        omega
    have := h.1
    have := h.2
    omega
  have hsplit := List.takeWhile_append_dropWhile
    (p := fun time => decide (s.config.windowSize < durationSeconds (now - time))) (l := s.requestTimes)
  unfold since dropOld
  conv_rhs => rw [← hsplit, List.countP_append]
  refine (Nat.add_eq_right.mpr (List.countP_eq_zero.mpr fun time htime => ?_)).symm
  have := hyoung time (by simpa using List.mem_takeWhile_imp htime)
  simpa using this

/-- Inside the interval every admission is remembered. -/
theorem fare_add_since {s : RateLimiter} {now a : Int}
    (h : now ∈ Set.Ico a (a + s.config.windowSize * 1000000000)) :
    fare allowRequestSlidingWindow s now + s.since a = ((s.allowRequestSlidingWindow now).2.since a : ℤ) := by
  have hold := since_dropOld h
  unfold fare allowRequestSlidingWindow addRequest
  split
  case isTrue hroom =>
    unfold since at hold ⊢
    rw [if_pos rfl, List.countP_append, hold, List.countP_singleton, if_pos (by simpa using h.1)]
    omega
  case isFalse hfull =>
    rw [if_neg Bool.false_ne_true, hold]
    omega

/-- **The sliding window over any interval as long as it.** -/
theorem slidingWindow_admittedIn_le {config : RateLimitConfig} {s : RateLimiter}
    (start : WindowFits config s) {now : Int} {times : List Int}
    (sorted : (now :: times).Pairwise (· ≤ ·)) (a : Int) :
    admittedIn allowRequestSlidingWindow (Set.Ico a (a + config.windowSize * 1000000000)) s times ≤
      config.maxRequestsPerWindow := by
  have hpays : ∀ (s : RateLimiter) (next : Int), WindowFits config s →
      next ∈ Set.Ico a (a + config.windowSize * 1000000000) →
      1 * fare allowRequestSlidingWindow s next +
        ((config.maxRequestsPerWindow : ℤ) - (s.allowRequestSlidingWindow next).2.since a) ≤
      config.maxRequestsPerWindow - s.since a := by
    intro s next hfits hin
    rw [← hfits.1] at hin
    have := fare_add_since hin
    omega
  suffices hbound : 1 * (admittedIn allowRequestSlidingWindow
      (Set.Ico a (a + config.windowSize * 1000000000)) s times : ℤ) ≤ config.maxRequestsPerWindow by
    omega
  refine weight_mul_admittedIn_le allowRequestSlidingWindow _
    (fun s => (config.maxRequestsPerWindow : ℤ) - s.since a) (fun s _ => WindowFits config s)
    ?_ ?_ ?_ ?_ (Int.natCast_nonneg _) start sorted
  · intro s now next hfits _
    exact windowFits_allowRequest hfits next
  · intro s now hfits _
    have hcount : s.since a ≤ s.requestTimes.length := List.countP_le_length
    have := hfits.2
    omega
  · intro s now next hfits _ _ hin
    exact hpays s next hfits hin
  · intro s now next hfits _ hin
    have := hpays s next hfits hin
    omega

/-! ### A limiter from its construction on -/

@[simp] theorem config_allowRequest (s : RateLimiter) (now : Int) :
    (s.allowRequest now).2.config = s.config := by
  unfold allowRequest
  cases s.config.strategy with
  | tokenBucket =>
      show (s.allowRequestTokenBucket now).2.config = s.config
      unfold allowRequestTokenBucket takeToken
      split <;> exact refill_config s now
  | slidingWindow =>
      show (s.allowRequestSlidingWindow now).2.config = s.config
      unfold allowRequestSlidingWindow addRequest
      split <;> rfl
  | fixedWindow =>
      show (s.allowRequestFixedWindow now).2.config = s.config
      unfold allowRequestFixedWindow
      dsimp only
      split <;> split <;> rfl
  | leakyBucket =>
      show (s.allowRequestLeakyBucket now).2.config = s.config
      unfold allowRequestLeakyBucket
      dsimp only
      split <;> split <;> rfl

/-- A limiter keeps to the strategy it was made with. -/
theorem admittedIn_new {config : RateLimitConfig} {strategy : RateLimiter → Int → Bool × RateLimiter}
    (h : ∀ s : RateLimiter, s.config.strategy = config.strategy → s.allowRequest = strategy s)
    (start : Int) (I : Set Int) [DecidablePred (· ∈ I)] (times : List Int) :
    admittedIn allowRequest I (new config start) times =
      admittedIn strategy I (new config start) times := by
  unfold admittedIn
  rw [admitted_congr allowRequest (fun s => s.config.strategy = config.strategy) _ _ rfl times]
  · intro s now hs
    exact congrFun (h s hs) now
  · intro s now hs
    rwa [config_allowRequest]

/-- **The limiter never admits more than configured.** Over any interval the token bucket admits at most
what it can hold and what the time and one more second are worth, and the sliding window at most its number
of requests over any interval of its length. -/
theorem admits_at_most_configured (config : RateLimitConfig) (start : Int) (times : List Int)
    (sorted : (start :: times).Pairwise (· ≤ ·)) :
    (config.strategy = .tokenBucket → ∀ a T : Int, 0 ≤ T →
      1000000000 * (admittedIn allowRequest (Set.Icc a (a + T)) (new config start) times : ℤ) ≤
        config.maxCapacity * 1000000000 + config.refillRate * (T + 1000000000)) ∧
    (config.strategy = .slidingWindow → ∀ a : Int,
      admittedIn allowRequest (Set.Ico a (a + config.windowSize * 1000000000)) (new config start) times ≤
        config.maxRequestsPerWindow) := by
  constructor
  · intro hstrategy a T hT
    rw [admittedIn_new fun s hs => by funext now; unfold allowRequest; rw [hs, hstrategy]]
    refine tokenBucket_admittedIn_le ⟨rfl, ?_, le_refl start⟩ sorted a hT
    unfold new
    rw [if_pos hstrategy]
  · intro hstrategy a
    rw [admittedIn_new fun s hs => by funext now; unfold allowRequest; rw [hs, hstrategy]]
    have hfits : WindowFits config (new config start) := ⟨rfl, Nat.zero_le _⟩
    exact slidingWindow_admittedIn_le hfits sorted a

/-- The limiter of the default configuration, and the same with a window, over three requests. -/
theorem admits_at_most_configured_default :
    1000000000 * (admittedIn allowRequest (Set.Icc 0 (0 + 1000000000)) (new .default 0)
        [0, 5, 1000000000] : ℤ) ≤
      RateLimitConfig.default.maxCapacity * 1000000000 + 10 * (1000000000 + 1000000000) ∧
    admittedIn allowRequest (Set.Ico 5 (5 + 60 * 1000000000))
      (new { RateLimitConfig.default with strategy := .slidingWindow } 0) [0, 5, 1000000000] ≤ 100 :=
  ⟨(admits_at_most_configured .default 0 [0, 5, 1000000000] (by decide)).1 rfl 0 1000000000 (by decide),
    (admits_at_most_configured { RateLimitConfig.default with strategy := .slidingWindow } 0
      [0, 5, 1000000000] (by decide)).2 rfl 5⟩

end RateLimiter

end GopherMcp
