import GopherMcp.Lib.Runs
import Mathlib.Data.List.Nodup

/-!
# The client's own circuit breaker

The breaker counts successes, and lets requests through while it has counted too few of them. Neither count
says whose they are, so the model numbers the requests that are let through and keeps beside the breaker which
of them belong to the half open period it is in.
-/

namespace GopherMcp

inductive BreakerState
  | closed
  | opened
  | halfOpen
  deriving DecidableEq

/-- The breaker, and beside it: the clock, in nanoseconds; how many requests were let through, which are
numbered, and which of them are not recorded yet; those let through since the circuit became half open, and
which of them were recorded as a success in that time; how many of these there were each time a half open
circuit closed; when a failure was last recorded, if ever; and how long that was ago each time an open circuit
became half open. `errorRateExceeds failures total` is the comparison of the error rate with its threshold. -/
structure ClientCircuitBreaker where
  failureThreshold : Nat
  timeoutDuration : Int
  errorRateExceeds : Nat → Nat → Bool
  state : BreakerState
  failureCount : Nat
  requestCount : Nat
  consecutiveFailures : Nat
  halfOpenRequests : Nat
  lastFailureTime : Nat
  now : Nat
  admissions : Nat
  unrecorded : List Nat
  probes : List Nat
  successes : List Nat
  closings : List Nat
  lastFailure : Option Nat
  waits : List (Option Nat)

/-- An outcome is that of a request the breaker let through, or of one that never asked it. -/
inductive BreakerOp
  | allowRequest
  | recordSuccess (request : Option Nat)
  | recordFailure (request : Option Nat)
  | advance (nanoseconds : Nat)

namespace ClientCircuitBreaker

def new (failureThreshold : Nat) (timeoutDuration : Int) (errorRateExceeds : Nat → Nat → Bool) (now : Nat) :
    ClientCircuitBreaker where
  failureThreshold
  timeoutDuration
  errorRateExceeds
  state := .closed
  failureCount := 0
  requestCount := 0
  consecutiveFailures := 0
  halfOpenRequests := 0
  lastFailureTime := 0
  now
  admissions := 0
  unrecorded := []
  probes := []
  successes := []
  closings := []
  lastFailure := none
  waits := []

/-- A request that is let through has a number. -/
def letThrough (s : ClientCircuitBreaker) : ClientCircuitBreaker :=
  { s with
    admissions := s.admissions + 1
    unrecorded := s.unrecorded ++ [s.admissions]
    probes := if s.state = .halfOpen then s.probes ++ [s.admissions] else s.probes }

/-- Whether the time an open circuit has to wait has gone by. Durations are compared in nanoseconds. -/
def timedOut (s : ClientCircuitBreaker) : Bool :=
  s.timeoutDuration * 1000000 ≤ (s.now : Int) - s.lastFailureTime

def becomeHalfOpen (s : ClientCircuitBreaker) : ClientCircuitBreaker :=
  { s with
    state := .halfOpen
    halfOpenRequests := 0
    probes := []
    successes := []
    waits := s.waits ++ [s.lastFailure.map fun last => s.now - last] }

def allowRequest (s : ClientCircuitBreaker) : ClientCircuitBreaker × Bool :=
  match s.state with
  | .closed => (s.letThrough, true)
  | .opened => if s.timedOut then (s.becomeHalfOpen.letThrough, true) else (s, false)
  | .halfOpen => if s.halfOpenRequests < 3 then (s.letThrough, true) else (s, false)

/-- The outcome of a request that was let through is recorded. -/
def take (s : ClientCircuitBreaker) (request : Option Nat) : ClientCircuitBreaker :=
  { s with unrecorded := s.unrecorded.filter fun number => some number ≠ request }

def closeCircuit (s : ClientCircuitBreaker) : ClientCircuitBreaker :=
  { s with
    state := .closed
    failureCount := 0
    requestCount := 0
    closings := s.closings ++ [s.successes.length] }

/-- One more success in a half open circuit. -/
def countProbe (s : ClientCircuitBreaker) (request : Option Nat) : ClientCircuitBreaker :=
  { s with
    halfOpenRequests := s.halfOpenRequests + 1
    successes := s.successes ++ s.probes.filter fun number => some number = request }

def checkRecovery (s : ClientCircuitBreaker) : ClientCircuitBreaker :=
  if 3 ≤ s.halfOpenRequests then s.closeCircuit else s

def recordSuccess (s : ClientCircuitBreaker) (request : Option Nat) : ClientCircuitBreaker :=
  let s := { s.take request with consecutiveFailures := 0 }
  let s := if s.state = .halfOpen then (s.countProbe request).checkRecovery else s
  { s with requestCount := s.requestCount + 1 }

def tooManyFailures (s : ClientCircuitBreaker) : Bool :=
  s.failureThreshold ≤ s.consecutiveFailures ||
    (10 < s.requestCount && s.errorRateExceeds s.failureCount s.requestCount)

def recordFailure (s : ClientCircuitBreaker) (request : Option Nat) : ClientCircuitBreaker :=
  let s :=
    { s.take request with
      failureCount := s.failureCount + 1
      consecutiveFailures := s.consecutiveFailures + 1
      lastFailureTime := s.now
      lastFailure := some s.now }
  if s.state = .halfOpen then { s with state := .opened }
  else if s.tooManyFailures then { s with state := .opened }
  else s

def step (s : ClientCircuitBreaker) : BreakerOp → ClientCircuitBreaker
  | .allowRequest => s.allowRequest.1
  | .recordSuccess request => s.recordSuccess request
  | .recordFailure request => s.recordFailure request
  | .advance nanoseconds => { s with now := s.now + nanoseconds }

variable {s : ClientCircuitBreaker} {request : Option Nat}

/-! ### What the breaker is to keep -/

/-- No more than four requests get through while the circuit is half open, it closes after three successes of
such requests only, and it becomes half open only after the time an open circuit has to wait. -/
def Bounded (s : ClientCircuitBreaker) : Prop :=
  (s.state = .halfOpen → s.probes.length ≤ 4) ∧ (∀ successes ∈ s.closings, 3 ≤ successes) ∧
    ∀ wait ∈ s.waits, ∃ nanoseconds, wait = some nanoseconds ∧ s.timeoutDuration * 1000000 ≤ (nanoseconds : Nat)

/-- An outcome is of a request whose outcome is not recorded yet, if it is of one the breaker let through. -/
def Proper (s : ClientCircuitBreaker) : BreakerOp → Prop
  | .recordSuccess request | .recordFailure request => ∀ number ∈ request, number ∈ s.unrecorded
  | _ => True

/-- In a half open circuit a request comes while fewer than four got through, and the success that closes it
finds two of requests that got through since and is of such a request itself. -/
def Accounted (s : ClientCircuitBreaker) : BreakerOp → Prop
  | .allowRequest => s.state = .halfOpen → s.probes.length < 4
  | .recordSuccess request =>
      s.state = .halfOpen → s.halfOpenRequests = 2 →
        s.successes.length = 2 ∧ ∃ number ∈ s.probes, request = some number
  | _ => True

instance decidableProper (s : ClientCircuitBreaker) : (op : BreakerOp) → Decidable (s.Proper op)
  | .allowRequest | .advance _ => inferInstanceAs (Decidable True)
  | .recordSuccess request | .recordFailure request =>
      inferInstanceAs (Decidable (∀ number ∈ request, number ∈ s.unrecorded))

instance decidableAccounted (s : ClientCircuitBreaker) : (op : BreakerOp) → Decidable (s.Accounted op)
  | .allowRequest => inferInstanceAs (Decidable (s.state = .halfOpen → s.probes.length < 4))
  | .recordSuccess request =>
      inferInstanceAs (Decidable (s.state = .halfOpen → s.halfOpenRequests = 2 →
        s.successes.length = 2 ∧ ∃ number ∈ s.probes, request = some number))
  | .recordFailure _ | .advance _ => inferInstanceAs (Decidable True)

structure Sound (s : ClientCircuitBreaker) : Prop where
  bounded : s.Bounded
  numbered : ∀ number ∈ s.probes, number < s.admissions
  nodup : s.probes.Nodup
  counted : s.state = .halfOpen → s.successes.length ≤ s.halfOpenRequests ∧ s.halfOpenRequests < 3
  failed : s.state = .opened → s.lastFailure = some s.lastFailureTime ∧ s.lastFailureTime ≤ s.now

theorem sound_new (failureThreshold : Nat) (timeoutDuration : Int) (errorRateExceeds : Nat → Nat → Bool)
    (now : Nat) : (new failureThreshold timeoutDuration errorRateExceeds now).Sound where
  bounded := by
    refine ⟨fun hhalf => ?_, fun _ hin => absurd hin List.not_mem_nil, fun _ hin => absurd hin List.not_mem_nil⟩
    cases hhalf
  numbered _ hin := absurd hin List.not_mem_nil
  nodup := List.nodup_nil
  counted hhalf := by cases hhalf
  failed hopened := by cases hopened

/-! ### Requests -/

/-- A request that gets through where there is room for it. -/
theorem Sound.letThrough (h : s.Sound) (hroom : s.state = .halfOpen → s.probes.length < 4) : s.letThrough.Sound := by
  have hfresh : s.admissions ∉ s.probes := fun hin => Nat.lt_irrefl _ (h.numbered _ hin)
  refine ⟨⟨fun hhalf => ?_, h.bounded.2.1, h.bounded.2.2⟩, fun number hin => ?_, ?_, h.counted, h.failed⟩
  · have hstate : s.state = .halfOpen := hhalf
    show (if s.state = .halfOpen then s.probes ++ [s.admissions] else s.probes).length ≤ 4
    rw [if_pos hstate, List.length_append, List.length_singleton]
    exact hroom hstate
  · show number < s.admissions + 1
    have hin : number ∈ if s.state = .halfOpen then s.probes ++ [s.admissions] else s.probes := hin
    split_ifs at hin with hstate
    · obtain hold | hnew := List.mem_append.mp hin
      · exact Nat.lt_succ_of_lt (h.numbered number hold)
      · rw [List.mem_singleton.mp hnew]
        exact Nat.lt_succ_self _
    · exact Nat.lt_succ_of_lt (h.numbered number hin)
  · show (if s.state = .halfOpen then s.probes ++ [s.admissions] else s.probes).Nodup
    split_ifs
    · exact List.nodup_append.mpr ⟨h.nodup, List.pairwise_singleton _ _, fun number hin other hother heq =>
        hfresh (List.mem_singleton.mp hother ▸ heq ▸ hin)⟩
    · exact h.nodup

/-- An open circuit that has waited becomes half open. -/
theorem Sound.becomeHalfOpen (h : s.Sound) (hopened : s.state = .opened) (hwaited : s.timedOut = true) :
    s.becomeHalfOpen.Sound := by
  obtain ⟨hlast, hpast⟩ := h.failed hopened
  refine ⟨⟨fun _ => Nat.zero_le _, h.bounded.2.1, fun wait hin => ?_⟩, fun _ hin => absurd hin List.not_mem_nil,
    List.nodup_nil, fun _ => ⟨Nat.le_refl _, Nat.zero_lt_succ _⟩, fun hstate => ?_⟩
  · obtain hold | hnew := List.mem_append.mp hin
    · exact h.bounded.2.2 wait hold
    · refine ⟨s.now - s.lastFailureTime, ?_, ?_⟩
      · rw [List.mem_singleton.mp hnew, hlast]
        rfl
      · have htime : s.timeoutDuration * 1000000 ≤ (s.now : Int) - s.lastFailureTime := of_decide_eq_true hwaited
        show s.timeoutDuration * 1000000 ≤ _
        omega
  · cases hstate

theorem Sound.allowRequest (h : s.Sound) (hroom : s.state = .halfOpen → s.probes.length < 4) :
    s.allowRequest.1.Sound := by
  unfold ClientCircuitBreaker.allowRequest
  cases hstate : s.state with
  | closed => exact h.letThrough hroom
  | opened =>
      dsimp only
      split_ifs with hwaited
      · exact (h.becomeHalfOpen hstate hwaited).letThrough fun _ => Nat.zero_lt_succ 3
      · exact h
  | halfOpen =>
      dsimp only
      split_ifs
      · exact h.letThrough hroom
      · exact h

/-! ### Outcomes -/

theorem Sound.take (h : s.Sound) (request : Option Nat) : (s.take request).Sound :=
  ⟨h.bounded, h.numbered, h.nodup, h.counted, h.failed⟩

/-- Of the requests that got through, one at most is the one a success is of. -/
theorem length_filter_probes (h : s.Sound) (request : Option Nat) :
    (s.probes.filter fun number => some number = request).length =
      if ∃ number ∈ s.probes, request = some number then 1 else 0 := by
  split_ifs with hprobe
  · obtain ⟨number, hin, rfl⟩ := hprobe
    have hsame : (s.probes.filter fun other => some other = some number) = s.probes.filter (· == number) := by
      apply List.filter_congr
      intro other _
      simp only [Option.some.injEq]
      rfl
    rw [hsame, List.filter_beq, List.length_replicate]
    exact List.count_eq_one_of_mem h.nodup hin
  · rw [List.length_eq_zero_iff, List.filter_eq_nil_iff]
    intro number hin hsame
    exact hprobe ⟨number, hin, (of_decide_eq_true hsame).symm⟩

/-- A half open circuit with one more success. -/
def counted (s : ClientCircuitBreaker) (request : Option Nat) : ClientCircuitBreaker :=
  { s.take request with consecutiveFailures := 0 }.countProbe request

/-- Everything a success can do. -/
theorem recordSuccess_cases (s : ClientCircuitBreaker) (request : Option Nat) :
    s.state ≠ .halfOpen ∧ s.recordSuccess request =
        { s.take request with consecutiveFailures := 0, requestCount := s.requestCount + 1 } ∨
      s.state = .halfOpen ∧ s.halfOpenRequests + 1 < 3 ∧
        s.recordSuccess request = { s.counted request with requestCount := s.requestCount + 1 } ∨
      s.state = .halfOpen ∧ 3 ≤ s.halfOpenRequests + 1 ∧
        s.recordSuccess request = { (s.counted request).closeCircuit with requestCount := 1 } := by
  by_cases hhalf : s.state = .halfOpen
  · have hstate : (s.take request).state = .halfOpen := hhalf
    have hsame : s.recordSuccess request =
        { (s.counted request).checkRecovery with requestCount := (s.counted request).checkRecovery.requestCount + 1 } := by
      unfold recordSuccess
      dsimp only
      rw [if_pos hstate]
      rfl
    by_cases hmany : 3 ≤ s.halfOpenRequests + 1
    · have hcount : (s.counted request).checkRecovery = (s.counted request).closeCircuit := if_pos hmany
      exact Or.inr (Or.inr ⟨hhalf, hmany, by rw [hsame, hcount]; rfl⟩)
    · have hcount : (s.counted request).checkRecovery = s.counted request := if_neg hmany
      exact Or.inr (Or.inl ⟨hhalf, Nat.lt_of_not_le hmany, by rw [hsame, hcount]; rfl⟩)
  · have hstate : ¬ (s.take request).state = .halfOpen := hhalf
    refine Or.inl ⟨hhalf, ?_⟩
    unfold recordSuccess
    dsimp only
    rw [if_neg hstate]
    rfl

theorem length_counted (h : s.Sound) (request : Option Nat) :
    (s.counted request).successes.length =
      s.successes.length + if ∃ number ∈ s.probes, request = some number then 1 else 0 := by
  rw [← length_filter_probes h]
  exact List.length_append

theorem Sound.recordSuccess (h : s.Sound)
    (hclosing : s.state = .halfOpen → s.halfOpenRequests = 2 →
      s.successes.length = 2 ∧ ∃ number ∈ s.probes, request = some number) :
    (s.recordSuccess request).Sound := by
  obtain ⟨-, heq⟩ | ⟨hhalf, hfew, heq⟩ | ⟨hhalf, hmany, heq⟩ := recordSuccess_cases s request
  · rw [heq]
    exact ⟨h.bounded, h.numbered, h.nodup, h.counted, h.failed⟩
  · rw [heq]
    refine ⟨h.bounded, h.numbered, h.nodup, fun _ => ⟨?_, hfew⟩, h.failed⟩
    have hlength := length_counted h request
    have hcounted := h.counted hhalf
    show (s.counted request).successes.length ≤ s.halfOpenRequests + 1
    rw [hlength]
    split_ifs <;> omega
  · have htwo : s.halfOpenRequests = 2 := by
      have hcounted := h.counted hhalf
      omega
    obtain ⟨hlength, hprobe⟩ := hclosing hhalf htwo
    rw [heq]
    refine ⟨⟨fun hstate => ?_, fun successes hin => ?_, h.bounded.2.2⟩, h.numbered, h.nodup, fun hstate => ?_,
      fun hstate => ?_⟩
    · cases hstate
    · obtain hold | hnew := List.mem_append.mp hin
      · exact h.bounded.2.1 successes hold
      · have hthree := length_counted h request
        rw [if_pos hprobe, hlength] at hthree
        exact Nat.le_of_eq ((List.mem_singleton.mp hnew).trans hthree).symm
    · cases hstate
    · cases hstate

theorem Sound.recordFailure (h : s.Sound) (request : Option Nat) : (s.recordFailure request).Sound := by
  unfold ClientCircuitBreaker.recordFailure
  dsimp only
  split_ifs with hhalf
  · refine ⟨⟨fun hstate => ?_, h.bounded.2.1, h.bounded.2.2⟩, h.numbered, h.nodup, fun hstate => ?_,
      fun _ => ⟨rfl, Nat.le_refl _⟩⟩
    · cases hstate
    · cases hstate
  · refine ⟨⟨fun hstate => ?_, h.bounded.2.1, h.bounded.2.2⟩, h.numbered, h.nodup, fun hstate => ?_,
      fun _ => ⟨rfl, Nat.le_refl _⟩⟩
    · cases hstate
    · cases hstate
  · exact ⟨⟨fun hstate => absurd hstate hhalf, h.bounded.2.1, h.bounded.2.2⟩, h.numbered, h.nodup,
      fun hstate => absurd hstate hhalf, fun _ => ⟨rfl, Nat.le_refl _⟩⟩

/-! ### Runs -/

theorem sound_step (h : s.Sound) {op : BreakerOp} (hok : s.Accounted op) : (s.step op).Sound := by
  cases op with
  | allowRequest => exact h.allowRequest hok
  | recordSuccess request => exact h.recordSuccess hok
  | recordFailure request => exact h.recordFailure request
  | advance nanoseconds =>
      refine ⟨h.bounded, h.numbered, h.nodup, h.counted, fun hopened => ?_⟩
      obtain ⟨hlast, hpast⟩ := h.failed hopened
      exact ⟨hlast, Nat.le_add_right_of_le hpast⟩

/-- A step that is not accounted for is seen at once. -/
theorem not_bounded_step (h : s.Sound) {op : BreakerOp} (hnot : ¬ s.Accounted op) : ¬ (s.step op).Bounded := by
  cases op with
  | allowRequest =>
      obtain ⟨hhalf, hfull⟩ := Classical.not_imp.mp hnot
      have hroom := (h.counted hhalf).2
      have hadmitted : s.step .allowRequest = s.letThrough := by
        show s.allowRequest.1 = s.letThrough
        unfold allowRequest
        simp only [hhalf, if_pos hroom]
      rw [hadmitted]
      rintro ⟨hfew, -⟩
      have hlength : s.letThrough.probes.length = s.probes.length + 1 := by
        show (if s.state = .halfOpen then s.probes ++ [s.admissions] else s.probes).length = _
        rw [if_pos hhalf, List.length_append, List.length_singleton]
      have hbound := hfew hhalf
      omega
  | recordSuccess request =>
      obtain ⟨hhalf, hnot⟩ := Classical.not_imp.mp hnot
      obtain ⟨htwo, hnot⟩ := Classical.not_imp.mp hnot
      have hcounted := h.counted hhalf
      obtain ⟨hother, -⟩ | ⟨-, hfew, -⟩ | ⟨-, -, heq⟩ := recordSuccess_cases s request
      · exact absurd hhalf hother
      · omega
      · have hstep : s.step (.recordSuccess request) = { (s.counted request).closeCircuit with requestCount := 1 } :=
          heq
        rw [hstep]
        rintro ⟨-, hclosings, -⟩
        have hthree := hclosings _ (List.mem_append_right _ (List.mem_singleton_self _))
        rw [length_counted h] at hthree
        split_ifs at hthree with hprobe
        · exact hnot ⟨by omega, hprobe⟩
        · omega
  | recordFailure request => exact absurd trivial hnot
  | advance nanoseconds => exact absurd trivial hnot

/-- **The breaker keeps its bounds just where its steps account for their requests**, in every run of requests,
outcomes and waiting. -/
theorem bounded_iff (failureThreshold : Nat) (timeoutDuration : Int) (errorRateExceeds : Nat → Nat → Bool)
    (now : Nat) {ops : List BreakerOp}
    (hproper : Runs.Guarded step Proper (new failureThreshold timeoutDuration errorRateExceeds now) ops) :
    (∀ before after, ops = before ++ after →
        (Runs.run step (new failureThreshold timeoutDuration errorRateExceeds now) before).Bounded) ↔
      Runs.Guarded step Accounted (new failureThreshold timeoutDuration errorRateExceeds now) ops :=
  @Runs.everywhere_iff_of_inv _ _ step Proper Accounted Sound Bounded (fun _ _ _ hok h => sound_step h hok)
    (fun _ h => h.bounded) (fun _ _ _ h hnot => not_bounded_step h hnot) _ (sound_new _ _ _ _) ops hproper

/-- A failure opens the circuit, and a second later one request succeeds and another fails. -/
def probing : List BreakerOp :=
  [.allowRequest, .recordFailure (some 0), .advance 1000000000, .allowRequest, .recordSuccess (some 1),
    .allowRequest, .recordFailure (some 2)]

theorem bounded_iff_probing :
    probing.length = 7 ∧ (Runs.run step (new 1 1000 (fun _ _ => false) 0) probing).Bounded :=
  ⟨rfl, (@bounded_iff 1 1000 (fun _ _ => false) 0 probing (by decide)).mpr (by decide) probing []
    (List.append_nil probing).symm⟩

/-- The successes of three requests from before the circuit opened close it, while the one that got through
since is still on its way. -/
def stale : List BreakerOp :=
  [.allowRequest, .allowRequest, .allowRequest, .allowRequest, .recordFailure (some 0), .allowRequest,
    .recordSuccess (some 1), .recordSuccess (some 2), .recordSuccess (some 3)]

theorem not_always_bounded :
    Runs.Guarded step Proper (new 1 0 (fun _ _ => false) 0) stale ∧
      ¬ (Runs.run step (new 1 0 (fun _ _ => false) 0) stale).Bounded := by
  refine ⟨by decide, ?_⟩
  intro hbounded
  have hthree : 3 ≤ 0 := hbounded.2.1 0 (by decide)
  exact absurd hthree (by decide)

end ClientCircuitBreaker

end GopherMcp
