import GopherMcp.Core.RequestId
import GopherMcp.Lib.OrdMap
import GopherMcp.Lib.Runs
import GopherMcp.Transport.EventId

/-!
# The circuit breaker

While too much fails, requests are refused at once. After a time one is let through to see whether things
are better, and some more behind it; enough successes close the circuit again, and any failure opens it.
What the breaker counts does not say which of the requests it counts, so the model keeps that beside it.
-/

namespace GopherMcp

inductive CircuitState
  | closed | opened | halfOpen
  deriving DecidableEq

/-- `errorRateExceeds failures total` is the comparison of the error rate with its threshold, and times
are in milliseconds. -/
structure CircuitBreakerConfig where
  failureThreshold : Nat
  errorRateExceeds : Nat → Nat → Bool
  minRequests : Nat
  timeout : Int
  windowSize : Int
  halfOpenMaxRequests : Nat
  halfOpenSuccessThreshold : Nat
  trackErrors : Bool

/-- A request that was admitted. `number` is the request, and `startTime` when it came. -/
structure RequestInfo where
  number : Nat
  startTime : Nat
  deriving DecidableEq

structure RequestOutcome where
  timestamp : Nat
  success : Bool
  latencyMs : Nat
  deriving DecidableEq

/-- The breaker, and beside it: the clock, in nanoseconds; the requests that came, which are numbered; those
admitted and not answered yet; those admitted since the circuit was last half open, and which of them had a
successful response; and how many of these there were each time a half open circuit closed. -/
structure CircuitBreaker where
  config : CircuitBreakerConfig
  state : CircuitState
  lastStateChange : Nat
  consecutiveFailures : Nat
  halfOpenRequests : Nat
  halfOpenSuccesses : Nat
  pendingRequests : OrdMap Bytes RequestInfo
  requestOutcomes : List RequestOutcome
  now : Nat
  arrivals : List RequestId
  awaiting : List Nat
  probes : List Nat
  answers : List Nat
  closings : List Nat

/-- `respond` is the response to a request that came, with the code of its error if it is one. -/
inductive CircuitBreakerOp
  | request (id : RequestId)
  | respond (number : Nat) (error : Option Int32)
  | protocolError
  | advance (nanoseconds : Nat)

namespace CircuitBreaker

def new (config : CircuitBreakerConfig) (now : Nat) : CircuitBreaker where
  config := config
  state := .closed
  lastStateChange := now
  consecutiveFailures := 0
  halfOpenRequests := 0
  halfOpenSuccesses := 0
  pendingRequests := OrdMap.empty
  requestOutcomes := []
  now := now
  arrivals := []
  awaiting := []
  probes := []
  answers := []
  closings := []

/-- The key of a request. An `int` takes the number. -/
def requestIdToString : RequestId → Bytes
  | .string text => text
  | .number value => toDecimalSigned value.toInt32.toInt64

/-- Whole milliseconds since a point in time. -/
def elapsedMs (s : CircuitBreaker) (since : Nat) : Int := ((s.now - since) / 1000000 : Nat)

def transitionState (s : CircuitBreaker) (newState : CircuitState) : CircuitBreaker :=
  { s with
    state := newState
    lastStateChange := s.now
    probes := if newState = .halfOpen then [] else s.probes
    answers := if newState = .halfOpen then [] else s.answers
    closings :=
      if s.state = .halfOpen ∧ newState = .closed then s.closings ++ [s.answers.length] else s.closings }

/-! ### Admission -/

def allowRequest (s : CircuitBreaker) : CircuitBreaker × Bool :=
  match s.state with
  | .closed => (s, true)
  | .opened =>
      if s.config.timeout ≤ s.elapsedMs s.lastStateChange then
        ({ s.transitionState .halfOpen with halfOpenRequests := 0, halfOpenSuccesses := 0 }, true)
      else (s, false)
  | .halfOpen =>
      if s.halfOpenRequests < s.config.halfOpenMaxRequests then
        ({ s with halfOpenRequests := s.halfOpenRequests + 1 }, true)
      else (s, false)

/-- A request that was allowed is pending under its id. -/
def track (s : CircuitBreaker) (number : Nat) (id : RequestId) : CircuitBreaker :=
  { s with
    pendingRequests := s.pendingRequests.insert (requestIdToString id) ⟨number, s.now⟩
    awaiting := s.awaiting ++ [number]
    probes := if s.state = .halfOpen then s.probes ++ [number] else s.probes }

def admitRequest (s : CircuitBreaker) (id : RequestId) : CircuitBreaker × Bool :=
  let number := s.arrivals.length
  let (s, allowed) := { s with arrivals := s.arrivals ++ [id] }.allowRequest
  if allowed then (s.track number id, true) else (s, false)

/-! ### Outcomes -/

/-- Outcomes outside the sliding window are dropped, oldest first. -/
def cleanOldMetrics (s : CircuitBreaker) : CircuitBreaker :=
  { s with
    requestOutcomes :=
      s.requestOutcomes.dropWhile fun outcome => s.config.windowSize < s.elapsedMs outcome.timestamp }

/-- Both recordings start so. -/
def noteOutcome (s : CircuitBreaker) (success : Bool) (latencyMs : Nat) : CircuitBreaker :=
  { s.cleanOldMetrics with
    requestOutcomes :=
      s.cleanOldMetrics.requestOutcomes ++ [RequestOutcome.mk s.now success latencyMs]
    consecutiveFailures := if success then 0 else s.consecutiveFailures + 1 }

/-- A success in a half open circuit. -/
def checkRecovery (s : CircuitBreaker) : CircuitBreaker :=
  if s.state = .halfOpen then
    let s := { s with halfOpenSuccesses := s.halfOpenSuccesses + 1 }
    if s.config.halfOpenSuccessThreshold ≤ s.halfOpenSuccesses then s.transitionState .closed else s
  else s

def recordSuccess (s : CircuitBreaker) (latencyMs : Nat) : CircuitBreaker :=
  (s.noteOutcome true latencyMs).checkRecovery

def failures (s : CircuitBreaker) : Nat := s.requestOutcomes.countP (!·.success)

/-- Any failure opens a half open circuit, and too many a closed one. -/
def checkFailure (s : CircuitBreaker) : CircuitBreaker :=
  match s.state with
  | .closed =>
      if s.config.failureThreshold ≤ s.consecutiveFailures then s.transitionState .opened
      else if s.config.minRequests ≤ s.requestOutcomes.length ∧
          s.config.errorRateExceeds s.failures s.requestOutcomes.length then
        s.transitionState .opened
      else s
  | .halfOpen => s.transitionState .opened
  | .opened => s

def recordFailure (s : CircuitBreaker) : CircuitBreaker := (s.noteOutcome false 0).checkFailure

/-- An error of the client says nothing about the server. -/
def isClientError (code : Int32) : Bool :=
  (-32099 ≤ code && code ≤ -32000) || (400 ≤ code && code < 500)

/-- Whether a response counts as a success. -/
def countsAsSuccess (s : CircuitBreaker) : Option Int32 → Bool
  | none => true
  | some code => !(s.config.trackErrors && !isClientError code)

/-- The response to a request came. -/
def settle (s : CircuitBreaker) (number : Nat) (error : Option Int32) : CircuitBreaker :=
  { s with
    awaiting := s.awaiting.erase number
    answers :=
      if s.state = .halfOpen ∧ s.countsAsSuccess error ∧ number ∈ s.probes ∧ number ∉ s.answers then
        s.answers ++ [number]
      else s.answers }

def onResponse (s : CircuitBreaker) (number : Nat) (error : Option Int32) : CircuitBreaker :=
  match s.arrivals[number]? with
  | none => s
  | some id =>
      let s := s.settle number error
      match s.pendingRequests.find? (requestIdToString id) with
      | none => s
      | some info =>
          let s :=
            if s.countsAsSuccess error then s.recordSuccess (s.elapsedMs info.startTime).toNat
            else s.recordFailure
          { s with pendingRequests := s.pendingRequests.erase (requestIdToString id) }

def onProtocolError (s : CircuitBreaker) : CircuitBreaker :=
  if s.config.trackErrors then s.recordFailure else s

def step (s : CircuitBreaker) : CircuitBreakerOp → CircuitBreaker
  | .request id => (s.admitRequest id).1
  | .respond number error => s.onResponse number error
  | .protocolError => s.onProtocolError
  | .advance nanoseconds => { s with now := s.now + nanoseconds }

end CircuitBreaker

end GopherMcp
