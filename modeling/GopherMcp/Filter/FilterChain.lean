import GopherMcp.Filter.EndOfStream

/-!
# The state machine of a filter chain

A chain that is paused holds what arrives, in both directions, counts it, and gives it to its filters when it is
resumed. What arrives is either held or goes through the filters at once; which of the two, and whether the chain can
be resumed, is read off the state.
-/

namespace GopherMcp

inductive FilterChainState
  | uninitialized | initializing
  | configuring | connecting
  | idle | active
  | processingUpstream | processingDownstream
  | paused | buffering | draining | flushing
  | iteratingRead | iteratingWrite | stoppedIteration
  | aboveHighWatermark | belowLowWatermark
  | filterError | protocolError | recovering
  | closing | aborting | terminated
  | closed | failed
  deriving DecidableEq

namespace FilterChainState

/-- `getValidTransitions`. -/
def validTransitions : FilterChainState → List FilterChainState
  | uninitialized => [initializing, failed]
  | initializing => [configuring, failed]
  | configuring => [connecting, idle, active, failed]
  | connecting => [idle, active, failed]
  | active =>
      [idle, processingUpstream, processingDownstream, paused, buffering, iteratingRead, iteratingWrite, closing,
        aborting, filterError, failed]
  | processingUpstream => [active, idle, iteratingWrite, buffering, stoppedIteration, failed]
  | processingDownstream => [active, idle, iteratingRead, buffering, stoppedIteration, failed]
  | paused => [active, buffering, draining, closing, aboveHighWatermark, failed]
  | buffering => [draining, aboveHighWatermark, active, failed]
  | draining => [active, idle, belowLowWatermark, flushing, closing, failed]
  | flushing => [closing, terminated, failed]
  | iteratingRead => [active, stoppedIteration, processingDownstream, failed]
  | iteratingWrite => [active, stoppedIteration, processingUpstream, failed]
  | stoppedIteration => [active, iteratingRead, iteratingWrite, paused, failed]
  | aboveHighWatermark => [paused, draining, belowLowWatermark, failed]
  | idle => [active, closing, failed]
  | belowLowWatermark => [active, buffering, failed]
  | filterError => [recovering, closing, failed]
  | protocolError => [closing, aborting, failed]
  | recovering => [active, idle, failed]
  | closing => [flushing, terminated, closed]
  | aborting => [terminated, failed]
  | terminated => [closed, failed]
  | closed => []
  | failed => []

def canProcessData (state : FilterChainState) : Bool :=
  state = active || state = processingUpstream || state = processingDownstream || state = iteratingRead ||
    state = iteratingWrite

end FilterChainState

structure FilterChainConfig where
  maxBufferedBytes : Nat
  highWatermark : Nat
  lowWatermark : Nat

/-- A filter of either direction is what it does with the data and the end of the stream, by what is kept. -/
abbrev ChainFilter (σ : Type) := σ → Bytes → Bool → FilterResult σ

/-- The machine, with what its filters keep. Beside it is kept all that its filters were given, in either
direction. -/
structure FilterChainStateMachine (σ : Type) where
  config : FilterChainConfig
  currentState : FilterChainState
  readFilters : List (ChainFilter σ)
  writeFilters : List (ChainFilter σ)
  kept : σ
  readFilterIndex : Nat
  writeFilterIndex : Nat
  downstreamBuffer : Bytes
  upstreamBuffer : Bytes
  bufferedBytes : Nat
  aboveHighWatermark : Bool
  backpressureApplied : Bool
  readGiven : Bytes
  writeGiven : Bytes

/-- What became of data that went through the filters from a position on: the last status, the position to go on
from, what the filters keep now and what they left. -/
structure ChainIteration (σ : Type) where
  status : FilterStatus
  index : Nat
  kept : σ
  left : Bytes

/-- The loop over the filters of a direction. -/
def iterateFilters {σ : Type} (endStream : Bool) : List (ChainFilter σ) → Nat → σ → Bytes → ChainIteration σ
  | [], _, kept, data => ⟨.continue, 0, kept, data⟩
  | filter :: rest, index, kept, data =>
      let result := filter kept data endStream
      if result.status = .stopIteration then ⟨.stopIteration, index, result.kept, result.left⟩
      else iterateFilters endStream rest (index + 1) result.kept result.left

namespace FilterChainStateMachine

variable {σ : Type}

/-- A chain that has just been started. -/
def started (config : FilterChainConfig) (readFilters writeFilters : List (ChainFilter σ)) (kept : σ) :
    FilterChainStateMachine σ where
  config
  currentState := .active
  readFilters
  writeFilters
  kept
  readFilterIndex := 0
  writeFilterIndex := 0
  downstreamBuffer := []
  upstreamBuffer := []
  bufferedBytes := 0
  aboveHighWatermark := false
  backpressureApplied := false
  readGiven := []
  writeGiven := []

/-- `transitionTo`, with what is done on entering the state: the machine, and whether it is in the state. -/
def transitionWith (s : FilterChainStateMachine σ) (state : FilterChainState)
    (onEnter : FilterChainStateMachine σ → FilterChainStateMachine σ) : FilterChainStateMachine σ × Bool :=
  if s.currentState = state then (s, true)
  else if state ∈ s.currentState.validTransitions then (onEnter { s with currentState := state }, true)
  else (s, false)

/-- To a state that nothing is done on entering. -/
def transitionTo (s : FilterChainStateMachine σ) (state : FilterChainState) : FilterChainStateMachine σ × Bool :=
  s.transitionWith state id

/-! ### Watermarks -/

/-- Entering the state applies backpressure again, which is applied by then. -/
def applyBackpressure (s : FilterChainStateMachine σ) : FilterChainStateMachine σ :=
  if s.backpressureApplied then s else ({ s with backpressureApplied := true }.transitionTo .aboveHighWatermark).1

/-- Entering the state releases backpressure again, which is released by then. -/
def releaseBackpressure (s : FilterChainStateMachine σ) : FilterChainStateMachine σ :=
  if s.backpressureApplied then ({ s with backpressureApplied := false }.transitionTo .belowLowWatermark).1 else s

def checkWatermarks (s : FilterChainStateMachine σ) : FilterChainStateMachine σ :=
  if s.config.highWatermark ≤ s.bufferedBytes ∧ s.aboveHighWatermark = false then
    { s with aboveHighWatermark := true }.applyBackpressure
  else if s.bufferedBytes ≤ s.config.lowWatermark ∧ s.aboveHighWatermark = true then
    { s with aboveHighWatermark := false }.releaseBackpressure
  else s

/-! ### Filters -/

/-- Where the filters stopped, or all went on. -/
def settle (s : FilterChainStateMachine σ) : FilterStatus → FilterChainStateMachine σ
  | .stopIteration => (s.transitionTo .stoppedIteration).1
  | .continue => (s.transitionTo .active).1

/-- The machine, the status and what is left of the data. -/
def iterateReadFilters (s : FilterChainStateMachine σ) (data : Bytes) (endStream : Bool) :
    FilterChainStateMachine σ × FilterStatus × Bytes :=
  let s := (s.transitionTo .iteratingRead).1
  let done := iterateFilters endStream (s.readFilters.drop s.readFilterIndex) s.readFilterIndex s.kept data
  ({ s with kept := done.kept, readFilterIndex := done.index, readGiven := s.readGiven ++ data }.settle done.status,
    done.status, done.left)

def iterateWriteFilters (s : FilterChainStateMachine σ) (data : Bytes) (endStream : Bool) :
    FilterChainStateMachine σ × FilterStatus × Bytes :=
  let s := (s.transitionTo .iteratingWrite).1
  let done := iterateFilters endStream (s.writeFilters.drop s.writeFilterIndex) s.writeFilterIndex s.kept data
  ({ s with kept := done.kept, writeFilterIndex := done.index, writeGiven := s.writeGiven ++ data }.settle done.status,
    done.status, done.left)

/-- What is held downstream goes through the read filters. -/
def drainDownstream (s : FilterChainStateMachine σ) : FilterChainStateMachine σ :=
  if s.downstreamBuffer = [] then s
  else
    let done := s.iterateReadFilters s.downstreamBuffer false
    { done.1 with downstreamBuffer := done.2.2 }

/-- What is held upstream goes through the write filters. -/
def drainUpstream (s : FilterChainStateMachine σ) : FilterChainStateMachine σ :=
  if s.upstreamBuffer = [] then s
  else
    let done := s.iterateWriteFilters s.upstreamBuffer false
    { done.1 with upstreamBuffer := done.2.2 }

def drainBuffers (s : FilterChainStateMachine σ) : FilterChainStateMachine σ :=
  if s.bufferedBytes = 0 then s
  else
    let s := s.drainDownstream.drainUpstream
    { s with bufferedBytes := s.downstreamBuffer.length + s.upstreamBuffer.length }.checkWatermarks

/-! ### Operations -/

def pause (s : FilterChainStateMachine σ) : FilterChainStateMachine σ × Bool :=
  if s.currentState.canProcessData then s.transitionTo .paused else (s, false)

def resume (s : FilterChainStateMachine σ) : FilterChainStateMachine σ × Bool :=
  if s.currentState ≠ .paused then (s, false)
  else if s.bufferedBytes > 0 then s.transitionWith .draining drainBuffers
  else s.transitionTo .active

/-- The machine, and whether the data was taken. -/
def bufferData (s : FilterChainStateMachine σ) (data : Bytes) : FilterChainStateMachine σ × Bool :=
  if s.bufferedBytes + data.length > s.config.maxBufferedBytes then (s, false)
  else
    let s := { s with
      downstreamBuffer := s.downstreamBuffer ++ data
      bufferedBytes := s.bufferedBytes + data.length }
    let s := if s.currentState = .paused ∧ s.bufferedBytes > 0 then (s.transitionTo .buffering).1 else s
    (s.checkWatermarks, true)

def onData (s : FilterChainStateMachine σ) (data : Bytes) (endStream : Bool) :
    FilterChainStateMachine σ × FilterStatus :=
  if s.currentState = .paused ∨ s.currentState = .buffering then
    let held := s.bufferData data
    (held.1, if held.2 then .stopIteration else .continue)
  else if s.currentState.canProcessData then
    let done := (s.transitionTo .processingDownstream).1.iterateReadFilters data endStream
    (done.1, done.2.1)
  else (s, .continue)

def onWrite (s : FilterChainStateMachine σ) (data : Bytes) (endStream : Bool) :
    FilterChainStateMachine σ × FilterStatus :=
  if s.currentState = .paused ∨ s.currentState = .buffering then
    if s.bufferedBytes + data.length > s.config.maxBufferedBytes then (s, .continue)
    else
      ({ s with
        upstreamBuffer := s.upstreamBuffer ++ data
        bufferedBytes := s.bufferedBytes + data.length }.checkWatermarks, .stopIteration)
  else if s.currentState.canProcessData then
    let done := (s.transitionTo .processingUpstream).1.iterateWriteFilters data endStream
    (done.1, done.2.1)
  else (s, .continue)

end FilterChainStateMachine

end GopherMcp
