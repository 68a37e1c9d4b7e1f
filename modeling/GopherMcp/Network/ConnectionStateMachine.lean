import GopherMcp.Lib.Runs

/-!
# The connection state machine

A connection's state changes only along the transitions of a table, and one at a time: what asks for another
while one is under way is told no. An event that is raised while another is handled is put into a queue. The
callbacks the machine calls are left to the outside: what each of them raises, in the order they are called in,
is what is left of `replies`.
-/

namespace GopherMcp

inductive ConnectionMachineState
  | uninitialized | initialized
  | resolving | connecting | tcpConnected | handshakeInProgress
  | listening | accepting | accepted
  | connected | reading | writing | idle | processing
  | readDisabled | writeDisabled | paused
  | halfClosedLocal | halfClosedRemote | closing | draining | flushing
  | closed | error | aborted
  | reconnecting | waitingToReconnect | recovering
  deriving DecidableEq

inductive ConnectionMode
  | client | server | bidirectional
  deriving DecidableEq

inductive ConnectionStateMachineEvent
  | socketCreated | socketBound | socketListening | socketConnected | socketAccepted | socketClosed | socketError
  | readReady | writeReady | readComplete | writeComplete | endOfStream
  | handshakeStarted | handshakeComplete | handshakeFailed
  | filterChainInitialized | filterChainContinue | filterChainStop
  | connectionRequested | closeRequested | resetRequested | readDisableRequested | writeDisableRequested
  | connectTimeout | idleTimeout | drainTimeout
  | reconnectRequested | recoveryComplete | recoveryFailed
  deriving DecidableEq

inductive ConnectionCloseType
  | flushWrite | noFlush | flushWriteAndDelay | abort | abortReset
  deriving DecidableEq

namespace ConnectionMachineState

/-- `getValidTransitions`. -/
def validTransitions : ConnectionMachineState → List ConnectionMachineState
  | uninitialized => [initialized, connecting, error]
  | initialized => [resolving, connecting, listening, closed, error]
  | resolving => [connecting, error, waitingToReconnect]
  | connecting => [tcpConnected, error, waitingToReconnect, closed]
  | tcpConnected => [handshakeInProgress, connected, error, closing]
  | handshakeInProgress => [connected, error, closing, waitingToReconnect]
  | listening => [accepting, closed, error]
  | accepting => [accepted, listening, error]
  | accepted => [handshakeInProgress, connected, error, closing]
  | connected =>
      [reading, writing, idle, processing, readDisabled, writeDisabled, halfClosedLocal, halfClosedRemote, closing,
        flushing, draining, error]
  | reading => [connected, processing, writing, idle, readDisabled, halfClosedRemote, closing, error]
  | writing => [connected, reading, idle, writeDisabled, flushing, halfClosedLocal, closing, error]
  | idle => [reading, writing, connected, closing, error]
  | processing => [connected, reading, writing, idle, closing, error]
  | readDisabled => [connected, writing, paused, closing, error]
  | writeDisabled => [connected, reading, paused, closing, error]
  | paused => [connected, readDisabled, writeDisabled, closing, error]
  | halfClosedLocal => [reading, closing, closed, error]
  | halfClosedRemote => [writing, flushing, closing, closed, error]
  | closing => [draining, flushing, closed, error]
  | draining => [flushing, closed, error]
  | flushing => [closed, error]
  | closed => [initialized, waitingToReconnect]
  | error => [closed, waitingToReconnect, recovering]
  | aborted => [closed, waitingToReconnect]
  | reconnecting => [resolving, connecting, error, waitingToReconnect]
  | waitingToReconnect => [reconnecting, closed, error]
  | recovering => [connected, error, closed]

def canRead (state : ConnectionMachineState) : Bool :=
  state = connected || state = reading || state = idle || state = halfClosedLocal

def canWrite (state : ConnectionMachineState) : Bool :=
  state = connected || state = writing || state = idle || state = halfClosedRemote || state = flushing

def isTerminal (state : ConnectionMachineState) : Bool := state = closed || state = error || state = aborted

end ConnectionMachineState

/-- What is configured; of the callbacks, whether they are set. `reconnectBackoff` is what the multiplier makes of
a delay. -/
structure ConnectionStateMachineConfig where
  mode : ConnectionMode
  connectTimeout : Nat
  handshakeTimeout : Nat
  idleTimeout : Nat
  drainTimeout : Nat
  enableAutoReconnect : Bool
  maxReconnectAttempts : Nat
  initialReconnectDelay : Nat
  maxReconnectDelay : Nat
  reconnectBackoff : Nat → Nat
  enableHalfClose : Bool
  stateChangeCallback : Bool
  errorCallback : Bool
  recoveryCallback : Bool

/-- The machine; of its timers, which are armed. Beside it are kept the number of callbacks that `connect` was
given, those that were called, the states that were entered, the events that were raised and those that were
given to a handler. -/
structure ConnectionStateMachine where
  config : ConnectionStateMachineConfig
  currentState : ConnectionMachineState
  transitionInProgress : Bool
  processingEvents : Bool
  eventQueue : List ConnectionStateMachineEvent
  pendingCallbacks : List Nat
  listeners : Nat
  reconnectAttempts : Nat
  currentReconnectDelay : Nat
  consecutiveErrors : Nat
  readDisableCount : Nat
  writeDisableCount : Nat
  reconnectAddress : Bool
  connectTimer : Bool
  handshakeTimer : Bool
  idleTimer : Bool
  drainTimer : Bool
  reconnectTimer : Bool
  replies : List (List ConnectionStateMachineEvent)
  given : Nat
  called : List Nat
  entered : List ConnectionMachineState
  raised : List ConnectionStateMachineEvent
  dispatched : List ConnectionStateMachineEvent

namespace ConnectionStateMachine

def new (config : ConnectionStateMachineConfig) (listeners : Nat)
    (replies : List (List ConnectionStateMachineEvent)) : ConnectionStateMachine where
  config
  currentState := if config.mode = .server then .initialized else .uninitialized
  transitionInProgress := false
  processingEvents := false
  eventQueue := []
  pendingCallbacks := []
  listeners
  reconnectAttempts := 0
  currentReconnectDelay := config.initialReconnectDelay
  consecutiveErrors := 0
  readDisableCount := 0
  writeDisableCount := 0
  reconnectAddress := false
  connectTimer := false
  handshakeTimer := false
  idleTimer := false
  drainTimer := false
  reconnectTimer := false
  replies
  given := 0
  called := []
  entered := []
  raised := []
  dispatched := []

/-! ### Callbacks -/

/-- A callback is called while an event is handled: what it raises is queued. -/
def callBack (s : ConnectionStateMachine) : ConnectionStateMachine :=
  match s.replies with
  | [] => s
  | events :: rest =>
      { s with replies := rest, eventQueue := s.eventQueue ++ events, raised := s.raised ++ events }

def callBacks : Nat → ConnectionStateMachine → ConnectionStateMachine
  | 0, s => s
  | n + 1, s => callBacks n s.callBack

def callBackIf (s : ConnectionStateMachine) (set : Bool) : ConnectionStateMachine := if set then s.callBack else s

/-- The callbacks `connect` was given are called, and forgotten. -/
def callPending (s : ConnectionStateMachine) : ConnectionStateMachine :=
  { callBacks s.pendingCallbacks.length s with
    called := s.called ++ s.pendingCallbacks
    pendingCallbacks := [] }

def notifyStateChange (s : ConnectionStateMachine) : ConnectionStateMachine :=
  callBacks s.listeners (s.callBackIf s.config.stateChangeCallback)

/-! ### Timers -/

def startConnectTimer (s : ConnectionStateMachine) : ConnectionStateMachine :=
  if s.config.connectTimeout = 0 then s else { s with connectTimer := true }

def startHandshakeTimer (s : ConnectionStateMachine) : ConnectionStateMachine :=
  if s.config.handshakeTimeout = 0 then s else { s with handshakeTimer := true }

def startIdleTimer (s : ConnectionStateMachine) : ConnectionStateMachine :=
  if s.config.idleTimeout = 0 then s else { s with idleTimer := true }

def startDrainTimer (s : ConnectionStateMachine) : ConnectionStateMachine :=
  if s.config.drainTimeout = 0 then s else { s with drainTimer := true }

def startReconnectTimer (s : ConnectionStateMachine) : ConnectionStateMachine := { s with reconnectTimer := true }

/-! ### Transitions -/

def onStateExit (s : ConnectionStateMachine) : ConnectionMachineState → ConnectionStateMachine
  | .connecting => { s with connectTimer := false }
  | .handshakeInProgress => { s with handshakeTimer := false }
  | .connected | .idle => { s with idleTimer := false }
  | .draining => { s with drainTimer := false }
  | _ => s

/-- A state is entered: `onEnter` is what is done there. -/
def enter (s : ConnectionStateMachine) (state : ConnectionMachineState)
    (onEnter : ConnectionStateMachine → ConnectionStateMachine) : ConnectionStateMachine :=
  let left := s.onStateExit s.currentState
  (onEnter { left with currentState := state, entered := left.entered ++ [state] }).notifyStateChange

/-- A transition asked for while none is under way. -/
def transitionWith (s : ConnectionStateMachine) (state : ConnectionMachineState)
    (onEnter : ConnectionStateMachine → ConnectionStateMachine) : ConnectionStateMachine :=
  if state ∈ s.currentState.validTransitions then
    { ({ s with transitionInProgress := true }.enter state onEnter) with transitionInProgress := false }
  else s.callBackIf s.config.errorCallback

/-- What is done on entering any state but `Error`. -/
def onStateEnterCalm (state : ConnectionMachineState) (s : ConnectionStateMachine) : ConnectionStateMachine :=
  match state with
  | .connecting => s.startConnectTimer
  | .handshakeInProgress => s.startHandshakeTimer
  | .connected => s.callPending.startIdleTimer
  | .draining => s.startDrainTimer
  | .waitingToReconnect => s.startReconnectTimer
  | .closed => s.callPending
  | _ => s

/-- A transition to a state other than `Error`. -/
def transitionCalm (s : ConnectionStateMachine) (state : ConnectionMachineState) : ConnectionStateMachine :=
  if s.transitionInProgress then s else s.transitionWith state (onStateEnterCalm state)

def canReconnect (s : ConnectionStateMachine) : Bool :=
  s.config.enableAutoReconnect && s.reconnectAttempts < s.config.maxReconnectAttempts

def initiateReconnection (s : ConnectionStateMachine) : ConnectionStateMachine :=
  if s.canReconnect then
    { s with
      reconnectAttempts := s.reconnectAttempts + 1
      currentReconnectDelay :=
        min (s.config.reconnectBackoff s.currentReconnectDelay) s.config.maxReconnectDelay }.transitionCalm
          .waitingToReconnect
  else s.transitionCalm .closed

def onStateEnter (state : ConnectionMachineState) (s : ConnectionStateMachine) : ConnectionStateMachine :=
  match state with
  | .error =>
      let counted := { s with consecutiveErrors := s.consecutiveErrors + 1 }
      if counted.canReconnect then counted.initiateReconnection else counted
  | _ => onStateEnterCalm state s

def transitionTo (s : ConnectionStateMachine) (state : ConnectionMachineState) : ConnectionStateMachine :=
  if s.transitionInProgress then s else s.transitionWith state (onStateEnter state)

/-- Whatever is under way. -/
def forceTransition (s : ConnectionStateMachine) (state : ConnectionMachineState) : ConnectionStateMachine :=
  s.enter state (onStateEnter state)

/-! ### Handlers -/

def close (s : ConnectionStateMachine) : ConnectionCloseType → ConnectionStateMachine
  | .flushWrite => s.transitionTo .flushing
  | .noFlush | .abort | .abortReset => s.transitionTo .closing
  | .flushWriteAndDelay => s.startDrainTimer.transitionTo .draining

def reset (s : ConnectionStateMachine) : ConnectionStateMachine := s.forceTransition .aborted

def handleRecoverySuccess (s : ConnectionStateMachine) : ConnectionStateMachine :=
  { s with
    reconnectAttempts := 0
    currentReconnectDelay := s.config.initialReconnectDelay
    consecutiveErrors := 0 }.callBackIf s.config.recoveryCallback

def handleRecoveryFailure (s : ConnectionStateMachine) : ConnectionStateMachine :=
  (s.callBackIf s.config.errorCallback).transitionTo .error

/-- An event is given to its handler. -/
def dispatch (s : ConnectionStateMachine) (event : ConnectionStateMachineEvent) : ConnectionStateMachine :=
  let s := { s with dispatched := s.dispatched ++ [event] }
  match event with
  | .socketConnected =>
      if s.currentState = .connecting then (s.transitionTo .tcpConnected).transitionTo .connected else s
  | .socketError | .handshakeFailed | .connectTimeout => s.transitionTo .error
  | .socketClosed => if s.currentState.isTerminal then s else s.transitionTo .closed
  | .readReady => if s.currentState = .connected ∨ s.currentState = .idle then s.transitionTo .reading else s
  | .writeReady => if s.currentState = .connected ∨ s.currentState = .idle then s.transitionTo .writing else s
  | .endOfStream => s.transitionTo (if s.config.enableHalfClose then .halfClosedRemote else .closing)
  | .handshakeStarted => s.transitionTo .handshakeInProgress
  | .handshakeComplete => s.transitionTo .connected
  | .connectionRequested =>
      if s.currentState = .uninitialized ∨ s.currentState = .initialized then s.transitionTo .connecting else s
  | .closeRequested => if s.currentState.isTerminal then s else s.close .flushWrite
  | .resetRequested => s.reset
  | .readDisableRequested =>
      if s.currentState.canRead then
        let counted := { s with readDisableCount := s.readDisableCount + 1 }
        if counted.readDisableCount = 1 then counted.transitionTo .readDisabled else counted
      else s
  | .writeDisableRequested =>
      if s.currentState.canWrite then
        let counted := { s with writeDisableCount := s.writeDisableCount + 1 }
        if counted.writeDisableCount = 1 then counted.transitionTo .writeDisabled else counted
      else s
  | .idleTimeout => s.transitionTo .closing
  | .drainTimeout => s.transitionTo .closed
  | .reconnectRequested => s.initiateReconnection
  | .recoveryComplete => s.handleRecoverySuccess
  | .recoveryFailed => s.handleRecoveryFailure
  | .socketCreated | .socketBound | .socketListening | .socketAccepted | .readComplete | .writeComplete
  | .filterChainInitialized | .filterChainContinue | .filterChainStop => s

/-! ### The queue -/

mutual

/-- `none` when the fuel does not last; `processQueued` is the loop at its end. -/
def handleEvent : Nat → ConnectionStateMachine → ConnectionStateMachineEvent → Option ConnectionStateMachine
  | 0, _, _ => none
  | fuel + 1, s, event =>
      if s.processingEvents then some { s with eventQueue := s.eventQueue ++ [event] }
      else
        (processQueued fuel ({ s with processingEvents := true }.dispatch event)).map fun s =>
          { s with processingEvents := false }

def processQueued : Nat → ConnectionStateMachine → Option ConnectionStateMachine
  | 0, _ => none
  | fuel + 1, s =>
      match s.eventQueue with
      | [] => some s
      | event :: rest => (handleEvent fuel { s with eventQueue := rest } event).bind (processQueued fuel)

end

/-- Somebody outside raises an event. -/
def raiseEvent (fuel : Nat) (s : ConnectionStateMachine) (event : ConnectionStateMachineEvent) :
    Option ConnectionStateMachine :=
  handleEvent fuel { s with raised := s.raised ++ [event] } event

end ConnectionStateMachine

end GopherMcp
