import GopherMcp.Core.Bytes

/-!
# The state machine of the HTTP codec

One machine serves both ends of a connection: a server waits for a request, receives it and sends the
response, and a client sends a request and receives the response. Leaving the old state and entering the
new one are wrapped around each other: what `onStateExit` does for the state that is left happens after
all that entering the next one does. Listeners are told inside, and an event they raise there is
not acted on but posted.
-/

namespace GopherMcp

inductive HttpCodecState
  | idle
  | waitingForRequest | receivingRequestHeaders | receivingRequestBody | sendingResponse
  | sendingRequest | waitingForResponse | receivingResponseHeaders | receivingResponseBody
  | closed | error
  deriving DecidableEq

inductive HttpCodecEvent
  | requestBegin | requestHeadersComplete | requestBodyData | requestComplete
  | responseBegin | responseHeadersComplete | responseBodyData | responseComplete
  | parseError | timeout | reset | close
  deriving DecidableEq

/-- Timeouts are in milliseconds, and one that is not positive means no timer. -/
structure HttpCodecStateMachineConfig where
  isServer : Bool
  headerTimeout : Int
  bodyTimeout : Int
  idleTimeout : Int
  enableKeepAlive : Bool
  deriving DecidableEq

/-- The field initialisers of the source, with the side. -/
def HttpCodecStateMachineConfig.default (isServer : Bool) : HttpCodecStateMachineConfig where
  isServer := isServer
  headerTimeout := 30000
  bodyTimeout := 60000
  idleTimeout := 120000
  enableKeepAlive := true

/-- The machine. Of each timer it holds whether the timer is armed, and of the posted transitions their
targets, oldest first. -/
structure HttpCodecStateMachine where
  config : HttpCodecStateMachineConfig
  currentState : HttpCodecState
  keepAliveEnabled : Bool
  expectRequestBody : Bool
  expectResponseBody : Bool
  headerTimer : Bool
  bodyTimer : Bool
  idleTimer : Bool
  totalTransitions : Nat
  requestsProcessed : Nat
  posted : List HttpCodecState
  deriving DecidableEq

namespace HttpCodecStateMachine

open HttpCodecState

def new (config : HttpCodecStateMachineConfig) : HttpCodecStateMachine where
  config := config
  currentState := if config.isServer then waitingForRequest else idle
  keepAliveEnabled := config.enableKeepAlive
  expectRequestBody := false
  expectResponseBody := false
  headerTimer := false
  bodyTimer := false
  idleTimer := decide (0 < config.idleTimeout)
  totalTransitions := 0
  requestsProcessed := 0
  posted := []

/-! ### Which state an event asks for -/

def serverState (s : HttpCodecStateMachine) (event : HttpCodecEvent) : HttpCodecState :=
  match s.currentState, event with
  | waitingForRequest, .requestBegin => receivingRequestHeaders
  | waitingForRequest, .close => closed
  | waitingForRequest, _ => waitingForRequest
  | receivingRequestHeaders, .requestHeadersComplete =>
      if s.expectRequestBody then receivingRequestBody else sendingResponse
  | receivingRequestHeaders, .parseError => error
  | receivingRequestHeaders, .timeout => error
  | receivingRequestHeaders, _ => receivingRequestHeaders
  | receivingRequestBody, .requestComplete => sendingResponse
  | receivingRequestBody, .parseError => error
  | receivingRequestBody, .timeout => error
  | receivingRequestBody, _ => receivingRequestBody
  | sendingResponse, .responseComplete => if s.keepAliveEnabled then waitingForRequest else closed
  | sendingResponse, .reset => waitingForRequest
  | sendingResponse, .close => closed
  | sendingResponse, _ => sendingResponse
  | closed, .reset => waitingForRequest
  | closed, _ => closed
  | error, .reset => waitingForRequest
  | error, .close => closed
  | error, _ => error
  -- a state of the client
  | _, _ => error

def clientState (s : HttpCodecStateMachine) (event : HttpCodecEvent) : HttpCodecState :=
  match s.currentState, event with
  | idle, .requestBegin => sendingRequest
  | idle, .close => closed
  | idle, _ => idle
  | sendingRequest, .requestHeadersComplete =>
      if s.expectRequestBody then sendingRequest else waitingForResponse
  | sendingRequest, .requestComplete => waitingForResponse
  | sendingRequest, .parseError => error
  | sendingRequest, _ => sendingRequest
  | waitingForResponse, .responseBegin => receivingResponseHeaders
  | waitingForResponse, .timeout => error
  | waitingForResponse, .close => closed
  | waitingForResponse, _ => waitingForResponse
  | receivingResponseHeaders, .responseHeadersComplete =>
      if s.expectResponseBody then receivingResponseBody
      else if s.keepAliveEnabled then idle else closed
  | receivingResponseHeaders, .parseError => error
  | receivingResponseHeaders, .timeout => error
  | receivingResponseHeaders, _ => receivingResponseHeaders
  | receivingResponseBody, .responseComplete => if s.keepAliveEnabled then idle else closed
  | receivingResponseBody, .parseError => error
  | receivingResponseBody, .timeout => error
  | receivingResponseBody, _ => receivingResponseBody
  | closed, .reset => idle
  | closed, _ => closed
  | error, .reset => idle
  | error, .close => closed
  | error, _ => error
  -- a state of the server
  | _, _ => error

/-- The state an event asks for; the current one where it asks for none. -/
def newState (s : HttpCodecStateMachine) (event : HttpCodecEvent) : HttpCodecState :=
  if s.config.isServer then s.serverState event else s.clientState event

/-- The table of `initializeTransitions`. -/
def validTransitions : HttpCodecState → List HttpCodecState
  | idle => [sendingRequest, waitingForRequest, closed, error]
  | waitingForRequest => [receivingRequestHeaders, closed, error]
  | receivingRequestHeaders => [receivingRequestBody, sendingResponse, error, closed]
  | receivingRequestBody => [sendingResponse, error, closed]
  | sendingResponse => [waitingForRequest, closed, error]
  | sendingRequest => [waitingForResponse, error, closed]
  | waitingForResponse => [receivingResponseHeaders, error, closed]
  | receivingResponseHeaders => [receivingResponseBody, idle, error, closed]
  | receivingResponseBody => [idle, error, closed]
  | closed => [waitingForRequest, idle]
  | error => [waitingForRequest, idle, closed]

def isTransitionValid (source target : HttpCodecState) : Bool :=
  (validTransitions source).contains target

/-! ### A transition -/

/-- What a listener raises during a transition is looked up in the new state, and waits. -/
def raise (s : HttpCodecStateMachine) (event : HttpCodecEvent) : HttpCodecStateMachine :=
  if s.newState event ≠ s.currentState ∧ isTransitionValid s.currentState (s.newState event) then
    { s with posted := s.posted ++ [s.newState event] }
  else s

def notifyStateChange (s : HttpCodecStateMachine) (raised : List HttpCodecEvent) : HttpCodecStateMachine :=
  raised.foldl raise s

/-- The callback first, then the timer of the state that is left. -/
def onStateExit (s : HttpCodecStateMachine) (state : HttpCodecState)
    (callback : HttpCodecStateMachine → HttpCodecStateMachine) : HttpCodecStateMachine :=
  match state with
  | receivingRequestHeaders | receivingResponseHeaders => { callback s with headerTimer := false }
  | receivingRequestBody | receivingResponseBody => { callback s with bodyTimer := false }
  | waitingForRequest => { callback s with idleTimer := false }
  | waitingForResponse => { callback s with headerTimer := false }
  | idle | sendingResponse | sendingRequest | closed | error => callback s

def onStateEnter (s : HttpCodecStateMachine) (state : HttpCodecState) : HttpCodecStateMachine :=
  match state with
  | receivingRequestHeaders | receivingResponseHeaders =>
      { s with headerTimer := s.headerTimer || decide (0 < s.config.headerTimeout) }
  | receivingRequestBody | receivingResponseBody =>
      { s with bodyTimer := s.bodyTimer || decide (0 < s.config.bodyTimeout) }
  | waitingForRequest =>
      { s with
        idleTimer := s.idleTimer || decide (0 < s.config.idleTimeout)
        expectRequestBody := false }
  | idle => { s with expectRequestBody := false, expectResponseBody := false }
  | waitingForResponse =>
      { s with headerTimer := s.headerTimer || decide (0 < s.config.headerTimeout) }
  | sendingResponse | sendingRequest | closed | error => s

def moved (s : HttpCodecStateMachine) (target : HttpCodecState) : HttpCodecStateMachine :=
  { s with
    currentState := target
    totalTransitions := s.totalTransitions + 1
    requestsProcessed :=
      if target = waitingForRequest ∧ s.currentState = sendingResponse then s.requestsProcessed + 1
      else s.requestsProcessed }

def executeTransition (s : HttpCodecStateMachine) (target : HttpCodecState) (raised : List HttpCodecEvent) :
    HttpCodecStateMachine :=
  s.onStateExit s.currentState fun inner =>
    ((inner.moved target).notifyStateChange raised).onStateEnter target

def transitionTo (s : HttpCodecStateMachine) (target : HttpCodecState) (raised : List HttpCodecEvent) :
    HttpCodecStateMachine :=
  if isTransitionValid s.currentState target then s.executeTransition target raised else s

def handleEvent (s : HttpCodecStateMachine) (event : HttpCodecEvent) (raised : List HttpCodecEvent) :
    HttpCodecStateMachine :=
  if s.newState event ≠ s.currentState then s.transitionTo (s.newState event) raised else s

def resetForNextRequest (s : HttpCodecStateMachine) (raised : List HttpCodecEvent) :
    HttpCodecStateMachine :=
  if s.currentState = sendingResponse ∨ s.currentState = waitingForRequest then s.handleEvent .reset raised
  else s.handleEvent .close raised

/-! ### Timers -/

def onHeaderTimeout (s : HttpCodecStateMachine) (raised : List HttpCodecEvent) : HttpCodecStateMachine :=
  if s.currentState = receivingRequestHeaders ∨ s.currentState = receivingResponseHeaders then
    s.handleEvent .timeout raised
  else s

def onBodyTimeout (s : HttpCodecStateMachine) (raised : List HttpCodecEvent) : HttpCodecStateMachine :=
  if s.currentState = receivingRequestBody ∨ s.currentState = receivingResponseBody then
    s.handleEvent .timeout raised
  else s

def onIdleTimeout (s : HttpCodecStateMachine) (raised : List HttpCodecEvent) : HttpCodecStateMachine :=
  if s.currentState = waitingForRequest then s.handleEvent .close raised else s

end HttpCodecStateMachine

/-- What can happen to the machine. Each comes with the events that listeners raise should it make a
transition; `posted` is the dispatcher running the oldest posted one. -/
inductive HttpCodecOp
  | event (event : HttpCodecEvent) (raised : List HttpCodecEvent)
  | posted (raised : List HttpCodecEvent)
  | headerTimer (raised : List HttpCodecEvent)
  | bodyTimer (raised : List HttpCodecEvent)
  | idleTimer (raised : List HttpCodecEvent)
  | resetForNextRequest (raised : List HttpCodecEvent)
  | setExpectRequestBody (expect : Bool)
  | setExpectResponseBody (expect : Bool)

namespace HttpCodecStateMachine

/-- A timer fires only while it is armed, and fires once. -/
def step (s : HttpCodecStateMachine) : HttpCodecOp → HttpCodecStateMachine
  | .event event raised => s.handleEvent event raised
  | .posted raised =>
      match s.posted with
      | [] => s
      | target :: rest => { s with posted := rest }.transitionTo target raised
  | .headerTimer raised =>
      if s.headerTimer then { s with headerTimer := false }.onHeaderTimeout raised else s
  | .bodyTimer raised => if s.bodyTimer then { s with bodyTimer := false }.onBodyTimeout raised else s
  | .idleTimer raised => if s.idleTimer then { s with idleTimer := false }.onIdleTimeout raised else s
  | .resetForNextRequest raised => s.resetForNextRequest raised
  | .setExpectRequestBody expect => { s with expectRequestBody := expect }
  | .setExpectResponseBody expect => { s with expectResponseBody := expect }

end HttpCodecStateMachine

end GopherMcp
