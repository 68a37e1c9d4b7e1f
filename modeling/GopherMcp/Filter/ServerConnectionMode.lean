import Mathlib.Tactic
import GopherMcp.Lib.Reentry
import GopherMcp.Lib.Runs

/-!
# What a server connection is used for

Each request makes a connection one of three things: a plain exchange, an event stream or a proxy that answers on somebody
else's stream. The first and the last end with their request, the stream with its connection. Whoever is told of a change
may call the machine again at once; a completion callback that is refused is called by a task of its own.
-/

namespace GopherMcp

inductive ServerConnMode
  | undetermined | plainHttp | sseStream | callbackProxy | error | closed
  deriving DecidableEq

inductive ServerConnEvent
  | plainHttpDetected | sseGetDetected | callbackPostDetected
  | sseHeadersWritten
  | streamError | close
  deriving DecidableEq

/-- Time points are in nanoseconds, the time in the mode before in milliseconds. -/
structure ServerConnTransitionContext where
  fromMode : ServerConnMode
  toMode : ServerConnMode
  triggeringEvent : ServerConnEvent
  timestamp : Nat
  reason : String
  timeInPreviousMode : Nat
  deriving DecidableEq

structure ServerConnTransitionResult where
  success : Bool
  errorMessage : String
  resultingMode : ServerConnMode

namespace ServerConnTransitionResult

def succeeded (mode : ServerConnMode) : ServerConnTransitionResult := ⟨true, "", mode⟩

def failed (error : String) : ServerConnTransitionResult := ⟨false, error, .error⟩

end ServerConnTransitionResult

/-- Of the configuration's callbacks, whether they are set. -/
structure ServerConnModeConfig where
  stateChangeCallback : Bool
  errorCallback : Bool

/-- What becomes of the mode: a transition, headers on the stream, a reset for the next request. -/
inductive ModeEntry
  | transition (context : ServerConnTransitionContext)
  | headersWritten
  | reset
  deriving DecidableEq

/-- What a callback is called with. The configuration's callback is the last of the listeners. -/
inductive ModeNotice
  | changed (listener : Nat) (context : ServerConnTransitionContext)
  | failed (reason : String)
  | completed (callback : Nat) (success : Bool)
  deriving DecidableEq

/-- Completion callbacks are numbered by who hands them in. Beside the members of the class there are the clock, the
completion callbacks that a posted task is to call, those that were handed in, all that became of the mode, and every call
of a callback. -/
structure ServerConnectionMode where
  config : ServerConnModeConfig
  listeners : Nat
  currentMode : ServerConnMode
  modeEntryTime : Nat
  stateHistory : List ServerConnTransitionContext
  totalTransitions : UInt64
  handshakeWriteDepth : Nat
  sseHeadersWritten : Bool
  transitionInProgress : Bool
  now : Nat
  posted : List Nat
  handedIn : List Nat
  entries : List ModeEntry
  notices : List ModeNotice

namespace ServerConnectionMode

def kMaxHistorySize : Nat := 50

def create (config : ServerConnModeConfig) (listeners : Nat) : ServerConnectionMode where
  config := config
  listeners := listeners
  currentMode := .undetermined
  modeEntryTime := 0
  stateHistory := []
  totalTransitions := 0
  handshakeWriteDepth := 0
  sseHeadersWritten := false
  transitionInProgress := false
  now := 0
  posted := []
  handedIn := []
  entries := []
  notices := []

/-! ### Queries -/

def isSseStream (m : ServerConnectionMode) : Bool := m.currentMode = .sseStream

def isCallbackProxy (m : ServerConnectionMode) : Bool := m.currentMode = .callbackProxy

def isPlainHttp (m : ServerConnectionMode) : Bool := m.currentMode = .plainHttp

def isWritingHandshake (m : ServerConnectionMode) : Bool := 0 < m.handshakeWriteDepth

def hasError (m : ServerConnectionMode) : Bool := m.currentMode = .error

def getTimeInCurrentMode (m : ServerConnectionMode) : Nat := (m.now - m.modeEntryTime) / 1000000

def getModeName : ServerConnMode → String
  | .undetermined => "Undetermined"
  | .plainHttp => "PlainHttp"
  | .sseStream => "SseStream"
  | .callbackProxy => "CallbackProxy"
  | .error => "Error"
  | .closed => "Closed"

def getEventName : ServerConnEvent → String
  | .plainHttpDetected => "PlainHttpDetected"
  | .sseGetDetected => "SseGetDetected"
  | .callbackPostDetected => "CallbackPostDetected"
  | .sseHeadersWritten => "SseHeadersWritten"
  | .streamError => "StreamError"
  | .close => "Close"

/-! ### Which transitions are made -/

/-- The switch of `handleEvent`: the new mode and the reason, where there is a transition to make. -/
def identify : ServerConnMode → ServerConnEvent → Option (ServerConnMode × String)
  | .undetermined, .plainHttpDetected => some (.plainHttp, "HTTP request on non-SSE path")
  | .undetermined, .sseGetDetected => some (.sseStream, "GET on SSE endpoint")
  | .undetermined, .callbackPostDetected => some (.callbackProxy, "POST on SSE callback endpoint")
  | .undetermined, .streamError => some (.error, "Error before mode determination")
  | .undetermined, .close => some (.closed, "Closed before mode determination")
  | .plainHttp, .streamError => some (.error, "Error in PlainHttp mode")
  | .plainHttp, .close => some (.closed, "PlainHttp connection closed")
  | .sseStream, .streamError => some (.error, "Error in SSE stream")
  | .sseStream, .close => some (.closed, "SSE stream closed")
  | .callbackProxy, .streamError => some (.error, "Error in callback proxy")
  | .callbackProxy, .close => some (.closed, "Callback proxy connection closed")
  | .error, .close => some (.closed, "Closed after error")
  | _, _ => none

def validTransitions : ServerConnMode → List ServerConnMode
  | .undetermined => [.plainHttp, .sseStream, .callbackProxy, .error, .closed]
  | .plainHttp => [.closed, .error]
  | .sseStream => [.closed, .error]
  | .callbackProxy => [.closed, .error]
  | .error => [.closed]
  | .closed => []

def isTransitionValid (fromMode toMode : ServerConnMode) : Bool := (validTransitions fromMode).contains toMode

/-! ### Making one -/

/-- The history is trimmed at its old end. -/
def recordTransition (m : ServerConnectionMode) (context : ServerConnTransitionContext) : ServerConnectionMode :=
  { m with
    stateHistory := (m.stateHistory ++ [context]).drop ((m.stateHistory ++ [context]).length - kMaxHistorySize) }

/-- Up to the listeners. -/
def enter (m : ServerConnectionMode) (context : ServerConnTransitionContext) : ServerConnectionMode :=
  recordTransition
    { m with
      currentMode := context.toMode
      modeEntryTime := m.now
      totalTransitions := m.totalTransitions + 1
      entries := m.entries ++ [.transition context] }
    context

/-- A task that calls a completion callback with a refusal. -/
def postRefusal (m : ServerConnectionMode) (callback : Option Nat) : ServerConnectionMode :=
  { m with posted := m.posted ++ callback.toList }

section Callbacks

variable {χ : Type} (callBack : ModeNotice → ServerConnectionMode × χ → ServerConnectionMode × χ)

def call (notice : ModeNotice) (w : ServerConnectionMode × χ) : ServerConnectionMode × χ :=
  callBack notice ({ w.1 with notices := w.1.notices ++ [notice] }, w.2)

/-- How many are told of a change. -/
def audience (m : ServerConnectionMode) : Nat := m.listeners + if m.config.stateChangeCallback then 1 else 0

def notifyStateChange (context : ServerConnTransitionContext) (w : ServerConnectionMode × χ) :
    ServerConnectionMode × χ :=
  (List.range w.1.audience).foldl (fun w listener => call callBack (.changed listener context) w) w

def reportError (newMode : ServerConnMode) (reason : String) (w : ServerConnectionMode × χ) : ServerConnectionMode × χ :=
  if newMode = .error && w.1.config.errorCallback then call callBack (.failed reason) w else w

def complete (callback : Option Nat) (success : Bool) (w : ServerConnectionMode × χ) : ServerConnectionMode × χ :=
  callback.elim w fun id => call callBack (.completed id success) w

/-- The completion ends the transition and is passed on. -/
def executeTransition (newMode : ServerConnMode) (event : ServerConnEvent) (reason : String) (callback : Option Nat)
    (w : ServerConnectionMode × χ) : ServerConnectionMode × χ :=
  let context : ServerConnTransitionContext :=
    ⟨w.1.currentMode, newMode, event, w.1.now, reason, w.1.getTimeInCurrentMode⟩
  let told := notifyStateChange callBack context (w.1.enter context, w.2)
  let reported := reportError callBack newMode reason told
  complete callBack callback true ({ reported.1 with transitionInProgress := false }, reported.2)

/-- What is done with an event once its callback has been taken. -/
def react (event : ServerConnEvent) (callback : Option Nat) (w : ServerConnectionMode × χ) :
    (ServerConnectionMode × χ) × ServerConnTransitionResult :=
  if w.1.currentMode = .sseStream ∧ event = .sseHeadersWritten then
    (complete callBack callback true
        ({ w.1 with sseHeadersWritten := true, entries := w.1.entries ++ [.headersWritten] }, w.2),
      .succeeded w.1.currentMode)
  else
    match identify w.1.currentMode event with
    | none =>
        ((w.1.postRefusal callback, w.2),
          .failed ("Event " ++ getEventName event ++ " not valid in mode " ++ getModeName w.1.currentMode))
    | some (newMode, reason) =>
        if !isTransitionValid w.1.currentMode newMode then
          ((w.1.postRefusal callback, w.2),
            .failed ("Invalid transition from " ++ getModeName w.1.currentMode ++ " to " ++ getModeName newMode))
        else if w.1.transitionInProgress then
          ((w.1.postRefusal callback, w.2), .failed "Transition in progress")
        else
          (executeTransition callBack newMode event reason callback ({ w.1 with transitionInProgress := true }, w.2),
            .succeeded newMode)

def handleEvent (event : ServerConnEvent) (callback : Option Nat) (w : ServerConnectionMode × χ) :
    (ServerConnectionMode × χ) × ServerConnTransitionResult :=
  react callBack event callback ({ w.1 with handedIn := w.1.handedIn ++ callback.toList }, w.2)

end Callbacks

/-- A stream keeps its connection, and what is closed stays closed. -/
def resetForNextRequest (m : ServerConnectionMode) : ServerConnectionMode :=
  if m.currentMode = .sseStream || m.currentMode = .undetermined || m.currentMode = .closed then m
  else
    { m with
      currentMode := .undetermined
      modeEntryTime := m.now
      sseHeadersWritten := false
      transitionInProgress := false
      entries := m.entries ++ [.reset] }

def beginHandshakeWrite (m : ServerConnectionMode) : ServerConnectionMode :=
  { m with handshakeWriteDepth := m.handshakeWriteDepth + 1 }

def endHandshakeWrite (m : ServerConnectionMode) : ServerConnectionMode :=
  { m with handshakeWriteDepth := m.handshakeWriteDepth - 1 }

/-- A call of one of the machine's operations. -/
inductive Call
  | handleEvent (event : ServerConnEvent) (callback : Option Nat)
  | resetForNextRequest
  | beginHandshakeWrite
  | endHandshakeWrite

section Calls

variable {χ : Type} (callBack : ModeNotice → ServerConnectionMode × χ → ServerConnectionMode × χ)

def perform (w : ServerConnectionMode × χ) : Call → ServerConnectionMode × χ
  | .handleEvent event callback => (handleEvent callBack event callback w).1
  | .resetForNextRequest => (w.1.resetForNextRequest, w.2)
  | .beginHandshakeWrite => (w.1.beginHandshakeWrite, w.2)
  | .endHandshakeWrite => (w.1.endHandshakeWrite, w.2)

/-- The first posted task runs. -/
def runPosted (w : ServerConnectionMode × χ) : ServerConnectionMode × χ :=
  match w.1.posted with
  | [] => w
  | callback :: rest => call callBack (.completed callback false) ({ w.1 with posted := rest }, w.2)

/-- What the event loop does: code of the application calls the machine, a posted task runs, time passes. -/
inductive Step
  | call (call : Call)
  | task
  | elapse (nanoseconds : Nat)

def step (w : ServerConnectionMode × χ) : Step → ServerConnectionMode × χ
  | .call call => perform callBack w call
  | .task => runPosted callBack w
  | .elapse nanoseconds => ({ w.1 with now := w.1.now + nanoseconds }, w.2)

end Calls

end ServerConnectionMode

end GopherMcp
