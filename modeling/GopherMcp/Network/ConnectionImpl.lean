import GopherMcp.Filter.FilterManager
import GopherMcp.Network.EnteredStates
import GopherMcp.Network.OpenConnection

/-!
# A connection between its calls to the outside

A connection calls its filters, its connection callbacks and its transport, and each of them may call the
connection before it returns. What the connection does once one has returned goes by its flags as they are then.
So the calls that have not returned are on a stack, with the places at which a function of the connection goes on
once another is done, and a step goes from one of these to the next. Which file events are enabled is left to the
outside: any of them may come. So is the idle timer, whose firing is a close call.
-/

namespace GopherMcp

inductive ConnectionEvent
  | connected | remoteClose | localClose | connectedZeroRtt
  deriving DecidableEq

inductive DelayedCloseState
  | none | closeAfterFlush | closeAfterFlushAndWait
  deriving DecidableEq

inductive PostIoAction
  | continue | close | writeAndClose
  deriving DecidableEq

structure TransportIoResult where
  ok : Bool
  action : PostIoAction
  bytesProcessed : Nat
  endStreamRead : Bool

def ConnectionEvent.isClose (event : ConnectionEvent) : Bool := event = .remoteClose || event = .localClose

def ConnectionCloseType.flushes (type : ConnectionCloseType) : Bool :=
  type = .flushWrite || type = .flushWriteAndDelay

namespace TransportIoResult

def fails (result : TransportIoResult) : Bool := !result.ok || result.action = .close

/-- There is no more to read. -/
def ends (result : TransportIoResult) : Bool :=
  result.action = .close || result.bytesProcessed = 0 && result.endStreamRead

end TransportIoResult

/-- A call to the outside that has not returned: to the transport; to the connection callbacks; to a read filter,
with what was read or with what another filter injected, or to a write filter with so many after it. -/
inductive CallOut
  | transportConnect
  | transportConnected (flush : Bool)
  | transportClose (event : ConnectionEvent)
  | transportWrite
  | socketWrite (bytesWritten : Nat)
  | socketRead
  | callbacks
  | onData (entry : Nat) (endStream : Bool)
  | injected (entry saved : Nat)
  | onWrite (left : Nat)
  deriving DecidableEq

/-- Where a function of the connection goes on: after `onRead`, in the loop of `doRead`, in
`closeThroughFilterManager`, in `onWriteReady` after a write or a connect, in `raiseEvent`, at the end of `write`,
and after each half of `onFileEvent`. -/
inductive ReturnPoint
  | readBufferProcessed
  | readMore
  | deferClose (event : ConnectionEvent)
  | wroteReady
  | flushConnected
  | raiseConnected (zeroRtt : Bool)
  | writing
  | handlingWrite (read : Bool)
  | handlingRead
  deriving DecidableEq

inductive Frame
  | callOut (call : CallOut)
  | returnTo (point : ReturnPoint)
  deriving DecidableEq

/-- What others notice of a connection: a close event is raised; bytes are handed to the socket, or to a read
filter. -/
inductive Happening
  | raised (event : ConnectionEvent)
  | sent (bytes : Bytes)
  | given (bytes : Bytes)
  deriving DecidableEq

namespace Happening

/-- What was handed to the socket, all together. -/
def sentBytes : List Happening → Bytes
  | [] => []
  | .sent bytes :: rest => bytes ++ sentBytes rest
  | .raised _ :: rest | .given _ :: rest => sentBytes rest

def isRaised : Happening → Bool
  | .raised _ => true
  | .sent _ | .given _ => false

end Happening

/-- The first close call: its type, the timeout then, what had been handed to the socket and what had not. -/
structure FirstClose where
  type : ConnectionCloseType
  timeout : Nat
  sent : Bytes
  pending : Bytes

/-- `none` as the timer is one that was not made, and a timer is armed or not; what is posted is closes. Beside the
connection are kept: what happened; the first close call; whether a flush was asked for, whether the teardown has
begun, whether the end of the peer's stream was read; and whether anything came in between. -/
structure ConnectionImpl where
  transport : TransportKind
  defersConnectedEvent : Bool
  initialized : Bool
  readFilters : Nat
  writeFilters : Nat
  state : ConnectionState
  machine : ConnectionMachineState
  connecting : Bool
  immediateErrorEvent : Option ConnectionEvent
  readHalfClosed : Bool
  writeHalfClosed : Bool
  socketCloseInProgress : Bool
  writeReady : Bool
  initialWriteDone : Bool
  processingReadBuffer : Bool
  readDisableCount : Nat
  delayedCloseState : DelayedCloseState
  delayedCloseTimeout : Nat
  delayedCloseTimer : Option Bool
  deferredDelete : Bool
  socketOpen : Bool
  readBuffer : Bytes
  writeBuffer : Bytes
  currentReadFilter : Nat
  posted : List ConnectionEvent
  frames : List Frame
  happened : List Happening
  firstClose : Option FirstClose
  flushAsked : Bool
  tornDown : Bool
  peerEnded : Bool
  disturbed : Bool

/-- What the outside may call. -/
inductive ConnectionCall
  | close (type : ConnectionCloseType)
  | write (data : Bytes) (endStream : Bool)
  | readDisable (disable : Bool)
  | setDelayedCloseTimeout (timeout : Nat)
  | connect
  | raiseEvent (event : ConnectionEvent)
  | flushWriteBuffer
  | continueReading
  | injectReadDataToFilterChain (data : Bytes)

/-- What comes of connecting the socket. -/
inductive ConnectOutcome
  | immediate | inProgress | failed
  deriving DecidableEq

/-- What a call to the outside returns. -/
inductive CallReply
  | done
  | connect (accepted : Bool) (outcome : ConnectOutcome)
  | io (result : TransportIoResult)
  | filter (status : FilterStatus) (rest : Bytes)

/-- What happens to a connection: the outside calls it; takes bytes to be written, or puts in bytes that were read;
returns, or throws. The connection goes on; a file event comes, with whether the socket is in error; a posted close
is run; a timer fires, its own or the machine's. -/
inductive ConnectionOp
  | call (call : ConnectionCall)
  | takes (count : Nat)
  | receives (bytes : Bytes)
  | returns (reply : CallReply)
  | throws
  | goesOn
  | fileEvent (read write closed socketError : Bool)
  | runPosted
  | delayedCloseTimeout
  | connectTimeout

namespace ConnectionImpl

/-- A connection of a server is connected, one of a client is not. -/
def new (transport : TransportKind) (defersConnectedEvent initialized : Bool) (readFilters writeFilters : Nat)
    (connected : Bool) (delayedCloseTimeout : Nat) : ConnectionImpl where
  transport
  defersConnectedEvent
  initialized
  readFilters
  writeFilters
  state := .open
  machine := .uninitialized
  connecting := !connected
  immediateErrorEvent := none
  readHalfClosed := false
  writeHalfClosed := false
  socketCloseInProgress := false
  writeReady := false
  initialWriteDone := false
  processingReadBuffer := false
  readDisableCount := 0
  delayedCloseState := .none
  delayedCloseTimeout
  delayedCloseTimer := none
  deferredDelete := false
  socketOpen := true
  readBuffer := []
  writeBuffer := []
  currentReadFilter := readFilters
  posted := []
  frames := []
  happened := []
  firstClose := none
  flushAsked := false
  tornDown := false
  peerEnded := false
  disturbed := false

def callOut (s : ConnectionImpl) (call : CallOut) : ConnectionImpl := { s with frames := .callOut call :: s.frames }

def returnTo (s : ConnectionImpl) (point : ReturnPoint) : ConnectionImpl :=
  { s with frames := .returnTo point :: s.frames }

/-- An event for the state machine, which sets the state of the connection by what it enters. -/
def handleEvent (s : ConnectionImpl) (event : ConnectionStateMachineEvent) : ConnectionImpl :=
  { s with
    machine := (s.machine.entered event).getLastD s.machine
    state := (s.machine.entered event).foldl (fun state entered => entered.stateOf state) s.state }

/-! ### The teardown -/

def timerArmed (s : ConnectionImpl) : Bool := s.delayedCloseTimer = some true

/-- The timer is made when it is first needed; changing the mode of a flush keeps its deadline. -/
def transitionDelayedCloseState (s : ConnectionImpl) (state : DelayedCloseState) : ConnectionImpl :=
  if s.delayedCloseState = state then s
  else
    { s with
      delayedCloseState := state
      delayedCloseTimer :=
        if state ≠ .none ∧ 0 < s.delayedCloseTimeout then some true else s.delayedCloseTimer.map fun _ => false }

/-- `closeSocket` up to the transport's own. -/
def closeSocket (s : ConnectionImpl) (event : ConnectionEvent) : ConnectionImpl :=
  if s.state = .closed ∨ s.socketCloseInProgress then s
  else
    (({ s with socketCloseInProgress := true, state := .closing, tornDown := true }.handleEvent
      .socketClosed).transitionDelayedCloseState .none).callOut (.transportClose event)

def raiseConnectionEvent (s : ConnectionImpl) (event : ConnectionEvent) : ConnectionImpl :=
  { s with
    happened := if event.isClose then s.happened ++ [Happening.raised event] else s.happened }.callOut .callbacks

/-- `closeSocket` from there on. What the read filters are still reading is left to them. -/
def finishClose (s : ConnectionImpl) (event : ConnectionEvent) : ConnectionImpl :=
  { s with
    writeBuffer := []
    readBuffer := if s.processingReadBuffer then s.readBuffer else []
    socketOpen := false
    state := .closed
    socketCloseInProgress := false }.raiseConnectionEvent event

/-! ### The read filters -/

/-- A read filter is given what was read. -/
def onData (s : ConnectionImpl) (entry : Nat) (endStream : Bool) : ConnectionImpl :=
  { s with happened := s.happened ++ [Happening.given s.readBuffer] }.callOut (.onData entry endStream)

def onContinueReading (s : ConnectionImpl) : ConnectionImpl :=
  if s.currentReadFilter < s.readFilters then
    { s with currentReadFilter := s.readFilters }.onData s.currentReadFilter s.readHalfClosed
  else s

def onRead (s : ConnectionImpl) : ConnectionImpl :=
  if s.initialized then { s with currentReadFilter := 0 }.onContinueReading else s

def processReadBuffer (s : ConnectionImpl) : ConnectionImpl :=
  if s.readBuffer.isEmpty then s
  else if s.processingReadBuffer then s.onRead
  else ({ s with processingReadBuffer := true }.returnTo .readBufferProcessed).onRead

/-- Where an injection starts. -/
def injectStart (s : ConnectionImpl) : Nat :=
  if s.currentReadFilter = s.readFilters then 0 else s.currentReadFilter + 1

/-- A read filter is given what another one injected. -/
def onInjected (s : ConnectionImpl) (entry saved : Nat) (data : Bytes) : ConnectionImpl :=
  { s with happened := s.happened ++ [Happening.given data] }.callOut (.injected entry saved)

def injectReadDataToFilterChain (s : ConnectionImpl) (data : Bytes) : ConnectionImpl :=
  if s.initialized = true ∧ data ≠ [] ∧ s.injectStart < s.readFilters then
    { s with currentReadFilter := s.readFilters }.onInjected s.injectStart s.currentReadFilter data
  else s

/-- What was read goes to the filters first; the close itself waits until the stack is unwound. -/
def closeThroughFilterManager (s : ConnectionImpl) (event : ConnectionEvent) : ConnectionImpl :=
  if s.state = .closed then s
  else
    let s := s.returnTo (.deferClose event)
    if s.processingReadBuffer then s else s.processReadBuffer

/-! ### Writing -/

/-- Only the end of the peer's stream is waited for. -/
def waitingForPeerClose (s : ConnectionImpl) : Bool :=
  s.state = .closing && s.delayedCloseState = .closeAfterFlushAndWait && s.writeBuffer.isEmpty

/-- A timer that was made is armed again after progress. -/
def rearm (s : ConnectionImpl) (bytesWritten : Nat) : ConnectionImpl :=
  if s.delayedCloseTimer.isSome ∧ 0 < s.delayedCloseTimeout ∧ 0 < bytesWritten then
    { s with delayedCloseTimer := some true }
  else s

def finishFlushIfDrained (s : ConnectionImpl) (bytesWritten : Nat) : ConnectionImpl :=
  if s.state ≠ .closing ∨ s.delayedCloseState = .none then s
  else
    let s := s.rearm bytesWritten
    if s.writeBuffer ≠ [] ∨ s.waitingForPeerClose then s else s.closeThroughFilterManager .localClose

/-- `doWrite` once the transport was asked: nothing is left, or the loop goes on. -/
def writeMore (s : ConnectionImpl) (bytesWritten : Nat) : ConnectionImpl :=
  if s.writeBuffer.isEmpty then s.finishFlushIfDrained bytesWritten else s.callOut (.socketWrite bytesWritten)

def doWrite (s : ConnectionImpl) : ConnectionImpl :=
  if s.state = .closed then s
  else if s.transport = .raw then s.writeMore 0
  else s.callOut .transportWrite

/-- The transport was asked before the loop. -/
def transportWrote (s : ConnectionImpl) (result : TransportIoResult) : ConnectionImpl :=
  if result.fails then s.closeSocket .localClose else s.writeMore result.bytesProcessed

/-- The socket, or the transport, was asked in the loop. Nothing taken means that it would block. -/
def socketWrote (s : ConnectionImpl) (bytesWritten : Nat) (result : TransportIoResult) : ConnectionImpl :=
  if result.fails then s.closeThroughFilterManager .localClose
  else if result.bytesProcessed = 0 ∧ result.action = .continue then
    s.finishFlushIfDrained (bytesWritten + result.bytesProcessed)
  else s.writeMore (bytesWritten + result.bytesProcessed)

/-- The bytes the write filters left are put in the buffer. -/
def put (s : ConnectionImpl) (data : Bytes) : ConnectionImpl :=
  let s := { s with writeBuffer := s.writeBuffer ++ data }
  if s.writeBuffer ≠ [] ∧ (s.writeReady ∨ s.transport = .stdio) then s.doWrite else s

def write (s : ConnectionImpl) (data : Bytes) (endStream : Bool) : ConnectionImpl :=
  if s.state ≠ .open ∨ s.writeHalfClosed then s
  else
    let s := { s with writeHalfClosed := endStream }.returnTo .writing
    if s.initialized = true ∧ 0 < s.writeFilters then s.callOut (.onWrite (s.writeFilters - 1)) else s.put data

/-- A write filter has returned. -/
def wroteThrough (s : ConnectionImpl) (left : Nat) (status : FilterStatus) (rest : Bytes) : ConnectionImpl :=
  if status = .stopIteration then s
  else match left with
    | 0 => s.put rest
    | left + 1 => s.callOut (.onWrite left)

/-! ### Closing -/

/-- The first close call is kept. -/
def noteClose (s : ConnectionImpl) (type : ConnectionCloseType) : ConnectionImpl :=
  { s with
    firstClose := s.firstClose.or (some
      { type, timeout := s.delayedCloseTimeout, sent := Happening.sentBytes s.happened, pending := s.writeBuffer })
    flushAsked := type.flushes || s.flushAsked }

def startFlush (s : ConnectionImpl) (state : DelayedCloseState) : ConnectionImpl :=
  { s with state := .closing, writeHalfClosed := true }.transitionDelayedCloseState state

def close (s : ConnectionImpl) (type : ConnectionCloseType) : ConnectionImpl :=
  if s.state = .closed ∨ s.socketCloseInProgress then s
  else
    let s := (s.noteClose type).handleEvent .closeRequested
    match type with
    | .noFlush | .abort | .abortReset => s.closeSocket .localClose
    | .flushWrite =>
        let s := s.startFlush .closeAfterFlush
        if s.writeBuffer.isEmpty then s.closeSocket .localClose else s.doWrite
    | .flushWriteAndDelay =>
        (s.startFlush
          (if 0 < s.delayedCloseTimeout then .closeAfterFlushAndWait else .closeAfterFlush)).doWrite

/-- The filters end a connection whose peer has, unless one of them stopped. -/
def dataReturned (s : ConnectionImpl) (entry : Nat) (endStream : Bool) (status : FilterStatus) (rest : Bytes) :
    ConnectionImpl :=
  let s := { s with readBuffer := rest }
  if status = .stopIteration ∨ rest = [] then { s with currentReadFilter := entry }
  else if entry + 1 < s.readFilters then s.onData (entry + 1) endStream
  else
    let s := { s with currentReadFilter := s.readFilters }
    if endStream then s.close .flushWrite else s

def injectedReturned (s : ConnectionImpl) (entry saved : Nat) (status : FilterStatus) (rest : Bytes) :
    ConnectionImpl :=
  if status = .stopIteration ∨ rest = [] ∨ ¬ entry + 1 < s.readFilters then { s with currentReadFilter := saved }
  else s.onInjected (entry + 1) saved rest

/-! ### Reading -/

/-- The loop of `doRead`. -/
def readMore (s : ConnectionImpl) : ConnectionImpl :=
  if s.state = .open ∧ s.readDisableCount = 0 ∨ s.waitingForPeerClose then s.callOut .socketRead else s

def doRead (s : ConnectionImpl) : ConnectionImpl :=
  if ¬ s.waitingForPeerClose ∧ (0 < s.readDisableCount ∨ s.state ≠ .open) then s else s.readMore

/-- What was read while the peer's end is waited for is thrown away. -/
def socketWasRead (s : ConnectionImpl) (result : TransportIoResult) : ConnectionImpl :=
  if !result.ok then s.closeThroughFilterManager .remoteClose
  else if result.action = .close then { s with peerEnded := true }.closeThroughFilterManager .remoteClose
  else if result.bytesProcessed = 0 then
    if result.endStreamRead then
      { s with peerEnded := true, readHalfClosed := true }.closeThroughFilterManager .remoteClose
    else s
  else if s.waitingForPeerClose then { s with readBuffer := [] }.readMore
  else (s.returnTo .readMore).processReadBuffer

/-! ### Connecting and events -/

/-- The socket is connected: the transport is told, and then, unless the transport does that later, the callbacks. -/
def completeConnect (s : ConnectionImpl) (flush : Bool) : ConnectionImpl :=
  ({ s with connecting := false, state := .open }.handleEvent .socketConnected).callOut (.transportConnected flush)

def transportWasTold (s : ConnectionImpl) (flush : Bool) : ConnectionImpl :=
  let s := if flush then s.returnTo .flushConnected else s
  if s.defersConnectedEvent then s else s.raiseConnectionEvent .connected

def connect (s : ConnectionImpl) : ConnectionImpl :=
  ({ s with connecting := true }.handleEvent .connectionRequested).callOut .transportConnect

/-- `doConnect` once the transport has answered. A socket that was closed cannot be connected. -/
def socketConnect (s : ConnectionImpl) (accepted : Bool) (outcome : ConnectOutcome) : ConnectionImpl :=
  if !accepted then { s with immediateErrorEvent := some .localClose }
  else match if s.socketOpen then outcome else .failed with
    | .immediate => { s with writeReady := true }.completeConnect false
    | .inProgress => s
    | .failed => { s with connecting := false, immediateErrorEvent := some .remoteClose }

def onWriteReady (s : ConnectionImpl) (socketError : Bool) : ConnectionImpl :=
  let s := { s with writeReady := true }
  if !s.connecting && s.writeBuffer.isEmpty && !s.writeHalfClosed && s.initialWriteDone then s
  else
    let s := s.handleEvent .writeReady
    if s.connecting then
      if socketError then
        { s with
          connecting := false
          immediateErrorEvent := some .remoteClose
          posted := s.posted ++ [.remoteClose] }
      else s.completeConnect true
    else (s.returnTo .wroteReady).doWrite

def onFileEvent (s : ConnectionImpl) (read write closed socketError : Bool) : ConnectionImpl :=
  if s.state = .closed ∨ s.socketCloseInProgress then s
  else match s.immediateErrorEvent with
    | some event => s.closeSocket event
    | none =>
        if closed then s.closeSocket .remoteClose
        else
          let s := s.returnTo (.handlingWrite read)
          if write then s.onWriteReady socketError else s

/-- What is pending is written before the connection is called connected. -/
def raiseConnected (s : ConnectionImpl) (zeroRtt : Bool) : ConnectionImpl :=
  let s := { s with writeReady := true }.returnTo (.raiseConnected zeroRtt)
  if s.writeBuffer.isEmpty then s else s.doWrite

def raiseEvent (s : ConnectionImpl) (event : ConnectionEvent) : ConnectionImpl :=
  match event with
  | .connected => s.raiseConnected false
  | .connectedZeroRtt => s.raiseConnected true
  | .remoteClose | .localClose => s.raiseConnectionEvent event

def readDisable (s : ConnectionImpl) (disable : Bool) : ConnectionImpl :=
  { s with readDisableCount := if disable then s.readDisableCount + 1 else s.readDisableCount - 1 }

/-! ### Steps -/

def called (s : ConnectionImpl) : ConnectionCall → ConnectionImpl
  | .close type => s.close type
  | .write data endStream => s.write data endStream
  | .readDisable disable => s.readDisable disable
  | .setDelayedCloseTimeout timeout => { s with delayedCloseTimeout := timeout }
  | .connect => s.connect
  | .raiseEvent event => s.raiseEvent event
  | .flushWriteBuffer => s.doWrite
  | .continueReading => s.onContinueReading
  | .injectReadDataToFilterChain data => s.injectReadDataToFilterChain data

/-- A call to the outside returns. -/
def resume (s : ConnectionImpl) : CallOut → CallReply → Option ConnectionImpl
  | .transportConnect, .connect accepted outcome => some (s.socketConnect accepted outcome)
  | .transportConnected flush, .done => some (s.transportWasTold flush)
  | .transportClose event, .done => some (s.finishClose event)
  | .transportWrite, .io result => some (s.transportWrote result)
  | .socketWrite bytesWritten, .io result => some (s.socketWrote bytesWritten result)
  | .socketRead, .io result => some (s.socketWasRead result)
  | .callbacks, .done => some s
  | .onData entry endStream, .filter status rest => some (s.dataReturned entry endStream status rest)
  | .injected entry saved, .filter status rest => some (s.injectedReturned entry saved status rest)
  | .onWrite left, .filter status rest => some (s.wroteThrough left status rest)
  | _, _ => none

/-- The connection goes on. -/
def proceed (s : ConnectionImpl) : ReturnPoint → ConnectionImpl
  | .readBufferProcessed =>
      { s with processingReadBuffer := false, readBuffer := if s.state = .open then s.readBuffer else [] }
  | .readMore => s.readMore
  | .deferClose event =>
      if s.deferredDelete then s else { s with deferredDelete := true, posted := s.posted ++ [event] }
  | .wroteReady => { s with initialWriteDone := true }
  | .flushConnected => s.doWrite
  | .raiseConnected zeroRtt => s.raiseConnectionEvent (if zeroRtt then .connectedZeroRtt else .connected)
  | .writing => s
  | .handlingWrite read =>
      if (s.state = .open ∨ s.waitingForPeerClose) ∧ s.socketOpen ∧ read then
        ((s.returnTo .handlingRead).handleEvent .readReady).doRead
      else s
  | .handlingRead => s

/-- An exception is caught in `write` and in `onFileEvent`, and reaches the outside where a call to the connection
was made from. What the connection was to go on with in between is lost. -/
def unwind (s : ConnectionImpl) : List Frame → ConnectionImpl
  | [] => { s with frames := [] }
  | .callOut call :: rest => { s with frames := .callOut call :: rest }
  | .returnTo point :: rest =>
      match point with
      | .writing | .handlingWrite _ | .handlingRead => { s with frames := rest }.closeSocket .localClose
      | .readBufferProcessed => unwind { s with processingReadBuffer := false } rest
      | _ => unwind s rest

/-- The outside throws; what the transport throws while it is closed is dropped. -/
def thrown (s : ConnectionImpl) : CallOut → ConnectionImpl
  | .transportClose event => s.finishClose event
  | _ => s.unwind s.frames

/-- The outside may call the connection while nothing else is under way, and from a call to it that has not returned.
A raw transport calls nothing. -/
def mayCall (s : ConnectionImpl) : Bool :=
  match s.frames with
  | [] | .callOut .callbacks :: _ | .callOut (.onData ..) :: _ | .callOut (.injected ..) :: _
  | .callOut (.onWrite _) :: _ => true
  | .callOut _ :: _ => s.transport ≠ .raw
  | .returnTo _ :: _ => false

/-- Bytes to be written are taken. -/
def take (s : ConnectionImpl) (count : Nat) : ConnectionImpl :=
  { s with
    writeBuffer := s.writeBuffer.drop count
    happened := s.happened ++ [Happening.sent (s.writeBuffer.take count)] }

/-- Bytes can be taken. -/
def isWriting (s : ConnectionImpl) : Bool :=
  match s.frames with
  | .callOut .transportWrite :: _ | .callOut (.socketWrite _) :: _ => true
  | _ => false

def isReading (s : ConnectionImpl) : Bool :=
  match s.frames with
  | .callOut .socketRead :: _ => true
  | _ => false

def afterReturn (s : ConnectionImpl) (reply : CallReply) : ConnectionImpl :=
  match s.frames with
  | .callOut call :: rest => ({ s with frames := rest }.resume call reply).getD s
  | _ => s

def afterThrow (s : ConnectionImpl) : ConnectionImpl :=
  match s.frames with
  | .callOut call :: rest => { s with frames := rest }.thrown call
  | _ => s

def goOn (s : ConnectionImpl) : ConnectionImpl :=
  match s.frames with
  | .returnTo point :: rest => { s with frames := rest }.proceed point
  | _ => s

def runPosted (s : ConnectionImpl) : ConnectionImpl :=
  match s.posted with
  | [] => s
  | event :: rest => { s with posted := rest }.closeSocket event

/-- The dispatcher runs what is next only when nothing is under way. -/
def act (s : ConnectionImpl) : ConnectionOp → ConnectionImpl
  | .call call => if s.mayCall then s.called call else s
  | .takes count => if s.isWriting then s.take count else s
  | .receives bytes => if s.isReading then { s with readBuffer := s.readBuffer ++ bytes } else s
  | .returns reply => s.afterReturn reply
  | .throws => s.afterThrow
  | .goesOn => s.goOn
  | .fileEvent read write closed socketError =>
      if s.frames = [] then s.onFileEvent read write closed socketError else s
  | .runPosted => if s.frames = [] then s.runPosted else s
  | .delayedCloseTimeout =>
      if s.frames = [] ∧ s.timerArmed then
        { s with delayedCloseTimer := some false }.closeSocket .localClose
      else s
  | .connectTimeout => if s.frames = [] ∧ s.machine = .connecting then s.handleEvent .connectTimeout else s

/-- What comes between a flush and its end: an error of the socket or the transport, the end of the peer's stream
while it is not waited for, a timeout, an exception, or a close that does not flush. -/
def disturbs (s : ConnectionImpl) : ConnectionOp → Bool
  | .call (.close type) => !type.flushes
  | .returns (.connect accepted outcome) => !accepted || outcome = .failed
  | .returns (.io result) =>
      s.isWriting && result.fails || s.isReading && (!result.ok || result.ends && !s.waitingForPeerClose)
  | .fileEvent _ write closed socketError => closed || write && s.connecting && socketError
  | .throws | .delayedCloseTimeout | .connectTimeout => true
  | _ => false

def step (s : ConnectionImpl) (op : ConnectionOp) : ConnectionImpl :=
  { s.act op with disturbed := s.disturbed || s.disturbs op }

end ConnectionImpl

end GopherMcp
