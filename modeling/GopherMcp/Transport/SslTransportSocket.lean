import GopherMcp.Core.Bytes
import GopherMcp.Network.ConnectionImpl
import GopherMcp.Transport.SslStateMachine

/-!
# The TLS transport socket

The socket stands between the connection, which reads and writes plaintext, and an inner socket, which carries what OpenSSL
takes and makes. Between OpenSSL and the inner socket lies a pair of buffers of fixed size; what does not fit into them, or
is not taken from them, is carried over. What the inner socket and OpenSSL answer, and what the connection does when it is
told of an event, is read off a script.
-/

namespace GopherMcp

/-- An answer of the inner socket's `doRead`: the bytes it gave, and whether the connection is to be closed. -/
structure InnerRead where
  bytes : Bytes
  close : Bool

/-- An answer of the inner socket's `doWrite`: the bytes it processed, and whether it failed. -/
structure InnerWrite where
  processed : Nat
  close : Bool

/-- A call of OpenSSL: so many bytes it takes from its buffer, these it puts into it, and this it answers. -/
structure SslCall (α : Type) where
  consumes : Nat
  produces : Bytes
  answer : α

/-- Of `SSL_do_handshake`; a completed handshake is followed by the answer of `SSL_get_verify_result`, with what is wrong
if something is. -/
inductive HandshakeAnswer
  | complete (verifyResult : Option String)
  | wantRead
  | wantWrite
  | wantX509Lookup (text : String)
  | failed (text : String)

/-- Of `SSL_read`; data is followed by whether more is pending. -/
inductive SslReadAnswer
  | data (bytes : Bytes) (pending : Bool)
  | wantRead
  | zeroReturn
  | failed (text : String)

/-- Of `SSL_write`. -/
inductive SslWriteAnswer
  | bytes (n : Nat)
  | wantWrite
  | wantRead
  | failed (text : String)

/-- Of `SSL_shutdown`. -/
inductive SslShutdownAnswer
  | sent
  | complete
  | again
  | failed

/-- A call of one of the socket's operations, with the error of the inner socket's `connect` or of `initializeSsl` if it
fails; `offer` puts bytes into the buffer the connection writes from. -/
inductive SslOperation
  | connect (innerError : Option String)
  | onConnected (initializeError : Option String)
  | doRead
  | doWrite (endStream : Bool)
  | closeSocket (event : ConnectionEvent)
  | setTransportSocketCallbacks
  | setHandshakeCallbacks
  | offer (bytes : Bytes)

/-- What is to come from outside. -/
structure SslScript where
  innerReads : List InnerRead
  innerWrites : List InnerWrite
  handshakes : List (SslCall HandshakeAnswer)
  reads : List (SslCall SslReadAnswer)
  writes : List (SslCall SslWriteAnswer)
  shutdowns : List (SslCall SslShutdownAnswer)
  replies : List (List SslOperation)

/-- A task the dispatcher has not run. -/
inductive SslTask
  | transition (state : SslSocketState)
  | initiateHandshake
  | flushBufferedWrites

/-- Of its timers, whether they are armed. Kept beside the socket are the states its machine went through, the bytes the
inner socket gave and took, those OpenSSL took and made, the plaintext that was offered, encrypted and decrypted, for each
handshake that was completed whether the peer was verified, and the events raised. -/
structure SslTransportSocket where
  mode : SslSocketMode
  verifyPeer : Bool
  currentState : SslSocketState
  transitionInProgress : Bool
  ssl : Bool
  transportCallbacks : Bool
  handshakeCallbacks : Bool
  handshakeTimer : Bool
  handshakeRetryTimer : Bool
  shutdownRetryTimer : Bool
  handshakeAttempts : Nat
  retryCount : Nat
  shutdownRetryCount : Nat
  handshakeComplete : Bool
  shutdownSent : Bool
  shutdownReceived : Bool
  failureReason : String
  readable : Bool
  innerClosed : Bool
  writeBuffer : Bytes
  bioCarryover : Bytes
  bioWriteCarryover : Bytes
  networkBio : Bytes
  internalBio : Bytes
  buffer : Bytes
  posted : List SslTask
  script : SslScript
  visited : List SslSocketState
  arrived : Bytes
  consumed : Bytes
  produced : Bytes
  sent : Bytes
  offered : Bytes
  encrypted : Bytes
  decrypted : Bytes
  completions : List Bool
  raised : List ConnectionEvent

namespace SslTransportSocket

def kSslMaxReadChunk : Nat := 16384
def kSslMaxWriteChunk : Nat := 16384
def kMaxEncryptedReadPerEvent : Nat := 64 * 1024
def kMaxPlaintextReadPerEvent : Nat := 64 * 1024
def kMaxMoveToBioIterations : Nat := 16
def kMaxShutdownRetries : Nat := 100
def kMaxHandshakeAttempts : Nat := 100

/-- What OpenSSL makes of a buffer size of 0. -/
def kBioBufferSize : Nat := 17 * 1024

def create (mode : SslSocketMode) (verifyPeer : Bool) (script : SslScript) : SslTransportSocket where
  mode := mode
  verifyPeer := verifyPeer
  currentState := .uninitialized
  transitionInProgress := false
  ssl := false
  transportCallbacks := false
  handshakeCallbacks := false
  handshakeTimer := false
  handshakeRetryTimer := false
  shutdownRetryTimer := false
  handshakeAttempts := 0
  retryCount := 0
  shutdownRetryCount := 0
  handshakeComplete := false
  shutdownSent := false
  shutdownReceived := false
  failureReason := ""
  readable := false
  innerClosed := false
  writeBuffer := []
  bioCarryover := []
  bioWriteCarryover := []
  networkBio := []
  internalBio := []
  buffer := []
  posted := []
  script := script
  visited := []
  arrived := []
  consumed := []
  produced := []
  sent := []
  offered := []
  encrypted := []
  decrypted := []
  completions := []
  raised := []

/-! ### Encrypted bytes

`networkBio` holds what waits for OpenSSL and `internalBio` what OpenSSL has made. -/

/-- OpenSSL's part of a call. -/
def callSsl {α : Type} (call : SslCall α) (s : SslTransportSocket) : SslTransportSocket :=
  { s with
    consumed := s.consumed ++ s.networkBio.take call.consumes
    networkBio := s.networkBio.drop call.consumes
    produced := s.produced ++ call.produces
    internalBio := s.internalBio ++ call.produces }

/-- As much as there is room for; what is left, and how much was written. -/
def writeToNetworkBio (buffer : Bytes) (s : SslTransportSocket) : SslTransportSocket × Bytes × Nat :=
  let room := kBioBufferSize - s.networkBio.length
  ({ s with networkBio := s.networkBio ++ buffer.take room }, buffer.drop room, (buffer.take room).length)

/-- `inner_socket_->doRead`. -/
def innerRead (s : SslTransportSocket) : SslTransportSocket × InnerRead :=
  let answer := s.script.innerReads.headD ⟨[], false⟩
  ({ s with
      script := { s.script with innerReads := s.script.innerReads.tail }
      arrived := s.arrived ++ answer.bytes }, answer)

/-- `inner_socket_->doWrite`: how many of the bytes were processed, and whether it failed. -/
def innerWrite (bytes : Bytes) (s : SslTransportSocket) : SslTransportSocket × Nat × Bool :=
  let answer := s.script.innerWrites.headD ⟨0, false⟩
  let written := min answer.processed bytes.length
  ({ s with
      script := { s.script with innerWrites := s.script.innerWrites.tail }
      sent := s.sent ++ bytes.take written }, written, answer.close)

/-- So many iterations more; gives how much was read and written, and whether the iterations ran out. -/
def moveToBioLoop : Nat → Nat → Nat → SslTransportSocket → SslTransportSocket × Nat × Nat × Bool
  | 0, totalRead, totalWritten, s => (s, totalRead, totalWritten, true)
  | iterations + 1, totalRead, totalWritten, s =>
      if kMaxEncryptedReadPerEvent ≤ totalRead then (s, totalRead, totalWritten, false)
      else
        let read := innerRead s
        if read.2.bytes.isEmpty then (read.1, totalRead, totalWritten, false)
        else
          let fed := writeToNetworkBio read.2.bytes read.1
          if !fed.2.1.isEmpty then
            ({ fed.1 with bioCarryover := fed.1.bioCarryover ++ fed.2.1 }, totalRead + read.2.bytes.length,
              totalWritten + fed.2.2, false)
          else if read.2.close then (fed.1, totalRead + read.2.bytes.length, totalWritten + fed.2.2, false)
          else
            moveToBioLoop iterations (totalRead + read.2.bytes.length) (totalWritten + fed.2.2) fed.1

/-- What was carried over comes first; nothing is read while some of it is left. -/
def moveToBio (s : SslTransportSocket) : SslTransportSocket × Nat :=
  let fed := writeToNetworkBio s.bioCarryover s
  let s := { fed.1 with bioCarryover := fed.2.1 }
  if !s.bioCarryover.isEmpty then (s, fed.2.2)
  else
    let moved := moveToBioLoop kMaxMoveToBioIterations 0 fed.2.2 s
    if moved.2.2.2 || kMaxEncryptedReadPerEvent ≤ moved.2.1 then
      ({ moved.1 with readable := moved.1.readable || moved.1.transportCallbacks }, moved.2.2.1)
    else (moved.1, moved.2.2.1)

/-- What was carried over comes first; nothing is taken from OpenSSL while some of it is left. -/
def moveFromBio (s : SslTransportSocket) : SslTransportSocket × Nat :=
  let carried := if s.bioWriteCarryover.isEmpty then (s, 0, false) else innerWrite s.bioWriteCarryover s
  let s := { carried.1 with bioWriteCarryover := carried.1.bioWriteCarryover.drop carried.2.1 }
  if carried.2.2 || !s.bioWriteCarryover.isEmpty || s.internalBio.isEmpty then (s, carried.2.1)
  else
    let written := innerWrite s.internalBio s
    ({ written.1 with
        bioWriteCarryover := written.1.bioWriteCarryover ++ written.1.internalBio.drop written.2.1
        internalBio := [] }, carried.2.1 + written.2.1)

/-! ### The state machine -/

/-- With exponential backoff. -/
def scheduleHandshakeRetry (s : SslTransportSocket) : SslTransportSocket :=
  { s with handshakeRetryTimer := true, retryCount := s.retryCount + 1 }

def post (task : SslTask) (s : SslTransportSocket) : SslTransportSocket := { s with posted := s.posted ++ [task] }

/-- `scheduleIoWait`, as the entry of the two states does it. -/
def entryAction (state : SslSocketState) (s : SslTransportSocket) : SslTransportSocket :=
  match state with
  | .handshakeWantRead | .handshakeWantWrite => scheduleHandshakeRetry s
  | _ => s

section Callbacks

variable (callOut : SslTransportSocket → SslTransportSocket)

def raiseEvent (event : ConnectionEvent) (s : SslTransportSocket) : SslTransportSocket :=
  if s.transportCallbacks then callOut { s with raised := s.raised ++ [event] } else s

def onStateChanged (newState : SslSocketState) (s : SslTransportSocket) : SslTransportSocket :=
  match newState with
  | .connected => raiseEvent callOut .connected s
  | .handshakeWantRead | .handshakeWantWrite => scheduleHandshakeRetry s
  | .error => raiseEvent callOut .remoteClose s
  | .closed => raiseEvent callOut .localClose s
  | _ => s

/-- A transition with an entry action; if it is refused, why. -/
def transitionWith (entry : SslTransportSocket → SslTransportSocket) (newState : SslSocketState)
    (s : SslTransportSocket) : SslTransportSocket × Option String :=
  if s.transitionInProgress then (s, some "Transition already in progress")
  else if ¬ s.mode.IsValid s.currentState newState then (s, some (s.mode.invalidTransition s.currentState newState))
  else
    let entered := entry
      { s with transitionInProgress := true, currentState := newState, visited := s.visited ++ [newState] }
    ({ onStateChanged callOut newState entered with transitionInProgress := false }, none)

/-- Any transition but that to the beginning of the handshake. -/
def transition (newState : SslSocketState) (s : SslTransportSocket) : SslTransportSocket × Option String :=
  transitionWith callOut (entryAction newState) newState s

/-! ### The handshake -/

def handleSslError (reason : String) (s : SslTransportSocket) : SslTransportSocket :=
  let s := (transition callOut .error
    { s with failureReason := reason, handshakeTimer := false, handshakeRetryTimer := false }).1
  if s.handshakeCallbacks && !s.handshakeComplete then callOut s else s

def flushBufferedWrites (s : SslTransportSocket) : SslTransportSocket :=
  if s.writeBuffer.isEmpty then s else post .flushBufferedWrites s

/-- The connection is made only after the peer was verified, where that is configured. -/
def onHandshakeComplete (verifyResult : Option String) (s : SslTransportSocket) : SslTransportSocket :=
  let s := { s with
    handshakeComplete := true
    handshakeTimer := false
    handshakeRetryTimer := false
    completions := s.completions ++ [verifyResult.isNone] }
  if s.verifyPeer && verifyResult.isSome then
    handleSslError callOut ("Peer certificate verification failed: " ++ verifyResult.getD "") s
  else
    let connected := transition callOut .connected s
    match connected.2 with
    | none => flushBufferedWrites (if connected.1.handshakeCallbacks then callOut connected.1 else connected.1)
    | some error => handleSslError callOut ("Failed to transition to Connected: " ++ error) connected.1

def handleHandshakeResult (answer : HandshakeAnswer) (s : SslTransportSocket) : SslTransportSocket :=
  match answer with
  | .complete verifyResult => onHandshakeComplete callOut verifyResult s
  | .wantRead =>
      if s.currentState = .handshakeWantRead then scheduleHandshakeRetry s else post (.transition .handshakeWantRead) s
  | .wantWrite => post (.transition .handshakeWantWrite) s
  | .wantX509Lookup text => handleSslError callOut text (transition callOut .certificateValidating s).1
  | .failed text => handleSslError callOut text s

def performHandshakeStep (s : SslTransportSocket) : SslTransportSocket :=
  let s := { s with handshakeAttempts := s.handshakeAttempts + 1 }
  if kMaxHandshakeAttempts < s.handshakeAttempts then handleSslError callOut "Handshake exceeded maximum attempts: 100" s
  else
    let s := (moveToBio s).1
    let call := s.script.handshakes.headD ⟨0, [], .wantRead⟩
    let s := callSsl call { s with script := { s.script with handshakes := s.script.handshakes.tail } }
    let moved := moveFromBio s
    let s := { moved.1 with readable := moved.1.readable || (0 < moved.2 && moved.1.transportCallbacks) }
    handleHandshakeResult callOut call.answer s

/-- `initiateClientHandshake` and `initiateServerHandshake`: a step is made as the first state is entered. -/
def initiateHandshake (s : SslTransportSocket) : SslTransportSocket :=
  let started := transitionWith callOut (performHandshakeStep callOut) (SslSocketState.handshakeInit s.mode) s
  match started.2 with
  | none => started.1
  | some error =>
      handleSslError callOut
        ("Failed to initiate " ++ (if s.mode = .client then "client" else "server") ++ " handshake: " ++ error) started.1

/-! ### Reading and writing -/

/-- An error that ends a read or a write. -/
def ioError (text : String) (s : SslTransportSocket) : SslTransportSocket :=
  (transition callOut .error { s with failureReason := text }).1

/-- Where the answers end the read ends. -/
def readLoop : List (SslCall SslReadAnswer) → Nat → SslTransportSocket → SslTransportSocket × TransportIoResult
  | [], total, s => ({ s with script := { s.script with reads := [] } }, ⟨true, .continue, total, false⟩)
  | call :: rest, total, s =>
      if kMaxPlaintextReadPerEvent ≤ total then
        ({ s with
            script := { s.script with reads := call :: rest }
            readable := s.readable || s.transportCallbacks }, ⟨true, .continue, total, false⟩)
      else
        let s := callSsl call { s with script := { s.script with reads := rest } }
        match call.answer with
        | .data bytes pending =>
            let got := bytes.take (min kSslMaxReadChunk (kMaxPlaintextReadPerEvent - total))
            let s := { s with decrypted := s.decrypted ++ got }
            if kMaxPlaintextReadPerEvent ≤ total + got.length then
              ({ s with readable := s.readable || s.transportCallbacks }, ⟨true, .continue, total + got.length, false⟩)
            else if pending then readLoop rest (total + got.length) s
            else (s, ⟨true, .continue, total + got.length, false⟩)
        | .wantRead =>
            let moved := moveToBio s
            if moved.2 = 0 then (moved.1, ⟨true, .continue, total, false⟩) else readLoop rest total moved.1
        | .zeroReturn =>
            ((transition callOut .shutdownReceived { s with shutdownReceived := true }).1, ⟨true, .continue, total, true⟩)
        | .failed text => (ioError callOut text s, ⟨true, .close, 0, false⟩)

def performOptimizedSslRead (s : SslTransportSocket) : SslTransportSocket × TransportIoResult :=
  let s := (moveToBio s).1
  readLoop callOut s.script.reads 0 s

/-- The buffer a write is made from: the socket's own, or the connection's. -/
def source (own : Bool) (s : SslTransportSocket) : Bytes := if own then s.writeBuffer else s.buffer

def drainSource (own : Bool) (n : Nat) (s : SslTransportSocket) : SslTransportSocket :=
  if own then { s with writeBuffer := s.writeBuffer.drop n } else { s with buffer := s.buffer.drop n }

/-- Where the answers end the write ends. -/
def writeLoop (own : Bool) : List (SslCall SslWriteAnswer) → Nat → SslTransportSocket →
    SslTransportSocket × TransportIoResult
  | [], total, s =>
      ((moveFromBio { s with script := { s.script with writes := [] } }).1, ⟨true, .continue, total, false⟩)
  | call :: rest, total, s =>
      if (source own s).isEmpty then
        ((moveFromBio { s with script := { s.script with writes := call :: rest } }).1, ⟨true, .continue, total, false⟩)
      else
        let s := callSsl call { s with script := { s.script with writes := rest } }
        match call.answer with
        | .bytes n =>
            let taken := (source own s).take (min n kSslMaxWriteChunk)
            let s := drainSource own (min n kSslMaxWriteChunk) { s with encrypted := s.encrypted ++ taken }
            writeLoop own rest (total + taken.length) (moveFromBio s).1
        | .wantWrite => ((moveFromBio s).1, ⟨true, .continue, total, false⟩)
        | .wantRead => (s, ⟨true, .continue, total, false⟩)
        | .failed text => (ioError callOut text s, ⟨true, .close, 0, false⟩)

def performOptimizedSslWrite (own : Bool) (s : SslTransportSocket) : SslTransportSocket × TransportIoResult :=
  writeLoop callOut own s.script.writes 0 s

/-! ### Closing -/

def callShutdown (s : SslTransportSocket) : SslTransportSocket × SslShutdownAnswer :=
  let call := s.script.shutdowns.headD ⟨0, [], .again⟩
  (callSsl call { s with script := { s.script with shutdowns := s.script.shutdowns.tail } }, call.answer)

def initiateShutdown (s : SslTransportSocket) : SslTransportSocket :=
  if !s.ssl || s.shutdownSent then s
  else
    let called := callShutdown (transition callOut .shutdownInitiated s).1
    match called.2 with
    | .sent =>
        let s := (moveFromBio (transition callOut .shutdownSent { called.1 with shutdownSent := true }).1).1
        { s with shutdownRetryCount := 0, shutdownRetryTimer := true }
    | .complete =>
        post (.transition .closed)
          (transition callOut .shutdownComplete { called.1 with shutdownSent := true, shutdownReceived := true }).1
    | .again => called.1
    | .failed => (transition callOut .error called.1).1

def cancelHandshake (s : SslTransportSocket) : SslTransportSocket :=
  let s := (transition callOut .closed { s with handshakeTimer := false }).1
  if s.handshakeCallbacks then callOut s else s

/-- Of `SSL_shutdown` the answer is ignored. -/
def closeSocket (s : SslTransportSocket) : SslTransportSocket :=
  if s.currentState = .closed then s
  else
    let state := s.currentState
    let s := { s with handshakeTimer := false, handshakeRetryTimer := false, shutdownRetryTimer := false }
    let s :=
      if state = .connected ∧ s.ssl = true ∧ s.shutdownSent = false then
        (moveFromBio { (callShutdown s).1 with shutdownSent := true }).1
      else if state.isHandshakeState then cancelHandshake callOut s
      else s
    { (transition callOut .closed s).1 with innerClosed := true }

/-! ### The operations -/

def connect (innerError : Option String) (s : SslTransportSocket) : SslTransportSocket :=
  if s.currentState ≠ .uninitialized then s
  else
    let s := (transition callOut .connecting (transition callOut .initialized s).1).1
    innerError.elim s fun error => (transition callOut .error { s with failureReason := error }).1

/-- `initializeSsl` may fail. -/
def onConnected (initializeError : Option String) (s : SslTransportSocket) : SslTransportSocket :=
  if s.currentState ≠ .connecting ∧ s.currentState ≠ .uninitialized ∧ s.currentState ≠ .initialized then s
  else
    let s := (transition callOut .tcpConnected s).1
    initializeError.elim
      (post .initiateHandshake { s with ssl := true, handshakeAttempts := 0, handshakeTimer := true })
      fun error => handleSslError callOut error s

def doRead (s : SslTransportSocket) : SslTransportSocket × TransportIoResult :=
  if s.currentState = .connected then performOptimizedSslRead callOut s
  else if s.currentState.isHandshakeState then
    let moved := moveToBio s
    (if 0 < moved.2 then performHandshakeStep callOut moved.1 else moved.1, ⟨true, .continue, 0, false⟩)
  else if s.currentState = .tcpConnected ∨ s.currentState = .initialized ∨ s.currentState = .connecting ∨
      s.currentState = .uninitialized then (s, ⟨true, .continue, 0, false⟩)
  else (s, ⟨true, .close, 0, false⟩)

/-- During the handshake `move` is called on the socket's own buffer, which gives what it holds to the connection's. -/
def doWrite (endStream : Bool) (s : SslTransportSocket) : SslTransportSocket × TransportIoResult :=
  if s.currentState ≠ .connected then
    if s.currentState.isHandshakeState then
      ({ s with buffer := s.buffer ++ s.writeBuffer, writeBuffer := [] }, ⟨true, .continue, s.buffer.length, false⟩)
    else (s, ⟨true, .close, 0, false⟩)
  else
    let written := performOptimizedSslWrite callOut false s
    (if endStream && written.1.buffer.isEmpty then initiateShutdown callOut written.1 else written.1, written.2)

def perform (s : SslTransportSocket) : SslOperation → SslTransportSocket
  | .connect innerError => connect callOut innerError s
  | .onConnected initializeError => onConnected callOut initializeError s
  | .doRead => (doRead callOut s).1
  | .doWrite endStream => (doWrite callOut endStream s).1
  | .closeSocket _ => closeSocket callOut s
  | .setTransportSocketCallbacks => { s with transportCallbacks := true }
  | .setHandshakeCallbacks => { s with handshakeCallbacks := true }
  | .offer bytes => { s with buffer := s.buffer ++ bytes, offered := s.offered ++ bytes }

/-- The task posted by `flushBufferedWrites`. -/
def flush (s : SslTransportSocket) : SslTransportSocket :=
  if s.currentState = .connected ∧ s.writeBuffer.isEmpty = false then
    let written := performOptimizedSslWrite callOut true s
    if written.2.action = .close then closeSocket callOut written.1 else written.1
  else s

def runTask (task : SslTask) (s : SslTransportSocket) : SslTransportSocket :=
  match task with
  | .transition state => (transition callOut state s).1
  | .initiateHandshake => initiateHandshake callOut s
  | .flushBufferedWrites => flush callOut s

def shutdownRetryFires (s : SslTransportSocket) : SslTransportSocket :=
  if s.currentState ≠ .shutdownSent then s
  else if !s.ssl || kMaxShutdownRetries ≤ s.shutdownRetryCount then (transition callOut .closed s).1
  else
    let called := callShutdown { s with shutdownRetryCount := s.shutdownRetryCount + 1 }
    match called.2 with
    | .complete =>
        post (.transition .closed) (transition callOut .shutdownComplete { called.1 with shutdownReceived := true }).1
    | _ => { called.1 with shutdownRetryTimer := true }

end Callbacks

/-- What the connection does when it is told of something, so many levels deep. -/
def callOut : Nat → SslTransportSocket → SslTransportSocket
  | 0, s => { s with script := { s.script with replies := s.script.replies.tail } }
  | depth + 1, s =>
      (s.script.replies.headD []).foldl (perform (callOut depth))
        { s with script := { s.script with replies := s.script.replies.tail } }

/-- A step of the event loop. -/
inductive SslStep
  | operation (operation : SslOperation)
  | task
  | handshakeTimer
  | handshakeRetryTimer
  | shutdownRetryTimer

def step (depth : Nat) (s : SslTransportSocket) : SslStep → SslTransportSocket
  | .operation operation => perform (callOut depth) s operation
  | .task =>
      match s.posted with
      | [] => s
      | task :: rest => runTask (callOut depth) task { s with posted := rest }
  | .handshakeTimer =>
      if s.handshakeTimer then handleSslError (callOut depth) "SSL handshake timeout" { s with handshakeTimer := false }
      else s
  | .handshakeRetryTimer =>
      if s.handshakeRetryTimer then performHandshakeStep (callOut depth) { s with handshakeRetryTimer := false } else s
  | .shutdownRetryTimer =>
      if s.shutdownRetryTimer then shutdownRetryFires (callOut depth) { s with shutdownRetryTimer := false } else s

end SslTransportSocket

end GopherMcp
