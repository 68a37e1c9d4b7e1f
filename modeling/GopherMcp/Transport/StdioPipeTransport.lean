import GopherMcp.Core.Bytes
import GopherMcp.Lib.Relay
import GopherMcp.Transport.PipeCustody

/-!
# The stdio transport

The transport's two bridge threads are two relays with one running flag: from stdin to the pipe the connection reads,
and from the pipe the connection writes to stdout. The kernel's answers are part of each operation; one that it
cannot give where things stand changes nothing. The flag is raised when the bridges are started, and lowered by a
close of the connected transport, by its destructor, and by a bridge whose write does not succeed.
-/

namespace GopherMcp

/-- What waits in the pipe to stdout is the source of the one relay; what the other wrote and the connection has not read
waits in the pipe from stdin. `acceptedAtClose` is what had been taken from the connection when the transport was closed,
or its destruction began. -/
structure StdioPipeTransport where
  bufferSize : Nat
  custody : PipeCustody
  running : Bool
  stdinRelay : Relay UInt8
  stdoutRelay : Relay UInt8
  arrived : Bytes
  stdinEnded : Bool
  connRead : Bytes
  connEnded : Bool
  accepted : Bytes
  acceptedAtClose : Option Bytes

namespace StdioPipeTransport

def create (bufferSize : Nat) : StdioPipeTransport where
  bufferSize := bufferSize
  custody := .fresh
  running := false
  stdinRelay := ⟨.checking, [], []⟩
  stdoutRelay := ⟨.checking, [], []⟩
  arrived := []
  stdinEnded := false
  connRead := []
  connEnded := false
  accepted := []
  acceptedAtClose := none

/-- In the pipe from stdin. -/
def stdinPipe (s : StdioPipeTransport) : Bytes := s.stdinRelay.sink.drop s.connRead.length

/-! ### The connection's side -/

/-- `PipeIoHandle::writev`: slice after slice, until one is not taken whole. What was taken before an error counts. -/
def writev : List Bytes → List Relay.WriteAnswer → Bytes
  | slice :: slices, .bytes n :: answers =>
      if n < slice.length then slice.take n else slice ++ writev slices answers
  | _, _ => []

/-- Sixteen slices of the buffer are offered. -/
def doWrite (s : StdioPipeTransport) (buffer : List Bytes) (answers : List Relay.WriteAnswer) : StdioPipeTransport :=
  let taken := writev (buffer.take 16) answers
  { s with
    stdoutRelay := { s.stdoutRelay with source := s.stdoutRelay.source ++ taken }
    accepted := s.accepted ++ taken }

/-- Whether an answer to the connection's read can be given: the end of the pipe is seen when it is empty and no write
end is open. -/
def canRead (s : StdioPipeTransport) : Relay.ReadAnswer → Bool
  | .bytes n => n ≤ s.stdinPipe.length
  | .endOfInput => s.stdinPipe.isEmpty && s.custody.isClosed .stdinWrite
  | _ => true

/-- A read takes 64 KB at most; other answers bring nothing. -/
def doRead (s : StdioPipeTransport) : Relay.ReadAnswer → StdioPipeTransport
  | .bytes n => if 0 < n ∧ n ≤ 65536 then { s with connRead := s.connRead ++ s.stdinPipe.take n } else s
  | .endOfInput => { s with connEnded := true }
  | _ => s

/-! ### The bridges -/

def canBridgeStdin (s : StdioPipeTransport) : Relay.Move → Bool
  | .read (.bytes n) => n ≤ s.stdinRelay.source.length
  | .read .endOfInput => s.stdinRelay.source.isEmpty && s.stdinEnded
  | .write (.bytes n) =>
      n ≤ s.stdinRelay.phase.rest.length && s.custody.isOpen .stdinWrite && s.custody.isOpen .stdinRead
  | _ => true

def canBridgeStdout (s : StdioPipeTransport) : Relay.Move → Bool
  | .read (.bytes n) => n ≤ s.stdoutRelay.source.length && s.custody.isOpen .stdoutRead
  | .read .endOfInput =>
      s.stdoutRelay.source.isEmpty && s.custody.isOpen .stdoutRead && s.custody.isClosed .stdoutWrite
  | .write (.bytes n) => n ≤ s.stdoutRelay.phase.rest.length
  | _ => true

/-- The stdin bridge has the write end of its pipe, and the stdout bridge the read end of its own. -/
def usesPipe (s : StdioPipeTransport) : Bridge → Relay.Move → Bool
  | .stdinToPipe, .write _ => match s.stdinRelay.phase with
      | .writing _ => true
      | _ => false
  | .pipeToStdout, .wait _ => match s.stdoutRelay.phase with
      | .waiting => true
      | _ => false
  | .pipeToStdout, .read _ => match s.stdoutRelay.phase with
      | .reading => true
      | _ => false
  | _, _ => false

def relay (s : StdioPipeTransport) : Bridge → Relay UInt8
  | .stdinToPipe => s.stdinRelay
  | .pipeToStdout => s.stdoutRelay

def canBridge (s : StdioPipeTransport) : Bridge → Relay.Move → Bool
  | .stdinToPipe => s.canBridgeStdin
  | .pipeToStdout => s.canBridgeStdout

/-- `bridgeStdinToPipe` and `bridgePipeToStdout`, a move at a time. -/
def bridge (s : StdioPipeTransport) (bridge : Bridge) (move : Relay.Move) : StdioPipeTransport :=
  let moved := (s.relay bridge).step s.bufferSize s.running move
  match bridge with
  | .stdinToPipe => { s with stdinRelay := moved.1, running := moved.2 }
  | .pipeToStdout => { s with stdoutRelay := moved.1, running := moved.2 }

/-! ### Operations -/

/-- What is taken from now on was not taken before the close. -/
def noteClose (s : StdioPipeTransport) : StdioPipeTransport :=
  { s with running := false, acceptedAtClose := some (s.acceptedAtClose.getD s.accepted) }

inductive Operation
  | own (step : PipeCustody.Step)
  | doRead (answer : Relay.ReadAnswer)
  | doWrite (buffer : List Bytes) (answers : List Relay.WriteAnswer)
  | bridge (bridge : Bridge) (move : Relay.Move)
  | stdinArrives (bytes : Bytes)
  | stdinEnds

/-- A bridge closes its copy when it has left its loop. -/
def mayOwn (s : StdioPipeTransport) : PipeCustody.Step → Bool
  | .endBridge bridge => match (s.relay bridge).phase with
      | .left => true
      | _ => false
  | .use _ => false
  | _ => true

/-- The flags that go with what happens to the descriptors. -/
def own (s : StdioPipeTransport) (step : PipeCustody.Step) : StdioPipeTransport :=
  let stepped := { s with custody := s.custody.step step }
  match step with
  | .initializePipes .ok =>
      if s.custody.life = .alive ∧ s.custody.initialized = false then { stepped with running := true } else stepped
  | .closeSocket => if s.custody.life = .alive ∧ s.custody.connected then stepped.noteClose else stepped
  | .beginDestroy => if s.custody.life = .alive then stepped.noteClose else stepped
  | _ => stepped

def step (s : StdioPipeTransport) : Operation → StdioPipeTransport
  | .own step => if s.mayOwn step then s.own step else s
  | .doRead answer =>
      if s.custody.life = .alive ∧ s.custody.socket = .taken ∧ s.custody.isOpen .stdinRead ∧ s.canRead answer then
        s.doRead answer
      else s
  | .doWrite buffer answers =>
      if s.custody.life = .alive ∧ s.custody.socket = .taken ∧ s.custody.isOpen .stdoutWrite ∧
          s.custody.isOpen .stdoutRead then
        s.doWrite buffer answers
      else s
  | .bridge bridge move =>
      if s.custody.bridges bridge = .going ∧ s.canBridge bridge move then
        let moved := s.bridge bridge move
        if s.usesPipe bridge move then { moved with custody := s.custody.step (.use bridge) } else moved
      else s
  | .stdinArrives bytes =>
      if s.stdinEnded then s
      else { s with
        arrived := s.arrived ++ bytes
        stdinRelay := { s.stdinRelay with source := s.stdinRelay.source ++ bytes } }
  | .stdinEnds => { s with stdinEnded := true }

/-- What an operation does to the descriptors. -/
def custodyStep (s : StdioPipeTransport) : Operation → Option PipeCustody.Step
  | .own step => if s.mayOwn step then some step else none
  | .bridge bridge move => if s.canBridge bridge move && s.usesPipe bridge move then some (.use bridge) else none
  | _ => none

end StdioPipeTransport

end GopherMcp
