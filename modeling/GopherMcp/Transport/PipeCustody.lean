import Mathlib.Data.List.Basic
import Mathlib.Logic.Function.Basic
import Mathlib.Tactic.SplitIfs
import GopherMcp.Lib.Runs

/-!
# Who closes the pipes of the stdio transport

The transport makes two pipes. It keeps the four descriptors in its arrays, starts two bridge threads with copies of
one end of each, and gives the other ends to a socket, which the connection takes from it. An array entry is set to
-1 when the transport has closed it, or when the socket is taken. A bridge closes its own copy when it ends, and the
socket closes both of its ends when it is closed, or destroyed. Only what happens to the descriptors is told here.
-/

namespace GopherMcp

/-- `stdin_to_conn_pipe_[0]` and `[1]`, `conn_to_stdout_pipe_[0]` and `[1]`. -/
inductive PipeEnd
  | stdinRead | stdinWrite | stdoutRead | stdoutWrite
  deriving DecidableEq

/-- An end of the first pipe. -/
def PipeEnd.ofStdin : PipeEnd → Bool
  | .stdinRead | .stdinWrite => true
  | .stdoutRead | .stdoutWrite => false

inductive Bridge
  | stdinToPipe | pipeToStdout
  deriving DecidableEq

inductive PipeParty
  | transport
  | socket
  | bridge (bridge : Bridge)
  deriving DecidableEq

/-- The end a bridge was given a copy of. -/
def Bridge.pipeEnd : Bridge → PipeEnd
  | .stdinToPipe => .stdinWrite
  | .pipeToStdout => .stdoutRead

inductive BridgeLife
  | unstarted | going | ended
  deriving DecidableEq

/-- The socket is kept in `pipe_socket_` until it is taken. -/
inductive PipeSocketLife
  | absent | kept | taken | closed | destroyed
  deriving DecidableEq

/-- The destructor waits for the bridges between its two halves. -/
inductive TransportLife
  | alive | joining | gone
  deriving DecidableEq

inductive InitializeOutcome
  | ok | stdinPipeFails | stdoutPipeFails
  deriving DecidableEq

/-- `held` are the array entries that are not -1. `closers` has, for each descriptor, who closed it, in order, and
`strayUses` the uses a bridge made of a descriptor that someone else had closed. -/
structure PipeCustody where
  created : PipeEnd → Bool
  held : PipeEnd → Bool
  closers : PipeEnd → List PipeParty
  strayUses : List PipeEnd
  initialized : Bool
  connected : Bool
  socket : PipeSocketLife
  life : TransportLife
  bridges : Bridge → BridgeLife

namespace PipeCustody

/-- Constructed: all entries are -1. -/
def fresh : PipeCustody where
  created := fun _ => false
  held := fun _ => false
  closers := fun _ => []
  strayUses := []
  initialized := false
  connected := false
  socket := .absent
  life := .alive
  bridges := fun _ => .unstarted

def close (c : PipeCustody) (pipeEnd : PipeEnd) (party : PipeParty) : PipeCustody :=
  { c with closers := Function.update c.closers pipeEnd (c.closers pipeEnd ++ [party]) }

/-- The transport closes an entry that is not -1 and sets it to -1. -/
def giveUp (c : PipeCustody) (pipeEnd : PipeEnd) : PipeCustody :=
  if c.held pipeEnd then { c.close pipeEnd .transport with held := Function.update c.held pipeEnd false } else c

/-- A bridge uses its copy. -/
def use (c : PipeCustody) (bridge : Bridge) : PipeCustody :=
  if (c.closers bridge.pipeEnd).any (· != .bridge bridge) then
    { c with strayUses := c.strayUses ++ [bridge.pipeEnd] }
  else c

/-- `initialize`: the pipes are made one after the other. When the second cannot be made both ends of the first are
closed, and their entries stay as they are. -/
def initializePipes (c : PipeCustody) : InitializeOutcome → PipeCustody
  | .ok =>
      { c with
        created := fun _ => true
        held := fun _ => true
        initialized := true
        socket := .kept
        bridges := fun _ => .going }
  | .stdinPipeFails => { c with initialized := true }
  | .stdoutPipeFails =>
      let made := { c with
        created := PipeEnd.ofStdin
        held := PipeEnd.ofStdin
        initialized := true }
      (made.close .stdinRead .transport).close .stdinWrite .transport

def takePipeSocket (c : PipeCustody) : PipeCustody :=
  if c.socket = .kept then
    { c with
      held := Function.update (Function.update c.held .stdinRead false) .stdoutWrite false
      socket := .taken }
  else c

/-- A transport that is not connected returns at once. -/
def closeSocket (c : PipeCustody) : PipeCustody :=
  if c.connected then ({ c with connected := false } : PipeCustody).giveUp .stdinWrite else c

/-- `PipeIoHandle::close`, which sets its own copies to -1. -/
def closeBothEnds (c : PipeCustody) : PipeCustody := (c.close .stdoutWrite .socket).close .stdinRead .socket

def closePipeSocket (c : PipeCustody) : PipeCustody :=
  if c.socket = .taken then { c.closeBothEnds with socket := .closed } else c

def destroyPipeSocket (c : PipeCustody) : PipeCustody :=
  match c.socket with
  | .taken => { c.closeBothEnds with socket := .destroyed }
  | .closed => { c with socket := .destroyed }
  | _ => c

/-- The destructor, as far as the joins. -/
def beginDestroy (c : PipeCustody) : PipeCustody :=
  { (c.giveUp .stdinWrite).giveUp .stdoutRead with life := .joining }

/-- The rest of the destructor, and `pipe_socket_` after it. -/
def finishDestroy (c : PipeCustody) : PipeCustody :=
  let given := (c.giveUp .stdinRead).giveUp .stdoutWrite
  if c.socket = .kept then { given.closeBothEnds with socket := .destroyed, life := .gone }
  else { given with life := .gone }

def endBridge (c : PipeCustody) (bridge : Bridge) : PipeCustody :=
  { c.close bridge.pipeEnd (.bridge bridge) with bridges := Function.update c.bridges bridge .ended }

inductive Step
  | initializePipes (outcome : InitializeOutcome)
  | takePipeSocket
  | onConnected
  | closeSocket
  | closePipeSocket
  | destroyPipeSocket
  | beginDestroy
  | finishDestroy
  | use (bridge : Bridge)
  | endBridge (bridge : Bridge)
  deriving DecidableEq

/-- No bridge runs, so the joins return. -/
def joined (c : PipeCustody) : Bool :=
  c.bridges .stdinToPipe != .going && c.bridges .pipeToStdout != .going

/-- A transport is initialized once. It is called only while it is alive, and a bridge does something only while it
runs. -/
def step (c : PipeCustody) : Step → PipeCustody
  | .initializePipes outcome => if c.life = .alive ∧ c.initialized = false then c.initializePipes outcome else c
  | .takePipeSocket => if c.life = .alive then c.takePipeSocket else c
  | .onConnected => if c.life = .alive then { c with connected := true } else c
  | .closeSocket => if c.life = .alive then c.closeSocket else c
  | .closePipeSocket => c.closePipeSocket
  | .destroyPipeSocket => c.destroyPipeSocket
  | .beginDestroy => if c.life = .alive then c.beginDestroy else c
  | .finishDestroy => if c.life = .joining ∧ c.joined then c.finishDestroy else c
  | .use bridge => if c.bridges bridge = .going then c.use bridge else c
  | .endBridge bridge => if c.bridges bridge = .going then c.endBridge bridge else c

def isClosed (c : PipeCustody) (pipeEnd : PipeEnd) : Bool := !(c.closers pipeEnd).isEmpty

def isOpen (c : PipeCustody) (pipeEnd : PipeEnd) : Bool := c.created pipeEnd && !c.isClosed pipeEnd

/-! ### What is promised -/

def bothGone (c : PipeCustody) : Prop := c.life = .gone ∧ (c.socket = .absent ∨ c.socket = .destroyed)

/-- Each descriptor is closed once, by its owner. -/
structure ClosesOnce (c : PipeCustody) : Prop where
  once : ∀ pipeEnd, (c.closers pipeEnd).length ≤ 1
  noStrayUse : c.strayUses = []
  allClosed : c.bothGone → ∀ pipeEnd, c.created pipeEnd = true → c.closers pipeEnd ≠ []

/-- The transport closes the end a bridge has a copy of while the bridge runs, and a bridge touches it while the
transport still has it in its array. -/
def OneOwner (c : PipeCustody) : Step → Prop
  | .closeSocket =>
      c.life = .alive → c.connected = true → c.held .stdinWrite = true → c.bridges .stdinToPipe = .going
  | .beginDestroy => c.life = .alive → ∀ bridge : Bridge, c.held bridge.pipeEnd = true → c.bridges bridge = .going
  | .use bridge | .endBridge bridge => c.bridges bridge = .going → c.held bridge.pipeEnd = true
  | _ => True

end PipeCustody

end GopherMcp
