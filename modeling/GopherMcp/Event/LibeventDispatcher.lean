import Mathlib.Data.List.Basic
import Mathlib.Logic.Function.Basic
import Mathlib.Tactic.SplitIfs
import GopherMcp.Lib.Runs

/-!
# The dispatcher and its posted tasks

Any thread posts tasks; one thread runs the loop. A post takes the lock, notes whether the queue is empty
and appends its task, and with the lock given back it writes a byte to the wake-up pipe if the queue was
empty. The loop swaps the whole queue out under the lock and runs what it took: before the event library
is entered, after it returns, and when the library reports that the pipe is readable, which is drained first.

The event library is a source of moments only. It blocks, it returns, it calls back for other events, and a
readable pipe is among what it reports. A task, and another event's callback, may post; neither enters the loop
again, which the library refuses.
-/

namespace GopherMcp

/-- The pipe `wakeup_fd_`, both of whose ends are non-blocking. -/
structure WakeupPipe where
  capacity : Nat
  hasRoom : 0 < capacity
  bytes : Nat
  fits : bytes ≤ capacity

namespace WakeupPipe

/-- One byte is written. A full pipe answers `EAGAIN`, which is ignored. -/
def write (pipe : WakeupPipe) : WakeupPipe :=
  if h : pipe.bytes < pipe.capacity then { pipe with bytes := pipe.bytes + 1, fits := h } else pipe

/-- A read takes what there is, up to the size of the buffer. -/
def read (pipe : WakeupPipe) (size : Nat) : WakeupPipe :=
  { pipe with bytes := pipe.bytes - size, fits := Nat.le_trans (Nat.sub_le _ _) pipe.fits }

def Readable (pipe : WakeupPipe) : Prop := 0 < pipe.bytes

instance (pipe : WakeupPipe) : Decidable pipe.Readable := inferInstanceAs (Decidable (0 < pipe.bytes))

theorem write_readable (pipe : WakeupPipe) : pipe.write.Readable := by
  have hroom := pipe.hasRoom
  unfold write Readable
  split_ifs with hfree
  · exact Nat.succ_pos _
  · omega

end WakeupPipe

inductive RunType
  | block
  | nonBlock
  | runUntilExit
  deriving DecidableEq

/-- Where `runPostCallbacks` is called. -/
inductive PostCallbacksCaller
  | beforeLoop
  | wakeup
  | afterLoop
  deriving DecidableEq

/-- Where the thread that runs the loop is. `wakeup` tells whether the pipe was reported and its callback has
not been called yet. -/
inductive LoopControl
  | outside
  | swapping (caller : PostCallbacksCaller)
  | running (caller : PostCallbacksCaller)
  | inTask (caller : PostCallbacksCaller)
  | blocking
  | dispatching (wakeup : Bool)
  | inCallback (wakeup : Bool)
  | draining
  deriving DecidableEq

/-- The points at which the loop's thread is in code that may post. -/
def LoopControl.mayPost : LoopControl → Bool
  | .outside | .inTask _ | .inCallback _ => true
  | _ => false

/-- `callbacks` is the local queue of `runPostCallbacks`, whose front stays in it while it runs. A thread in `post`
that has given the lock back has its `need_wakeup` under `posting`. What entered the queue and what was run, both in
order, are kept in `posted` and `ran`. -/
structure LibeventDispatcher (Thread Task : Type) where
  postCallbacks : List Task
  wakeupPipe : WakeupPipe
  posting : Thread → Option Bool
  threadId : Option Thread
  exitRequested : Bool
  runType : RunType
  control : LoopControl
  callbacks : List Task
  posted : List Task
  ran : List Task

namespace LibeventDispatcher

variable {Thread Task : Type}

/-- Constructed, with a new pipe of some capacity. -/
def create (capacity : Nat) (hasRoom : 0 < capacity) : LibeventDispatcher Thread Task where
  postCallbacks := []
  wakeupPipe := { capacity, hasRoom, bytes := 0, fits := Nat.le_of_lt hasRoom }
  posting := fun _ => none
  threadId := none
  exitRequested := false
  runType := .block
  control := .outside
  callbacks := []
  posted := []
  ran := []

/-! ### Posting -/

section Post

variable [DecidableEq Thread]

/-- The locked part of `post`. -/
def post (s : LibeventDispatcher Thread Task) (thread : Thread) (callback : Task) : LibeventDispatcher Thread Task :=
  { s with
    posting := Function.update s.posting thread (some s.postCallbacks.isEmpty)
    postCallbacks := s.postCallbacks ++ [callback]
    posted := s.posted ++ [callback] }

/-- What `post` does after the lock. -/
def wake (s : LibeventDispatcher Thread Task) (thread : Thread) (needWakeup : Bool) :
    LibeventDispatcher Thread Task :=
  { s with
    posting := Function.update s.posting thread none
    wakeupPipe := if needWakeup then s.wakeupPipe.write else s.wakeupPipe }

end Post

/-! ### The loop -/

def run (s : LibeventDispatcher Thread Task) (thread : Thread) (type : RunType) : LibeventDispatcher Thread Task :=
  { s with
    exitRequested := false
    threadId := some thread
    runType := type
    control := .swapping .beforeLoop }

/-- Where `runPostCallbacks` returns to: only `RunUntilExit` asks for the flag, and only it loops itself. -/
def afterCallbacks (s : LibeventDispatcher Thread Task) : PostCallbacksCaller → LoopControl
  | .beforeLoop => if s.runType = .runUntilExit ∧ s.exitRequested then .outside else .blocking
  | .wakeup => .dispatching false
  | .afterLoop => if s.runType = .runUntilExit ∧ s.exitRequested = false then .blocking else .outside

inductive LoopStep
  | swap
  | startTask
  | endTask
  | returnFromCallbacks
  | poll
  | startCallback
  | endCallback
  | postWakeupCallback
  | read
  | iterate
  | returnFromLoop
  deriving DecidableEq

/-- A step of the loop's thread; nothing happens when the thread is elsewhere. The library goes round again by itself
only when it has called back for what it reported, but a break, or an error, ends it at any time. -/
def loopStep (s : LibeventDispatcher Thread Task) : LoopStep → LibeventDispatcher Thread Task
  | .swap =>
      match s.control with
      | .swapping caller =>
          { s with callbacks := s.postCallbacks, postCallbacks := [], control := .running caller }
      | _ => s
  | .startTask =>
      match s.control, s.callbacks with
      | .running caller, callback :: _ => { s with ran := s.ran ++ [callback], control := .inTask caller }
      | _, _ => s
  | .endTask =>
      match s.control with
      | .inTask caller => { s with callbacks := s.callbacks.tail, control := .running caller }
      | _ => s
  | .returnFromCallbacks =>
      match s.control, s.callbacks with
      | .running caller, [] => { s with control := s.afterCallbacks caller }
      | _, _ => s
  | .poll =>
      match s.control with
      | .blocking => { s with control := .dispatching (decide s.wakeupPipe.Readable) }
      | _ => s
  | .startCallback =>
      match s.control with
      | .dispatching wakeup => { s with control := .inCallback wakeup }
      | _ => s
  | .endCallback =>
      match s.control with
      | .inCallback wakeup => { s with control := .dispatching wakeup }
      | _ => s
  | .postWakeupCallback =>
      match s.control with
      | .dispatching true => { s with control := .draining }
      | _ => s
  | .read =>
      match s.control with
      | .draining =>
          if s.wakeupPipe.Readable then { s with wakeupPipe := s.wakeupPipe.read 256 }
          else { s with control := .swapping .wakeup }
      | _ => s
  | .iterate =>
      match s.control with
      | .dispatching false => { s with control := .blocking }
      | _ => s
  | .returnFromLoop =>
      match s.control with
      | .blocking | .dispatching _ => { s with control := .swapping .afterLoop }
      | _ => s

/-- Taken by the loop and not begun. -/
def unstarted (s : LibeventDispatcher Thread Task) : List Task :=
  match s.control with
  | .inTask _ => s.callbacks.tail
  | _ => s.callbacks

/-! ### All threads -/

variable [DecidableEq Thread]

inductive Step (Thread Task : Type)
  | post (thread : Thread) (callback : Task)
  | wake (thread : Thread)
  | requestExit
  | run (thread : Thread) (type : RunType)
  | loop (step : LoopStep)

/-- A thread begins a post when it is in none, and the loop's thread when the loop is in code that may. -/
def canPost (s : LibeventDispatcher Thread Task) (thread : Thread) : Bool :=
  (s.posting thread).isNone && (s.control.mayPost || s.threadId != some thread)

/-- The loop waits while its own thread is in a post. -/
def loopIsFree (s : LibeventDispatcher Thread Task) : Bool :=
  s.threadId.all fun thread => (s.posting thread).isNone

def step (s : LibeventDispatcher Thread Task) : Step Thread Task → LibeventDispatcher Thread Task
  | .post thread callback => if s.canPost thread then s.post thread callback else s
  | .wake thread =>
      match s.posting thread with
      | some needWakeup => s.wake thread needWakeup
      | none => s
  | .requestExit => { s with exitRequested := true }
  | .run thread type => if s.control = .outside ∧ s.posting thread = none then s.run thread type else s
  | .loop step => if s.loopIsFree then s.loopStep step else s

end LibeventDispatcher

end GopherMcp
