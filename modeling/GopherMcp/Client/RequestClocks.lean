import GopherMcp.Lib.OrdMap
import GopherMcp.Lib.Runs

/-!
# The clocks of a client's requests

A request's clock is kept under the id its caller knows it by. It is started, and stopped, by tasks posted to
the dispatcher, while the request itself is put into the tracker by the thread that makes it. The model takes
one step of one thread at a time: a call is followed from step to step, and the dispatcher runs the tasks in
the order they were posted in. How a send ends is left to the outside.
-/

namespace GopherMcp

/-- What of a request its clock depends on. Times are in nanoseconds, time limits in milliseconds. -/
structure ClockContext where
  id : Nat
  originId : Nat
  isInitialize : Bool
  startTime : Int
  timeout : Option Int
  progressResetsTimeout : Bool
  deriving DecidableEq

/-- What is posted to the dispatcher. -/
inductive ClockTask
  | startClock (origin : Nat) (deadline timeout : Int)
  | stopClock (origin : Nat)
  | armRequestTimeout (origin : Nat) (after : Int)
  | sendRequestInternal (context : ClockContext)
  | abandonRequest (origin : Nat)

/-- What a calling thread does next: a request that could not be sent is settled first, then forgotten. -/
inductive CallStage
  | startClock
  | trackRequest
  | sendRequest
  | removeRequest
  deriving DecidableEq

/-- A call that is not over yet; one that can be cancelled has its request sent by the dispatcher. -/
structure Call where
  context : ClockContext
  cancellable : Bool
  stage : CallStage

/-- How a send ends: the message is handed on, it fails, or it is put off until a connection is up. -/
inductive SendOutcome
  | sent
  | failed
  | postponed

/-- A request's timer is armed for a time, or was and has fired. Beside the client's tables stand the contexts
that are settled or follow a task, the calls under way, and the requests whose caller was answered. -/
structure ClientClocks where
  requestTimeout : Int
  requestTimeoutMax : Int
  now : Int
  nextRequestId : Nat
  tracker : OrdMap Nat ClockContext
  settled : List Nat
  following : List Nat
  requestDeadlines : OrdMap Nat Int
  requestTimers : OrdMap Nat (Option Int)
  progressRoutes : List Nat
  posted : List ClockTask
  calls : OrdMap Nat Call
  answered : List Nat

namespace ClientClocks

def new (requestTimeout requestTimeoutMax now : Int) : ClientClocks where
  requestTimeout
  requestTimeoutMax
  now
  nextRequestId := 1
  tracker := .empty
  settled := []
  following := []
  requestDeadlines := .empty
  requestTimers := .empty
  progressRoutes := []
  posted := []
  calls := .empty
  answered := []

def post (s : ClientClocks) (task : ClockTask) : ClientClocks := { s with posted := s.posted ++ [task] }

/-! ### The tracker -/

def trackRequest (s : ClientClocks) (context : ClockContext) : ClientClocks :=
  { s with tracker := s.tracker.insert context.id context }

def removeRequest (s : ClientClocks) (id : Nat) : ClientClocks := { s with tracker := s.tracker.erase id }

def findByOrigin (s : ClientClocks) (origin : Nat) : Option ClockContext :=
  s.tracker.values.find? fun context => context.originId == origin

/-! ### One clock -/

def deadline (s : ClientClocks) (context : ClockContext) : Int := context.startTime + s.requestTimeoutMax * 1000000

/-- Never past the overall maximum: what is left until then is counted in whole milliseconds. -/
def armRequestTimeout (s : ClientClocks) (origin : Nat) (after : Int) : ClientClocks :=
  match s.requestDeadlines.find? origin with
  | none => s
  | some deadline =>
      let left := (deadline - s.now).tdiv 1000000
      let after := if left < after then max left 0 else after
      { s with requestTimers := s.requestTimers.insert origin (some (s.now + after * 1000000)) }

def startClock (s : ClientClocks) (context : ClockContext) : ClientClocks :=
  s.post (.startClock context.originId (s.deadline context)
    (min (context.timeout.getD s.requestTimeout) s.requestTimeoutMax))

/-- The task that starts a clock, run on the dispatcher. -/
def clockStarted (s : ClientClocks) (origin : Nat) (deadline timeout : Int) : ClientClocks :=
  if (s.findByOrigin origin).isSome then
    { s with requestDeadlines := s.requestDeadlines.insert origin deadline }.armRequestTimeout origin timeout
  else s

def eraseClock (s : ClientClocks) (origin : Nat) : ClientClocks :=
  { s with
    requestTimers := s.requestTimers.erase origin
    requestDeadlines := s.requestDeadlines.erase origin }

/-- A context is settled once; what was set up with its clock gives up the request's route and posts the
task that stops the clock. -/
def finish (s : ClientClocks) (context : ClockContext) : ClientClocks :=
  if s.settled.contains context.id then s
  else
    { s with
      settled := context.id :: s.settled
      answered := context.originId :: s.answered
      progressRoutes := s.progressRoutes.filter (· ≠ context.originId) }.post (.stopClock context.originId)

/-! ### Sending -/

/-- On the dispatcher, where a send that fails settles and forgets its request in one go. -/
def sendRequestInternal (s : ClientClocks) (context : ClockContext) (outcome : SendOutcome) : ClientClocks :=
  if s.settled.contains context.id then s
  else
    match outcome with
    | .sent => s
    | .failed => (s.finish context).removeRequest context.id
    | .postponed => s.post (.sendRequestInternal context)

/-- The context of a new request. -/
def newContext (s : ClientClocks) (isInitialize : Bool) (timeout : Option Int) (progressResetsTimeout : Bool) :
    ClockContext where
  id := s.nextRequestId
  originId := s.nextRequestId
  isInitialize
  startTime := s.now
  timeout
  progressResetsTimeout

def takeId (s : ClientClocks) : ClientClocks := { s with nextRequestId := s.nextRequestId + 1 }

/-- The client's own requests are made on the dispatcher. -/
def sendInternalJson (s : ClientClocks) (outcome : SendOutcome) : ClientClocks :=
  let context := s.newContext false none false
  ((s.takeId.startClock context).trackRequest context).sendRequestInternal context outcome

def beginCall (s : ClientClocks) (context : ClockContext) (cancellable : Bool) : ClientClocks :=
  { s.takeId with calls := s.calls.insert context.id ⟨context, cancellable, .startClock⟩ }

/-- `sendRequest` and `sendRequestWithParams`, up to their clock. `allowed` is the circuit breaker's word. -/
def sendRequest (s : ClientClocks) (isInitialize allowed : Bool) : ClientClocks :=
  if allowed then s.beginCall (s.newContext isInitialize none false) false else s

/-- One that is refused is settled before anything was set up to go with that. -/
def sendCancellableRequest (s : ClientClocks) (isInitialize : Bool) (timeout : Option Int)
    (progressResetsTimeout onProgress allowed : Bool) : ClientClocks :=
  let context := s.newContext isInitialize timeout progressResetsTimeout
  let routed := if onProgress then { s with progressRoutes := context.id :: s.progressRoutes } else s
  if allowed then routed.beginCall context true
  else
    { routed.takeId with
      settled := context.id :: s.settled
      answered := context.originId :: s.answered }

def setStage (s : ClientClocks) (call : Call) (stage : CallStage) : ClientClocks :=
  { s with calls := s.calls.insert call.context.id { call with stage } }

def endCall (s : ClientClocks) (id : Nat) : ClientClocks := { s with calls := s.calls.erase id }

/-- The next step of a calling thread. -/
def proceed (s : ClientClocks) (id : Nat) (outcome : SendOutcome) : ClientClocks :=
  match s.calls.find? id with
  | none => s
  | some call =>
      match call.stage with
      | .startClock => (s.startClock call.context).setStage call .trackRequest
      | .trackRequest => (s.trackRequest call.context).setStage call .sendRequest
      | .sendRequest =>
          if call.cancellable then (s.post (.sendRequestInternal call.context)).endCall id
          else if s.settled.contains id then s.endCall id
          else
            match outcome with
            | .sent => s.endCall id
            | .failed => (s.finish call.context).setStage call .removeRequest
            | .postponed => (s.post (.sendRequestInternal call.context)).endCall id
      | .removeRequest => (s.removeRequest id).endCall id

/-! ### Answers and ends -/

def completeRequest (s : ClientClocks) (context : ClockContext) : ClientClocks :=
  (s.finish context).removeRequest context.id

/-- A request whose task is cancelled has that said in a request of its own. -/
def abandonRequest (s : ClientClocks) (context : ClockContext) (outcome : SendOutcome) : ClientClocks :=
  if s.settled.contains context.id then s
  else
    let removed := s.removeRequest context.id
    (if s.following.contains context.id then removed.sendInternalJson outcome else removed).finish context

def cancelRequest (s : ClientClocks) (origin : Nat) : ClientClocks :=
  match s.findByOrigin origin with
  | some context => if context.isInitialize then s else s.post (.abandonRequest origin)
  | none => s

def abandonOrigin (s : ClientClocks) (origin : Nat) (outcome : SendOutcome) : ClientClocks :=
  match s.findByOrigin origin with
  | some context => s.abandonRequest context outcome
  | none => s

/-- A timer fires once it is due, and is armed no longer. -/
def onRequestTimedOut (s : ClientClocks) (origin : Nat) (outcome : SendOutcome) : ClientClocks :=
  match s.requestTimers.find? origin with
  | some (some due) =>
      if due ≤ s.now then
        { s with requestTimers := s.requestTimers.insert origin none }.abandonOrigin origin outcome
      else s
  | _ => s

def routeProgress (s : ClientClocks) (origin : Nat) (isThreadSafe : Bool) : ClientClocks :=
  if s.progressRoutes.contains origin then
    match s.findByOrigin origin with
    | some context =>
        if s.settled.contains context.id then s
        else if context.progressResetsTimeout then
          let timeout := context.timeout.getD s.requestTimeout
          if isThreadSafe then s.armRequestTimeout origin timeout else s.post (.armRequestTimeout origin timeout)
        else s
    | none => s
  else s

/-- The call follows its task from now on, and its own clock stops. -/
def followTask (s : ClientClocks) (id : Nat) : ClientClocks :=
  match s.tracker.find? id with
  | some context =>
      if s.settled.contains id then s else { s with following := id :: s.following }.eraseClock context.originId
  | none => s

/-- The request goes on in a new context, under the id its caller knows. -/
def carryOver (s : ClientClocks) (context : ClockContext) : ClientClocks × ClockContext :=
  let again := { context with id := s.nextRequestId }
  (({ s.takeId with settled := context.id :: s.settled }.removeRequest context.id).trackRequest again, again)

/-- With what the server asked for, or after its tools were listed again. -/
def sendAgain (s : ClientClocks) (id : Nat) (outcome : SendOutcome) : ClientClocks :=
  match s.tracker.find? id with
  | some context =>
      if s.settled.contains id then s
      else (s.carryOver context).1.sendRequestInternal (s.carryOver context).2 outcome
  | none => s

/-- The requests that have waited for as long as one may, when the connection is lost. -/
def overdue (s : ClientClocks) (context : ClockContext) : Bool :=
  s.requestTimeout * 1000000 ≤ s.now - context.startTime

def onConnectionClosed (s : ClientClocks) : ClientClocks :=
  (s.tracker.values.filter s.overdue).foldl finish
    { s with tracker := s.tracker.filter fun _ context => !s.overdue context }

/-! ### Steps -/

def run (s : ClientClocks) (outcome : SendOutcome) : ClockTask → ClientClocks
  | .startClock origin deadline timeout => s.clockStarted origin deadline timeout
  | .stopClock origin => s.eraseClock origin
  | .armRequestTimeout origin after => s.armRequestTimeout origin after
  | .sendRequestInternal context => s.sendRequestInternal context outcome
  | .abandonRequest origin => s.abandonOrigin origin outcome

/-- The dispatcher runs the task that was posted first. -/
def runTask (s : ClientClocks) (outcome : SendOutcome) : ClientClocks :=
  match s.posted with
  | [] => s
  | task :: rest => { s with posted := rest }.run outcome task

end ClientClocks

inductive ClockOp
  | sendRequest (isInitialize allowed : Bool)
  | sendCancellableRequest (isInitialize : Bool) (timeout : Option Int) (progressResetsTimeout onProgress allowed : Bool)
  | proceed (id : Nat) (outcome : SendOutcome)
  | sendInternalJson (outcome : SendOutcome)
  | runTask (outcome : SendOutcome)
  | retry (id : Nat) (outcome : SendOutcome)
  | answer (id : Nat)
  | followTask (id : Nat)
  | sendAgain (id : Nat) (outcome : SendOutcome)
  | cancelRequest (origin : Nat)
  | routeProgress (origin : Nat) (isThreadSafe : Bool)
  | timerFires (origin : Nat) (outcome : SendOutcome)
  | onConnectionClosed
  | advance (nanoseconds : Nat)

namespace ClientClocks

def step (s : ClientClocks) : ClockOp → ClientClocks
  | .sendRequest isInitialize allowed => s.sendRequest isInitialize allowed
  | .sendCancellableRequest isInitialize timeout progressResetsTimeout onProgress allowed =>
      s.sendCancellableRequest isInitialize timeout progressResetsTimeout onProgress allowed
  | .proceed id outcome => s.proceed id outcome
  | .sendInternalJson outcome => s.sendInternalJson outcome
  | .runTask outcome => s.runTask outcome
  | .retry id outcome =>
      match s.tracker.find? id with
      | some context => s.sendRequestInternal context outcome
      | none => s
  | .answer id =>
      match s.tracker.find? id with
      | some context => s.completeRequest context
      | none => s
  | .followTask id => s.followTask id
  | .sendAgain id outcome => s.sendAgain id outcome
  | .cancelRequest origin => s.cancelRequest origin
  | .routeProgress origin isThreadSafe => s.routeProgress origin isThreadSafe
  | .timerFires origin outcome => s.onRequestTimedOut origin outcome
  | .onConnectionClosed => s.onConnectionClosed
  | .advance nanoseconds => { s with now := s.now + nanoseconds }

end ClientClocks

end GopherMcp
