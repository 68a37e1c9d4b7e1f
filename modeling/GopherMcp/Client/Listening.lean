import GopherMcp.Lib.OrdMap
import GopherMcp.Lib.Runs

/-!
# Subscriptions of a client

A subscription is a callback, a request that is tracked until it is answered, and a connection that carries this
request alone. The callbacks and the requests are the client's and change at once, the connections are the
connection manager's and change when a task that was posted for them runs. Which requests were settled, which
subscriptions their caller let go of and which connections were lost stays known here.
-/

namespace GopherMcp

/-- The request of a subscription, or one that went out again in its place. -/
structure ListenContext where
  id : Nat
  originId : Nat
  startTime : Nat
  inputRounds : Nat
  sessionRetried : Bool
  completed : Bool
  settled : Bool
  deriving DecidableEq

inductive ListenTask
  | openSubscription (id : Nat)
  | closeSubscription (id : Nat)
  | cancel (origin : Nat)
  deriving DecidableEq

structure ListenConnection where
  responseStatus : Nat
  readingEventStream : Bool
  isDown : Bool
  deriving DecidableEq

/-- `opening` are the calls of `listen` that did not return yet, `stopping` those of `stopListening`. -/
structure ListeningClient where
  nextRequestId : Nat
  now : Nat
  requestTimeout : Nat
  mrtrMaxRounds : Nat
  callbacks : OrdMap Nat Nat
  tracker : OrdMap Nat ListenContext
  connections : OrdMap Nat ListenConnection
  posted : List ListenTask
  opening : List Nat
  stopping : List Nat
  settled : List Nat
  stopped : List Nat
  lost : List Nat
  late : List Nat

inductive ListenOp
  | listen (callback : Nat)
  | listenReturns (id : Nat)
  | listenGivesUp (id : Nat)
  | stopListening (id : Nat)
  | stopListeningReturns (id : Nat)
  | cancelRequest (origin : Nat)
  | otherRequest
  | runPosted (canOpen : Bool)
  | onHeaders (id : Nat) (status : Nat) (eventStream : Bool)
  | onMessageComplete (id : Nat) (recoverable : Bool)
  | connectionClosed (id : Nat)
  | response (id : Nat) (question sent : Bool)
  | notification (id : Nat)
  | mainClosed
  | closeManager
  | tick (elapsed : Nat)

namespace ListeningClient

def new (requestTimeout mrtrMaxRounds : Nat) : ListeningClient :=
  ⟨1, 0, requestTimeout, mrtrMaxRounds, OrdMap.empty, OrdMap.empty, OrdMap.empty, [], [], [], [], [], [], []⟩

/-! ### The ways a request ends -/

/-- What settling a request tells its caller: something the first time only. -/
def finished (context : ListenContext) : List Nat := if context.settled then [] else [context.originId]

def finish (s : ListeningClient) (context : ListenContext) : ListeningClient :=
  { s with settled := s.settled ++ finished context }

def post (s : ListeningClient) (task : ListenTask) : ListeningClient := { s with posted := s.posted ++ [task] }

def releaseSubscription (s : ListeningClient) (id : Nat) : ListeningClient :=
  match s.callbacks.find? id with
  | none => s
  | some _ => { s with callbacks := s.callbacks.erase id }.post (.closeSubscription id)

def removeRequest (s : ListeningClient) (id : Nat) : ListeningClient := { s with tracker := s.tracker.erase id }

def completeRequest (s : ListeningClient) (context : ListenContext) : ListeningClient :=
  ((s.releaseSubscription context.id).finish context).removeRequest context.id

def completeRequestWithError (s : ListeningClient) (context : ListenContext) : ListeningClient :=
  if context.completed then s else s.completeRequest context

/-- A request that goes out again under a fresh id, which its connection and its callback do not have. -/
def askAndSendAgain (s : ListeningClient) (context : ListenContext) (sent : Bool) : ListeningClient :=
  let again : ListenContext :=
    { context with
      id := s.nextRequestId, inputRounds := context.inputRounds + 1
      sessionRetried := false, completed := false, settled := false }
  let carried :=
    { s with
      nextRequestId := s.nextRequestId + 1
      tracker := (s.tracker.erase context.id).insert again.id again }
  if sent then carried else (carried.finish again).removeRequest again.id

/-- `question` says that the answer asks for something first. -/
def handleResponse (s : ListeningClient) (id : Nat) (question sent : Bool) : ListeningClient :=
  match s.tracker.find? id with
  | none => s
  | some context =>
      if context.completed then s
      else if question && decide (context.inputRounds < s.mrtrMaxRounds) then s.askAndSendAgain context sent
      else s.completeRequest context

/-- The answer of a request was cut off; this revision has no way to pick it up again. -/
def answerSevered (s : ListeningClient) (id : Nat) : ListeningClient :=
  match s.tracker.find? id with
  | none => s
  | some context => s.completeRequestWithError context

/-- A request refused for its session, which can be `recoverable` once, is held for a new one. -/
def handleTransportStatus (s : ListeningClient) (status id : Nat) (recoverable : Bool) : ListeningClient :=
  if 200 ≤ status ∧ status < 300 then s
  else
    match s.tracker.find? id with
    | none => s
    | some context =>
        if status = 404 ∧ recoverable = true ∧ context.sessionRetried = false then
          { s with tracker := s.tracker.insert id { context with sessionRetried := true } }
        else s.completeRequestWithError context

def findByOrigin (s : ListeningClient) (origin : Nat) : Option ListenContext :=
  (s.tracker.entries.find? fun entry => entry.2.originId = origin).map Prod.snd

/-- On the connections of this revision nothing is sent for a request that is given up. -/
def abandonRequest (s : ListeningClient) (context : ListenContext) : ListeningClient :=
  if context.settled then s else (s.removeRequest context.id).finish context

/-- The requests that are out for too long when the main connection goes. -/
def timedOut (s : ListeningClient) (context : ListenContext) : Bool :=
  decide (s.requestTimeout ≤ s.now - context.startTime)

def mainClosed (s : ListeningClient) : ListeningClient :=
  { s with
    tracker := s.tracker.filter fun _ context => !s.timedOut context
    settled := s.settled ++ (s.tracker.values.filter s.timedOut).flatMap finished }

/-! ### Connections of their own -/

def openSubscription (s : ListeningClient) (id : Nat) (canOpen : Bool) : ListeningClient :=
  if (s.connections.find? id).isSome then s
  else if canOpen then { s with connections := s.connections.insert id ⟨0, false, false⟩ }
  else s

/-- A connection that is still up tells of its end, which is told on where an answer was being read. -/
def closeSubscription (s : ListeningClient) (id : Nat) : ListeningClient :=
  match s.connections.find? id with
  | none => s
  | some c =>
      let released := { s with connections := s.connections.erase id }
      if !c.isDown && c.readingEventStream then released.answerSevered id else released

/-- A connection is closed by the other end, or does not come up. Nobody takes it out of the table. -/
def connectionClosed (s : ListeningClient) (id : Nat) : ListeningClient :=
  match s.connections.find? id with
  | none => s
  | some c =>
      if c.isDown then s
      else
        let down :=
          { s with connections := s.connections.insert id { c with isDown := true }, lost := s.lost ++ [id] }
        if c.readingEventStream then down.answerSevered id else down

/-- The manager closes with its main connection every other one. -/
def loseSubscription (s : ListeningClient) (id : Nat) : ListeningClient :=
  { s with lost := s.lost ++ if (s.connections.find? id).any (fun c : ListenConnection => !c.isDown) then [id] else [] }.closeSubscription id

def closeManager (s : ListeningClient) : ListeningClient := s.connections.keys.foldl loseSubscription s

def onHeaders (s : ListeningClient) (id status : Nat) (eventStream : Bool) : ListeningClient :=
  match s.connections.find? id with
  | none => s
  | some c =>
      { s with
        connections := s.connections.insert id
          { c with
            responseStatus := status
            readingEventStream := eventStream && decide (200 ≤ status ∧ status < 300 ∨ status = 0) } }

def onMessageComplete (s : ListeningClient) (id : Nat) (recoverable : Bool) : ListeningClient :=
  match s.connections.find? id with
  | none => s
  | some c =>
      let ended :=
        { s with connections := s.connections.insert id { c with responseStatus := 0, readingEventStream := false } }
      if c.responseStatus = 0 then ended else ended.handleTransportStatus c.responseStatus id recoverable

/-! ### The client's calls -/

/-- A call that asks for something, in the revision that has subscriptions; any other returns at once. -/
def listen (s : ListeningClient) (callback : Nat) : ListeningClient :=
  let id := s.nextRequestId
  { s with
    nextRequestId := id + 1
    callbacks := s.callbacks.insert id callback
    tracker := s.tracker.insert id ⟨id, id, s.now, 0, false, false, false⟩
    opening := id :: s.opening }.post (.openSubscription id)

/-- The request of a subscription that is let go of stays tracked for a moment. -/
def stopListening (s : ListeningClient) (id : Nat) : ListeningClient :=
  if (s.callbacks.find? id).isSome then
    { s.releaseSubscription id with stopping := id :: s.stopping, stopped := s.stopped ++ [id] }
  else s

/-- The task that opens the connection did not run in time, or failed. -/
def listenGivesUp (s : ListeningClient) (id : Nat) : ListeningClient :=
  if s.opening.contains id then
    { s.releaseSubscription id with
      opening := s.opening.erase id, stopping := id :: s.stopping, stopped := s.stopped ++ [id] }
  else s

def stopListeningReturns (s : ListeningClient) (id : Nat) : ListeningClient :=
  if s.stopping.contains id then { s.removeRequest id with stopping := s.stopping.erase id } else s

def cancelRequest (s : ListeningClient) (origin : Nat) : ListeningClient :=
  if (s.findByOrigin origin).isSome then s.post (.cancel origin) else s

/-- The request is looked up again: it may have been answered on the way. -/
def runTask (s : ListeningClient) (canOpen : Bool) : ListenTask → ListeningClient
  | .openSubscription id => s.openSubscription id canOpen
  | .closeSubscription id => s.closeSubscription id
  | .cancel origin => ((s.findByOrigin origin).map s.abandonRequest).getD s

def runPosted (s : ListeningClient) (canOpen : Bool) : ListeningClient :=
  match s.posted with
  | [] => s
  | task :: rest => { s with posted := rest }.runTask canOpen task

/-- A notification for a subscription that is not held goes nowhere. One that is delivered after the end, when
nothing is left to do, is late. -/
def routeToSubscription (s : ListeningClient) (id : Nat) : ListeningClient :=
  if (s.callbacks.find? id).isSome && s.settled.contains id && s.posted.isEmpty then { s with late := s.late ++ [id] }
  else s

def step (s : ListeningClient) : ListenOp → ListeningClient
  | .listen callback => s.listen callback
  | .listenReturns id => { s with opening := s.opening.erase id }
  | .listenGivesUp id => s.listenGivesUp id
  | .stopListening id => s.stopListening id
  | .stopListeningReturns id => s.stopListeningReturns id
  | .cancelRequest origin => s.cancelRequest origin
  | .otherRequest => { s with nextRequestId := s.nextRequestId + 1 }
  | .runPosted canOpen => s.runPosted canOpen
  | .onHeaders id status eventStream => s.onHeaders id status eventStream
  | .onMessageComplete id recoverable => s.onMessageComplete id recoverable
  | .connectionClosed id => s.connectionClosed id
  | .response id question sent => s.handleResponse id question sent
  | .notification id => s.routeToSubscription id
  | .mainClosed => s.mainClosed
  | .closeManager => s.closeManager
  | .tick elapsed => { s with now := s.now + elapsed }

/-! ### Ending everywhere -/

/-- No callback and no connection. -/
def Gone (s : ListeningClient) (id : Nat) : Prop := s.callbacks.find? id = none ∧ s.connections.find? id = none

/-- What holds once the tasks that were posted have run: a subscription whose request is settled is gone, and so
is one that lost its connection, whose request is settled unless its caller let go of it. -/
structure EndsEverywhere (s : ListeningClient) : Prop where
  settled : s.posted = [] → ∀ id ∈ s.settled, s.Gone id
  lost : s.posted = [] → ∀ id ∈ s.lost, (id ∈ s.settled ∨ id ∈ s.stopped) ∧ s.Gone id
  late : s.late = []

/-- A subscription that is not held any more. -/
def Released (s : ListeningClient) (id : Nat) : Prop := s.callbacks.find? id = none

/-- What a connection that is lost was doing: it had an answer stream to read, or nothing to do any more. -/
def Losable (s : ListeningClient) (id : Nat) : Prop :=
  ∀ c ∈ s.connections.find? id, c.isDown = false → c.readingEventStream = true ∨ s.Released id

/-- Nobody cancels a subscription that is held. -/
def ProperTask (s : ListeningClient) : ListenTask → Prop
  | .cancel origin => ∀ context ∈ s.findByOrigin origin, s.Released context.id
  | _ => True

/-- No subscription that is held is cancelled, is out for too long when the main connection goes, is answered by a
question, or loses a connection on which no answer stream is being read. -/
def Proper (s : ListeningClient) : ListenOp → Prop
  | .runPosted _ => ∀ task ∈ s.posted.head?, s.ProperTask task
  | .mainClosed => ∀ context ∈ s.tracker.values, s.timedOut context = true → s.Released context.id
  | .response id question _ =>
      question = true → ∀ context ∈ s.tracker.find? id, s.mrtrMaxRounds ≤ context.inputRounds
  | .connectionClosed id => s.Losable id
  | .closeManager => ∀ id ∈ s.connections.keys, s.Losable id
  | _ => True

instance decidableReleased (s : ListeningClient) (id : Nat) : Decidable (s.Released id) :=
  inferInstanceAs (Decidable (s.callbacks.find? id = none))

instance decidableLosable (s : ListeningClient) (id : Nat) : Decidable (s.Losable id) :=
  inferInstanceAs (Decidable (∀ c ∈ s.connections.find? id, c.isDown = false →
    c.readingEventStream = true ∨ s.Released id))

instance decidableProperTask (s : ListeningClient) : (task : ListenTask) → Decidable (s.ProperTask task)
  | .cancel origin => inferInstanceAs (Decidable (∀ context ∈ s.findByOrigin origin, s.Released context.id))
  | .openSubscription _ | .closeSubscription _ => inferInstanceAs (Decidable True)

instance decidableProper (s : ListeningClient) : (op : ListenOp) → Decidable (s.Proper op)
  | .runPosted _ => inferInstanceAs (Decidable (∀ task ∈ s.posted.head?, s.ProperTask task))
  | .mainClosed => inferInstanceAs
      (Decidable (∀ context ∈ s.tracker.values, s.timedOut context = true → s.Released context.id))
  | .response id question _ => inferInstanceAs
      (Decidable (question = true → ∀ context ∈ s.tracker.find? id, s.mrtrMaxRounds ≤ context.inputRounds))
  | .connectionClosed id => inferInstanceAs (Decidable (s.Losable id))
  | .closeManager => inferInstanceAs (Decidable (∀ id ∈ s.connections.keys, s.Losable id))
  | .listen _ | .listenReturns _ | .listenGivesUp _ | .stopListening _ | .stopListeningReturns _
  | .cancelRequest _ | .otherRequest | .onHeaders _ _ _ | .onMessageComplete _ _ | .notification _ | .tick _ =>
      inferInstanceAs (Decidable True)

end ListeningClient

end GopherMcp
