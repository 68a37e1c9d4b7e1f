import GopherMcp.Core.Error
import GopherMcp.Core.RequestId
import GopherMcp.Lib.OrdMap
import GopherMcp.Lib.Runs
import GopherMcp.Transport.EventId

/-!
# One request and its answer

A `RequestExchange` runs from the dispatch of a request to its last byte. It is answered once, by a
single response or by a stream; a stream numbers its events and keeps the newest of them for a client
that comes back; what all exchanges keep together is counted in one shared place. Where a call
reports back whether it did what it was asked, the function here returns that beside the exchange.
-/

namespace GopherMcp

abbrev HeaderList := List (Bytes × Bytes)

/-! ### Where the bytes go -/

/-- A connection, unless it was let go of, or a sink that keeps what it is given. -/
inductive Sink where
  | connection (attached isOpen writeInProgress : Bool)
  | retained
  deriving DecidableEq

namespace Sink

def alive : Sink → Bool
  | .connection attached isOpen _ => attached && isOpen
  | .retained => true

/-- Whether bytes handed over now are taken. -/
def write : Sink → Bool
  | .connection attached isOpen writeInProgress => attached && isOpen && !writeInProgress
  | .retained => true

def setWriteInProgress (inProgress : Bool) : Sink → Sink
  | .connection attached isOpen _ => .connection attached isOpen inProgress
  | .retained => .retained

/-- The peer closes the connection. -/
def close : Sink → Sink
  | .connection attached _ writeInProgress => .connection attached false writeInProgress
  | .retained => .retained

def detach : Sink → Sink
  | .connection _ isOpen writeInProgress => .connection false isOpen writeInProgress
  | .retained => .retained

end Sink

/-- What an exchange hands to its sink. A bare body is framed downstream, as a plain 200. -/
inductive Handed where
  | bare (body : Bytes)
  | unary (statusCode : Int) (headers : HeaderList) (body : Bytes)
  | streamHead (statusCode : Int) (headers : HeaderList)
  | event (event data : Bytes) (id : Option Bytes)
  | comment (text : Bytes)
  | retry (milliseconds : Nat)
  | streamEnd
  deriving DecidableEq

namespace Handed

/-- It opens an answer: a status line goes out with it. -/
def isHead : Handed → Bool
  | .bare _ | .unary _ _ _ | .streamHead _ _ => true
  | .event _ _ _ | .comment _ | .retry _ | .streamEnd => false

/-- It is a whole answer by itself. -/
def isAnswer : Handed → Bool
  | .bare _ | .unary _ _ _ => true
  | .streamHead _ _ | .event _ _ _ | .comment _ | .retry _ | .streamEnd => false

end Handed

/-! ### The response writer -/

structure WriterOptions where
  http11 : Bool
  keepAlive : Bool
  allowSseToHttp10 : Bool
  deriving DecidableEq

inductive WriterMode where
  | idle
  | sse
  | finished
  deriving DecidableEq

inductive SseStart where
  | streaming
  | refusedUnary
  | rejected
  deriving DecidableEq

/-- What frames one response, with what it has framed and nobody has taken yet, and how often its
observer was told that the stream finished. -/
structure ResponseWriter where
  options : WriterOptions
  mode : WriterMode := .idle
  out : List Handed := []
  observer : Bool := false
  toldFinished : Nat := 0

namespace ResponseWriter

def startUnary (writer : ResponseWriter) (statusCode : Int) (headers : HeaderList) (body : Bytes) :
    Bool × ResponseWriter :=
  if writer.mode ≠ .idle then (false, writer)
  else
    (true, { writer with
      mode := .finished, out := writer.out ++ [.unary statusCode headers body] })

/-- There is no chunked encoding before HTTP/1.1, so such a client is answered once and for all. -/
def startSse (writer : ResponseWriter) (statusCode : Int) (headers : HeaderList) :
    SseStart × ResponseWriter :=
  if writer.mode ≠ .idle then (.rejected, writer)
  else if !writer.options.http11 && !writer.options.allowSseToHttp10 then
    (.refusedUnary, ({ writer with options := { writer.options with keepAlive := false } }.startUnary
      406 [(ascii "Content-Type", ascii "application/json")]
      (ascii "\x7b\"error\":\"event_stream_requires_http_1_1\"\x7d")).2)
  else
    (.streaming, { writer with
      mode := .sse, out := writer.out ++ [.streamHead statusCode headers] })

/-- Events, comments and retry fields alike need an open stream. -/
def appendSsePayload (writer : ResponseWriter) (payload : Handed) : Bool × ResponseWriter :=
  if writer.mode ≠ .sse then (false, writer)
  else (true, { writer with out := writer.out ++ [payload] })

def finish (writer : ResponseWriter) : Bool × ResponseWriter :=
  if writer.mode = .finished then (true, writer)
  else if writer.mode ≠ .sse then (false, writer)
  else
    (true, { writer with
      mode := .finished
      out := writer.out ++ [.streamEnd]
      toldFinished := if writer.observer then writer.toldFinished + 1 else writer.toldFinished })

def drain (writer : ResponseWriter) : List Handed × ResponseWriter :=
  (writer.out, { writer with out := [] })

end ResponseWriter

/-! ### Cancellation -/

/-- Observers go by the number they were registered under. -/
structure CancellationToken where
  cancelled : Bool := false
  observers : List Nat := []
  deriving DecidableEq

namespace CancellationToken

/-- The observers to run at once, and the token. -/
def addObserver (token : CancellationToken) (observer : Nat) : List Nat × CancellationToken :=
  if token.cancelled then ([observer], token)
  else ([], { token with observers := token.observers ++ [observer] })

def cancel (token : CancellationToken) : List Nat × CancellationToken :=
  if token.cancelled then ([], token) else (token.observers, ⟨true, []⟩)

end CancellationToken

/-! ### What is kept for a client that comes back -/

structure RetainedEvent where
  id : Bytes
  event : Bytes
  data : Bytes
  deriving DecidableEq

def RetainedEvent.size (record : RetainedEvent) : Nat :=
  record.id.length + record.event.length + record.data.length

/-- The counters every exchange shares, and whether one was ever taken below zero. -/
structure ReplayAccounting where
  events : Nat
  bytes : Nat
  belowZero : Bool
  deriving DecidableEq

/-- `fetch_sub` of a `size_t`, which wraps. -/
def fetchSub (counter amount : Nat) : Nat :=
  if amount ≤ counter then counter - amount else 2 ^ 64 - (amount - counter)

namespace ReplayAccounting

def charge (shared : ReplayAccounting) (record : RetainedEvent) : ReplayAccounting :=
  { shared with events := shared.events + 1, bytes := shared.bytes + record.size }

def giveBack (shared : ReplayAccounting) (record : RetainedEvent) : ReplayAccounting where
  events := fetchSub shared.events 1
  bytes := fetchSub shared.bytes record.size
  belowZero := shared.belowZero || shared.events < 1 || shared.bytes < record.size

end ReplayAccounting

/-- Evict from the front until one more event fits: what stays, how many went, and the counters. -/
def makeRoom (limit : Nat) (accounted : Bool) :
    List RetainedEvent → ReplayAccounting → List RetainedEvent × Nat × ReplayAccounting
  | [], shared => ([], 0, shared)
  | oldest :: rest, shared =>
      if limit ≤ rest.length + 1 then
        let (kept, evicted, left) :=
          makeRoom limit accounted rest (if accounted then shared.giveBack oldest else shared)
        (kept, evicted + 1, left)
      else (oldest :: rest, 0, shared)

/-! ### The exchange -/

namespace RequestExchange

/-- What the exchange has committed to. Nothing in the source ever enters `json`. -/
inductive Mode where
  | opened
  | json
  | stream
  | complete
  deriving DecidableEq

inductive Phase where
  | receivingBody
  | dispatching
  | respondingJson
  | responding202
  | respondingError
  | respondingSseOpen
  | respondingSseDraining
  | respondingSseClosed
  | done
  deriving DecidableEq

end RequestExchange

/-- The last eight fields are a record of what happened and steer nothing. -/
structure RequestExchange where
  sink : Sink
  requestId : Option RequestId
  mode : RequestExchange.Mode := .opened
  phase : RequestExchange.Phase := .receivingBody
  firstByteWritten : Bool := false
  retainOnDisconnect : Bool := false
  detached : Bool := false
  statusCode : Int := 200
  headers : HeaderList := []
  framedHeaders : HeaderList := []
  writerOptions : WriterOptions := ⟨true, true, false⟩
  streamWriter : Option ResponseWriter := none
  cancellation : CancellationToken := {}
  completionObserver : Option Nat := none
  connectionGoneObserver : Option Nat := none
  replay : List RetainedEvent := []
  retainedEventLimit : Nat := 256
  droppedEvents : Nat := 0
  accounting : Bool := false
  streamId : Bytes := []
  nextSequence : Nat := 1
  eventObserver : Bool := false
  streamObserver : Bool := false
  handed : List Handed := []
  minted : List (Nat × Bytes) := []
  written : List RetainedEvent := []
  kept : List RetainedEvent := []
  released : Bool := false
  observed : List RetainedEvent := []
  registered : Nat := 0
  ran : List Nat := []

namespace RequestExchange

def create (sink : Sink) (id : Option RequestId) : RequestExchange := { sink := sink, requestId := id }

def setPhase (x : RequestExchange) (phase : Phase) : Bool × RequestExchange :=
  if x.phase = .done ∧ phase ≠ .done then (false, x) else (true, { x with phase := phase })

def setRequestId (x : RequestExchange) (id : RequestId) : Bool × RequestExchange :=
  if x.requestId.isSome then (false, x)
  else if x.firstByteWritten then (false, x)
  else (true, { x with requestId := some id })

def setResponseOptions (x : RequestExchange) (http11 keepAlive : Bool) : RequestExchange :=
  { x with writerOptions := { x.writerOptions with http11 := http11, keepAlive := keepAlive } }

def setStatus (x : RequestExchange) (statusCode : Int) : Bool × RequestExchange :=
  if x.firstByteWritten then (false, x) else (true, { x with statusCode := statusCode })

/-- The first header of that name gets the value, or a new one is added behind the others. -/
def setHeader (name value : Bytes) : HeaderList → HeaderList
  | [] => [(name, value)]
  | header :: rest =>
      if header.1 = name then (name, value) :: rest else header :: setHeader name value rest

def setResponseHeader (x : RequestExchange) (name value : Bytes) : Bool × RequestExchange :=
  if x.firstByteWritten then (false, x)
  else (true, { x with headers := setHeader name value x.headers })

def removeResponseHeader (x : RequestExchange) (name : Bytes) : Bool × RequestExchange :=
  if x.firstByteWritten then (false, x)
  else if x.headers.any (·.1 = name) then
    (true, { x with headers := x.headers.eraseP (·.1 = name) })
  else (false, x)

def setFramedHeaders (x : RequestExchange) (headers : HeaderList) : RequestExchange :=
  { x with framedHeaders := headers }

def needsOwnFraming (x : RequestExchange) : Bool := x.statusCode ≠ 200 || !x.headers.isEmpty

def named (headers : HeaderList) (name : Bytes) : Bool := headers.any (·.1 = name)

/-- The headers of a response framed here: the caller's, then those of the connection the caller
does not override, then the content type. -/
def headersFor (x : RequestExchange) (contentType : Bytes) : HeaderList :=
  let headers := x.framedHeaders.foldl
    (fun headers header => if named headers header.1 then headers else headers ++ [header]) x.headers
  if !contentType.isEmpty && !named headers (ascii "Content-Type") then
    headers ++ [(ascii "Content-Type", contentType)]
  else headers

def pass (x : RequestExchange) (items : List Handed) : RequestExchange :=
  { x with handed := x.handed ++ items }

/-- Give the sink what there is to give; from the first byte on the answer has begun. -/
def handOver (x : RequestExchange) (items : List Handed) : RequestExchange :=
  if items = [] then x else { x.pass items with firstByteWritten := true }

/-! ### One answer -/

/-- What an answer reports: whether it went out. -/
def answered (written : Bool) : Except Error Unit :=
  if written then .ok ()
  else .error ⟨INTERNAL_ERROR, ascii "response dropped: the reply path is gone"⟩

def alreadyAnswered : Error :=
  ⟨INTERNAL_ERROR, ascii "response dropped: this request was already answered"⟩

def notSerialized : Error := ⟨INTERNAL_ERROR, ascii "response dropped: could not be serialized"⟩

/-- `body` is the response as `serializeResponse` renders it. -/
def respondJson (x : RequestExchange) (body : Bytes) : Except Error Unit × RequestExchange :=
  if x.mode ≠ .opened then (.error alreadyAnswered, x)
  else if x.needsOwnFraming then
    let (started, writer) := ResponseWriter.startUnary { options := x.writerOptions } x.statusCode
      (x.headersFor (ascii "application/json")) body
    if !started then (.error notSerialized, x)
    else
      (answered x.sink.write,
        (setPhase { x.handOver writer.drain.1 with mode := .complete } .respondingJson).2)
  else
    (answered x.sink.write,
      (setPhase { x.handOver [.bare body] with mode := .complete } .respondingJson).2)

def respondUnary (x : RequestExchange) (contentType body : Bytes) :
    Except Error Unit × RequestExchange :=
  if x.mode ≠ .opened then (.error alreadyAnswered, x)
  else
    let (started, writer) := ResponseWriter.startUnary { options := x.writerOptions } x.statusCode
      (x.headersFor contentType) body
    if !started then (.error notSerialized, x)
    else (answered x.sink.write, { x.handOver writer.drain.1 with mode := .complete })

/-! ### A stream -/

def beginStream (x : RequestExchange) : Bool × RequestExchange :=
  if x.mode ≠ .opened then (false, x)
  else
    let (start, writer) := ResponseWriter.startSse
      { options := x.writerOptions, observer := x.streamObserver } x.statusCode (x.headersFor [])
    let (items, drained) := writer.drain
    if start ≠ .streaming then
      (false, { x.handOver items with streamWriter := none, mode := .complete })
    else (true, { x.handOver items with streamWriter := some drained, mode := .stream })

/-- What `nameThisStream` settles beside the limit; `given` says whether there is accounting. -/
def makeResumable (x : RequestExchange) (streamId : Bytes) (given : Bool) : RequestExchange :=
  { x with streamId := streamId, accounting := given }

def resumable (x : RequestExchange) : Bool := !x.streamId.isEmpty

def retainEvent (x : RequestExchange) (shared : ReplayAccounting) (record : RetainedEvent) :
    RequestExchange × ReplayAccounting :=
  if x.retainedEventLimit = 0 then
    ({ x with droppedEvents := x.droppedEvents + 1, kept := x.kept ++ [record] }, shared)
  else
    let (room, evicted, left) := makeRoom x.retainedEventLimit x.accounting x.replay shared
    ({ x with
        replay := room ++ [record]
        droppedEvents := x.droppedEvents + evicted
        kept := x.kept ++ [record] },
      if x.accounting then left.charge record else left)

/-- The id of the next event: the caller's, or the next this stream mints. -/
def nameEvent (x : RequestExchange) (id : Option Bytes) : Bytes × RequestExchange :=
  match id with
  | some given => (given, x)
  | none =>
      let id := mintedId x.streamId x.nextSequence
      (id, { x with
        nextSequence := x.nextSequence + 1, minted := x.minted ++ [(x.nextSequence, id)] })

/-- Keep the event where it may still be asked for, and tell whoever follows the stream. -/
def record (x : RequestExchange) (shared : ReplayAccounting) (event : RetainedEvent) :
    RequestExchange × ReplayAccounting :=
  let noted := { x with
    written := x.written ++ [event]
    observed := if x.eventObserver then x.observed ++ [event] else x.observed }
  if x.resumable || x.detached then noted.retainEvent shared event else (noted, shared)

/-- Frame one more piece of an open stream: what there is to write then, unless it is refused. -/
def frame (x : RequestExchange) (payload : Handed) : Option (List Handed) × RequestExchange :=
  match x.streamWriter with
  | none => (none, x)
  | some writer =>
      let (framed, writer) := writer.appendSsePayload payload
      if !framed then (none, { x with streamWriter := some writer })
      else
        let (items, drained) := writer.drain
        (some items, { x with streamWriter := some drained })

def writeEvent (x : RequestExchange) (shared : ReplayAccounting) (event data : Bytes)
    (id : Option Bytes) : Bool × RequestExchange × ReplayAccounting :=
  if x.mode ≠ .stream then (false, x, shared)
  else
    let (eventId, x) := x.nameEvent id
    let (x, shared) := x.record shared ⟨eventId, event, data⟩
    if x.detached then (true, x, shared)
    else
      match x.frame (.event event data (if x.resumable then some eventId else none)) with
      | (none, x) => (false, x, shared)
      | (some items, x) => (items.isEmpty || x.sink.write, x.handOver items, shared)

def writeComment (x : RequestExchange) (comment : Bytes) : Bool × RequestExchange :=
  if x.mode ≠ .stream ∨ x.streamWriter.isNone then (false, x)
  else if x.detached then (true, x)
  else
    match x.frame (.comment comment) with
    | (none, x) => (false, x)
    | (some items, x) => (items.isEmpty || x.sink.write, x.pass items)

def writeRetry (x : RequestExchange) (milliseconds : Int) : Bool × RequestExchange :=
  if x.mode ≠ .stream ∨ x.streamWriter.isNone ∨ x.detached ∨ milliseconds ≤ 0 then (false, x)
  else
    match x.frame (.retry (min milliseconds.toNat 0xffffffff)) with
    | (none, x) => (false, x)
    | (some items, x) => (items.isEmpty || x.sink.write, x.pass items)

/-! ### The end -/

/-- Run an observer, if there is one. -/
def runObserver (x : RequestExchange) (observer : Option Nat) : RequestExchange :=
  { x with ran := x.ran ++ observer.toList }

/-- Finish the framing of a stream still open. -/
def finishStream (x : RequestExchange) : RequestExchange :=
  match x.mode, x.streamWriter with
  | .stream, some writer =>
      let (items, drained) := writer.finish.2.drain
      { x.pass items with streamWriter := some drained }
  | _, _ => x

def complete (x : RequestExchange) : Bool × RequestExchange :=
  if x.phase = .done then (true, x)
  else
    let ended := { x.finishStream with mode := .complete, phase := .done }
    (true, { ended with completionObserver := none }.runObserver ended.completionObserver)

/-- The first half of `onConnectionGone`: whoever waits for the connection to go is told. -/
def announceGone (x : RequestExchange) : RequestExchange :=
  { x with connectionGoneObserver := none }.runObserver x.connectionGoneObserver

/-- Nobody observes the stream any more. -/
def unobserveStream (x : RequestExchange) : RequestExchange :=
  { x with
    streamObserver := false
    streamWriter := x.streamWriter.map fun writer => { writer with observer := false } }

def cancel (x : RequestExchange) : RequestExchange :=
  let (told, token) := x.cancellation.cancel
  { x with cancellation := token, ran := x.ran ++ told }

/-- The second half of `onConnectionGone`: give up, or go on into a buffer. -/
def settleGone (x : RequestExchange) : Bool × RequestExchange :=
  if x.mode = .complete ∨ !x.retainOnDisconnect then
    (false, { x with sink := x.sink.detach }.unobserveStream.cancel)
  else (true, { x with sink := .retained, detached := true }.unobserveStream)

def onConnectionGone (x : RequestExchange) : Bool × RequestExchange := x.announceGone.settleGone

def releaseReplay (x : RequestExchange) (shared : ReplayAccounting) :
    RequestExchange × ReplayAccounting :=
  ({ x with replay := [], kept := [], released := true },
    if x.accounting then x.replay.foldl ReplayAccounting.giveBack shared else shared)

/-! ### Observers -/

def addObserver (x : RequestExchange) : RequestExchange :=
  let (told, token) := x.cancellation.addObserver x.registered
  { x with cancellation := token, registered := x.registered + 1, ran := x.ran ++ told }

/-- The observer a call sets: a new one, or none. -/
def newObserver (x : RequestExchange) (given : Bool) : Option Nat :=
  if given then some x.registered else none

def setCompletionObserver (x : RequestExchange) (given : Bool) : RequestExchange :=
  { x with completionObserver := x.newObserver given, registered := x.registered + 1 }

def setConnectionGoneObserver (x : RequestExchange) (given : Bool) : RequestExchange :=
  { x with connectionGoneObserver := x.newObserver given, registered := x.registered + 1 }

/-! ### Operations on one exchange -/

/-- A call of the exchange, or what happens to the connection below it. -/
inductive Operation where
  | setPhase (phase : Phase)
  | setRequestId (id : RequestId)
  | setResponseOptions (http11 keepAlive : Bool)
  | setStatus (statusCode : Int)
  | setResponseHeader (name value : Bytes)
  | removeResponseHeader (name : Bytes)
  | setFramedHeaders (headers : HeaderList)
  | respondJson (body : Bytes)
  | respondUnary (contentType body : Bytes)
  | beginStream
  | makeResumable (streamId : Bytes) (given : Bool)
  | releaseReplay
  | setEventObserver (given : Bool)
  | setStreamObserver (given : Bool)
  | writeEvent (event data : Bytes) (id : Option Bytes)
  | writeComment (comment : Bytes)
  | writeRetry (milliseconds : Int)
  | complete
  | setCompletionObserver (given : Bool)
  | setConnectionGoneObserver (given : Bool)
  | addObserver
  | cancel
  | setRetainOnDisconnect (retain : Bool)
  | setRetainedEventLimit (events : Nat)
  | announceGone
  | settleGone
  | setWriteInProgress (inProgress : Bool)
  | connectionCloses

/-- An exchange after an operation, with the counters it shares. -/
def apply (x : RequestExchange) (shared : ReplayAccounting) :
    Operation → RequestExchange × ReplayAccounting
  | .setPhase phase => ((x.setPhase phase).2, shared)
  | .setRequestId id => ((x.setRequestId id).2, shared)
  | .setResponseOptions http11 keepAlive => (x.setResponseOptions http11 keepAlive, shared)
  | .setStatus statusCode => ((x.setStatus statusCode).2, shared)
  | .setResponseHeader name value => ((x.setResponseHeader name value).2, shared)
  | .removeResponseHeader name => ((x.removeResponseHeader name).2, shared)
  | .setFramedHeaders headers => (x.setFramedHeaders headers, shared)
  | .respondJson body => ((x.respondJson body).2, shared)
  | .respondUnary contentType body => ((x.respondUnary contentType body).2, shared)
  | .beginStream => (x.beginStream.2, shared)
  | .makeResumable streamId given => (x.makeResumable streamId given, shared)
  | .releaseReplay => x.releaseReplay shared
  | .setEventObserver given => ({ x with eventObserver := given }, shared)
  | .setStreamObserver given => ({ x with streamObserver := given }, shared)
  | .writeEvent event data id => (x.writeEvent shared event data id).2
  | .writeComment comment => ((x.writeComment comment).2, shared)
  | .writeRetry milliseconds => ((x.writeRetry milliseconds).2, shared)
  | .complete => (x.complete.2, shared)
  | .setCompletionObserver given => (x.setCompletionObserver given, shared)
  | .setConnectionGoneObserver given => (x.setConnectionGoneObserver given, shared)
  | .addObserver => (x.addObserver, shared)
  | .cancel => (x.cancel, shared)
  | .setRetainOnDisconnect retain => ({ x with retainOnDisconnect := retain }, shared)
  | .setRetainedEventLimit events => ({ x with retainedEventLimit := events }, shared)
  | .announceGone => (x.announceGone, shared)
  | .settleGone => (x.settleGone.2, shared)
  | .setWriteInProgress inProgress =>
      ({ x with sink := x.sink.setWriteInProgress inProgress }, shared)
  | .connectionCloses => ({ x with sink := x.sink.close }, shared)

/-- The name of a stream, its accounting and its limit are settled before its first event. -/
def settles (x : RequestExchange) : Operation → Bool
  | .makeResumable streamId given => !streamId.isEmpty && given && x.written.isEmpty
  | .setRetainedEventLimit _ => x.written.isEmpty
  | _ => true

end RequestExchange

/-! ### All exchanges -/

/-- The exchanges there are and the ones that were destroyed, by number, with the counters. -/
structure Exchanges where
  live : OrdMap Nat RequestExchange
  ended : OrdMap Nat RequestExchange
  accounting : ReplayAccounting
  next : Nat

namespace Exchanges

def empty : Exchanges := ⟨.empty, .empty, ⟨0, 0, false⟩, 0⟩

/-- An exchange, as it is or as it was left. -/
def exchange? (s : Exchanges) (number : Nat) : Option RequestExchange :=
  (s.live.find? number).or (s.ended.find? number)

inductive Operation where
  | create (sink : Sink) (id : Option RequestId)
  | on (number : Nat) (operation : RequestExchange.Operation)
  /-- The last reference goes away. -/
  | destroy (number : Nat)

def step (s : Exchanges) : Operation → Exchanges
  | .create sink id =>
      { s with live := s.live.insert s.next (RequestExchange.create sink id), next := s.next + 1 }
  | .on number operation =>
      match s.live.find? number with
      | none => s
      | some x =>
          let (x, accounting) := x.apply s.accounting operation
          { s with live := s.live.insert number x, accounting := accounting }
  | .destroy number =>
      match s.live.find? number with
      | none => s
      | some x =>
          let (x, accounting) := x.releaseReplay s.accounting
          { s with
            live := s.live.erase number
            ended := s.ended.insert number x
            accounting := accounting }

def settles (s : Exchanges) : Operation → Bool
  | .on number operation => (s.live.find? number).all (·.settles operation)
  | .create _ _ | .destroy _ => true

/-- The state after a run of operations from nothing. -/
def run (operations : List Operation) : Exchanges := Runs.run step empty operations

end Exchanges

end GopherMcp
