import GopherMcp.Core.Bytes
import GopherMcp.Lib.OrdMap
import GopherMcp.Lib.Runs
import GopherMcp.Transport.EventId

/-!
# Sessions and their streams

The manager keeps a directory of sessions and, beside it, the ids of all streams anywhere; a session
keeps its streams in the order they opened, an index of them by id, and the messages the server had to
say while nothing was connected. What goes wrong in the source without an answer (the front of an
empty queue, a stream or a session that is gone) is no state at all here.

A write may come back into the manager before it returns. The queue of a session is therefore flushed
one write at a time: while a flush is on the stack, the front of the queue has been written and is
still to be taken off, and any operation may come in between.
-/

namespace GopherMcp

/-! ### Streams -/

inductive StreamKind where
  | get
  | postResponse
  deriving DecidableEq

/-- One stream. The address tells it from every other; the exchange, the connection and the thread
are numbers. -/
structure StreamCtx where
  address : Nat
  id : Bytes
  kind : StreamKind
  exchange : Option Nat
  conn : Option Nat
  dispatcher : Nat
  producing : Bool
  retireAt : Option Int
  deriving DecidableEq

namespace StreamCtx

/-- `open()`: the stream has begun and not yet finished. -/
def isOpen (stream : StreamCtx) : Bool := stream.producing

def live (stream : StreamCtx) : Bool := stream.conn.isSome && stream.isOpen

/-- Nothing more will be written to it. -/
def finished (stream : StreamCtx) : Bool :=
  match stream.kind with
  | .get => stream.conn.isNone
  | .postResponse => !stream.isOpen

end StreamCtx

/-! ### Sessions -/

/-- A payload under the number it was accepted as. -/
structure Message where
  number : Nat
  payload : Bytes
  deriving DecidableEq

/-- A message written to a stream, and whether it had been queued. -/
structure Written where
  message : Message
  stream : Bytes
  queued : Bool
  deriving DecidableEq

/-- The last four fields are a record of what happened and steer nothing. -/
structure SessionCtx where
  id : Bytes
  principal : Bytes
  streams : List StreamCtx
  streamIndex : OrdMap Bytes Nat
  pending : List Message
  pendingDropped : Nat
  lastActivity : Int
  accepted : Nat
  written : List Written
  dropped : List Message
  opened : List Bytes

namespace SessionCtx

def new (id principal : Bytes) (now : Int) : SessionCtx :=
  ⟨id, principal, [], .empty, [], 0, now, 0, [], [], []⟩

def ids (session : SessionCtx) : List Bytes := session.streams.map StreamCtx.id

/-- The stream a pointer leads to. -/
def streamAt (session : SessionCtx) (address : Nat) : Option StreamCtx :=
  session.streams.find? fun stream => stream.address = address

/-- The stream an id names. -/
def streamNamed (session : SessionCtx) (streamId : Bytes) : Option StreamCtx :=
  (session.streamIndex.find? streamId).bind session.streamAt

/-- Change the stream at an address. -/
def modifyStream (session : SessionCtx) (address : Nat) (change : StreamCtx → StreamCtx) :
    SessionCtx :=
  { session with
    streams := session.streams.map fun stream =>
      if stream.address = address then change stream else stream }

/-- The newest standalone stream that reaches a client. -/
def currentStream (session : SessionCtx) : Option StreamCtx :=
  session.streams.reverse.find? fun stream => stream.kind = .get && stream.live

def countStreams (session : SessionCtx) (kind : StreamKind) (connectedOnly : Bool) : Nat :=
  session.streams.countP fun stream =>
    stream.kind = kind && if connectedOnly then stream.live else stream.isOpen

/-! ### Writing -/

/-- A stream without an exchange takes nothing. -/
def writeToStream (session : SessionCtx) (stream : StreamCtx) (message : Message) (queued : Bool) :
    SessionCtx :=
  if stream.exchange.isNone then session
  else { session with written := session.written ++ [⟨message, stream.id, queued⟩] }

/-- Whether the message went out, and the session; nothing if the front of an empty queue is taken. -/
def routeUnsolicited (session : SessionCtx) (limit : Nat) (payload : Bytes) :
    Option (Bool × SessionCtx) :=
  let message : Message := ⟨session.accepted, payload⟩
  let taken := { session with accepted := session.accepted + 1 }
  match session.currentStream with
  | some stream => some (true, taken.writeToStream stream message false)
  | none =>
      if limit ≤ session.pending.length then
        match session.pending with
        | [] => none
        | oldest :: rest =>
            some (false, { taken with
              pending := rest ++ [message]
              pendingDropped := session.pendingDropped + 1
              dropped := session.dropped ++ [oldest] })
      else some (false, { taken with pending := session.pending ++ [message] })

/-! ### Streams of a session -/

def addStream (session : SessionCtx) (stream : StreamCtx) (now : Int) : SessionCtx :=
  { session with
    lastActivity := now
    streams := session.streams ++ [stream]
    streamIndex := session.streamIndex.insert stream.id stream.address
    opened := session.opened ++ [stream.id] }

/-- Take a stream off its session, with its entry in the index. -/
def dropStream (session : SessionCtx) (stream : StreamCtx) : SessionCtx :=
  { session with
    streamIndex := session.streamIndex.erase stream.id
    streams := session.streams.eraseP fun other => other.address = stream.address }

def endStream (session : SessionCtx) (address : Nat) (now : Int) : Bool × SessionCtx :=
  match session.streamAt address with
  | none => (false, session)
  | some stream =>
      if stream.exchange.isNone || !stream.isOpen then (false, session)
      else
        (true, { session.modifyStream address fun stream =>
          { stream with conn := none, producing := false } with lastActivity := now })

def detachConnection (session : SessionCtx) (conn : Option Nat) (now : Int) : SessionCtx :=
  if conn = none then session
  else
    { session with
      streams := session.streams.map fun stream =>
        if stream.conn = conn then { stream with conn := none } else stream
      lastActivity :=
        if session.streams.any fun stream => stream.conn = conn then now else session.lastActivity }

def finishStream (session : SessionCtx) (streamId : Bytes) (now : Int) : Bool × SessionCtx :=
  match session.streamNamed streamId with
  | none => (false, session)
  | some stream =>
      if !stream.isOpen then (false, session)
      else
        (true, { session.modifyStream stream.address fun stream =>
          { stream with producing := false, conn := none, retireAt := none } with
          lastActivity := now })

/-! ### Resuming -/

/-- What a client's claim about where it got to turned out to be worth. -/
structure ResumePoint where
  kind : StreamKind
  streamId : Bytes
  cursor : Bytes
  exchange : Option Nat
  dispatcher : Nat
  producing : Bool

/-- The stream before the last colon of the id, if this session holds it. -/
def resumeFrom (session : SessionCtx) (lastEventId : Bytes) : Option ResumePoint :=
  match streamOfEventId lastEventId with
  | none => none
  | some streamId =>
      (session.streamNamed streamId).map fun stream =>
        ⟨stream.kind, streamId, lastEventId, stream.exchange, stream.dispatcher, stream.isOpen⟩

/-! ### Time -/

def keepsActive (session : SessionCtx) (timeout now : Int) (stream : StreamCtx) : Bool :=
  match stream.kind with
  | .get => stream.live
  | .postResponse =>
      if !stream.isOpen || timeout ≤ 0 then false else now - session.lastActivity < timeout

def hasActiveStream (session : SessionCtx) (timeout now : Int) : Bool :=
  session.streams.any (session.keepsActive timeout now)

def expired (session : SessionCtx) (timeout now : Int) : Bool :=
  !session.hasActiveStream timeout now && timeout ≤ now - session.lastActivity

/-- The clock of a stream starts when it has finished and stops while it has not. -/
def windStream (retention now : Int) (stream : StreamCtx) : StreamCtx :=
  if !stream.finished then { stream with retireAt := none }
  else if stream.retireAt = none then { stream with retireAt := some (now + retention) }
  else stream

/-- Its time was set by an earlier sweep, and is up. -/
def due (now : Int) (stream : StreamCtx) : Bool :=
  stream.finished && stream.retireAt.any fun time => time ≤ now

end SessionCtx

/-! ### The manager -/

structure Entry where
  owner : Nat
  ctx : SessionCtx

structure ManagerConfig where
  pendingLimit : Nat
  timeout : Int
  closedStreamRetention : Int

/-- `reserved` is a record of the ids given out and not opened yet; a flush under way is a session
and the address of a stream, the innermost first. -/
structure StreamableSessionManager where
  config : ManagerConfig
  directory : OrdMap Bytes Entry
  streamIds : OrdMap Bytes Unit
  removed : List Bytes
  nextAddress : Nat
  reserved : List Bytes
  flushes : List (Bytes × Nat)

namespace StreamableSessionManager

def kMintAttempts : Nat := 4

def new (config : ManagerConfig) : StreamableSessionManager :=
  ⟨config, .empty, .empty, [], 0, [], []⟩

def session? (s : StreamableSessionManager) (id : Bytes) : Option SessionCtx :=
  (s.directory.find? id).map Entry.ctx

/-- Put a session back under its id. -/
def put (s : StreamableSessionManager) (id : Bytes) (session : SessionCtx) :
    StreamableSessionManager :=
  match s.directory.find? id with
  | none => s
  | some entry => { s with directory := s.directory.insert id { entry with ctx := session } }

/-! ### Ids -/

/-- The first draw that is not in use; an empty draw is a refusal, and ends the search. -/
def drawFresh (used : Bytes → Bool) : List Bytes → Option Bytes
  | [] => none
  | drawn :: rest => if drawn = [] then none else if used drawn then drawFresh used rest else some drawn

def reserveStreamId (s : StreamableSessionManager) (draws : List Bytes) :
    Bytes × StreamableSessionManager :=
  match drawFresh s.streamIds.contains (draws.take kMintAttempts) with
  | none => ([], s)
  | some drawn =>
      (drawn, { s with streamIds := s.streamIds.insert drawn (), reserved := drawn :: s.reserved })

def releaseStreamId (s : StreamableSessionManager) (streamId : Bytes) : StreamableSessionManager :=
  if streamId = [] then s else { s with streamIds := s.streamIds.erase streamId }

/-! ### Sessions -/

def createSession (s : StreamableSessionManager) (owner : Nat) (principal : Bytes)
    (draws : List Bytes) (now : Int) : Option Bytes × StreamableSessionManager :=
  match drawFresh s.directory.contains (draws.take kMintAttempts) with
  | none => (none, s)
  | some id =>
      (some id, { s with
        directory := s.directory.insert id ⟨owner, SessionCtx.new id principal now⟩ })

def find (s : StreamableSessionManager) (id : Bytes) (caller : Nat) : Option SessionCtx :=
  match s.directory.find? id with
  | none => none
  | some entry => if entry.owner = caller then some entry.ctx else none

def touch (s : StreamableSessionManager) (id : Bytes) (caller : Nat) (now : Int) :
    Bool × StreamableSessionManager :=
  match s.find id caller with
  | none => (false, s)
  | some session => (true, s.put id { session with lastActivity := now })

/-- Close every stream of a session that is no longer in the directory, from the newest back. -/
def closeAll (s : StreamableSessionManager) (session : SessionCtx) : StreamableSessionManager :=
  session.streams.reverse.foldl (fun s stream => s.releaseStreamId stream.id) s

def removeOwned (s : StreamableSessionManager) (id : Bytes) (caller : Nat) :
    Bool × StreamableSessionManager :=
  match s.directory.find? id with
  | none => (false, s)
  | some entry =>
      if entry.owner = caller then
        let closed := { s with directory := s.directory.erase id }.closeAll entry.ctx
        (true, { closed with removed := closed.removed ++ [id] })
      else (false, s)

/-! ### Streams -/

/-- Begin to hand a newly opened stream what was waiting for one. -/
def flushPending (s : StreamableSessionManager) (id : Bytes) (session : SessionCtx)
    (stream : StreamCtx) : StreamableSessionManager :=
  match session.pending with
  | [] => s.put id session
  | front :: _ =>
      if !stream.live then s.put id session
      else
        { s.put id (session.writeToStream stream front true) with
          flushes := (id, stream.address) :: s.flushes }

/-- The write of the innermost flush returns: its message comes off the queue, and the next goes out.
-/
def flushed (s : StreamableSessionManager) : Option StreamableSessionManager :=
  match s.flushes with
  | [] => some s
  | (id, address) :: outer =>
      match s.session? id with
      | none => none
      | some session =>
          match session.pending with
          | [] => none
          | [_] => some ({ s with flushes := outer }.put id { session with pending := [] })
          | _ :: front :: rest =>
              match session.streamAt address with
              | none => none
              | some stream =>
                  some (s.put id ({ session with pending := front :: rest }.writeToStream stream
                    front true))

/-- A stream with something behind it is producing. -/
def newStream (s : StreamableSessionManager) (streamId : Bytes) (kind : StreamKind)
    (exchange conn : Option Nat) (dispatcher : Nat) : StreamCtx :=
  ⟨s.nextAddress, streamId, kind, exchange, conn, dispatcher, exchange.isSome, none⟩

def openStream (s : StreamableSessionManager) (id streamId : Bytes) (kind : StreamKind)
    (exchange conn : Option Nat) (dispatcher : Nat) (now : Int) : StreamableSessionManager :=
  if streamId = [] then s
  else
    match s.session? id with
    | none => s
    | some session =>
        let stream := s.newStream streamId kind exchange conn dispatcher
        let opened := session.addStream stream now
        let s :=
          { s with nextAddress := s.nextAddress + 1, reserved := s.reserved.erase streamId }
        match kind with
        | .get => s.flushPending id opened stream
        | .postResponse => s.put id opened

def closeStream (s : StreamableSessionManager) (id : Bytes) (address : Nat) :
    StreamableSessionManager :=
  match s.session? id with
  | none => s
  | some session =>
      match session.streamAt address with
      | none => s
      | some stream => (s.put id (session.dropStream stream)).releaseStreamId stream.id

def routeUnsolicited (s : StreamableSessionManager) (id payload : Bytes) :
    Option StreamableSessionManager :=
  match s.session? id with
  | none => some s
  | some session =>
      (session.routeUnsolicited s.config.pendingLimit payload).map fun routed => s.put id routed.2

/-- An operation on one session that leaves all ids alone. -/
def onSession (s : StreamableSessionManager) (id : Bytes) (change : SessionCtx → SessionCtx) :
    StreamableSessionManager :=
  match s.session? id with
  | none => s
  | some session => s.put id (change session)

/-! ### Sweeping -/

/-- Wind every clock, then close what is due. -/
def retireStreams (s : StreamableSessionManager) (now : Int) (id : Bytes) :
    StreamableSessionManager :=
  if s.config.closedStreamRetention ≤ 0 then s
  else
    match s.session? id with
    | none => s
    | some session =>
        let late := (session.streams.filter (SessionCtx.due now)).map StreamCtx.address
        let wound := s.put id { session with
          streams := session.streams.map (SessionCtx.windStream s.config.closedStreamRetention now) }
        late.foldl (fun s address => s.closeStream id address) wound

/-- The sessions of one thread. -/
def ownedBy (s : StreamableSessionManager) (owner : Nat) : List Bytes :=
  (s.directory.filter fun _ entry => entry.owner = owner).keys

def expiredOf (s : StreamableSessionManager) (owner : Nat) (now : Int) : List Bytes :=
  (s.directory.filter fun _ entry =>
    entry.owner = owner && entry.ctx.expired s.config.timeout now).keys

def sweepFor (s : StreamableSessionManager) (owner : Nat) (now : Int) : StreamableSessionManager :=
  let retired := (s.ownedBy owner).foldl (fun s id => s.retireStreams now id) s
  (retired.expiredOf owner now).foldl (fun s id => (s.removeOwned id owner).2) retired

/-! ### Runs -/

inductive Operation where
  | createSession (owner : Nat) (principal : Bytes) (draws : List Bytes) (now : Int)
  | touch (id : Bytes) (caller : Nat) (now : Int)
  | remove (id : Bytes) (caller : Nat)
  | reserveStreamId (draws : List Bytes)
  | openStream (id streamId : Bytes) (kind : StreamKind) (exchange conn : Option Nat)
      (dispatcher : Nat) (now : Int)
  | closeStream (id : Bytes) (address : Nat)
  | endStream (id : Bytes) (address : Nat) (now : Int)
  | routeUnsolicited (id payload : Bytes)
  | detachConnection (id : Bytes) (conn : Option Nat) (now : Int)
  | finishStream (id streamId : Bytes) (now : Int)
  | resumeFrom (id lastEventId : Bytes)
  | sweepFor (owner : Nat) (now : Int)
  /-- The write a flush is waiting for returns. -/
  | flushed

def step (s : StreamableSessionManager) : Operation → Option StreamableSessionManager
  | .createSession owner principal draws now => some (s.createSession owner principal draws now).2
  | .touch id caller now => some (s.touch id caller now).2
  | .remove id caller => some (s.removeOwned id caller).2
  | .reserveStreamId draws => some (s.reserveStreamId draws).2
  | .openStream id streamId kind exchange conn dispatcher now =>
      some (s.openStream id streamId kind exchange conn dispatcher now)
  | .closeStream id address => some (s.closeStream id address)
  | .endStream id address now => some (s.onSession id fun session => (session.endStream address now).2)
  | .routeUnsolicited id payload => s.routeUnsolicited id payload
  | .detachConnection id conn now =>
      some (s.onSession id fun session => session.detachConnection conn now)
  | .finishStream id streamId now =>
      some (s.onSession id fun session => (session.finishStream streamId now).2)
  | .resumeFrom _ _ => some s
  | .sweepFor owner now => some (s.sweepFor owner now)
  | .flushed => s.flushed

/-- A flush of this session is under way. -/
def flushing (s : StreamableSessionManager) (id : Bytes) : Bool :=
  s.flushes.any fun flush => flush.1 = id

/-- Streams open under ids reserved for them; a message finds a live stream or room in the queue, or
pushes out one that is not being written; a session and a stream stay, and no second stream is
flushed into, while a queue is being flushed; and timers fire outside of every call. -/
def safe (s : StreamableSessionManager) : Operation → Bool
  | .openStream id streamId kind exchange conn _ _ =>
      (streamId = [] || s.reserved.contains streamId) &&
        !(kind = .get && exchange.isSome && conn.isSome && s.flushing id)
  | .closeStream id address => !s.flushes.contains (id, address)
  | .remove id _ => !s.flushing id
  | .sweepFor _ _ => s.flushes.isEmpty
  | .routeUnsolicited id _ =>
      (s.session? id).all fun session =>
        session.currentStream.isSome || session.pending.length < s.config.pendingLimit ||
          (s.config.pendingLimit ≠ 0 && !s.flushing id)
  | _ => true

/-- A run that went wrong stays wrong. -/
def advance (s : Option StreamableSessionManager) (operation : Operation) :
    Option StreamableSessionManager :=
  s.bind fun s => s.step operation

/-- The operation is safe where the run takes it. -/
def takesSafely (s : Option StreamableSessionManager) (operation : Operation) : Bool :=
  s.all fun s => s.safe operation

/-- The state after a run, unless it went wrong on the way. -/
def run (config : ManagerConfig) (operations : List Operation) : Option StreamableSessionManager :=
  Runs.run advance (some (new config)) operations

end StreamableSessionManager

end GopherMcp
