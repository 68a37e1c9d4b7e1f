import GopherMcp.Lib.OrdMap
import GopherMcp.Lib.Runs
import GopherMcp.Transport.EventId

/-!
# Sessions of the server and what they subscribe to

A session is found by its id, and by its connection or by the id its transport has for it. The resource
manager has the sessions subscribed to each resource, and each session has the resources it subscribed to.
Whoever removes a session also releases its subscriptions, the sweep by telling the server.
-/

namespace GopherMcp

/-- A set is a map to nothing. -/
abbrev OrdSet (κ : Type) [LinearOrder κ] := OrdMap κ Unit

/-- A transport session id is empty where there is none. Times are in milliseconds. -/
structure SessionContext where
  id : Bytes
  connection : Option Nat
  transportSessionId : Bytes
  lastActivity : Int
  subscriptions : OrdSet Bytes

namespace SessionContext

def new (id : Bytes) (connection : Option Nat) (transportSessionId : Bytes) (now : Int) : SessionContext :=
  ⟨id, connection, transportSessionId, now, .empty⟩

def isExpired (session : SessionContext) (timeout now : Int) : Bool :=
  decide (timeout < now - session.lastActivity)

end SessionContext

/-- The tables lead from a connection or a transport session id to the id of a session. The counter is the
one session ids are made from. -/
structure SessionManager where
  maxSessions : Nat
  sessionTimeout : Int
  sessions : OrdMap Bytes SessionContext
  connectionSessions : OrdMap Nat Bytes
  transportSessions : OrdMap Bytes Bytes
  counter : Nat
  sessionsTotal : Nat
  sessionsActive : Int
  sessionsExpired : Nat

/-- The sessions subscribed to each resource. -/
structure ResourceManager where
  subscriptions : OrdMap Bytes (OrdSet Bytes)

namespace SessionManager

def new (maxSessions : Nat) (sessionTimeout : Int) : SessionManager :=
  ⟨maxSessions, sessionTimeout, .empty, .empty, .empty, 0, 0, 0, 0⟩

/-- `generateSessionId`, the id of a number. -/
def sessionIdOf (number : Nat) : Bytes := ascii "session_" ++ toDecimal number

def forgetConnection (m : SessionManager) : Option Nat → SessionManager
  | none => m
  | some connection => { m with connectionSessions := m.connectionSessions.erase connection }

def forgetTransport (m : SessionManager) (transportSessionId : Bytes) : SessionManager :=
  if transportSessionId = [] then m
  else { m with transportSessions := m.transportSessions.erase transportSessionId }

/-- A session leaves the table of sessions. -/
def dropSession (m : SessionManager) (id : Bytes) : SessionManager :=
  { m with sessions := m.sessions.erase id, sessionsActive := m.sessionsActive - 1 }

/-! ### The sweep -/

/-- One turn of the loop over the expired ids. -/
def sweepOne (swept : SessionManager × List SessionContext) (id : Bytes) :
    SessionManager × List SessionContext :=
  match swept.1.sessions.find? id with
  | none => swept
  | some session =>
      let m := (swept.1.forgetConnection session.connection).dropSession id
      ({ m with sessionsExpired := m.sessionsExpired + 1 }, swept.2 ++ [session])

/-- A session its transport knows ends with the transport, and not here. -/
def expiredIds (m : SessionManager) (now : Int) : List Bytes :=
  (m.sessions.filter fun _ session =>
    session.transportSessionId = [] && session.isExpired m.sessionTimeout now).keys

/-- `cleanupExpiredSessionsLocked`, and the sessions it removed. -/
def cleanupExpiredSessions (m : SessionManager) (now : Int) : SessionManager × List SessionContext :=
  (m.expiredIds now).foldl sweepOne (m, [])

/-- What both ways of creating a session do when the table is full. -/
def makeRoom (m : SessionManager) (now : Int) : SessionManager × List SessionContext :=
  if m.maxSessions ≤ m.sessions.size then m.cleanupExpiredSessions now else (m, [])

/-! ### Creating and finding -/

/-- A new session, which is in the tables it can be found by. -/
def addSession (m : SessionManager) (connection : Option Nat) (transportSessionId : Bytes) (now : Int) :
    SessionManager :=
  let id := sessionIdOf (m.counter + 1)
  let session := SessionContext.new id connection transportSessionId now
  { m with
    counter := m.counter + 1
    sessions := m.sessions.insert id session
    connectionSessions :=
      match connection with
      | none => m.connectionSessions
      | some connection => m.connectionSessions.insert connection id
    transportSessions :=
      if transportSessionId = [] then m.transportSessions
      else m.transportSessions.insert transportSessionId id
    sessionsTotal := m.sessionsTotal + 1
    sessionsActive := m.sessionsActive + 1 }

/-- The manager, and the sessions the sweep at capacity removed; no session where there is no room. -/
def createSession (m : SessionManager) (connection : Option Nat) (now : Int) :
    SessionManager × List SessionContext :=
  let (m, expired) := m.makeRoom now
  if m.maxSessions ≤ m.sessions.size then (m, expired) else (m.addSession connection [] now, expired)

def updateActivity (m : SessionManager) (id : Bytes) (now : Int) : SessionManager :=
  match m.sessions.find? id with
  | none => m
  | some session => { m with sessions := m.sessions.insert id { session with lastActivity := now } }

def getOrCreateSessionByTransportId (m : SessionManager) (transportSessionId : Bytes) (now : Int) :
    SessionManager × List SessionContext :=
  match m.transportSessions.find? transportSessionId with
  | some id => (m.updateActivity id now, [])
  | none =>
      let (m, expired) := m.makeRoom now
      if m.maxSessions ≤ m.sessions.size then (m, expired)
      else (m.addSession none transportSessionId now, expired)

/-! ### Removing -/

def removeSession (m : SessionManager) (id : Bytes) : SessionManager × Option SessionContext :=
  match m.sessions.find? id with
  | none => (m, none)
  | some session =>
      (((m.forgetConnection session.connection).forgetTransport session.transportSessionId).dropSession id,
        some session)

def removeSessionByConnection (m : SessionManager) (connection : Nat) :
    SessionManager × Option SessionContext :=
  match m.connectionSessions.find? connection with
  | none => (m, none)
  | some id => ((m.forgetConnection (some connection)).dropSession id, m.sessions.find? id)

def removeSessionByTransportId (m : SessionManager) (transportSessionId : Bytes) :
    SessionManager × Option SessionContext :=
  match m.transportSessions.find? transportSessionId with
  | none => (m, none)
  | some id =>
      ({ m with transportSessions := m.transportSessions.erase transportSessionId }.dropSession id,
        m.sessions.find? id)

end SessionManager

namespace ResourceManager

def subscribe (r : ResourceManager) (uri id : Bytes) : ResourceManager where
  subscriptions := r.subscriptions.insert uri (((r.subscriptions.find? uri).getD .empty).insert id ())

/-- The resource gets a set if it had none. -/
def unsubscribe (r : ResourceManager) (uri id : Bytes) : ResourceManager where
  subscriptions := r.subscriptions.insert uri (((r.subscriptions.find? uri).getD .empty).erase id)

def releaseUri (id : Bytes) (r : ResourceManager) (uri : Bytes) : ResourceManager :=
  match r.subscriptions.find? uri with
  | none => r
  | some ids =>
      if (ids.erase id).keys = [] then { r with subscriptions := r.subscriptions.erase uri }
      else { r with subscriptions := r.subscriptions.insert uri (ids.erase id) }

def releaseSession (r : ResourceManager) (session : SessionContext) : ResourceManager :=
  session.subscriptions.keys.foldl (releaseUri session.id) r

end ResourceManager

/-! ### The server -/

structure SessionServer where
  manager : SessionManager
  resources : ResourceManager
  now : Int

/-- `subscribe` and `unsubscribe` are of a session there is. -/
inductive SessionOp where
  | createSession (connection : Option Nat)
  | getOrCreateSessionByTransportId (transportSessionId : Bytes)
  | getSession (id : Bytes)
  | removeSession (id : Bytes)
  | removeSessionByConnection (connection : Nat)
  | removeSessionByTransportId (transportSessionId : Bytes)
  | cleanupExpiredSessions
  | subscribe (uri id : Bytes)
  | unsubscribe (uri id : Bytes)
  | advance (milliseconds : Nat)

namespace SessionServer

def new (maxSessions : Nat) (sessionTimeout : Int) : SessionServer :=
  ⟨.new maxSessions sessionTimeout, ⟨.empty⟩, 0⟩

/-- The manager has removed sessions, and their subscriptions are released. -/
def released (s : SessionServer) (removed : SessionManager × List SessionContext) : SessionServer :=
  { s with
    manager := removed.1
    resources := removed.2.foldl ResourceManager.releaseSession s.resources }

def releasedOne (s : SessionServer) (removed : SessionManager × Option SessionContext) : SessionServer :=
  s.released (removed.1, removed.2.toList)

/-- The resource manager changes its map and then the session. -/
def onSubscription (s : SessionServer) (id : Bytes) (resources : ResourceManager)
    (change : OrdSet Bytes → OrdSet Bytes) : SessionServer :=
  match s.manager.sessions.find? id with
  | none => s
  | some session =>
      let session := { session with subscriptions := change session.subscriptions }
      { s with
        manager := { s.manager with sessions := s.manager.sessions.insert id session }
        resources }

def step (s : SessionServer) : SessionOp → SessionServer
  | .createSession connection => s.released (s.manager.createSession connection s.now)
  | .getOrCreateSessionByTransportId transportSessionId =>
      s.released (s.manager.getOrCreateSessionByTransportId transportSessionId s.now)
  | .getSession id => { s with manager := s.manager.updateActivity id s.now }
  | .removeSession id => s.releasedOne (s.manager.removeSession id)
  | .removeSessionByConnection connection =>
      s.releasedOne (s.manager.removeSessionByConnection connection)
  | .removeSessionByTransportId transportSessionId =>
      s.releasedOne (s.manager.removeSessionByTransportId transportSessionId)
  | .cleanupExpiredSessions => s.released (s.manager.cleanupExpiredSessions s.now)
  | .subscribe uri id =>
      s.onSubscription id (s.resources.subscribe uri id) fun uris => uris.insert uri ()
  | .unsubscribe uri id =>
      s.onSubscription id (s.resources.unsubscribe uri id) fun uris => uris.erase uri
  | .advance milliseconds => { s with now := s.now + milliseconds }

end SessionServer

end GopherMcp
