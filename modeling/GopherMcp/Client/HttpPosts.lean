import GopherMcp.Http.WireWriter
import GopherMcp.Lib.OrdMap
import GopherMcp.Lib.Runs

/-!
# One connection for each post

A client that listens on an event stream sends every message on a connection of its own, which it makes for
that message and writes to once it is connected. The manager has one place for such a connection. Whose it was
and what its socket took stays known here after it left that place.
-/

namespace GopherMcp

/-! ### The request -/

def isValidClientHeader (name value : Bytes) : Bool :=
  let hasInvalidByte (text : Bytes) := text.any fun byte => byte == kCR || byte == kLF || byte == 0
  !name.isEmpty && !value.isEmpty && !hasInvalidByte name && !hasInvalidByte value

def isGeneratedClientHeader (name : Bytes) : Bool :=
  name.head? == some kColon ||
    [ascii "host", ascii "content-length", ascii "transfer-encoding", ascii "connection", ascii "accept",
      ascii "content-type", ascii "user-agent", ascii "cache-control"].contains (WireWriter.lowercase name)

/-- What follows the scheme of an address. -/
def afterScheme : Bytes → Option Bytes
  | [] => none
  | byte :: rest =>
      if (ascii "://").isPrefixOf (byte :: rest) then some ((byte :: rest).drop 3) else afterScheme rest

/-- The host of an address, without its port, and the path. -/
def postTarget (endpoint : Bytes) : Option (Bytes × Bytes) :=
  (afterScheme endpoint).map fun rest =>
    let path := rest.dropWhile (· ≠ 47)
    ((rest.takeWhile (· ≠ 47)).takeWhile (· ≠ kColon), if path.isEmpty then ascii "/" else path)

def postRequest (host path : Bytes) (headers : OrdMap Bytes Bytes) (jsonBody : Bytes) : Bytes :=
  ascii "POST " ++ path ++ ascii " HTTP/1.1\r\nHost: " ++ host ++
    ascii "\r\nContent-Type: application/json\r\nContent-Length: " ++ toDecimal jsonBody.length ++
    ascii "\r\nConnection: close\r\n" ++
    (headers.entries.flatMap fun header =>
      if !isValidClientHeader header.1 header.2 || isGeneratedClientHeader header.1 then []
      else header.1 ++ ascii ": " ++ header.2 ++ ascii "\r\n") ++
    ascii "\r\n" ++ jsonBody

/-! ### One connection -/

inductive PostPhase
  | connecting
  | opened
  | closed
  deriving DecidableEq

/-- How an attempt to connect begins: it may be over at once, one way or the other. -/
inductive ConnectStart
  | connected (taken : Nat)
  | inProgress
  | refused

/-- A connection with what its callbacks have to write, what waits in its buffer and what its socket took. -/
structure PostConnection where
  request : Bytes
  phase : PostPhase
  writeBuffer : Bytes
  wire : Bytes

namespace PostConnection

def new (request : Bytes) : PostConnection := ⟨request, .connecting, [], []⟩

/-- The socket takes some bytes of the buffer, as many as it has room for. -/
def doWrite (c : PostConnection) (taken : Nat) : PostConnection :=
  { c with writeBuffer := c.writeBuffer.drop taken, wire := c.wire ++ c.writeBuffer.take taken }

/-- The connection is up: the callbacks write their request. -/
def onConnected (c : PostConnection) (taken : Nat) : PostConnection :=
  if c.phase = .connecting then
    { c with phase := .opened, writeBuffer := c.writeBuffer ++ c.request }.doWrite taken
  else c

def onWriteReady (c : PostConnection) (taken : Nat) : PostConnection :=
  if c.phase = .opened then c.doWrite taken else c

/-- The connection fails, or is closed by the other end. -/
def closeSocket (c : PostConnection) : PostConnection := { c with phase := .closed, writeBuffer := [] }

def connect (c : PostConnection) : ConnectStart → PostConnection
  | .connected taken => c.onConnected taken
  | .inProgress => c
  | .refused => c.closeSocket

end PostConnection

/-! ### The manager -/

/-- The manager's place for a connection, and what became of those before: dropped for a new one, or closed
with the manager. -/
structure PostManager where
  messageEndpoint : Option Bytes
  httpHeaders : OrdMap Bytes Bytes
  postConnection : Option PostConnection
  posts : List Bytes
  gone : List (PostConnection × Bool)

inductive PostOp
  | onMessageEndpoint (endpoint : Bytes)
  | sendHttpPost (jsonBody : Bytes) (httpHeaders : List (Bytes × Bytes)) (ready : Bool) (start : ConnectStart)
  | onConnected (taken : Nat)
  | onWriteReady (taken : Nat)
  | onClosed
  | close

namespace PostManager

def new (httpHeaders : OrdMap Bytes Bytes) : PostManager where
  messageEndpoint := none
  httpHeaders
  postConnection := none
  posts := []
  gone := []

/-- The connection leaves its place. -/
def release (s : PostManager) (replaced : Bool) : PostManager :=
  { s with
    postConnection := none
    gone := s.gone ++ s.postConnection.toList.map fun c => (c, replaced) }

/-- What a message is sent as, where there is an endpoint to send it to. -/
def requestFor (s : PostManager) (jsonBody : Bytes) (httpHeaders : List (Bytes × Bytes)) : Option Bytes :=
  s.messageEndpoint.bind fun endpoint =>
    (postTarget endpoint).map fun target =>
      postRequest target.1 target.2
        (httpHeaders.foldl (fun merged header => merged.insert header.1 header.2) s.httpHeaders) jsonBody

/-- `ready` says whether the host's address was found and a socket made. -/
def sendHttpPost (s : PostManager) (jsonBody : Bytes) (httpHeaders : List (Bytes × Bytes)) (ready : Bool)
    (start : ConnectStart) : PostManager × Bool :=
  match s.requestFor jsonBody httpHeaders with
  | none => (s, false)
  | some request =>
      if ready then
        ({ s.release true with
            postConnection := some ((PostConnection.new request).connect start)
            posts := s.posts ++ [request] }, true)
      else (s, false)

def step (s : PostManager) : PostOp → PostManager
  | .onMessageEndpoint endpoint => { s with messageEndpoint := some endpoint }
  | .sendHttpPost jsonBody httpHeaders ready start => (s.sendHttpPost jsonBody httpHeaders ready start).1
  | .onConnected taken => { s with postConnection := s.postConnection.map (·.onConnected taken) }
  | .onWriteReady taken => { s with postConnection := s.postConnection.map (·.onWriteReady taken) }
  | .onClosed => { s with postConnection := s.postConnection.map (·.closeSocket) }
  | .close => s.release false

end PostManager

/-! ### One connection's message -/

namespace PostConnection

variable {c : PostConnection}

/-- Nothing more can be written: the whole message was, or the connection failed. -/
def Settled (c : PostConnection) : Prop := c.phase = .closed ∨ c.phase = .opened ∧ c.writeBuffer = []

/-- The socket took the message from its front, once and nothing else; what it did not take yet waits. -/
structure Faithful (c : PostConnection) : Prop where
  once : c.wire <+: c.request
  waiting : c.phase = .connecting → c.wire = [] ∧ c.writeBuffer = []
  whole : c.phase = .opened → c.wire ++ c.writeBuffer = c.request

theorem faithful_new (request : Bytes) : (new request).Faithful :=
  ⟨List.nil_prefix, fun _ => ⟨rfl, rfl⟩, fun hopened => by cases hopened⟩

theorem Faithful.doWrite (hphase : c.phase = .opened) (hwhole : c.wire ++ c.writeBuffer = c.request)
    (taken : Nat) : (c.doWrite taken).Faithful := by
  have hsame : (c.doWrite taken).wire ++ (c.doWrite taken).writeBuffer = c.request := by
    show c.wire ++ c.writeBuffer.take taken ++ c.writeBuffer.drop taken = c.request
    rw [List.append_assoc, List.take_append_drop, hwhole]
  refine ⟨⟨_, hsame⟩, fun hconnecting => ?_, fun _ => hsame⟩
  have hphase : c.phase = .connecting := hconnecting
  simp_all

theorem Faithful.onConnected (h : c.Faithful) (taken : Nat) : (c.onConnected taken).Faithful := by
  unfold PostConnection.onConnected
  split_ifs with hphase
  · obtain ⟨hwire, hbuffer⟩ := h.waiting hphase
    apply Faithful.doWrite rfl
    show c.wire ++ (c.writeBuffer ++ c.request) = c.request
    rw [hwire, hbuffer]
    rfl
  · exact h

theorem Faithful.onWriteReady (h : c.Faithful) (taken : Nat) : (c.onWriteReady taken).Faithful := by
  unfold PostConnection.onWriteReady
  split_ifs with hphase
  · exact Faithful.doWrite hphase (h.whole hphase) taken
  · exact h

theorem Faithful.closeSocket (h : c.Faithful) : c.closeSocket.Faithful :=
  ⟨h.once, fun hconnecting => (by cases hconnecting), fun hopened => (by cases hopened)⟩

theorem Faithful.connect (h : c.Faithful) (start : ConnectStart) : (c.connect start).Faithful := by
  cases start with
  | connected taken => exact h.onConnected taken
  | inProgress => exact h
  | refused => exact h.closeSocket

@[simp] theorem request_onConnected (c : PostConnection) (taken : Nat) :
    (c.onConnected taken).request = c.request := by
  unfold onConnected
  split_ifs <;> rfl

@[simp] theorem request_onWriteReady (c : PostConnection) (taken : Nat) :
    (c.onWriteReady taken).request = c.request := by
  unfold onWriteReady
  split_ifs <;> rfl

@[simp] theorem request_closeSocket (c : PostConnection) : c.closeSocket.request = c.request := rfl

@[simp] theorem request_connect (c : PostConnection) (start : ConnectStart) :
    (c.connect start).request = c.request := by
  cases start <;> simp [connect]

end PostConnection

/-! ### Every message -/

namespace PostManager

variable {s : PostManager}

/-- The connections made, in order. -/
def connections (s : PostManager) : List PostConnection := s.gone.map Prod.fst ++ s.postConnection.toList

/-- No connection was dropped before its message was written on it, unless it failed; the connections made are
one for each message that was taken; and what was written on each is its message, once. -/
structure Undisplaced (s : PostManager) : Prop where
  kept : ∀ c, (c, true) ∈ s.gone → c.Settled
  own : s.connections.map PostConnection.request = s.posts
  faithful : ∀ c ∈ s.connections, c.Faithful

/-- A message that is taken finds no connection with something left to write. -/
def Free (s : PostManager) : PostOp → Prop
  | .sendHttpPost jsonBody httpHeaders ready _ =>
      (s.requestFor jsonBody httpHeaders).isSome = true → ready = true → ∀ c ∈ s.postConnection, c.Settled
  | _ => True

theorem undisplaced_new (httpHeaders : OrdMap Bytes Bytes) : (new httpHeaders).Undisplaced where
  kept _ hin := absurd hin List.not_mem_nil
  own := rfl
  faithful _ hin := absurd hin List.not_mem_nil

theorem connections_release (s : PostManager) (replaced : Bool) :
    (s.release replaced).connections = s.connections := by
  have hfirst : Prod.fst ∘ (fun c : PostConnection => (c, replaced)) = id := rfl
  simp [connections, release, hfirst]

theorem kept_release (h : s.Undisplaced) {replaced : Bool} (hfree : replaced = true → ∀ c ∈ s.postConnection, c.Settled)
    (c : PostConnection) (hgone : (c, true) ∈ (s.release replaced).gone) : c.Settled := by
  obtain hold | hnew := List.mem_append.mp hgone
  · exact h.kept c hold
  · obtain ⟨last, hlast, heq⟩ := List.mem_map.mp hnew
    cases heq
    exact hfree rfl c (Option.mem_toList.mp hlast)

theorem Undisplaced.release (h : s.Undisplaced) {replaced : Bool}
    (hfree : replaced = true → ∀ c ∈ s.postConnection, c.Settled) : (s.release replaced).Undisplaced where
  kept := kept_release h hfree
  own := by rw [connections_release]; exact h.own
  faithful := by rw [connections_release]; exact h.faithful

/-- A connection event changes what was written on one connection. -/
theorem Undisplaced.onEvent (h : s.Undisplaced) {change : PostConnection → PostConnection}
    (hrequest : ∀ c, (change c).request = c.request) (hfaithful : ∀ c : PostConnection, c.Faithful → (change c).Faithful) :
    { s with postConnection := s.postConnection.map change }.Undisplaced := by
  cases hslot : s.postConnection with
  | none =>
      have hsame : { s with postConnection := Option.map change none } = s := by
        rw [Option.map_none, ← hslot]
      rw [hsame]
      exact h
  | some c =>
      have hconnections : s.connections = s.gone.map Prod.fst ++ [c] := by rw [connections, hslot]; rfl
      refine ⟨h.kept, ?_, ?_⟩
      · have hown := h.own
        rw [hconnections, List.map_append] at hown
        show (s.gone.map Prod.fst ++ [change c]).map PostConnection.request = s.posts
        rw [List.map_append, ← hown, List.map_singleton, List.map_singleton, hrequest]
      · intro other hin
        obtain hold | hnew := List.mem_append.mp hin
        · exact h.faithful other (by rw [hconnections]; exact List.mem_append_left _ hold)
        · rw [List.mem_singleton.mp hnew]
          exact hfaithful c (h.faithful c (by rw [hconnections]; exact List.mem_append_right _ (List.mem_singleton_self c)))

/-- The manager with a new connection in place of the one before. -/
def sent (s : PostManager) (request : Bytes) (start : ConnectStart) : PostManager :=
  { s.release true with
    postConnection := some ((PostConnection.new request).connect start)
    posts := s.posts ++ [request] }

theorem sendHttpPost_of_some {request jsonBody : Bytes} {httpHeaders : List (Bytes × Bytes)}
    (hrequest : s.requestFor jsonBody httpHeaders = some request) (start : ConnectStart) :
    s.sendHttpPost jsonBody httpHeaders true start = (s.sent request start, true) := by
  unfold sendHttpPost
  rw [hrequest]
  rfl

theorem sendHttpPost_cases (s : PostManager) (jsonBody : Bytes) (httpHeaders : List (Bytes × Bytes)) (ready : Bool)
    (start : ConnectStart) :
    s.sendHttpPost jsonBody httpHeaders ready start = (s, false) ∨
      ∃ request, s.requestFor jsonBody httpHeaders = some request ∧ ready = true ∧
        s.sendHttpPost jsonBody httpHeaders ready start = (s.sent request start, true) := by
  cases hrequest : s.requestFor jsonBody httpHeaders with
  | none =>
      left
      unfold sendHttpPost
      rw [hrequest]
  | some request =>
      cases ready with
      | false =>
          left
          unfold sendHttpPost
          rw [hrequest]
          rfl
      | true => exact Or.inr ⟨request, rfl, rfl, sendHttpPost_of_some hrequest start⟩

theorem Undisplaced.sendHttpPost (h : s.Undisplaced) {jsonBody : Bytes} {httpHeaders : List (Bytes × Bytes)}
    {ready : Bool} {start : ConnectStart} (hfree : s.Free (.sendHttpPost jsonBody httpHeaders ready start)) :
    (s.sendHttpPost jsonBody httpHeaders ready start).1.Undisplaced := by
  obtain hsame | ⟨request, hrequest, hready, hsent⟩ := sendHttpPost_cases s jsonBody httpHeaders ready start
  · rw [hsame]
    exact h
  · have hreleased := @Undisplaced.release s h true fun _ => hfree (by rw [hrequest]; rfl) hready
    rw [hsent]
    have hconnections : (s.release true).gone.map Prod.fst = s.connections := by
      rw [← connections_release s true]
      exact (List.append_nil _).symm
    refine ⟨hreleased.kept, ?_, fun c hin => ?_⟩
    · show ((s.release true).gone.map Prod.fst ++ [(PostConnection.new request).connect start]).map
          PostConnection.request = s.posts ++ [request]
      rw [hconnections, List.map_append, h.own, List.map_singleton, PostConnection.request_connect]
      rfl
    · obtain hold | hnew := List.mem_append.mp hin
      · exact h.faithful c (by rw [← hconnections]; exact hold)
      · rw [List.mem_singleton.mp hnew]
        exact (PostConnection.faithful_new request).connect start

/-! ### Runs -/

theorem undisplaced_step (h : s.Undisplaced) {op : PostOp} (hfree : s.Free op) : (s.step op).Undisplaced := by
  cases op with
  | onMessageEndpoint endpoint => exact ⟨h.kept, h.own, h.faithful⟩
  | sendHttpPost jsonBody httpHeaders ready start => exact h.sendHttpPost hfree
  | onConnected taken =>
      exact h.onEvent (fun c => c.request_onConnected taken) fun _ hc => hc.onConnected taken
  | onWriteReady taken =>
      exact h.onEvent (fun c => c.request_onWriteReady taken) fun _ hc => hc.onWriteReady taken
  | onClosed => exact h.onEvent PostConnection.request_closeSocket fun _ hc => hc.closeSocket
  | close => exact h.release fun hreplaced => by cases hreplaced

/-- A message that is taken too early drops the one before it. -/
theorem not_undisplaced_step {op : PostOp} (hnot : ¬ s.Free op) : ¬ (s.step op).Undisplaced := by
  cases op with
  | sendHttpPost jsonBody httpHeaders ready start =>
      obtain ⟨hrequest, hnot⟩ := Classical.not_imp.mp hnot
      obtain ⟨hready, hnot⟩ := Classical.not_imp.mp hnot
      intro h
      apply hnot
      intro c hslot
      obtain ⟨request, hrequest⟩ := Option.isSome_iff_exists.mp hrequest
      apply h.kept c
      show (c, true) ∈ (s.sendHttpPost jsonBody httpHeaders ready start).1.gone
      rw [hready, sendHttpPost_of_some hrequest]
      apply List.mem_append_right
      exact List.mem_map.mpr ⟨c, Option.mem_toList.mpr hslot, rfl⟩
  | onMessageEndpoint endpoint => exact absurd trivial hnot
  | onConnected taken => exact absurd trivial hnot
  | onWriteReady taken => exact absurd trivial hnot
  | onClosed => exact absurd trivial hnot
  | close => exact absurd trivial hnot

/-- **No message displaces another just where each finds none that waits**, in every run of messages and
connection events. -/
theorem undisplaced_iff (httpHeaders : OrdMap Bytes Bytes) (ops : List PostOp) :
    (∀ before after, ops = before ++ after → (Runs.run step (new httpHeaders) before).Undisplaced) ↔
      Runs.Guarded step Free (new httpHeaders) ops :=
  @Runs.everywhere_iff_of_inv _ _ step (fun _ _ => True) Free Undisplaced Undisplaced
    (fun _ _ _ hfree h => undisplaced_step h hfree) (fun _ h => h) (fun _ _ _ _ hnot => not_undisplaced_step hnot) _
    (undisplaced_new httpHeaders) ops (Runs.guarded_of_forall step (fun _ _ => trivial) _)

/-- Two messages that were held back are sent in one task. -/
def heldBack : List PostOp :=
  [.onMessageEndpoint (ascii "http://h/m"), .sendHttpPost (ascii "1") [] true .inProgress,
    .sendHttpPost (ascii "2") [] true .inProgress]

theorem not_always_undisplaced : ¬ (Runs.run step (new OrdMap.empty) heldBack).Undisplaced := by
  intro h
  have hgone : (Runs.run step (new OrdMap.empty) heldBack).gone =
      [(PostConnection.new (postRequest (ascii "h") (ascii "/m") OrdMap.empty (ascii "1")), true)] := rfl
  obtain hclosed | ⟨hopened, -⟩ := h.kept _ (by rw [hgone]; exact List.mem_singleton_self _)
  · cases hclosed
  · cases hopened

end PostManager

end GopherMcp
