import GopherMcp.Core.Bytes
import GopherMcp.Lib.Runs

/-!
# Messages before the endpoint

A client of the HTTP+SSE transport asks for a stream, and is told on it where to post its messages. What is written
before that is kept, and posted by a task that the endpoint leaves behind. Whether a message is kept, posted at once,
or falls through to the connection that carries the stream is read off the negotiation's state and a flag beside it.
-/

namespace GopherMcp

inductive ClientSseState
  | awaitingInitResponse | ready | reinitializing
  | idle | waitingForGetSent | waitingForEndpoint | endpointReceived | active
  | error | closed
  deriving DecidableEq

inductive ClientSseEvent
  | connectionReady | getSent | endpointReceived | streamStarted
  | initResponseReceived | sessionLost
  | negotiationTimeout | streamError | close
  deriving DecidableEq

namespace ClientSseState

/-- `handleEvent`: an event that is not listed leaves the state. -/
def handleEvent : ClientSseState → ClientSseEvent → ClientSseState
  | awaitingInitResponse, .initResponseReceived => ready
  | awaitingInitResponse, .close => closed
  | awaitingInitResponse, .streamError => error
  | ready, .sessionLost => reinitializing
  | ready, .close => closed
  | ready, .streamError => error
  | reinitializing, .initResponseReceived => ready
  | reinitializing, .close => closed
  | reinitializing, .streamError => error
  | idle, .connectionReady => waitingForGetSent
  | idle, .streamError => error
  | idle, .close => closed
  | waitingForGetSent, .getSent => waitingForEndpoint
  | waitingForGetSent, .streamError => error
  | waitingForGetSent, .close => closed
  | waitingForEndpoint, .endpointReceived => endpointReceived
  | waitingForEndpoint, .streamStarted => active
  | waitingForEndpoint, .negotiationTimeout => error
  | waitingForEndpoint, .streamError => error
  | waitingForEndpoint, .close => closed
  | endpointReceived, .streamStarted => active
  | endpointReceived, .streamError => error
  | endpointReceived, .close => closed
  | active, .streamError => error
  | active, .close => closed
  | error, .close => closed
  | state, _ => state

def isNegotiating (state : ClientSseState) : Bool :=
  state = waitingForGetSent || state = waitingForEndpoint || state = endpointReceived

def isStreamableHttp (state : ClientSseState) : Bool :=
  state = awaitingInitResponse || state = ready || state = reinitializing

def canSendPost (state : ClientSseState) : Bool := state = active || state.isStreamableHttp

end ClientSseState

/-- A message with its number among those that were written. -/
structure WrittenMessage where
  number : Nat
  body : Bytes

/-- A client connection of the HTTP+SSE transport. `tasks` are those posted to the dispatcher that have not run.
Beside it are kept how many messages were written, those handed to `sendHttpPost`, and those written on the
connection itself. -/
structure ClientSseConnection where
  state : ClientSseState
  hasMessageEndpoint : Bool
  pendingMessages : List WrittenMessage
  tasks : Nat
  written : Nat
  posted : List WrittenMessage
  onStream : List WrittenMessage

inductive ClientSseOperation
  | write (body : Bytes)
  | connectionReady
  | streamStarted
  | endpointReceived
  | runTask

namespace ClientSseConnection

def new : ClientSseConnection where
  state := .idle
  hasMessageEndpoint := false
  pendingMessages := []
  tasks := 0
  written := 0
  posted := []
  onStream := []

/-- A message is kept until there is an endpoint. -/
def keep (s : ClientSseConnection) (message : WrittenMessage) : ClientSseConnection :=
  { s with pendingMessages := s.pendingMessages ++ if message.body = [] then [] else [message] }

/-- `onWrite` of a client. The first write sends the request for the stream in the message's place. -/
def onWrite (s : ClientSseConnection) (message : WrittenMessage) : ClientSseConnection :=
  if s.state = .idle then
    { s.keep message with state := (s.state.handleEvent .connectionReady).handleEvent .getSent }
  else if s.state = .waitingForGetSent then { s.keep message with state := s.state.handleEvent .getSent }
  else if s.state.isNegotiating ∧ message.body ≠ [] then s.keep message
  else if s.state.canSendPost ∧ ¬ s.state.isStreamableHttp ∧ s.hasMessageEndpoint ∧ message.body ≠ [] then
    { s with posted := s.posted ++ [message] }
  -- The plain HTTP path frames what it is given for this connection.
  else { s with onStream := s.onStream ++ if message.body = [] then [] else [message] }

/-- The event `endpoint` of the stream. -/
def onEndpoint (s : ClientSseConnection) : ClientSseConnection :=
  { s with
    hasMessageEndpoint := true
    state := s.state.handleEvent .endpointReceived
    tasks := s.tasks + 1 }

def processPendingMessages (s : ClientSseConnection) : ClientSseConnection :=
  { s with posted := s.posted ++ s.pendingMessages, pendingMessages := [] }

/-- A task that was not posted does not run. -/
def step (s : ClientSseConnection) : ClientSseOperation → ClientSseConnection
  | .write body => { s with written := s.written + 1 }.onWrite ⟨s.written, body⟩
  | .connectionReady => { s with state := s.state.handleEvent .connectionReady }
  | .streamStarted => { s with state := s.state.handleEvent .streamStarted }
  | .endpointReceived => s.onEndpoint
  | .runTask => if s.tasks = 0 then s else { s.processPendingMessages with tasks := s.tasks - 1 }

/-! ### What is promised -/

/-- No message went out on the stream's connection; those posted and those kept are all that were written, in their
order; and once the endpoint is known none is kept that no task will post. -/
structure InOrder (s : ClientSseConnection) : Prop where
  stream : s.onStream = []
  order : (s.posted ++ s.pendingMessages).map WrittenMessage.number = List.range s.written
  settled : s.hasMessageEndpoint = true → s.tasks = 0 → s.pendingMessages = []

/-- A message has a body. -/
def IsMessage : ClientSseOperation → Prop
  | .write body => body ≠ []
  | _ => True

/-- An active connection is written to only when it knows the endpoint and keeps nothing any more, another only as long
as the endpoint is to come or its task to run. -/
def InTime (s : ClientSseConnection) : ClientSseOperation → Prop
  | .write _ =>
      if s.state = .active then s.hasMessageEndpoint = true ∧ s.pendingMessages = []
      else ¬ (s.hasMessageEndpoint = true ∧ s.tasks = 0)
  | _ => True

/-- The states of the negotiation, as long as nothing fails. -/
def Negotiates (state : ClientSseState) : Prop :=
  state = .idle ∨ state = .waitingForGetSent ∨ state = .waitingForEndpoint ∨ state = .endpointReceived ∨
    state = .active

theorem negotiates_handleEvent {state : ClientSseState} (h : Negotiates state) {event : ClientSseEvent}
    (hevent : event ∈ [.connectionReady, .getSent, .endpointReceived, .streamStarted]) :
    Negotiates (state.handleEvent event) := by
  simp only [List.mem_cons, List.not_mem_nil, or_false] at hevent
  obtain rfl | rfl | rfl | rfl | rfl := h <;> obtain rfl | rfl | rfl | rfl := hevent <;>
    simp [Negotiates, ClientSseState.handleEvent]

variable {s : ClientSseConnection} {message : WrittenMessage}

theorem onWrite_active (hactive : s.state = .active) (hbody : message.body ≠ []) :
    s.onWrite message =
      if s.hasMessageEndpoint then { s with posted := s.posted ++ [message] }
      else { s with onStream := s.onStream ++ [message] } := by
  cases hendpoint : s.hasMessageEndpoint <;>
    simp [onWrite, hactive, hbody, hendpoint, ClientSseState.isNegotiating, ClientSseState.canSendPost,
      ClientSseState.isStreamableHttp]

/-- Before it is active a connection keeps what is written. -/
theorem onWrite_negotiating (hstate : Negotiates s.state) (hother : s.state ≠ .active) (hbody : message.body ≠ []) :
    ∃ state, Negotiates state ∧
      s.onWrite message = { s with state, pendingMessages := s.pendingMessages ++ [message] } := by
  obtain h | h | h | h | h := hstate
  · exact ⟨.waitingForEndpoint, by simp [Negotiates],
      by simp [onWrite, h, keep, hbody, ClientSseState.handleEvent]⟩
  · exact ⟨.waitingForEndpoint, by simp [Negotiates],
      by simp [onWrite, h, keep, hbody, ClientSseState.handleEvent]⟩
  · exact ⟨s.state, by simp [Negotiates, h], by simp [onWrite, h, keep, hbody, ClientSseState.isNegotiating]⟩
  · exact ⟨s.state, by simp [Negotiates, h], by simp [onWrite, h, keep, hbody, ClientSseState.isNegotiating]⟩
  · exact absurd h hother

theorem negotiates_onWrite (hstate : Negotiates s.state) (hbody : message.body ≠ []) :
    Negotiates (s.onWrite message).state := by
  by_cases hactive : s.state = .active
  · rw [onWrite_active hactive hbody]
    split_ifs <;> exact hstate
  · obtain ⟨state, hnext, hdone⟩ := onWrite_negotiating hstate hactive hbody
    rw [hdone]
    exact hnext

theorem negotiates_step (hstate : Negotiates s.state) {op : ClientSseOperation} (hmessage : IsMessage op) :
    Negotiates (s.step op).state := by
  cases op with
  | write body => exact negotiates_onWrite hstate hmessage
  | connectionReady => exact negotiates_handleEvent hstate (by decide)
  | streamStarted => exact negotiates_handleEvent hstate (by decide)
  | endpointReceived => exact negotiates_handleEvent hstate (by decide)
  | runTask =>
      rw [step]
      split_ifs <;> exact hstate

/-- The message that is written is the next one. -/
theorem InOrder.append (h : s.InOrder) (body : Bytes) :
    (s.posted ++ (s.pendingMessages ++ [(⟨s.written, body⟩ : WrittenMessage)])).map WrittenMessage.number =
      List.range (s.written + 1) := by
  rw [← List.append_assoc, List.map_append, h.order, List.range_succ]
  rfl

theorem InOrder.write (h : s.InOrder) (hstate : Negotiates s.state) {body : Bytes} (hbody : body ≠ [])
    (htime : s.InTime (.write body)) : (s.step (.write body)).InOrder := by
  by_cases hactive : s.state = .active
  · obtain ⟨hendpoint, hnone⟩ : s.hasMessageEndpoint = true ∧ s.pendingMessages = [] := by
      rwa [InTime, if_pos hactive] at htime
    have hnext := h.append body
    rw [hnone, List.nil_append] at hnext
    have hdone := @onWrite_active { s with written := s.written + 1 } ⟨s.written, body⟩ hactive hbody
    rw [step, hdone, if_pos hendpoint]
    refine ⟨h.stream, ?_, fun _ _ => hnone⟩
    show ((s.posted ++ [_]) ++ s.pendingMessages).map _ = _
    rwa [hnone, List.append_nil]
  · have hlater : ¬ (s.hasMessageEndpoint = true ∧ s.tasks = 0) := by
      rwa [InTime, if_neg hactive] at htime
    obtain ⟨state, -, hdone⟩ :=
      @onWrite_negotiating { s with written := s.written + 1 } ⟨s.written, body⟩ hstate hactive hbody
    rw [step, hdone]
    exact ⟨h.stream, h.append body, fun hendpoint hidle => absurd ⟨hendpoint, hidle⟩ hlater⟩

theorem InOrder.step (h : s.InOrder) (hstate : Negotiates s.state) {op : ClientSseOperation} (hmessage : IsMessage op)
    (htime : s.InTime op) : (s.step op).InOrder := by
  cases op with
  | write body => exact h.write hstate hmessage htime
  | connectionReady => exact { h with }
  | streamStarted => exact { h with }
  | endpointReceived => exact ⟨h.stream, h.order, fun _ hidle => absurd hidle (Nat.succ_ne_zero _)⟩
  | runTask =>
      rw [ClientSseConnection.step]
      split_ifs
      · exact h
      · refine ⟨h.stream, ?_, fun _ _ => rfl⟩
        show ((s.posted ++ s.pendingMessages) ++ []).map _ = _
        rw [List.append_nil]
        exact h.order

/-- A message that is posted before those that are kept is out of order. -/
theorem InOrder.not_overtaken (h : s.InOrder) (hsome : s.pendingMessages ≠ []) (body : Bytes) :
    ((s.posted ++ [(⟨s.written, body⟩ : WrittenMessage)]) ++ s.pendingMessages).map WrittenMessage.number ≠
      List.range (s.written + 1) := by
  intro hnumbers
  obtain ⟨front, last, hlast⟩ := (List.eq_nil_or_concat s.pendingMessages).resolve_left hsome
  have hbefore : last.number ∈ List.range s.written := by
    rw [← h.order, hlast]
    simp
  rw [hlast, List.concat_eq_append, ← List.append_assoc, List.map_append, List.range_succ] at hnumbers
  have hnext : [last.number] = [s.written] := (List.append_inj' hnumbers rfl).2
  rw [List.singleton_inj.mp hnext] at hbefore
  exact absurd hbefore (by simp)

/-- A message that is written out of time is seen at once. -/
theorem InOrder.not_step (h : s.InOrder) (hstate : Negotiates s.state) {op : ClientSseOperation}
    (hmessage : IsMessage op) (hlate : ¬ s.InTime op) : ¬ (s.step op).InOrder := by
  intro hdone
  cases op with
  | write body =>
      by_cases hactive : s.state = .active
      · rw [InTime, if_pos hactive] at hlate
        rw [ClientSseConnection.step,
          @onWrite_active { s with written := s.written + 1 } ⟨s.written, body⟩ hactive hmessage] at hdone
        by_cases hendpoint : s.hasMessageEndpoint = true
        · rw [if_pos hendpoint] at hdone
          have hsome : s.pendingMessages ≠ [] := fun hnone => hlate ⟨hendpoint, hnone⟩
          exact h.not_overtaken hsome _ hdone.order
        · rw [if_neg hendpoint] at hdone
          have hstream : s.onStream ++ [_] = [] := hdone.stream
          simp at hstream
      · rw [InTime, if_neg hactive, not_not] at hlate
        obtain ⟨state, -, hkept⟩ :=
          @onWrite_negotiating { s with written := s.written + 1 } ⟨s.written, body⟩ hstate hactive hmessage
        rw [ClientSseConnection.step, hkept] at hdone
        have hnone : s.pendingMessages ++ [_] = [] := hdone.settled hlate.1 hlate.2
        simp at hnone
  | connectionReady => exact hlate trivial
  | streamStarted => exact hlate trivial
  | endpointReceived => exact hlate trivial
  | runTask => exact hlate trivial

theorem inOrder_new : new.InOrder := ⟨rfl, rfl, fun _ _ => rfl⟩

/-- **Messages before the endpoint.** In every state of a run those written have been posted or are kept, in their
order, none kept for good and none on the stream's connection, exactly if each was written in time. -/
theorem keptInOrder_iff_inTime {ops : List ClientSseOperation} (hmessages : ∀ op ∈ ops, IsMessage op) :
    (∀ before after, ops = before ++ after → InOrder (Runs.run step new before)) ↔
      Runs.Guarded step InTime new ops := by
  refine @Runs.everywhere_iff_of_inv _ _ step (fun _ op => IsMessage op) InTime
    (fun s => Negotiates s.state ∧ s.InOrder) InOrder ?_ (fun _ h => h.2) ?_ _ ⟨Or.inl rfl, inOrder_new⟩ ops
    (Runs.guarded_of_forall step hmessages _)
  · intro s op hmessage htime h
    exact ⟨negotiates_step h.1 hmessage, h.2.step h.1 hmessage htime⟩
  · intro s op hmessage h hlate
    exact h.2.not_step h.1 hmessage hlate

theorem keptInOrder_iff_inTime_kept :
    (∀ before after, [.connectionReady, .write [1], .streamStarted, .endpointReceived, .runTask] = before ++ after →
        InOrder (Runs.run step new before)) ↔
      Runs.Guarded step InTime new [.connectionReady, .write [1], .streamStarted, .endpointReceived, .runTask] :=
  keptInOrder_iff_inTime (by simp [IsMessage])

/-- The stream has begun and the endpoint is to come: the second message goes out on the stream's connection. -/
theorem not_keptInOrder :
    ¬ ∀ before after, [.connectionReady, .write [1], .streamStarted, .write [2]] = before ++ after →
      InOrder (Runs.run step new before) := by
  intro h
  have hstream := (h [.connectionReady, .write [1], .streamStarted, .write [2]] [] rfl).stream
  exact absurd (congrArg List.length hstream) (by decide)

end ClientSseConnection

end GopherMcp
