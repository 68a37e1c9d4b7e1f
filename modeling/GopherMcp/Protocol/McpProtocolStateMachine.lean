import GopherMcp.Core.Error
import GopherMcp.Lib.Runs

/-!
# The state machine of the protocol

A connection is opened, initialized, used, drained and closed, and opened again after an error. Which state an event
leads to is decided in one place, where attempts to connect again are counted; leaving a state stops the timer, and
three states start it when they are entered. Timer, count and announcements are read off the transitions that were
taken.
-/

namespace GopherMcp

inductive McpProtocolState
  | disconnected | connecting | connected | initializing | ready | draining | error | closed
  deriving DecidableEq

inductive McpProtocolEvent
  | connectRequested | networkConnected | networkDisconnected
  | initializeRequested | initializeSent | initializeReceived | initialized
  | shutdownRequested | drainComplete
  | protocolError | timeout
  | reconnectRequested
  deriving DecidableEq

/-- Timeouts are in milliseconds; of the callbacks, whether they are set. -/
structure McpProtocolStateMachineConfig where
  initializationTimeout : Int
  drainTimeout : Int
  connectionTimeout : Int
  autoReconnect : Bool
  maxReconnectAttempts : Nat
  stateChangeCallback : Bool
  errorCallback : Bool

/-- What a state change is announced with. -/
structure ProtocolStateTransitionContext where
  fromState : McpProtocolState
  toState : McpProtocolState
  triggerEvent : McpProtocolEvent
  reason : Option Bytes
  error : Option Error

/-- The machine; of its timer, what it is armed with. Beside it are kept the announcements and the errors the callbacks
were given. -/
structure McpProtocolStateMachine where
  currentState : McpProtocolState
  lastError : Option Error
  reconnectAttempts : Nat
  stateTimer : Option Int
  announced : List ProtocolStateTransitionContext
  errors : List Error

/-- What is delivered to the machine. -/
inductive McpProtocolDelivery
  | event (event : McpProtocolEvent) (reason : Option Bytes)
  | error (failure : Error)
  | timerFires

def McpProtocolState.stateToString : McpProtocolState → Bytes
  | disconnected => ascii "DISCONNECTED"
  | connecting => ascii "CONNECTING"
  | connected => ascii "CONNECTED"
  | initializing => ascii "INITIALIZING"
  | ready => ascii "READY"
  | draining => ascii "DRAINING"
  | error => ascii "ERROR"
  | closed => ascii "CLOSED"

namespace McpProtocolStateMachine

open McpProtocolState

def new : McpProtocolStateMachine where
  currentState := disconnected
  lastError := none
  reconnectAttempts := 0
  stateTimer := none
  announced := []
  errors := []

variable (config : McpProtocolStateMachineConfig) (s : McpProtocolStateMachine)

/-! ### States and timers -/

def startStateTimer (timeout : Int) : McpProtocolStateMachine := { s with stateTimer := some timeout }

def cancelStateTimer : McpProtocolStateMachine := { s with stateTimer := none }

def onEnterState : McpProtocolState → McpProtocolStateMachine
  | connecting => s.startStateTimer config.connectionTimeout
  | initializing => s.startStateTimer config.initializationTimeout
  | draining => s.startStateTimer config.drainTimeout
  | _ => s

def onExitState (state : McpProtocolState) : McpProtocolStateMachine :=
  if state = error then { s.cancelStateTimer with lastError := none } else s.cancelStateTimer

def notify (context : ProtocolStateTransitionContext) : McpProtocolStateMachine :=
  if config.stateChangeCallback then { s with announced := s.announced ++ [context] } else s

def transitionTo (newState : McpProtocolState) (event : McpProtocolEvent) (reason : Option Bytes) :
    McpProtocolStateMachine :=
  let entered := onEnterState config { s.onExitState s.currentState with currentState := newState } newState
  notify config entered
    { fromState := s.currentState, toState := newState, triggerEvent := event, reason, error := entered.lastError }

/-! ### Events -/

/-- The state an event leads to, and the attempts to connect again that were made then. -/
def newState (event : McpProtocolEvent) : McpProtocolState × Nat :=
  match s.currentState, event with
  | disconnected, .connectRequested => (connecting, s.reconnectAttempts)
  | disconnected, .networkConnected => (connected, s.reconnectAttempts)
  | connecting, .networkConnected => (connected, s.reconnectAttempts)
  | connecting, .networkDisconnected => (disconnected, s.reconnectAttempts)
  | connecting, .timeout => (disconnected, s.reconnectAttempts)
  | connecting, .protocolError => (error, s.reconnectAttempts)
  | connected, .initializeRequested => (initializing, s.reconnectAttempts)
  | connected, .initializeSent => (initializing, s.reconnectAttempts)
  | connected, .networkDisconnected => (disconnected, s.reconnectAttempts)
  | connected, .protocolError => (error, s.reconnectAttempts)
  | initializing, .initialized => (ready, s.reconnectAttempts)
  | initializing, .initializeReceived => (ready, s.reconnectAttempts)
  | initializing, .timeout => (error, s.reconnectAttempts)
  | initializing, .networkDisconnected => (disconnected, s.reconnectAttempts)
  | initializing, .protocolError => (error, s.reconnectAttempts)
  | ready, .shutdownRequested => (draining, s.reconnectAttempts)
  | ready, .networkDisconnected =>
      if config.autoReconnect && s.reconnectAttempts < config.maxReconnectAttempts then
        (connecting, s.reconnectAttempts + 1)
      else (disconnected, s.reconnectAttempts)
  | ready, .protocolError => (error, s.reconnectAttempts)
  | draining, .drainComplete => (closed, s.reconnectAttempts)
  | draining, .timeout => (closed, s.reconnectAttempts)
  | draining, .networkDisconnected => (closed, s.reconnectAttempts)
  | error, .reconnectRequested =>
      if s.reconnectAttempts < config.maxReconnectAttempts then (connecting, s.reconnectAttempts + 1)
      else (error, s.reconnectAttempts)
  | error, .shutdownRequested => (closed, s.reconnectAttempts)
  | closed, .connectRequested => (connecting, 0)
  | current, _ => (current, s.reconnectAttempts)

/-- Every transition passes this check. -/
def isTransitionValid (_ _ : McpProtocolState) (_ : McpProtocolEvent) : Bool := true

/-- Whether the event was handled is returned beside the machine. -/
def handleEvent (event : McpProtocolEvent) (reason : Option Bytes) : McpProtocolStateMachine × Bool :=
  let next := newState config s event
  let counted := { s with reconnectAttempts := next.2 }
  if next.1 ≠ s.currentState ∧ isTransitionValid s.currentState next.1 event then
    (transitionTo config counted next.1 event reason, true)
  else (counted, false)

def handleError (failure : Error) : McpProtocolStateMachine :=
  (handleEvent config { s with lastError := some failure } .protocolError (some failure.message)).1

def handleStateTimeout : McpProtocolStateMachine :=
  let handled := (handleEvent config s .timeout (some (ascii "State timeout"))).1
  if config.errorCallback then
    { handled with
      errors := handled.errors ++ [⟨-1, ascii "Protocol state timeout in " ++ s.currentState.stateToString⟩] }
  else handled

/-- The timer fires once, and only if it is armed. -/
def step : McpProtocolDelivery → McpProtocolStateMachine
  | .event event reason => (handleEvent config s event reason).1
  | .error failure => handleError config s failure
  | .timerFires => if s.stateTimer.isSome then handleStateTimeout config s.cancelStateTimer else s

/-! ### What is promised -/

/-- The transitions there are. -/
def transitionTable : List (McpProtocolState × McpProtocolEvent × McpProtocolState) :=
  [(disconnected, .connectRequested, connecting), (disconnected, .networkConnected, connected),
    (connecting, .networkConnected, connected), (connecting, .networkDisconnected, disconnected),
    (connecting, .timeout, disconnected), (connecting, .protocolError, error),
    (connected, .initializeRequested, initializing), (connected, .initializeSent, initializing),
    (connected, .networkDisconnected, disconnected), (connected, .protocolError, error),
    (initializing, .initialized, ready), (initializing, .initializeReceived, ready),
    (initializing, .timeout, error), (initializing, .networkDisconnected, disconnected),
    (initializing, .protocolError, error),
    (ready, .shutdownRequested, draining), (ready, .networkDisconnected, connecting),
    (ready, .networkDisconnected, disconnected), (ready, .protocolError, error),
    (draining, .drainComplete, closed), (draining, .timeout, closed), (draining, .networkDisconnected, closed),
    (error, .reconnectRequested, connecting), (error, .shutdownRequested, closed),
    (closed, .connectRequested, connecting)]

/-- The timeout of a state, if it has one. -/
def timeoutOf : McpProtocolState → Option Int
  | connecting => some config.connectionTimeout
  | initializing => some config.initializationTimeout
  | draining => some config.drainTimeout
  | disconnected | connected | ready | error | closed => none

/-- The event that a delivery is handled as. -/
def eventOf : McpProtocolDelivery → McpProtocolEvent
  | .event event _ => event
  | .error _ => .protocolError
  | .timerFires => .timeout

/-- The changes of the state along a run, each with the event it was taken at. -/
def changes (config : McpProtocolStateMachineConfig) (s : McpProtocolStateMachine) :
    List McpProtocolDelivery → List (McpProtocolState × McpProtocolEvent × McpProtocolState)
  | [] => []
  | delivery :: rest =>
      let next := step config s delivery
      (if next.currentState = s.currentState then []
        else [(s.currentState, eventOf delivery, next.currentState)]) ++ changes config next rest

/-- The change a context announces. -/
def change (context : ProtocolStateTransitionContext) :
    McpProtocolState × McpProtocolEvent × McpProtocolState :=
  (context.fromState, context.triggerEvent, context.toState)

/-- The attempts are no more than may be made, and the timer is the state's. -/
structure Settled (config : McpProtocolStateMachineConfig) (s : McpProtocolStateMachine) : Prop where
  attempts : s.reconnectAttempts ≤ config.maxReconnectAttempts
  timer : s.stateTimer = timeoutOf config s.currentState

/-! ### What an event does -/

/-- Nothing that a transition touches is touched. -/
structure Stays (s t : McpProtocolStateMachine) : Prop where
  state : t.currentState = s.currentState
  attempts : t.reconnectAttempts = s.reconnectAttempts
  timer : t.stateTimer = s.stateTimer
  announced : t.announced = s.announced

/-- A transition of the table is taken, and announced. -/
structure Takes (config : McpProtocolStateMachineConfig) (s : McpProtocolStateMachine) (event : McpProtocolEvent)
    (t : McpProtocolStateMachine) : Prop where
  row : (s.currentState, event, t.currentState) ∈ transitionTable
  changed : t.currentState ≠ s.currentState
  attempts : s.reconnectAttempts ≤ config.maxReconnectAttempts → t.reconnectAttempts ≤ config.maxReconnectAttempts
  timer : t.stateTimer = timeoutOf config t.currentState
  announced : t.announced.map change =
    s.announced.map change ++
      if config.stateChangeCallback then [(s.currentState, event, t.currentState)] else []

variable {config} {s} {t u : McpProtocolStateMachine} {event : McpProtocolEvent}

/-- An event leads along a row of the table, or nowhere. -/
theorem newState_cases (config : McpProtocolStateMachineConfig) (s : McpProtocolStateMachine)
    (event : McpProtocolEvent) :
    newState config s event = (s.currentState, s.reconnectAttempts) ∨
      (s.currentState, event, (newState config s event).1) ∈ transitionTable ∧
        (newState config s event).1 ≠ s.currentState ∧
        (s.reconnectAttempts ≤ config.maxReconnectAttempts →
          (newState config s event).2 ≤ config.maxReconnectAttempts) := by
  unfold newState
  split
  -- Only two of the rows look at the attempts.
  all_goals try split_ifs with hmore
  all_goals simp_all [transitionTable]

/-- Every state with a timeout is left at it. -/
theorem newState_timeout_ne (config : McpProtocolStateMachineConfig) (s : McpProtocolStateMachine)
    (htimed : timeoutOf config s.currentState ≠ none) : (newState config s .timeout).1 ≠ s.currentState := by
  cases hstate : s.currentState with
  | connecting | initializing | draining => simp [newState, hstate]
  | disconnected | connected | ready | error | closed => exact absurd (by rw [hstate]; rfl) htimed

theorem onEnterState_eq (config : McpProtocolStateMachineConfig) (hidle : s.stateTimer = none)
    (state : McpProtocolState) : onEnterState config s state = { s with stateTimer := timeoutOf config state } := by
  cases state with
  | connecting | initializing | draining => rfl
  | disconnected | connected | ready | error | closed =>
      show s = { s with stateTimer := none }
      rw [← hidle]

/-- A transition stops the timer of the state that is left and starts that of the other. -/
theorem transitionTo_eq (config : McpProtocolStateMachineConfig) (s : McpProtocolStateMachine)
    (state : McpProtocolState) (event : McpProtocolEvent) (reason : Option Bytes) :
    ∃ lastError, transitionTo config s state event reason =
      notify config { s with currentState := state, stateTimer := timeoutOf config state, lastError }
        { fromState := s.currentState, toState := state, triggerEvent := event, reason, error := lastError } := by
  unfold transitionTo onExitState
  split_ifs with herror
  · exact ⟨none, by rw [onEnterState_eq config rfl]; rfl⟩
  · exact ⟨s.lastError, by rw [onEnterState_eq config rfl]; rfl⟩

theorem takes_transitionTo {attempts : Nat} {state : McpProtocolState} {reason : Option Bytes}
    (hrow : (s.currentState, event, state) ∈ transitionTable) (hchanged : state ≠ s.currentState)
    (hattempts : s.reconnectAttempts ≤ config.maxReconnectAttempts → attempts ≤ config.maxReconnectAttempts) :
    Takes config s event (transitionTo config { s with reconnectAttempts := attempts } state event reason) := by
  obtain ⟨lastError, htransition⟩ :=
    transitionTo_eq config { s with reconnectAttempts := attempts } state event reason
  rw [htransition, notify]
  split_ifs with hcallback
  · refine ⟨hrow, hchanged, hattempts, rfl, ?_⟩
    rw [if_pos hcallback, List.map_append]
    rfl
  · refine ⟨hrow, hchanged, hattempts, rfl, ?_⟩
    rw [if_neg hcallback, List.append_nil]

/-- An event that is handled takes a transition, and another changes nothing. -/
theorem handleEvent_cases (config : McpProtocolStateMachineConfig) (s : McpProtocolStateMachine)
    (event : McpProtocolEvent) (reason : Option Bytes) :
    handleEvent config s event reason = (s, false) ∧ (newState config s event).1 = s.currentState ∨
      (handleEvent config s event reason).2 = true ∧ Takes config s event (handleEvent config s event reason).1 := by
  unfold handleEvent
  obtain hstays | ⟨hrow, hchanged, hattempts⟩ := newState_cases config s event
  · left
    rw [hstays]
    exact ⟨if_neg fun h => h.1 rfl, rfl⟩
  · right
    rw [if_pos ⟨hchanged, rfl⟩]
    exact ⟨rfl, takes_transitionTo hrow hchanged hattempts⟩

theorem Settled.takes (h : s.Settled config) (htakes : Takes config s event t) : t.Settled config :=
  ⟨htakes.attempts h.attempts, htakes.timer⟩

theorem Settled.stays (h : s.Settled config) (hstays : Stays s t) : t.Settled config :=
  ⟨hstays.attempts ▸ h.attempts, by rw [hstays.timer, hstays.state, h.timer]⟩

theorem settled_new : new.Settled config := ⟨Nat.zero_le _, rfl⟩

/-! ### Runs -/

/-- A delivery takes one transition of the table, or none. -/
theorem step_cases (h : s.Settled config) (delivery : McpProtocolDelivery) :
    Stays s (step config s delivery) ∨ Takes config s (eventOf delivery) (step config s delivery) := by
  cases delivery with
  | event event reason =>
      obtain ⟨hignored, -⟩ | ⟨-, htakes⟩ := handleEvent_cases config s event reason
      · exact Or.inl (by rw [step, hignored]; exact ⟨rfl, rfl, rfl, rfl⟩)
      · exact Or.inr htakes
  | error failure =>
      obtain ⟨hignored, -⟩ | ⟨-, htakes⟩ :=
        handleEvent_cases config { s with lastError := some failure } .protocolError (some failure.message)
      · exact Or.inl (by rw [step, handleError, hignored]; exact ⟨rfl, rfl, rfl, rfl⟩)
      · exact Or.inr ⟨htakes.row, htakes.changed, htakes.attempts, htakes.timer, htakes.announced⟩
  | timerFires =>
      rw [step]
      split_ifs with harmed
      · right
        have htimed : timeoutOf config s.currentState ≠ none := by
          rw [← h.timer]
          exact Option.isSome_iff_ne_none.mp harmed
        obtain ⟨-, hstays⟩ | ⟨-, htakes⟩ :=
          handleEvent_cases config s.cancelStateTimer .timeout (some (ascii "State timeout"))
        · exact absurd hstays (newState_timeout_ne config s.cancelStateTimer htimed)
        · unfold handleStateTimeout
          split_ifs
          · exact ⟨htakes.row, htakes.changed, htakes.attempts, htakes.timer, htakes.announced⟩
          · exact ⟨htakes.row, htakes.changed, htakes.attempts, htakes.timer, htakes.announced⟩
      · exact Or.inl ⟨rfl, rfl, rfl, rfl⟩

theorem Settled.step (h : s.Settled config) (delivery : McpProtocolDelivery) : (step config s delivery).Settled config :=
  (step_cases h delivery).elim h.stays h.takes

/-- Along a run every change is a row of the table, and announced once. -/
theorem changes_run (deliveries : List McpProtocolDelivery) (h : s.Settled config) :
    (∀ row ∈ changes config s deliveries, row ∈ transitionTable) ∧
      (Runs.run (step config) s deliveries).announced.map change =
        s.announced.map change ++ if config.stateChangeCallback then changes config s deliveries else [] := by
  induction deliveries generalizing s with
  | nil => exact ⟨by simp [changes], by simp [changes]⟩
  | cons delivery rest ih =>
      obtain ⟨hrows, hannounced⟩ := ih (h.step delivery)
      rw [Runs.run_cons, hannounced, changes]
      obtain hstays | htakes := step_cases h delivery
      · rw [if_pos hstays.state, hstays.announced]
        exact ⟨hrows, rfl⟩
      · rw [if_neg htakes.changed, htakes.announced]
        refine ⟨?_, ?_⟩
        · intro row hrow
          obtain rfl | hlater := List.mem_cons.mp hrow
          · exact htakes.row
          · exact hrows row hlater
        · split_ifs
          · rw [List.append_assoc]
          · rw [List.append_nil]

/-- **The machine of the protocol.** After any deliveries no more attempts were made than may be, the timer is armed with
the timeout of the state and only if it has one, every change was a row of the table, and the changes are announced in
their order, each once. -/
theorem run_settled (config : McpProtocolStateMachineConfig) (deliveries : List McpProtocolDelivery) :
    let s := Runs.run (step config) new deliveries
    s.reconnectAttempts ≤ config.maxReconnectAttempts ∧
      s.stateTimer = timeoutOf config s.currentState ∧
      (∀ row ∈ changes config new deliveries, row ∈ transitionTable) ∧
      s.announced.map change = if config.stateChangeCallback then changes config new deliveries else [] := by
  have hsettled : (Runs.run (step config) new deliveries).Settled config :=
    Runs.invariant_of_every_step (step config) (fun _ delivery h => h.step delivery) settled_new deliveries
  obtain ⟨hrows, hannounced⟩ := changes_run deliveries (@settled_new config)
  exact ⟨hsettled.attempts, hsettled.timer, hrows, hannounced⟩

end McpProtocolStateMachine

end GopherMcp
