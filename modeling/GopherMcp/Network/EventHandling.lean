import GopherMcp.Network.ConnectionStateMachine

/-!
# Events raised while an event is handled

An event that a callback raises goes into the queue, and the loop that empties the queue gives what it takes out
back to `handleEvent`, which is still at work and puts it into the queue again. So the outermost call returns
exactly when nothing was raised meanwhile. How many callbacks an event calls is read off the state it finds.
-/

namespace GopherMcp

namespace ConnectionStateMachine

open ConnectionMachineState (validTransitions)

/-! ### How many callbacks are called -/

/-- By being told of a change. -/
def notifyCalls (s : ConnectionStateMachine) : Nat := s.config.stateChangeCallback.toNat + s.listeners

/-- By a state that is entered. -/
def entryCalls (s : ConnectionStateMachine) : ConnectionMachineState → Nat
  | .connected | .closed => s.pendingCallbacks.length
  | _ => 0

/-- By a transition that is asked for. -/
def transitionCalls (s : ConnectionStateMachine) (state : ConnectionMachineState) : Nat :=
  if s.transitionInProgress then 0
  else if state ∈ s.currentState.validTransitions then s.entryCalls state + s.notifyCalls
  else s.config.errorCallback.toNat

/-- By an event that is handled. -/
def callsOf (s : ConnectionStateMachine) : ConnectionStateMachineEvent → Nat
  | .socketConnected =>
      if s.currentState = .connecting ∧ s.transitionInProgress = false then
        s.notifyCalls + (s.pendingCallbacks.length + s.notifyCalls)
      else 0
  | .socketError | .handshakeFailed | .connectTimeout => s.transitionCalls .error
  | .socketClosed => if s.currentState.isTerminal then 0 else s.transitionCalls .closed
  | .readReady => if s.currentState = .connected ∨ s.currentState = .idle then s.transitionCalls .reading else 0
  | .writeReady => if s.currentState = .connected ∨ s.currentState = .idle then s.transitionCalls .writing else 0
  | .endOfStream => s.transitionCalls (if s.config.enableHalfClose then .halfClosedRemote else .closing)
  | .handshakeStarted => s.transitionCalls .handshakeInProgress
  | .handshakeComplete => s.transitionCalls .connected
  | .connectionRequested =>
      if s.currentState = .uninitialized ∨ s.currentState = .initialized then s.transitionCalls .connecting else 0
  | .closeRequested => if s.currentState.isTerminal then 0 else s.transitionCalls .flushing
  | .resetRequested => s.notifyCalls
  | .readDisableRequested =>
      if s.currentState.canRead ∧ s.readDisableCount = 0 then s.transitionCalls .readDisabled else 0
  | .writeDisableRequested =>
      if s.currentState.canWrite ∧ s.writeDisableCount = 0 then s.transitionCalls .writeDisabled else 0
  | .idleTimeout => s.transitionCalls .closing
  | .drainTimeout => s.transitionCalls .closed
  | .reconnectRequested => s.transitionCalls (if s.canReconnect then .waitingToReconnect else .closed)
  | .recoveryComplete => s.config.recoveryCallback.toNat
  | .recoveryFailed => s.config.errorCallback.toNat + s.transitionCalls .error
  | .socketCreated | .socketBound | .socketListening | .socketAccepted | .readComplete | .writeComplete
  | .filterChainInitialized | .filterChainContinue | .filterChainStop => 0

/-- What the callbacks raise that an event calls. -/
def raisedIn (s : ConnectionStateMachine) (event : ConnectionStateMachineEvent) : List ConnectionStateMachineEvent :=
  (s.replies.take (s.callsOf event)).flatten

/-- None of the callbacks that the event calls raises an event. -/
def RaisesNothing (s : ConnectionStateMachine) (event : ConnectionStateMachineEvent) : Prop := s.raisedIn event = []

instance (s : ConnectionStateMachine) (event : ConnectionStateMachineEvent) : Decidable (s.RaisesNothing event) :=
  inferInstanceAs (Decidable (_ = []))

/-! ### What calling them does -/

/-- So many callbacks were called between two states, and nothing else was raised or given to a handler. -/
structure Calls (n : Nat) (s t : ConnectionStateMachine) : Prop where
  replies : t.replies = s.replies.drop n
  queue : t.eventQueue = s.eventQueue ++ (s.replies.take n).flatten
  raised : t.raised = s.raised ++ (s.replies.take n).flatten
  dispatched : t.dispatched = s.dispatched
  processing : t.processingEvents = s.processingEvents
  config : t.config = s.config
  listeners : t.listeners = s.listeners

variable {s t u : ConnectionStateMachine} {n m : Nat}

theorem Calls.refl (s : ConnectionStateMachine) : Calls 0 s s := by
  constructor <;> simp

theorem Calls.trans (h : Calls n s t) (h' : Calls m t u) : Calls (n + m) s u where
  replies := by rw [h'.replies, h.replies, List.drop_drop]
  queue := by rw [h'.queue, h.queue, h.replies, List.take_add, List.flatten_append, List.append_assoc]
  raised := by rw [h'.raised, h.raised, h.replies, List.take_add, List.flatten_append, List.append_assoc]
  dispatched := h'.dispatched.trans h.dispatched
  processing := h'.processing.trans h.processing
  config := h'.config.trans h.config
  listeners := h'.listeners.trans h.listeners

theorem Calls.quietly (h : Calls 0 s t) (h' : Calls n t u) : Calls n s u := by
  have hboth := h.trans h'
  rwa [Nat.zero_add] at hboth

theorem Calls.notifyCalls (h : Calls n s t) : t.notifyCalls = s.notifyCalls := by
  simp only [ConnectionStateMachine.notifyCalls, h.config, h.listeners]

theorem calls_callBack (s : ConnectionStateMachine) : Calls 1 s s.callBack := by
  cases hreplies : s.replies with
  | nil => constructor <;> simp [callBack, hreplies]
  | cons events rest => constructor <;> simp [callBack, hreplies]

theorem calls_callBacks (n : Nat) (s : ConnectionStateMachine) : Calls n s (callBacks n s) := by
  induction n generalizing s with
  | zero => exact Calls.refl s
  | succ n ih =>
      have h := (calls_callBack s).trans (ih s.callBack)
      rwa [Nat.add_comm] at h

/-- Only what callbacks are still to raise, and what was raised, is touched by them. -/
theorem callBacks_eq (n : Nat) (s : ConnectionStateMachine) :
    callBacks n s =
      { s with
        replies := s.replies.drop n
        eventQueue := s.eventQueue ++ (s.replies.take n).flatten
        raised := s.raised ++ (s.replies.take n).flatten } := by
  induction n generalizing s with
  | zero => simp [callBacks]
  | succ n ih =>
      rw [callBacks, ih]
      cases hreplies : s.replies with
      | nil => simp [callBack, hreplies]
      | cons events rest => simp [callBack, hreplies]

theorem callBackIf_eq (s : ConnectionStateMachine) (set : Bool) : s.callBackIf set = callBacks set.toNat s := by
  cases set <;> rfl

theorem calls_callBackIf (s : ConnectionStateMachine) (set : Bool) : Calls set.toNat s (s.callBackIf set) := by
  cases set with
  | false => exact Calls.refl s
  | true => exact calls_callBack s

theorem calls_callPending (s : ConnectionStateMachine) : Calls s.pendingCallbacks.length s s.callPending :=
  { calls_callBacks s.pendingCallbacks.length s with }

theorem calls_notifyStateChange (s : ConnectionStateMachine) : Calls s.notifyCalls s s.notifyStateChange := by
  have h := calls_callBackIf s s.config.stateChangeCallback
  unfold notifyStateChange
  refine h.trans ?_
  exact calls_callBacks s.listeners _

/-! ### Transitions -/

theorem calls_onStateExit (s : ConnectionStateMachine) (state : ConnectionMachineState) :
    Calls 0 s (s.onStateExit state) := by
  cases state <;> exact { Calls.refl s with }

theorem calls_startIdleTimer (s : ConnectionStateMachine) : Calls 0 s s.startIdleTimer := by
  unfold startIdleTimer
  split_ifs <;> exact { Calls.refl s with }

theorem calls_onStateEnterCalm (state : ConnectionMachineState) (s : ConnectionStateMachine) :
    Calls (s.entryCalls state) s (onStateEnterCalm state s) := by
  cases state <;> simp only [onStateEnterCalm, entryCalls]
  case connected => exact (calls_callPending s).trans (calls_startIdleTimer _)
  case closed => exact calls_callPending s
  case connecting => unfold startConnectTimer; split_ifs <;> exact { Calls.refl s with }
  case handshakeInProgress => unfold startHandshakeTimer; split_ifs <;> exact { Calls.refl s with }
  case draining => unfold startDrainTimer; split_ifs <;> exact { Calls.refl s with }
  all_goals exact { Calls.refl s with }

/-- An entry action calls what is left to it, whatever it finds under way. -/
theorem calls_enter (s : ConnectionStateMachine) (state : ConnectionMachineState)
    (onEnter : ConnectionStateMachine → ConnectionStateMachine)
    (henter : ∀ t : ConnectionStateMachine, t.pendingCallbacks = s.pendingCallbacks →
      t.transitionInProgress = s.transitionInProgress → Calls n t (onEnter t)) :
    Calls (n + s.notifyCalls) s (s.enter state onEnter) := by
  have hexit := calls_onStateExit s s.currentState
  have hpending : (s.onStateExit s.currentState).pendingCallbacks = s.pendingCallbacks := by
    cases s.currentState <;> rfl
  have hprogress : (s.onStateExit s.currentState).transitionInProgress = s.transitionInProgress := by
    cases s.currentState <;> rfl
  have hset : Calls 0 s { s.onStateExit s.currentState with
      currentState := state, entered := (s.onStateExit s.currentState).entered ++ [state] } := { hexit with }
  have hdone := hset.quietly (henter _ hpending hprogress)
  rw [← hdone.notifyCalls]
  exact hdone.trans (calls_notifyStateChange _)

theorem calls_transitionWith {s : ConnectionStateMachine} {state : ConnectionMachineState}
    {onEnter : ConnectionStateMachine → ConnectionStateMachine}
    (henter : ∀ t : ConnectionStateMachine, t.pendingCallbacks = s.pendingCallbacks →
      t.transitionInProgress = true → Calls n t (onEnter t)) :
    Calls (if state ∈ s.currentState.validTransitions then n + s.notifyCalls else s.config.errorCallback.toNat) s
      (s.transitionWith state onEnter) := by
  unfold transitionWith
  split_ifs
  · have hbegin : Calls 0 s { s with transitionInProgress := true } := { Calls.refl s with }
    exact { hbegin.quietly (calls_enter { s with transitionInProgress := true } state onEnter henter) with }
  · exact calls_callBackIf s s.config.errorCallback

theorem entryCalls_congr {s t : ConnectionStateMachine} (h : t.pendingCallbacks = s.pendingCallbacks)
    (state : ConnectionMachineState) : t.entryCalls state = s.entryCalls state := by
  cases state <;> simp only [entryCalls, h]

theorem calls_transitionCalm (s : ConnectionStateMachine) (state : ConnectionMachineState) :
    Calls (s.transitionCalls state) s (s.transitionCalm state) := by
  unfold transitionCalm transitionCalls
  cases s.transitionInProgress with
  | true => exact Calls.refl s
  | false =>
      refine calls_transitionWith fun t hpending _ => ?_
      rw [← entryCalls_congr hpending]
      exact calls_onStateEnterCalm state t

theorem calls_initiateReconnection (s : ConnectionStateMachine) :
    Calls (s.transitionCalls (if s.canReconnect then .waitingToReconnect else .closed)) s s.initiateReconnection := by
  unfold initiateReconnection
  split_ifs
  · have hcounted : Calls 0 s { s with
        reconnectAttempts := s.reconnectAttempts + 1
        currentReconnectDelay :=
          min (s.config.reconnectBackoff s.currentReconnectDelay) s.config.maxReconnectDelay } :=
      { Calls.refl s with }
    have h := hcounted.quietly (calls_transitionCalm _ .waitingToReconnect)
    exact h
  · exact calls_transitionCalm s .closed

/-- Under way, a transition asks in vain for another. -/
theorem calls_onStateEnter (state : ConnectionMachineState) {s : ConnectionStateMachine}
    (hprogress : s.transitionInProgress = true) : Calls (s.entryCalls state) s (onStateEnter state s) := by
  by_cases herror : state = .error
  · subst herror
    have hcounted : Calls 0 s { s with consecutiveErrors := s.consecutiveErrors + 1 } := { Calls.refl s with }
    simp only [onStateEnter]
    split_ifs
    · have h := hcounted.quietly (calls_initiateReconnection _)
      rw [transitionCalls, if_pos hprogress] at h
      exact h
    · exact hcounted
  · rw [show onStateEnter state s = onStateEnterCalm state s by cases state <;> first | rfl | contradiction]
    exact calls_onStateEnterCalm state s

theorem calls_transitionTo (s : ConnectionStateMachine) (state : ConnectionMachineState) :
    Calls (s.transitionCalls state) s (s.transitionTo state) := by
  unfold transitionTo transitionCalls
  cases s.transitionInProgress with
  | true => exact Calls.refl s
  | false =>
      refine calls_transitionWith fun t hpending hbegun => ?_
      rw [← entryCalls_congr hpending]
      exact calls_onStateEnter state hbegun

theorem calls_forceAborted (s : ConnectionStateMachine) : Calls s.notifyCalls s (s.forceTransition .aborted) := by
  have h : Calls (0 + s.notifyCalls) s (s.enter .aborted (onStateEnter .aborted)) :=
    calls_enter s .aborted (onStateEnter .aborted) fun t _ _ => Calls.refl t
  rwa [Nat.zero_add] at h

/-! ### Handlers -/

/-- A connection that is established is entered right after the socket is connected. -/
theorem calls_socketConnected (s : ConnectionStateMachine) (hstate : s.currentState = .connecting) :
    Calls (s.callsOf .socketConnected) s ((s.transitionTo .tcpConnected).transitionTo .connected) := by
  have h := (calls_transitionTo s .tcpConnected).trans (calls_transitionTo (s.transitionTo .tcpConnected) .connected)
  cases hprogress : s.transitionInProgress with
  | true =>
      have hkept : s.transitionTo .tcpConnected = s := by rw [transitionTo, hprogress, if_pos rfl]
      simpa [callsOf, hprogress, hkept, transitionCalls] using h
  | false =>
      have hvalid : ConnectionMachineState.tcpConnected ∈ ConnectionMachineState.connecting.validTransitions := by
        decide
      have hmoved : (s.transitionTo .tcpConnected).currentState = .tcpConnected ∧
          (s.transitionTo .tcpConnected).transitionInProgress = false ∧
          (s.transitionTo .tcpConnected).pendingCallbacks = s.pendingCallbacks := by
        simp [transitionTo, hprogress, transitionWith, hvalid, enter, notifyStateChange, callBackIf_eq, onStateEnter,
          onStateEnterCalm, hstate, onStateExit, callBacks_eq]
      obtain ⟨hcurrent, hfree, hpending⟩ := hmoved
      have hagain : ConnectionMachineState.connected ∈ ConnectionMachineState.tcpConnected.validTransitions := by
        decide
      have hnotify := (calls_transitionTo s .tcpConnected).notifyCalls
      rw [transitionCalls, if_neg (by simp [hprogress]), hstate, if_pos hvalid, transitionCalls,
        if_neg (by simp [hfree]), hcurrent, if_pos hagain, hnotify] at h
      simpa [callsOf, hstate, hprogress, entryCalls, hpending] using h

theorem calls_disabled {s counted : ConnectionStateMachine} {count : Nat} (state : ConnectionMachineState) (able : Bool)
    (hcounted : Calls 0 s counted) (hcalls : counted.transitionCalls state = s.transitionCalls state) :
    Calls (if able = true ∧ count = 0 then s.transitionCalls state else 0) s
      (if able = true then if count + 1 = 1 then counted.transitionTo state else counted else s) := by
  by_cases hable : able = true
  · by_cases hcount : count = 0
    · rw [if_pos ⟨hable, hcount⟩, if_pos hable, if_pos (by omega), ← hcalls]
      exact hcounted.quietly (calls_transitionTo counted state)
    · rw [if_neg fun h => hcount h.2, if_pos hable, if_neg (by omega)]
      exact hcounted
  · rw [if_neg fun h => hable h.1, if_neg hable]
    exact Calls.refl s

theorem calls_handleRecoverySuccess (s : ConnectionStateMachine) :
    Calls s.config.recoveryCallback.toNat s s.handleRecoverySuccess := by
  have hset : Calls 0 s { s with
      reconnectAttempts := 0
      currentReconnectDelay := s.config.initialReconnectDelay
      consecutiveErrors := 0 } := { Calls.refl s with }
  have h := hset.quietly (calls_callBackIf _ s.config.recoveryCallback)
  exact h

theorem calls_handleRecoveryFailure (s : ConnectionStateMachine) :
    Calls (s.config.errorCallback.toNat + s.transitionCalls .error) s s.handleRecoveryFailure := by
  have h := (calls_callBackIf s s.config.errorCallback).trans (calls_transitionTo _ .error)
  rw [callBackIf_eq, callBacks_eq] at h
  unfold handleRecoveryFailure
  rw [callBackIf_eq, callBacks_eq]
  exact h

/-- **Handlers.** An event calls as many callbacks as can be read off the state. -/
theorem calls_dispatch (s : ConnectionStateMachine) (event : ConnectionStateMachineEvent) :
    Calls (s.callsOf event) { s with dispatched := s.dispatched ++ [event] } (s.dispatch event) := by
  cases event
  case socketConnected =>
      by_cases hstate : s.currentState = .connecting
      · rw [dispatch, if_pos hstate]
        exact calls_socketConnected { s with dispatched := s.dispatched ++ [_] } hstate
      · rw [dispatch, callsOf, if_neg hstate, if_neg fun h => hstate h.1]
        exact Calls.refl _
  case readDisableRequested =>
      have hcounted : Calls 0 { s with dispatched := s.dispatched ++ [.readDisableRequested] }
          { s with
            dispatched := s.dispatched ++ [.readDisableRequested]
            readDisableCount := s.readDisableCount + 1 } := { Calls.refl _ with }
      exact calls_disabled .readDisabled s.currentState.canRead hcounted rfl
  case writeDisableRequested =>
      have hcounted : Calls 0 { s with dispatched := s.dispatched ++ [.writeDisableRequested] }
          { s with
            dispatched := s.dispatched ++ [.writeDisableRequested]
            writeDisableCount := s.writeDisableCount + 1 } := { Calls.refl _ with }
      exact calls_disabled .writeDisabled s.currentState.canWrite hcounted rfl
  case resetRequested => exact calls_forceAborted { s with dispatched := s.dispatched ++ [_] }
  case reconnectRequested => exact calls_initiateReconnection { s with dispatched := s.dispatched ++ [_] }
  case recoveryComplete => exact calls_handleRecoverySuccess { s with dispatched := s.dispatched ++ [_] }
  case recoveryFailed => exact calls_handleRecoveryFailure { s with dispatched := s.dispatched ++ [_] }
  all_goals
    simp only [callsOf, dispatch]
    try split_ifs
    all_goals first
      | exact Calls.refl _
      | exact calls_transitionTo { s with dispatched := s.dispatched ++ [_] } _

/-! ### The queue -/

/-- The loop puts back what it takes out. -/
theorem processQueued_eq_none (fuel : Nat) {s : ConnectionStateMachine} (hprocessing : s.processingEvents = true)
    (hqueue : s.eventQueue ≠ []) : processQueued fuel s = none := by
  induction fuel generalizing s with
  | zero => rfl
  | succ fuel ih =>
      obtain ⟨event, rest, hsplit⟩ := List.exists_cons_of_ne_nil hqueue
      rw [processQueued, hsplit]
      cases fuel with
      | zero => rfl
      | succ fuel =>
          have hback : handleEvent (fuel + 1) { s with eventQueue := rest } event =
              some { s with eventQueue := rest ++ [event] } := by
            rw [handleEvent, if_pos hprocessing]
          show (handleEvent (fuel + 1) { s with eventQueue := rest } event).bind (processQueued (fuel + 1)) = none
          rw [hback, Option.bind_some]
          apply ih
          · exact hprocessing
          · simp

theorem processQueued_nil (fuel : Nat) {s : ConnectionStateMachine} (hqueue : s.eventQueue = []) :
    processQueued (fuel + 1) s = some s := by
  rw [processQueued, hqueue]

/-- What is done with an event before the loop. -/
def begun (s : ConnectionStateMachine) (event : ConnectionStateMachineEvent) : ConnectionStateMachine :=
  { s with processingEvents := true, raised := s.raised ++ [event] }.dispatch event

/-- The state after an event that raised nothing. -/
def handled (s : ConnectionStateMachine) (event : ConnectionStateMachineEvent) : ConnectionStateMachine :=
  { s.begun event with processingEvents := false }

/-- No event is being handled and none is waiting. -/
def Idle (s : ConnectionStateMachine) : Prop := s.processingEvents = false ∧ s.eventQueue = []

instance (s : ConnectionStateMachine) : Decidable s.Idle := inferInstanceAs (Decidable (_ ∧ _))

theorem calls_begun (s : ConnectionStateMachine) (event : ConnectionStateMachineEvent) :
    Calls (s.callsOf event)
      { s with
        processingEvents := true
        raised := s.raised ++ [event]
        dispatched := s.dispatched ++ [event] }
      (s.begun event) := by
  have h := calls_dispatch { s with processingEvents := true, raised := s.raised ++ [event] } event
  have hsame : callsOf { s with processingEvents := true, raised := s.raised ++ [event] } event = s.callsOf event := by
    cases event <;> rfl
  rwa [hsame] at h

theorem raiseEvent_of_idle {s : ConnectionStateMachine} (hidle : s.Idle) (event : ConnectionStateMachineEvent)
    (fuel : Nat) :
    s.raiseEvent (fuel + 1) event =
      (processQueued fuel (s.begun event)).map fun t => { t with processingEvents := false } := by
  have hfree : ¬ ({ s with raised := s.raised ++ [event] } : ConnectionStateMachine).processingEvents = true := by
    simp [hidle.1]
  rw [raiseEvent, handleEvent, if_neg hfree]
  rfl

theorem begun_eventQueue {s : ConnectionStateMachine} (hidle : s.Idle) (event : ConnectionStateMachineEvent) :
    (s.begun event).eventQueue = s.raisedIn event := by
  rw [(calls_begun s event).queue, hidle.2]
  rfl

theorem raiseEvent_eq {s : ConnectionStateMachine} (hidle : s.Idle) {event : ConnectionStateMachineEvent}
    (hnothing : s.RaisesNothing event) (fuel : Nat) : s.raiseEvent (fuel + 2) event = some (s.handled event) := by
  have hempty : (s.begun event).eventQueue = [] := (begun_eventQueue hidle event).trans hnothing
  rw [raiseEvent_of_idle hidle, processQueued_nil fuel hempty]
  rfl

/-- An event that makes a callback raise another never returns. -/
theorem raiseEvent_eq_none {s : ConnectionStateMachine} (hidle : s.Idle) {event : ConnectionStateMachineEvent}
    (hraises : ¬ s.RaisesNothing event) (fuel : Nat) : s.raiseEvent fuel event = none := by
  cases fuel with
  | zero => rfl
  | succ fuel =>
      have hleft : (s.begun event).eventQueue ≠ [] := by
        rw [begun_eventQueue hidle]
        exact hraises
      have hprocessing : (s.begun event).processingEvents = true := (calls_begun s event).processing
      rw [raiseEvent_of_idle hidle, processQueued_eq_none fuel hprocessing hleft]
      rfl

theorem handled_of_raiseEvent {s t : ConnectionStateMachine} (hidle : s.Idle) {event : ConnectionStateMachineEvent}
    (hnothing : s.RaisesNothing event) {fuel : Nat} (hreturned : s.raiseEvent fuel event = some t) :
    s.handled event = t := by
  cases fuel with
  | zero => exact absurd hreturned (by simp [raiseEvent, handleEvent])
  | succ fuel =>
      cases fuel with
      | zero => exact absurd hreturned (by simp [raiseEvent_of_idle hidle, processQueued])
      | succ fuel => exact Option.some.inj ((raiseEvent_eq hidle hnothing fuel).symm.trans hreturned)

theorem idle_handled {s : ConnectionStateMachine} (hidle : s.Idle) {event : ConnectionStateMachineEvent}
    (hnothing : s.RaisesNothing event) : (s.handled event).Idle :=
  ⟨rfl, (begun_eventQueue hidle event).trans hnothing⟩

theorem handled_raised {s : ConnectionStateMachine} {event : ConnectionStateMachineEvent}
    (hnothing : s.RaisesNothing event) : (s.handled event).raised = s.raised ++ [event] := by
  have h := (calls_begun s event).raised
  rw [show (s.replies.take (s.callsOf event)).flatten = [] from hnothing, List.append_nil] at h
  exact h

theorem handled_dispatched (s : ConnectionStateMachine) (event : ConnectionStateMachineEvent) :
    (s.handled event).dispatched = s.dispatched ++ [event] := (calls_begun s event).dispatched

/-! ### Sequences of events -/

/-- Events raised one after another, each when the one before has been handled. -/
def raiseEvents (fuel : Nat) :
    ConnectionStateMachine → List ConnectionStateMachineEvent → Option ConnectionStateMachine
  | s, [] => some s
  | s, event :: events => (s.raiseEvent fuel event).bind fun t => raiseEvents fuel t events

/-- Every call returns with an empty queue, and what was raised meanwhile, by whomever, was given to its handler
once and in the order it was raised in. -/
def HandledInOrder (s : ConnectionStateMachine) (events : List ConnectionStateMachineEvent) : Prop :=
  ∃ fuel t, raiseEvents fuel s events = some t ∧ t.eventQueue = [] ∧
    ∃ more, t.raised = s.raised ++ more ∧ t.dispatched = s.dispatched ++ more

theorem raiseEvents_eq (fuel : Nat) {s : ConnectionStateMachine} (hidle : s.Idle)
    {events : List ConnectionStateMachineEvent} (hnothing : Runs.Guarded handled RaisesNothing s events) :
    raiseEvents (fuel + 2) s events = some (Runs.run handled s events) := by
  induction events generalizing s with
  | nil => rfl
  | cons event events ih =>
      obtain ⟨hfirst, hrest⟩ := hnothing
      rw [raiseEvents, raiseEvent_eq hidle hfirst, Option.bind_some]
      exact ih (idle_handled hidle hfirst) hrest

theorem raisesNothing_of_raiseEvents (fuel : Nat) {s t : ConnectionStateMachine} (hidle : s.Idle)
    {events : List ConnectionStateMachineEvent} (hreturned : raiseEvents fuel s events = some t) :
    Runs.Guarded handled RaisesNothing s events := by
  induction events generalizing s with
  | nil => trivial
  | cons event events ih =>
      by_cases hfirst : s.RaisesNothing event
      · refine ⟨hfirst, ih (idle_handled hidle hfirst) ?_⟩
        rw [raiseEvents] at hreturned
        obtain ⟨u, hu, hrest⟩ := Option.bind_eq_some_iff.mp hreturned
        rwa [handled_of_raiseEvent hidle hfirst hu]
      · rw [raiseEvents, raiseEvent_eq_none hidle hfirst, Option.bind_none] at hreturned
        contradiction

theorem run_handled {s : ConnectionStateMachine} (hidle : s.Idle) {events : List ConnectionStateMachineEvent}
    (hnothing : Runs.Guarded handled RaisesNothing s events) :
    (Runs.run handled s events).eventQueue = [] ∧ (Runs.run handled s events).raised = s.raised ++ events ∧
      (Runs.run handled s events).dispatched = s.dispatched ++ events := by
  induction events generalizing s with
  | nil => simp [hidle.2]
  | cons event events ih =>
      obtain ⟨hfirst, hrest⟩ := hnothing
      obtain ⟨hqueue, hraised, hdispatched⟩ := ih (idle_handled hidle hfirst) hrest
      rw [handled_raised hfirst] at hraised
      rw [handled_dispatched] at hdispatched
      refine ⟨hqueue, ?_, ?_⟩
      · simpa using hraised
      · simpa using hdispatched

/-- **Nested events.** Events are handled in the order they are raised in, to the end, exactly when no callback that
is called meanwhile raises one. -/
theorem handledInOrder_iff {s : ConnectionStateMachine} (hidle : s.Idle) (events : List ConnectionStateMachineEvent) :
    s.HandledInOrder events ↔ Runs.Guarded handled RaisesNothing s events := by
  constructor
  · intro h
    obtain ⟨fuel, t, hreturned, -⟩ := h
    exact raisesNothing_of_raiseEvents fuel hidle hreturned
  · intro hnothing
    obtain ⟨hqueue, hraised, hdispatched⟩ := run_handled hidle hnothing
    exact ⟨2, _, raiseEvents_eq 0 hidle hnothing, hqueue, events, hraised, hdispatched⟩

/-- A client that is told of its changes. -/
def watchedConfig : ConnectionStateMachineConfig where
  mode := .client
  connectTimeout := 30000
  handshakeTimeout := 10000
  idleTimeout := 0
  drainTimeout := 5000
  enableAutoReconnect := false
  maxReconnectAttempts := 3
  initialReconnectDelay := 1000
  maxReconnectDelay := 30000
  reconnectBackoff := fun delay => 2 * delay
  enableHalfClose := false
  stateChangeCallback := true
  errorCallback := false
  recoveryCallback := false

theorem handledInOrder_requested :
    (new watchedConfig 1 []).HandledInOrder [.connectionRequested, .socketConnected] ↔
      Runs.Guarded handled RaisesNothing (new watchedConfig 1 []) [.connectionRequested, .socketConnected] :=
  handledInOrder_iff (by decide) _

/-- The callback that is told of the change to `Connecting` says that the socket is connected. -/
theorem not_handledInOrder : ¬ (new watchedConfig 0 [[.socketConnected]]).HandledInOrder [.connectionRequested] := by
  intro h
  obtain ⟨fuel, t, hreturned, -⟩ := h
  have hidle : (new watchedConfig 0 [[.socketConnected]]).Idle := by decide
  have hnothing := raisesNothing_of_raiseEvents fuel hidle hreturned
  exact absurd hnothing (by decide)

end ConnectionStateMachine

end GopherMcp
