import GopherMcp.Network.EventHandling

/-!
# Reconnecting

A client's machine that has no callback to raise an event from: it is connected, given events, and its timers
fire. The entry into `Error` counts an attempt and asks for `WaitingToReconnect` from inside the transition it is
part of, which refuses; and when the reconnect timer fires, the event that `connect` raises is accepted only by a
machine that never began.
-/

namespace GopherMcp

namespace ConnectionStateMachine

open ConnectionMachineState (validTransitions)

variable {s t : ConnectionStateMachine} {state : ConnectionMachineState}

/-! ### Steps -/

def connect (s : ConnectionStateMachine) (address callback : Bool) : ConnectionStateMachine :=
  if s.config.mode = .server then
    { s with given := s.given + callback.toNat, called := s.called ++ if callback then [s.given] else [] }
  else
    ({ s with
      reconnectAddress := address
      given := s.given + callback.toNat
      pendingCallbacks := s.pendingCallbacks ++ if callback then [s.given] else [] }.handled
        .connectionRequested).startConnectTimer

def handleReconnectTimeout (s : ConnectionStateMachine) : ConnectionStateMachine :=
  let s := s.transitionTo .reconnecting
  if s.reconnectAddress then s.connect true false else s

inductive Operation
  | connect (address callback : Bool)
  | event (event : ConnectionStateMachineEvent)
  | connectTimer | handshakeTimer | idleTimer | drainTimer | reconnectTimer
  deriving DecidableEq

/-- A timer that is not armed does not fire. -/
def step (s : ConnectionStateMachine) : Operation → ConnectionStateMachine
  | .connect address callback => s.connect address callback
  | .event event => s.handled event
  | .connectTimer => if s.connectTimer then { s with connectTimer := false }.handled .connectTimeout else s
  | .handshakeTimer => if s.handshakeTimer then { s with handshakeTimer := false }.handled .connectTimeout else s
  | .idleTimer => if s.idleTimer then { s with idleTimer := false }.handled .idleTimeout else s
  | .drainTimer => if s.drainTimer then { s with drainTimer := false }.handled .drainTimeout else s
  | .reconnectTimer => if s.reconnectTimer then { s with reconnectTimer := false }.handleReconnectTimeout else s

/-- What reconnecting promises of a step. -/
structure Progresses (s : ConnectionStateMachine) (op : Operation) : Prop where
  waits : .error ∈ (s.step op).entered.drop s.entered.length →
    s.reconnectAttempts < s.config.maxReconnectAttempts →
    (s.step op).currentState = .waitingToReconnect ∧ (s.step op).reconnectTimer = true ∧
      (s.step op).reconnectAttempts = s.reconnectAttempts + 1
  connects : op = .reconnectTimer → s.reconnectTimer = true → (s.step op).currentState = .connecting
  attempts : (s.step op).reconnectAttempts ≤ (s.step op).config.maxReconnectAttempts
  once : (s.step op).called.Nodup
  settled : (s.step op).currentState ∈ [.connected, .closed] → ∀ n < (s.step op).given, n ∈ (s.step op).called

/-- The events that ask for `Error`. -/
def failures : List ConnectionStateMachineEvent := [.socketError, .handshakeFailed, .connectTimeout, .recoveryFailed]

/-- The event that a step comes to asks for `Error`. -/
def fails (s : ConnectionStateMachine) : Operation → Bool
  | .event event => event ∈ failures
  | .connectTimer => s.connectTimer
  | .handshakeTimer => s.handshakeTimer
  | _ => false

/-- No error is entered while attempts remain, the reconnect timer does not fire, and a callback is not given to a
machine that is connected or closed already. -/
def Steady (s : ConnectionStateMachine) (op : Operation) : Prop :=
  (s.fails op = true → .error ∈ s.currentState.validTransitions →
    s.config.maxReconnectAttempts ≤ s.reconnectAttempts) ∧
  (op = .reconnectTimer → s.reconnectTimer = false) ∧
  ∀ address, op = .connect address true → s.currentState ∉ [.connected, .closed]

/-! ### A transition -/

/-- Where the reconnect timer may still be armed. -/
def lost : List ConnectionMachineState := [.waitingToReconnect, .reconnecting, .error, .closed, .aborted]

theorem callBacks_quiet (n : Nat) (hquiet : s.replies = []) : callBacks n s = s := by
  rw [callBacks_eq, hquiet]
  simp only [List.drop_nil, List.take_nil, List.flatten_nil, List.append_nil]
  rw [← hquiet]

theorem callBackIf_quiet (set : Bool) (hquiet : s.replies = []) : s.callBackIf set = s := by
  rw [callBackIf_eq, callBacks_quiet _ hquiet]

theorem notifyStateChange_quiet (hquiet : s.replies = []) : s.notifyStateChange = s := by
  rw [notifyStateChange, callBackIf_quiet _ hquiet, callBacks_quiet _ hquiet]

/-- What is done on entering a state, as far as later steps depend on it. -/
structure Entry (state : ConnectionMachineState) (s t : ConnectionStateMachine) : Prop where
  config : t.config = s.config
  current : t.currentState = s.currentState
  progress : t.transitionInProgress = s.transitionInProgress
  queue : t.eventQueue = s.eventQueue
  attempts : t.reconnectAttempts = s.reconnectAttempts + if state = .error then s.canReconnect.toNat else 0
  pending : t.pendingCallbacks = if state ∈ [.connected, .closed] then [] else s.pendingCallbacks
  kept : t.called ++ t.pendingCallbacks = s.called ++ s.pendingCallbacks
  given : t.given = s.given
  timer : t.reconnectTimer = (s.reconnectTimer || state = .waitingToReconnect)
  replies : t.replies = s.replies
  entered : t.entered = s.entered

theorem callPending_quiet (hquiet : s.replies = []) :
    s.callPending = { s with called := s.called ++ s.pendingCallbacks, pendingCallbacks := [] } := by
  rw [callPending, callBacks_quiet _ hquiet]

theorem onStateExit_eq (s : ConnectionStateMachine) (state : ConnectionMachineState) :
    ∃ a b c d, s.onStateExit state =
      { s with connectTimer := a, handshakeTimer := b, idleTimer := c, drainTimer := d } := by
  cases state <;> exact ⟨_, _, _, _, rfl⟩

theorem startConnectTimer_eq (s : ConnectionStateMachine) :
    ∃ a, s.startConnectTimer = { s with connectTimer := a } := by
  unfold startConnectTimer
  split_ifs <;> exact ⟨_, rfl⟩

theorem startHandshakeTimer_eq (s : ConnectionStateMachine) :
    ∃ a, s.startHandshakeTimer = { s with handshakeTimer := a } := by
  unfold startHandshakeTimer
  split_ifs <;> exact ⟨_, rfl⟩

theorem startIdleTimer_eq (s : ConnectionStateMachine) : ∃ a, s.startIdleTimer = { s with idleTimer := a } := by
  unfold startIdleTimer
  split_ifs <;> exact ⟨_, rfl⟩

theorem startDrainTimer_eq (s : ConnectionStateMachine) : ∃ a, s.startDrainTimer = { s with drainTimer := a } := by
  unfold startDrainTimer
  split_ifs <;> exact ⟨_, rfl⟩

/-- Inside a transition the wait for a reconnection is refused, the attempt counted all the same. -/
theorem onStateEnter_error (hprogress : s.transitionInProgress = true) :
    onStateEnter .error s =
      { s with
        consecutiveErrors := s.consecutiveErrors + 1
        reconnectAttempts := s.reconnectAttempts + s.canReconnect.toNat
        currentReconnectDelay :=
          if s.canReconnect then min (s.config.reconnectBackoff s.currentReconnectDelay) s.config.maxReconnectDelay
          else s.currentReconnectDelay } := by
  have hcounted : canReconnect { s with consecutiveErrors := s.consecutiveErrors + 1 } = s.canReconnect := rfl
  simp only [onStateEnter, initiateReconnection, hcounted]
  cases hleft : s.canReconnect with
  | false => rfl
  | true => simp [transitionCalm, hprogress]

theorem entry_onStateEnter (state : ConnectionMachineState)
    (hprogress : state = .error → s.transitionInProgress = true) (hquiet : s.replies = []) :
    Entry state s (onStateEnter state s) := by
  cases state
  case error =>
    rw [onStateEnter_error (hprogress rfl)]
    constructor <;> simp
  case connected =>
    obtain ⟨a, hstarted⟩ := startIdleTimer_eq s.callPending
    rw [callPending_quiet hquiet] at hstarted
    simp only [onStateEnter, onStateEnterCalm, callPending_quiet hquiet, hstarted]
    constructor <;> simp
  case closed =>
    simp only [onStateEnter, onStateEnterCalm, callPending_quiet hquiet]
    constructor <;> simp
  case connecting =>
    obtain ⟨a, hstarted⟩ := startConnectTimer_eq s
    simp only [onStateEnter, onStateEnterCalm, hstarted]
    constructor <;> simp
  case handshakeInProgress =>
    obtain ⟨a, hstarted⟩ := startHandshakeTimer_eq s
    simp only [onStateEnter, onStateEnterCalm, hstarted]
    constructor <;> simp
  case draining =>
    obtain ⟨a, hstarted⟩ := startDrainTimer_eq s
    simp only [onStateEnter, onStateEnterCalm, hstarted]
    constructor <;> simp
  all_goals
    simp only [onStateEnter, onStateEnterCalm, startReconnectTimer]
    constructor <;> simp

/-- The state is set, nothing else done yet. -/
def arriving (s : ConnectionStateMachine) (state : ConnectionMachineState) : ConnectionStateMachine :=
  { s with currentState := state, entered := s.entered ++ [state] }

theorem entry_enter (state : ConnectionMachineState) (hprogress : state = .error → s.transitionInProgress = true)
    (hquiet : s.replies = []) : Entry state (s.arriving state) (s.enter state (onStateEnter state)) := by
  obtain ⟨a, b, c, d, hexit⟩ := onStateExit_eq s s.currentState
  let left : ConnectionStateMachine :=
    { s.arriving state with connectTimer := a, handshakeTimer := b, idleTimer := c, drainTimer := d }
  have hentry : Entry state left (onStateEnter state left) := entry_onStateEnter state hprogress hquiet
  have hshape : s.enter state (onStateEnter state) = (onStateEnter state left).notifyStateChange := by
    rw [enter, hexit]
    rfl
  rw [hshape, notifyStateChange_quiet (hentry.replies.trans hquiet)]
  exact { hentry with }

theorem entry_transitionTo (hcalm : s.transitionInProgress = false) (hquiet : s.replies = [])
    (hvalid : state ∈ s.currentState.validTransitions) : Entry state (s.arriving state) (s.transitionTo state) := by
  have hentry := @entry_enter { s with transitionInProgress := true } state (fun _ => rfl) hquiet
  rw [transitionTo, if_neg (by simp [hcalm]), transitionWith, if_pos hvalid]
  exact { hentry with progress := hcalm.symm }

theorem transitionTo_refused (hquiet : s.replies = []) (hvalid : state ∉ s.currentState.validTransitions) :
    s.transitionTo state = s := by
  rw [transitionTo, transitionWith, if_neg hvalid, callBackIf_quiet _ hquiet, ite_self]

theorem transitionCalm_eq (hcalm : state ≠ .error) : s.transitionCalm state = s.transitionTo state := by
  have hsame : onStateEnter state = onStateEnterCalm state := by
    funext t
    cases state <;> first | rfl | contradiction
  rw [transitionCalm, transitionTo, hsame]

/-- No handler leads out of where the timer may be armed, but for the one that begins a connection. -/
theorem stays_lost : ∀ current ∈ lost, ∀ state ∈ current.validTransitions,
    state ∉ [.initialized, .resolving, .connecting, .recovering] → state ∈ lost := by
  decide

/-! ### The invariant -/

/-- Nothing is under way and no callback raises anything; the attempts are within their bound; the callbacks called
are the first of those given, and all of them once the machine is connected or closed. -/
structure Sound (s : ConnectionStateMachine) : Prop where
  calm : s.transitionInProgress = false
  quiet : s.replies = []
  mode : s.config.mode = .client
  auto : s.config.enableAutoReconnect = true
  attempts : s.reconnectAttempts ≤ s.config.maxReconnectAttempts
  kept : s.called ++ s.pendingCallbacks = List.range s.given
  settled : s.currentState ∈ [.connected, .closed] → s.pendingCallbacks = []
  armed : s.reconnectTimer = true → s.currentState ∈ lost

theorem sound_new {config : ConnectionStateMachineConfig} (hmode : config.mode = .client)
    (hauto : config.enableAutoReconnect = true) (listeners : Nat) : (new config listeners []).Sound where
  calm := rfl
  quiet := rfl
  mode := hmode
  auto := hauto
  attempts := Nat.zero_le _
  kept := rfl
  settled := fun _ => rfl
  armed := by simp [new]

theorem Sound.entry (hs : s.Sound) (hentry : Entry state (s.arriving state) t)
    (hlost : s.currentState ∈ lost → state ∈ lost) : t.Sound where
  calm := hentry.progress.trans hs.calm
  quiet := hentry.replies.trans hs.quiet
  mode := by rw [hentry.config]; exact hs.mode
  auto := by rw [hentry.config]; exact hs.auto
  attempts := by
    have hbound := hs.attempts
    rw [hentry.config, hentry.attempts]
    show s.reconnectAttempts + (if state = .error then s.canReconnect.toNat else 0) ≤ s.config.maxReconnectAttempts
    cases hleft : s.canReconnect with
    | false => simpa using hbound
    | true =>
        have hless : s.reconnectAttempts < s.config.maxReconnectAttempts := by simp_all [canReconnect]
        split_ifs <;> simp <;> omega
  kept := by rw [hentry.kept, hentry.given]; exact hs.kept
  settled := by
    rw [hentry.current, hentry.pending]
    intro hstate
    exact if_pos hstate
  armed := by
    rw [hentry.timer, hentry.current]
    intro harmed
    rcases Bool.or_eq_true_iff.mp harmed with hbefore | hwaiting
    · exact hlost (hs.armed hbefore)
    · simp only [decide_eq_true_eq] at hwaiting
      subst hwaiting
      simp [lost, arriving]

theorem Sound.transitionTo (hs : s.Sound) (state : ConnectionMachineState)
    (hlost : s.currentState ∈ lost → state ∈ s.currentState.validTransitions → state ∈ lost) :
    (s.transitionTo state).Sound := by
  by_cases hvalid : state ∈ s.currentState.validTransitions
  · exact hs.entry (entry_transitionTo hs.calm hs.quiet hvalid) fun h => hlost h hvalid
  · rwa [transitionTo_refused hs.quiet hvalid]

/-- A transition that some handler asks for at any time. -/
theorem Sound.transitionTo' (hs : s.Sound) {state : ConnectionMachineState}
    (hstart : state ∉ [.initialized, .resolving, .connecting, .recovering]) : (s.transitionTo state).Sound :=
  hs.transitionTo state fun hlost hvalid => stays_lost _ hlost _ hvalid hstart

theorem Sound.counted (hs : s.Sound) (hleft : s.canReconnect = true) (delay : Nat) :
    Sound { s with reconnectAttempts := s.reconnectAttempts + 1, currentReconnectDelay := delay } := by
  have hless : s.reconnectAttempts < s.config.maxReconnectAttempts := by simp_all [canReconnect]
  exact { hs with attempts := hless }

theorem Sound.initiateReconnection (hs : s.Sound) : s.initiateReconnection.Sound := by
  unfold ConnectionStateMachine.initiateReconnection
  split_ifs with hleft
  · rw [transitionCalm_eq (by decide)]
    exact (hs.counted hleft _).transitionTo' (by decide)
  · rw [transitionCalm_eq (by decide)]
    exact hs.transitionTo' (by decide)

theorem Sound.handleRecoverySuccess (hs : s.Sound) : s.handleRecoverySuccess.Sound := by
  rw [ConnectionStateMachine.handleRecoverySuccess, callBackIf_quiet]
  · exact { hs with attempts := Nat.zero_le _ }
  · exact hs.quiet

theorem Sound.reset (hs : s.Sound) : s.reset.Sound := by
  have hentry : Entry .aborted (s.arriving .aborted) s.reset :=
    entry_enter .aborted (fun h => by contradiction) hs.quiet
  exact hs.entry hentry fun _ => by decide

theorem Sound.handleRecoveryFailure (hs : s.Sound) : s.handleRecoveryFailure.Sound := by
  rw [ConnectionStateMachine.handleRecoveryFailure, callBackIf_quiet _ hs.quiet]
  exact hs.transitionTo' (by decide)

theorem Sound.dispatch (hs : s.Sound) (event : ConnectionStateMachineEvent) : (s.dispatch event).Sound := by
  have hgiven : Sound { s with dispatched := s.dispatched ++ [event] } := { hs with }
  cases event
  all_goals simp only [ConnectionStateMachine.dispatch, ConnectionStateMachine.close]
  case resetRequested => exact hgiven.reset
  case reconnectRequested => exact hgiven.initiateReconnection
  case recoveryComplete => exact hgiven.handleRecoverySuccess
  case recoveryFailed => exact hgiven.handleRecoveryFailure
  case socketConnected =>
    split_ifs
    · exact (hgiven.transitionTo' (by decide)).transitionTo' (by decide)
    · exact hgiven
  case connectionRequested =>
    split_ifs with hnew
    · apply hgiven.transitionTo
      intro hlost
      obtain h | h := hnew
      · simp [h, lost] at hlost
      · simp [h, lost] at hlost
    · exact hgiven
  case readDisableRequested =>
    have hcounted : Sound { s with
        dispatched := s.dispatched ++ [.readDisableRequested]
        readDisableCount := s.readDisableCount + 1 } := { hs with }
    split_ifs
    · exact hcounted.transitionTo' (by decide)
    · exact hcounted
    · exact hgiven
  case writeDisableRequested =>
    have hcounted : Sound { s with
        dispatched := s.dispatched ++ [.writeDisableRequested]
        writeDisableCount := s.writeDisableCount + 1 } := { hs with }
    split_ifs
    · exact hcounted.transitionTo' (by decide)
    · exact hcounted
    · exact hgiven
  case endOfStream =>
    apply hgiven.transitionTo'
    split_ifs <;> decide
  case socketClosed | closeRequested | readReady | writeReady =>
    split_ifs
    all_goals first
      | exact hgiven
      | exact hgiven.transitionTo' (by decide)
  case socketError | handshakeStarted | handshakeComplete | handshakeFailed | connectTimeout | idleTimeout |
      drainTimeout =>
    exact hgiven.transitionTo' (by decide)
  all_goals exact hgiven

theorem Sound.handled (hs : s.Sound) (event : ConnectionStateMachineEvent) : (s.handled event).Sound := by
  have hraised : Sound { s with processingEvents := true, raised := s.raised ++ [event] } := { hs with }
  exact { hraised.dispatch event with }

theorem Sound.startConnectTimer (hs : s.Sound) : s.startConnectTimer.Sound := by
  obtain ⟨a, hstarted⟩ := startConnectTimer_eq s
  rw [hstarted]
  exact { hs with }

/-- What `connect` notes before the event it raises. -/
def asked (s : ConnectionStateMachine) (address callback : Bool) : ConnectionStateMachine :=
  { s with
    reconnectAddress := address
    given := s.given + callback.toNat
    pendingCallbacks := s.pendingCallbacks ++ if callback then [s.given] else [] }

theorem Sound.connect_eq (hs : s.Sound) (address callback : Bool) :
    s.connect address callback = ((s.asked address callback).handled .connectionRequested).startConnectTimer := by
  rw [ConnectionStateMachine.connect, if_neg (by simp [hs.mode])]
  rfl

theorem Sound.asked (hs : s.Sound) (address : Bool) {callback : Bool}
    (hopen : callback = true → s.currentState ∉ [.connected, .closed]) : (s.asked address callback).Sound := by
  cases callback with
  | false =>
      have hkept : s.called ++ (s.pendingCallbacks ++ []) = List.range s.given := by rw [List.append_nil, hs.kept]
      have hsettled : s.currentState ∈ [.connected, .closed] → s.pendingCallbacks ++ [] = [] := by
        rw [List.append_nil]
        exact hs.settled
      exact { hs with kept := hkept, settled := hsettled }
  | true =>
      have hkept : s.called ++ (s.pendingCallbacks ++ [s.given]) = List.range (s.given + 1) := by
        rw [← List.append_assoc, hs.kept, List.range_succ]
      exact { hs with kept := hkept, settled := fun hsettled => absurd hsettled (hopen rfl) }

theorem Sound.connect (hs : s.Sound) (address : Bool) {callback : Bool}
    (hopen : callback = true → s.currentState ∉ [.connected, .closed]) : (s.connect address callback).Sound := by
  rw [hs.connect_eq]
  exact ((hs.asked address hopen).handled _).startConnectTimer

theorem Sound.handleReconnectTimeout (hs : s.Sound) : s.handleReconnectTimeout.Sound := by
  have hagain : (s.transitionTo .reconnecting).Sound := hs.transitionTo' (by decide)
  simp only [ConnectionStateMachine.handleReconnectTimeout]
  split_ifs
  · exact hagain.connect true nofun
  · exact hagain

theorem Sound.fired (hs : s.Sound) (ht : t.Sound) (armed : Bool) (event : ConnectionStateMachineEvent) :
    (if armed then t.handled event else s).Sound := by
  split_ifs
  · exact ht.handled event
  · exact hs

theorem Sound.step (hs : s.Sound) {op : Operation}
    (hopen : ∀ address, op = .connect address true → s.currentState ∉ [.connected, .closed]) :
    (s.step op).Sound := by
  cases op with
  | connect address callback => exact hs.connect address fun h => hopen address (by rw [h])
  | event event => exact hs.handled event
  | connectTimer =>
      have hfired : Sound { s with connectTimer := false } := { hs with }
      exact hs.fired hfired s.connectTimer _
  | handshakeTimer =>
      have hfired : Sound { s with handshakeTimer := false } := { hs with }
      exact hs.fired hfired s.handshakeTimer _
  | idleTimer =>
      have hfired : Sound { s with idleTimer := false } := { hs with }
      exact hs.fired hfired s.idleTimer _
  | drainTimer =>
      have hfired : Sound { s with drainTimer := false } := { hs with }
      exact hs.fired hfired s.drainTimer _
  | reconnectTimer =>
      have hfired : Sound { s with reconnectTimer := false } := { hs with armed := nofun }
      simp only [ConnectionStateMachine.step]
      split_ifs
      · exact hfired.handleReconnectTimeout
      · exact hs

/-! ### Entries into the error state -/

/-- Of the states entered between two, none is the error state. -/
def Spared (s t : ConnectionStateMachine) : Prop := ∃ more, t.entered = s.entered ++ more ∧ .error ∉ more

theorem Spared.of_entered (hsame : t.entered = s.entered) : Spared s t := ⟨[], by simp [hsame]⟩

theorem Spared.trans {u : ConnectionStateMachine} (h : Spared s t) (h' : Spared t u) : Spared s u := by
  obtain ⟨first, hfirst, hno⟩ := h
  obtain ⟨second, hsecond, hno'⟩ := h'
  refine ⟨first ++ second, ?_, ?_⟩
  · rw [hsecond, hfirst, List.append_assoc]
  · simp [hno, hno']

theorem Sound.spared (hs : s.Sound) (hcalm : state ≠ .error) : Spared s (s.transitionTo state) := by
  by_cases hvalid : state ∈ s.currentState.validTransitions
  · have hentry := entry_transitionTo hs.calm hs.quiet hvalid
    exact ⟨[state], hentry.entered, by simpa using hcalm.symm⟩
  · exact .of_entered (by rw [transitionTo_refused hs.quiet hvalid])

theorem Sound.spared_initiateReconnection (hs : s.Sound) : Spared s s.initiateReconnection := by
  unfold ConnectionStateMachine.initiateReconnection
  split_ifs with hleft
  · rw [transitionCalm_eq (by decide)]
    exact (hs.counted hleft _).spared (by decide)
  · rw [transitionCalm_eq (by decide)]
    exact hs.spared (by decide)

theorem Sound.spared_dispatch (hs : s.Sound) {event : ConnectionStateMachineEvent} (hcalm : event ∉ failures) :
    Spared s (s.dispatch event) := by
  have hgiven : Sound { s with dispatched := s.dispatched ++ [event] } := { hs with }
  cases event
  all_goals simp only [ConnectionStateMachine.dispatch, ConnectionStateMachine.close]
  case resetRequested =>
    have hentry : Entry .aborted (s.arriving .aborted) { s with dispatched := _ }.reset :=
      { entry_enter .aborted (fun h => by contradiction) hgiven.quiet with }
    exact ⟨[.aborted], hentry.entered, by decide⟩
  case reconnectRequested => exact hgiven.spared_initiateReconnection
  case recoveryComplete =>
    rw [ConnectionStateMachine.handleRecoverySuccess, callBackIf_quiet]
    · exact .of_entered rfl
    · exact hgiven.quiet
  case socketConnected =>
    split_ifs
    · let given : ConnectionStateMachine := { s with dispatched := s.dispatched ++ [.socketConnected] }
      have hfirst : (given.transitionTo .tcpConnected).Sound := hgiven.transitionTo' (by decide)
      have hbefore : Spared s (given.transitionTo .tcpConnected) := hgiven.spared (by decide)
      exact hbefore.trans (hfirst.spared (by decide))
    · exact .of_entered rfl
  case readDisableRequested =>
    have hcounted : Sound { s with
        dispatched := s.dispatched ++ [.readDisableRequested]
        readDisableCount := s.readDisableCount + 1 } := { hs with }
    split_ifs
    · exact hcounted.spared (by decide)
    · exact .of_entered rfl
    · exact .of_entered rfl
  case writeDisableRequested =>
    have hcounted : Sound { s with
        dispatched := s.dispatched ++ [.writeDisableRequested]
        writeDisableCount := s.writeDisableCount + 1 } := { hs with }
    split_ifs
    · exact hcounted.spared (by decide)
    · exact .of_entered rfl
    · exact .of_entered rfl
  case endOfStream =>
    apply hgiven.spared
    split_ifs <;> decide
  case socketClosed | closeRequested | readReady | writeReady | connectionRequested =>
    split_ifs
    all_goals first
      | exact .of_entered rfl
      | exact hgiven.spared (by decide)
  case handshakeStarted | handshakeComplete | idleTimeout | drainTimeout => exact hgiven.spared (by decide)
  case socketError | handshakeFailed | connectTimeout | recoveryFailed => exact absurd (by decide) hcalm
  all_goals exact .of_entered rfl

/-- An event is about to be handled. -/
def started (s : ConnectionStateMachine) (event : ConnectionStateMachineEvent) : ConnectionStateMachine :=
  { s with
    processingEvents := true
    raised := s.raised ++ [event]
    dispatched := s.dispatched ++ [event] }

theorem Sound.handled_failure (hs : s.Sound) {event : ConnectionStateMachineEvent} (hfailure : event ∈ failures) :
    s.handled event = { (s.started event).transitionTo .error with processingEvents := false } := by
  simp only [failures, List.mem_cons, List.not_mem_nil, or_false] at hfailure
  obtain rfl | rfl | rfl | rfl := hfailure
  · rfl
  · rfl
  · rfl
  · have hrecovery : s.begun .recoveryFailed = (s.started .recoveryFailed).handleRecoveryFailure := rfl
    rw [ConnectionStateMachine.handled, hrecovery, ConnectionStateMachine.handleRecoveryFailure, callBackIf_quiet]
    exact hs.quiet

/-- A step that fails asks for `Error` where it finds the machine. -/
theorem Sound.step_of_fails (hs : s.Sound) {op : Operation} (hfails : s.fails op = true) :
    ∃ u : ConnectionStateMachine, u.Sound ∧ u.currentState = s.currentState ∧ u.entered = s.entered ∧
      s.step op = { u.transitionTo .error with processingEvents := false } := by
  cases op with
  | event event =>
      have hfailure : event ∈ failures := by simpa [fails] using hfails
      have hstarted : (s.started event).Sound := { hs with }
      exact ⟨_, hstarted, rfl, rfl, hs.handled_failure hfailure⟩
  | connectTimer =>
      have hfired : Sound { s with connectTimer := false } := { hs with }
      have hstarted : Sound (started { s with connectTimer := false } .connectTimeout) := { hs with }
      have harmed : s.connectTimer = true := hfails
      refine ⟨_, hstarted, rfl, rfl, ?_⟩
      rw [ConnectionStateMachine.step, if_pos harmed]
      exact hfired.handled_failure (by decide)
  | handshakeTimer =>
      have hfired : Sound { s with handshakeTimer := false } := { hs with }
      have hstarted : Sound (started { s with handshakeTimer := false } .connectTimeout) := { hs with }
      have harmed : s.handshakeTimer = true := hfails
      refine ⟨_, hstarted, rfl, rfl, ?_⟩
      rw [ConnectionStateMachine.step, if_pos harmed]
      exact hfired.handled_failure (by decide)
  | connect address callback => exact absurd hfails (by simp [fails])
  | idleTimer => exact absurd hfails (by simp [fails])
  | drainTimer => exact absurd hfails (by simp [fails])
  | reconnectTimer => exact absurd hfails (by simp [fails])

theorem Sound.spared_handled (hs : s.Sound) {event : ConnectionStateMachineEvent} (hcalm : event ∉ failures) :
    Spared s (s.handled event) := by
  have hraised : Sound { s with processingEvents := true, raised := s.raised ++ [event] } := { hs with }
  exact hraised.spared_dispatch hcalm

theorem Sound.spared_step (hs : s.Sound) {op : Operation} (hcalm : s.fails op = false)
    (hunfired : op = .reconnectTimer → s.reconnectTimer = false)
    (hopen : ∀ address, op = .connect address true → s.currentState ∉ [.connected, .closed]) :
    Spared s (s.step op) := by
  cases op with
  | connect address callback =>
      have hasked : (s.asked address callback).Sound := hs.asked address fun h => hopen address (by rw [h])
      have hspared : Spared s ((s.asked address callback).handled .connectionRequested) :=
        hasked.spared_handled (by decide)
      obtain ⟨a, hstarted⟩ := startConnectTimer_eq ((s.asked address callback).handled .connectionRequested)
      show Spared s (s.connect address callback)
      rw [hs.connect_eq, hstarted]
      exact hspared
  | event event => exact hs.spared_handled (by simpa [fails] using hcalm)
  | connectTimer => exact .of_entered (by simp_all [ConnectionStateMachine.step, fails])
  | handshakeTimer => exact .of_entered (by simp_all [ConnectionStateMachine.step, fails])
  | idleTimer =>
      have hfired : Sound { s with idleTimer := false } := { hs with }
      simp only [ConnectionStateMachine.step]
      split_ifs
      · exact hfired.spared_handled (by decide)
      · exact .of_entered rfl
  | drainTimer =>
      have hfired : Sound { s with drainTimer := false } := { hs with }
      simp only [ConnectionStateMachine.step]
      split_ifs
      · exact hfired.spared_handled (by decide)
      · exact .of_entered rfl
  | reconnectTimer => exact .of_entered (by simp [ConnectionStateMachine.step, hunfired rfl])

/-! ### What a step promises -/

theorem begun_connectionRequested (hbegun : s.currentState ∉ [.uninitialized, .initialized]) :
    s.begun .connectionRequested = s.started .connectionRequested := by
  have hnot : ¬ (s.currentState = .uninitialized ∨ s.currentState = .initialized) := by simpa using hbegun
  exact if_neg hnot

/-- A machine that has begun takes no notice of being asked to connect. -/
theorem Sound.connect_begun (hs : s.Sound) (hbegun : s.currentState ∉ [.uninitialized, .initialized])
    (address callback : Bool) :
    (s.connect address callback).currentState = s.currentState ∧ (s.connect address callback).called = s.called ∧
      (s.connect address callback).given = s.given + callback.toNat := by
  have hasked : (s.asked address callback).currentState ∉ [.uninitialized, .initialized] := hbegun
  obtain ⟨a, hstarted⟩ := startConnectTimer_eq ((s.asked address callback).handled .connectionRequested)
  rw [hs.connect_eq, hstarted, ConnectionStateMachine.handled, begun_connectionRequested hasked]
  exact ⟨rfl, rfl, rfl⟩

/-- The timer fires, and the machine does not begin to connect. -/
theorem Sound.lost_reconnectTimer (hs : s.Sound) (harmed : s.reconnectTimer = true) :
    (s.step .reconnectTimer).currentState ∈ lost := by
  have hfired : Sound { s with reconnectTimer := false } := { hs with armed := nofun }
  let again := ConnectionStateMachine.transitionTo { s with reconnectTimer := false } .reconnecting
  have hagain : again.Sound := hfired.transitionTo' (by decide)
  have hlost : again.currentState ∈ lost := by
    by_cases hvalid : ConnectionMachineState.reconnecting ∈ s.currentState.validTransitions
    · have hentry := entry_transitionTo hfired.calm hfired.quiet hvalid
      rw [show again.currentState = .reconnecting from hentry.current]
      decide
    · rw [show again = { s with reconnectTimer := false } from transitionTo_refused hfired.quiet hvalid]
      exact hs.armed harmed
  have hapart : ∀ current ∈ lost, current ∉ [.uninitialized, .initialized] := by decide
  rw [ConnectionStateMachine.step, if_pos harmed]
  show (if again.reconnectAddress then again.connect true false else again).currentState ∈ lost
  split_ifs
  · rwa [(hagain.connect_begun (hapart _ hlost) true false).1]
  · exact hlost

/-- Once what is pending is empty, all callbacks given have been called. -/
theorem Sound.called_of_settled (hs : s.Sound) (hdone : s.currentState ∈ [.connected, .closed]) :
    ∀ n < s.given, n ∈ s.called := by
  intro n hn
  have hkept := hs.kept
  rw [hs.settled hdone, List.append_nil] at hkept
  rw [hkept]
  exact List.mem_range.mpr hn

theorem Sound.nodup_called (hs : s.Sound) : s.called.Nodup := by
  have hkept : (s.called ++ s.pendingCallbacks).Nodup := by
    rw [hs.kept]
    exact List.nodup_range
  exact (List.nodup_append.mp hkept).1

theorem Sound.not_called_given (hs : s.Sound) : s.given ∉ s.called := by
  intro hmem
  have hkept : s.given ∈ List.range s.given := by
    rw [← hs.kept]
    exact List.mem_append_left _ hmem
  exact absurd hkept (by simp)

/-- A callback that comes when the machine has settled stays uncalled. -/
theorem Sound.not_settled_of_late (hs : s.Sound) (hdone : s.currentState ∈ [.connected, .closed]) (address : Bool) :
    ¬ s.Progresses (.connect address true) := by
  intro hkept
  have hapart : ∀ current ∈ ([.connected, .closed] : List ConnectionMachineState),
      current ∉ [.uninitialized, .initialized] := by decide
  obtain ⟨hcurrent, hcalled, hgiven⟩ := hs.connect_begun (hapart _ hdone) address true
  have hlate := hkept.settled (by rwa [← hcurrent] at hdone) s.given
  have hcounted : s.given < (s.connect address true).given := by
    rw [hgiven]
    exact Nat.lt_succ_self _
  have hmem := hlate hcounted
  rw [show (s.step (.connect address true)).called = s.called from hcalled] at hmem
  exact hs.not_called_given hmem

/-- An error entered while attempts remain is not left for the wait. -/
theorem Sound.not_waits_of_fails (hs : s.Sound) {op : Operation} (hfails : s.fails op = true)
    (hvalid : .error ∈ s.currentState.validTransitions)
    (hleft : s.reconnectAttempts < s.config.maxReconnectAttempts) : ¬ s.Progresses op := by
  intro hkept
  obtain ⟨u, hu, hcurrent, hentered, hstep⟩ := hs.step_of_fails hfails
  rw [← hcurrent] at hvalid
  have hentry := entry_transitionTo hu.calm hu.quiet hvalid
  have hmoved : (s.step op).entered = s.entered ++ [.error] := by
    rw [hstep, ← hentered]
    exact hentry.entered
  have hwaits := (hkept.waits (by simp [hmoved]) hleft).1
  have herror : (s.step op).currentState = .error := by
    rw [hstep]
    exact hentry.current
  rw [herror] at hwaits
  contradiction

/-- Where the error state cannot be entered, it is not. -/
theorem Sound.spared_of_refused (hs : s.Sound) {op : Operation} (hfails : s.fails op = true)
    (hvalid : .error ∉ s.currentState.validTransitions) : Spared s (s.step op) := by
  obtain ⟨u, hu, hcurrent, hentered, hstep⟩ := hs.step_of_fails hfails
  rw [← hcurrent] at hvalid
  rw [hstep, transitionTo_refused hu.quiet hvalid]
  exact .of_entered hentered

/-- **A step's promise.** It is kept exactly by a step that stays clear of errors, of the timer and of callbacks that
come late. -/
theorem Sound.progresses_iff (hs : s.Sound) (op : Operation) : s.Progresses op ↔ s.Steady op := by
  constructor
  · intro hkept
    refine ⟨?_, ?_, ?_⟩
    · intro hfails hvalid
      by_contra hleft
      exact hs.not_waits_of_fails hfails hvalid (by omega) hkept
    · intro htimer
      by_contra harmed
      have hfired : s.reconnectTimer = true := by simpa using harmed
      subst htimer
      have hlost := hs.lost_reconnectTimer hfired
      rw [hkept.connects rfl hfired] at hlost
      exact absurd hlost (by decide)
    · intro address hconnect hdone
      subst hconnect
      exact hs.not_settled_of_late hdone address hkept
  · intro hsteady
    obtain ⟨herrors, htimer, hopen⟩ := hsteady
    have hstep := hs.step hopen
    refine ⟨?_, ?_, hstep.attempts, hstep.nodup_called, hstep.called_of_settled⟩
    · intro herror hleft
      have hspared : Spared s (s.step op) := by
        by_cases hfails : s.fails op = true
        · exact hs.spared_of_refused hfails fun hvalid => absurd (herrors hfails hvalid) (by omega)
        · exact hs.spared_step (by simpa using hfails) htimer hopen
      obtain ⟨more, hmore, hnone⟩ := hspared
      rw [hmore, List.drop_left] at herror
      contradiction
    · intro hfired harmed
      rw [htimer hfired] at harmed
      contradiction

/-- **Reconnection.** A run of a client keeps what reconnecting promises exactly if each of its steps is steady. -/
theorem progresses_iff_steady {config : ConnectionStateMachineConfig} (hmode : config.mode = .client)
    (hauto : config.enableAutoReconnect = true) (listeners : Nat) (ops : List Operation) :
    Runs.Guarded step Progresses (new config listeners []) ops ↔
      Runs.Guarded step Steady (new config listeners []) ops :=
  @Runs.guarded_iff _ _ step Sound (fun _ _ => True) Steady Progresses (fun _ op _ hs => hs.progresses_iff op)
    (fun _ _ _ hsteady hs => hs.step hsteady.2.2) _ (sound_new hmode hauto listeners) ops
    (Runs.guarded_of_forall step (fun _ _ => trivial) _)

/-- A client that reconnects up to three times. -/
def returningConfig : ConnectionStateMachineConfig where
  mode := .client
  connectTimeout := 30000
  handshakeTimeout := 10000
  idleTimeout := 0
  drainTimeout := 5000
  enableAutoReconnect := true
  maxReconnectAttempts := 3
  initialReconnectDelay := 1000
  maxReconnectDelay := 30000
  reconnectBackoff := fun delay => 2 * delay
  enableHalfClose := false
  stateChangeCallback := true
  errorCallback := true
  recoveryCallback := true

theorem progresses_iff_steady_connected :
    Runs.Guarded step Progresses (new returningConfig 1 [])
        [.connect true true, .event .socketConnected, .event .socketClosed] ↔
      Runs.Guarded step Steady (new returningConfig 1 [])
        [.connect true true, .event .socketConnected, .event .socketClosed] :=
  progresses_iff_steady rfl rfl 1 _

/-- The socket fails while it is connected: the machine stays in its error state. -/
theorem not_progresses_socketError :
    ¬ Runs.Guarded step Progresses (new returningConfig 0 []) [.connect true false, .event .socketError] := by
  intro h
  obtain ⟨-, hfailed, -⟩ := h
  obtain ⟨hstate, -⟩ := hfailed.waits (by decide) (by decide)
  exact absurd hstate (by decide)

end ConnectionStateMachine

end GopherMcp
