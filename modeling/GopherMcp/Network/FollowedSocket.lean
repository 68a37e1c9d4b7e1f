import GopherMcp.Network.Reconnection

/-!
# The machine and its socket

The public operations of a machine whose callbacks raise nothing. A handler may ask for a transition that the table
refuses after it has armed a timer or counted a request, and a transition out of a state does not undo everything
that belongs to it: the reconnect timer stays armed, and so does the count of a machine that was not to write.
-/

namespace GopherMcp

namespace ConnectionStateMachine

open ConnectionMachineState (validTransitions)

variable {s t : ConnectionStateMachine} {state : ConnectionMachineState}

/-! ### Operations -/

/-- The callback `listen` is given is told whether the machine listens; nothing depends on it. -/
def listen (s : ConnectionStateMachine) : ConnectionStateMachine :=
  if s.config.mode ≠ .server ∧ s.config.mode ≠ .bidirectional then s else s.transitionTo .listening

def onAboveWriteBufferHighWatermark (s : ConnectionStateMachine) : ConnectionStateMachine :=
  if s.currentState.canWrite then
    let counted := { s with writeDisableCount := s.writeDisableCount + 1 }
    if counted.writeDisableCount = 1 then counted.transitionTo .writeDisabled else counted
  else s

def onBelowWriteBufferLowWatermark (s : ConnectionStateMachine) : ConnectionStateMachine :=
  if s.currentState = .writeDisabled ∧ 0 < s.writeDisableCount then
    let counted := { s with writeDisableCount := s.writeDisableCount - 1 }
    if counted.writeDisableCount = 0 then counted.transitionTo .connected else counted
  else s

/-- What is done to a machine from outside: connecting, events and timers among it. -/
inductive PublicOperation
  | operation (op : Operation)
  | listen
  | close (type : ConnectionCloseType)
  | reset
  | onAboveWriteBufferHighWatermark
  | onBelowWriteBufferLowWatermark
  deriving DecidableEq

def perform (s : ConnectionStateMachine) : PublicOperation → ConnectionStateMachine
  | .operation op => s.step op
  | .listen => s.listen
  | .close type => s.close type
  | .reset => s.reset
  | .onAboveWriteBufferHighWatermark => s.onAboveWriteBufferHighWatermark
  | .onBelowWriteBufferLowWatermark => s.onBelowWriteBufferLowWatermark

/-! ### What is promised -/

/-- Timers are armed, and requests not to write are counted, only in the states they belong to. -/
structure InPlace (s : ConnectionStateMachine) : Prop where
  connect : s.connectTimer = true → s.currentState = .connecting
  handshake : s.handshakeTimer = true → s.currentState = .handshakeInProgress
  idle : s.idleTimer = true → s.currentState ∈ [.connected, .idle]
  drain : s.drainTimer = true → s.currentState = .draining
  reconnect : s.reconnectTimer = true → s.currentState = .waitingToReconnect
  writes : 0 < s.writeDisableCount → s.currentState ∈ [.writeDisabled, .paused]

/-- A number of notifications of one kind. -/
def aboveTimes (s : ConnectionStateMachine) (n : Nat) : ConnectionStateMachine :=
  Runs.run perform s (List.replicate n .onAboveWriteBufferHighWatermark)

def belowTimes (s : ConnectionStateMachine) (n : Nat) : ConnectionStateMachine :=
  Runs.run perform s (List.replicate n .onBelowWriteBufferLowWatermark)

structure FollowsSocket (s : ConnectionStateMachine) (op : PublicOperation) : Prop where
  inPlace : (s.perform op).InPlace
  closes : op = .operation (.event .socketClosed) → s.currentState.isTerminal = false →
    (s.perform op).currentState = .closed
  disables : op = .onAboveWriteBufferHighWatermark → s.currentState.canWrite = true → ∀ n,
    (s.aboveTimes (n + 1)).currentState = .writeDisabled ∧
      ((s.aboveTimes (n + 1)).belowTimes (n + 1)).currentState.canWrite = true

/-- The states that leave something behind. -/
def held : List ConnectionMachineState := [.waitingToReconnect, .writeDisabled]

/-- The event closes a machine that can be closed, writing is disabled where the table allows it, and no event leads
out of a state that leaves something behind. -/
def OrderlyEvent (s : ConnectionStateMachine) : ConnectionStateMachineEvent → Prop
  | .socketClosed =>
      s.currentState.isTerminal = false → s.currentState ≠ .waitingToReconnect ∧ .closed ∈ s.currentState.validTransitions
  | .writeDisableRequested => s.currentState.canWrite = true → s.currentState ∈ [.connected, .writing]
  | .resetRequested | .socketError | .handshakeFailed | .connectTimeout | .recoveryFailed => s.currentState ∉ held
  | .drainTimeout => s.currentState ≠ .waitingToReconnect
  | .reconnectRequested => s.currentState = .waitingToReconnect → s.canReconnect = true
  | .endOfStream => s.currentState = .writeDisabled → s.config.enableHalfClose = true
  | .handshakeComplete | .idleTimeout => s.currentState ≠ .writeDisabled
  | _ => True

/-- A timer is armed by hand only in the state it belongs to. -/
def Orderly (s : ConnectionStateMachine) : PublicOperation → Prop
  | .operation (.connect _ _) =>
      s.config.mode = .server ∨ s.config.connectTimeout = 0 ∨ s.currentState ∈ [.uninitialized, .initialized, .connecting]
  | .operation (.event event) => s.OrderlyEvent event
  | .operation .reconnectTimer =>
      s.reconnectTimer = true → s.reconnectAddress = true → s.config.mode = .server ∨ s.config.connectTimeout = 0
  | .operation _ => True
  | .close .flushWriteAndDelay => s.config.drainTimeout = 0 ∨ s.currentState ∈ [.connected, .closing, .draining]
  | .close .flushWrite => True
  | .close _ => s.currentState ≠ .writeDisabled
  | .reset => s.currentState ∉ held
  | .onAboveWriteBufferHighWatermark => s.currentState.canWrite = true → s.currentState ∈ [.connected, .writing]
  | .onBelowWriteBufferLowWatermark | .listen => True

/-! ### A transition -/

/-- What a transition does to the timers and the count. -/
structure Arrives (state : ConnectionMachineState) (s t : ConnectionStateMachine) : Prop where
  config : t.config = s.config
  current : t.currentState = state
  calm : t.transitionInProgress = s.transitionInProgress
  quiet : t.replies = []
  connect : t.connectTimer =
    (s.connectTimer && s.currentState ≠ .connecting || state = .connecting && s.config.connectTimeout ≠ 0)
  handshake : t.handshakeTimer =
    (s.handshakeTimer && s.currentState ≠ .handshakeInProgress ||
      state = .handshakeInProgress && s.config.handshakeTimeout ≠ 0)
  idle : t.idleTimer =
    (s.idleTimer && s.currentState ∉ [.connected, .idle] || state = .connected && s.config.idleTimeout ≠ 0)
  drain : t.drainTimer = (s.drainTimer && s.currentState ≠ .draining || state = .draining && s.config.drainTimeout ≠ 0)
  reconnect : t.reconnectTimer = (s.reconnectTimer || state = .waitingToReconnect)
  writes : t.writeDisableCount = s.writeDisableCount
  address : t.reconnectAddress = s.reconnectAddress

/-- The timer of the state that is entered is armed if it is configured. -/
theorem timers_onStateEnter (state : ConnectionMachineState)
    (hprogress : state = .error → s.transitionInProgress = true) (hquiet : s.replies = []) :
    (onStateEnter state s).connectTimer = (s.connectTimer || state = .connecting && s.config.connectTimeout ≠ 0) ∧
      (onStateEnter state s).handshakeTimer =
        (s.handshakeTimer || state = .handshakeInProgress && s.config.handshakeTimeout ≠ 0) ∧
      (onStateEnter state s).idleTimer = (s.idleTimer || state = .connected && s.config.idleTimeout ≠ 0) ∧
      (onStateEnter state s).drainTimer = (s.drainTimer || state = .draining && s.config.drainTimeout ≠ 0) ∧
      (onStateEnter state s).writeDisableCount = s.writeDisableCount ∧
      (onStateEnter state s).reconnectAddress = s.reconnectAddress := by
  cases state
  case error => simp [onStateEnter_error (hprogress rfl)]
  case connected =>
    simp only [onStateEnter, onStateEnterCalm, callPending_quiet hquiet, startIdleTimer]
    split_ifs with hzero <;> simp [hzero]
  case closed => simp [onStateEnter, onStateEnterCalm, callPending_quiet hquiet]
  case connecting =>
    simp only [onStateEnter, onStateEnterCalm, startConnectTimer]
    split_ifs with hzero <;> simp [hzero]
  case handshakeInProgress =>
    simp only [onStateEnter, onStateEnterCalm, startHandshakeTimer]
    split_ifs with hzero <;> simp [hzero]
  case draining =>
    simp only [onStateEnter, onStateEnterCalm, startDrainTimer]
    split_ifs with hzero <;> simp [hzero]
  all_goals simp [onStateEnter, onStateEnterCalm, startReconnectTimer]

/-- The timer of the state that is left is disarmed. -/
theorem timers_onStateExit (s : ConnectionStateMachine) (current : ConnectionMachineState) :
    (s.onStateExit current).connectTimer = (s.connectTimer && current ≠ .connecting) ∧
      (s.onStateExit current).handshakeTimer = (s.handshakeTimer && current ≠ .handshakeInProgress) ∧
      (s.onStateExit current).idleTimer = (s.idleTimer && current ∉ [.connected, .idle]) ∧
      (s.onStateExit current).drainTimer = (s.drainTimer && current ≠ .draining) := by
  cases current <;> simp [onStateExit]

theorem arrives_enter (hprogress : state = .error → s.transitionInProgress = true) (hquiet : s.replies = []) :
    Arrives state s (s.enter state (onStateEnter state)) := by
  have hentry := @entry_enter s state hprogress hquiet
  obtain ⟨a, b, c, d, hexit⟩ := onStateExit_eq s s.currentState
  have htimers := timers_onStateExit s s.currentState
  rw [hexit] at htimers
  obtain ⟨hconnect, hhandshake, hidle, hdrain⟩ := htimers
  let left : ConnectionStateMachine :=
    { s.arriving state with connectTimer := a, handshakeTimer := b, idleTimer := c, drainTimer := d }
  have hshape : s.enter state (onStateEnter state) = onStateEnter state left := by
    have hquiet' := (@entry_onStateEnter left state hprogress hquiet).replies.trans hquiet
    rw [enter, hexit]
    exact notifyStateChange_quiet hquiet'
  obtain ⟨hconnect', hhandshake', hidle', hdrain', hwrites, haddress⟩ := @timers_onStateEnter left state hprogress hquiet
  rw [hshape] at hentry ⊢
  exact {
    config := hentry.config
    current := hentry.current
    calm := hentry.progress
    quiet := hentry.replies.trans hquiet
    connect := hconnect'.trans (congrArg (· || _) hconnect)
    handshake := hhandshake'.trans (congrArg (· || _) hhandshake)
    idle := hidle'.trans (congrArg (· || _) hidle)
    drain := hdrain'.trans (congrArg (· || _) hdrain)
    reconnect := hentry.timer
    writes := hwrites
    address := haddress }

theorem arrives_transitionTo (hcalm : s.transitionInProgress = false) (hquiet : s.replies = [])
    (hvalid : state ∈ s.currentState.validTransitions) : Arrives state s (s.transitionTo state) := by
  have harrives := @arrives_enter { s with transitionInProgress := true } state (fun _ => rfl) hquiet
  rw [transitionTo, if_neg (by simp [hcalm]), transitionWith, if_pos hvalid]
  exact { harrives with calm := hcalm.symm }

/-! ### The invariant -/

/-- Nothing is under way and no callback raises anything; everything is in its place, and what belongs to the states
that are held is there. -/
structure Tracking (s : ConnectionStateMachine) : Prop extends InPlace s where
  calm : s.transitionInProgress = false
  quiet : s.replies = []
  unpaused : s.currentState ≠ .paused
  waits : s.currentState = .waitingToReconnect → s.reconnectTimer = true
  disabled : s.currentState = .writeDisabled → s.writeDisableCount = 1

theorem tracking_new (config : ConnectionStateMachineConfig) (listeners : Nat) : (new config listeners []).Tracking := by
  have hstart : (new config listeners []).currentState ∈ [.uninitialized, .initialized] := by
    simp only [new]
    split_ifs <;> decide
  refine ⟨⟨?_, ?_, ?_, ?_, ?_, ?_⟩, rfl, rfl, ?_, ?_, ?_⟩
  case refine_7 | refine_8 | refine_9 =>
    intro hother
    rw [hother] at hstart
    exact absurd hstart (by decide)
  all_goals exact fun harmed => absurd harmed (by simp [new])

/-- A timer that is in its place is not armed any more where its state is left. -/
theorem disarmed {armed : Bool} {place : Prop} [Decidable place] (h : armed = true → place) :
    (armed && decide ¬ place) = false := by
  cases armed with
  | false => rfl
  | true => simpa using h rfl

/-- In other states nothing is there to be left behind. -/
theorem Tracking.free (h : s.Tracking) (hfree : s.currentState ∉ held) :
    s.reconnectTimer = false ∧ s.writeDisableCount = 0 := by
  have hnot : s.currentState ≠ .waitingToReconnect ∧ s.currentState ≠ .writeDisabled := by simpa [held] using hfree
  refine ⟨eq_false_of_ne_true fun harmed => hnot.1 (h.reconnect harmed), ?_⟩
  by_contra hpositive
  have hplace := h.writes (Nat.pos_of_ne_zero hpositive)
  simp only [List.mem_cons, List.not_mem_nil, or_false] at hplace
  exact hplace.elim hnot.2 h.unpaused

/-- A transition where every timer is in its place, no reconnection is waited for, and the count is right for the
state that is entered. -/
theorem Arrives.tracking (harrives : Arrives state s t) (hcalm : s.transitionInProgress = false)
    (hconnect : s.connectTimer = true → s.currentState = .connecting)
    (hhandshake : s.handshakeTimer = true → s.currentState = .handshakeInProgress)
    (hidle : s.idleTimer = true → s.currentState ∈ [.connected, .idle])
    (hdrain : s.drainTimer = true → s.currentState = .draining ∨ state = .draining) (hreconnect : s.reconnectTimer = false)
    (hstate : state ≠ .paused) (hcount : s.writeDisableCount = if state = .writeDisabled then 1 else 0) : t.Tracking := by
  have hconnect' := harrives.connect
  have hhandshake' := harrives.handshake
  have hidle' := harrives.idle
  have hdrain' := harrives.drain
  have hreconnect' := harrives.reconnect
  rw [disarmed hconnect, Bool.false_or] at hconnect'
  rw [disarmed hhandshake, Bool.false_or] at hhandshake'
  rw [disarmed hidle, Bool.false_or] at hidle'
  rw [hreconnect, Bool.false_or] at hreconnect'
  have hcount' := harrives.writes.trans hcount
  refine ⟨⟨?_, ?_, ?_, ?_, ?_, ?_⟩, harrives.calm.trans hcalm, harrives.quiet, ?_, ?_, ?_⟩
  all_goals rw [harrives.current]
  · simp +contextual [hconnect']
  · simp +contextual [hhandshake']
  · simp +contextual [hidle']
  · intro harmed
    rw [hdrain', Bool.or_eq_true, Bool.and_eq_true, Bool.and_eq_true] at harmed
    obtain hbefore | hnow := harmed
    · exact (hdrain hbefore.1).resolve_left (of_decide_eq_true hbefore.2)
    · exact of_decide_eq_true hnow.1
  · simp [hreconnect']
  · rw [hcount']
    split_ifs with hdisabled
    · exact fun _ => by rw [hdisabled]; decide
    · exact fun hpositive => absurd hpositive (Nat.lt_irrefl 0)
  · exact hstate
  · simp [hreconnect']
  · exact fun hdisabled => hcount'.trans (if_pos hdisabled)

/-- A transition out of a state that leaves nothing behind. -/
theorem Tracking.arrives (h : s.Tracking) (harrives : Arrives state s t) (hfree : s.currentState ∉ held)
    (hstate : state ∉ [.writeDisabled, .paused]) : t.Tracking := by
  simp only [List.mem_cons, List.not_mem_nil, or_false, not_or] at hstate
  apply harrives.tracking h.calm h.connect h.handshake h.idle (fun harmed => .inl (h.drain harmed)) (h.free hfree).1 hstate.2
  rw [if_neg hstate.1]
  exact (h.free hfree).2

/-- What is left behind by a transition out of a state that is held. -/
theorem Arrives.not_inPlace (harrives : Arrives state s t) (h : s.Tracking) (hheld : s.currentState ∈ held)
    (hstate : state ∉ [.waitingToReconnect, .writeDisabled, .paused]) : ¬ t.InPlace := by
  intro hplace
  simp only [held, List.mem_cons, List.not_mem_nil, or_false] at hheld hstate
  push Not at hstate
  obtain hwaiting | hdisabled := hheld
  · have htimer := harrives.reconnect
    rw [h.waits hwaiting, Bool.true_or] at htimer
    exact hstate.1 (harrives.current.symm.trans (hplace.reconnect htimer))
  · have hcount := harrives.writes.trans (h.disabled hdisabled)
    have hin := hplace.writes (hcount.symm ▸ Nat.one_pos)
    rw [harrives.current] at hin
    simp only [List.mem_cons, List.not_mem_nil, or_false] at hin
    exact hin.elim hstate.2.1 hstate.2.2

/-- A transition that a handler asks for. -/
theorem Tracking.transitionTo (h : s.Tracking) (hstate : state ∉ [.writeDisabled, .paused])
    (hfree : s.currentState ∈ held → state ∉ s.currentState.validTransitions) : (s.transitionTo state).Tracking := by
  by_cases hvalid : state ∈ s.currentState.validTransitions
  · exact h.arrives (arrives_transitionTo h.calm h.quiet hvalid) (fun hheld => hfree hheld hvalid) hstate
  · rwa [transitionTo_refused h.quiet hvalid]

theorem refused_of_held
    (hwaiting : s.currentState = .waitingToReconnect → state ∉ validTransitions .waitingToReconnect)
    (hdisabled : s.currentState = .writeDisabled → state ∉ validTransitions .writeDisabled) :
    s.currentState ∈ held → state ∉ s.currentState.validTransitions := by
  intro hheld
  simp only [held, List.mem_cons, List.not_mem_nil, or_false] at hheld
  obtain hstate | hstate := hheld
  · rw [hstate]
    exact hwaiting hstate
  · rw [hstate]
    exact hdisabled hstate

/-- The first request not to write, where the table allows it. -/
theorem Tracking.disable (h : s.Tracking) (hwrites : s.currentState ∈ [.connected, .writing]) :
    let counted := { s with writeDisableCount := 1 }
    (counted.transitionTo .writeDisabled).Tracking ∧ (counted.transitionTo .writeDisabled).currentState = .writeDisabled := by
  intro counted
  have hfree : s.currentState ∉ held := by
    intro hheld
    revert hwrites hheld
    cases s.currentState <;> decide
  have hvalid : .writeDisabled ∈ counted.currentState.validTransitions := by
    show .writeDisabled ∈ s.currentState.validTransitions
    revert hwrites
    cases s.currentState <;> decide
  have harrives := arrives_transitionTo (s := counted) h.calm h.quiet hvalid
  refine ⟨harrives.tracking h.calm h.connect h.handshake h.idle (fun harmed => .inl (h.drain harmed)) ?_
    (by decide) rfl, harrives.current⟩
  exact (h.free hfree).1

/-- A request not to write. -/
theorem Tracking.onAboveWriteBufferHighWatermark (h : s.Tracking)
    (horderly : s.currentState.canWrite = true → s.currentState ∈ [.connected, .writing]) :
    s.onAboveWriteBufferHighWatermark.Tracking ∧
      (s.currentState.canWrite = true → s.onAboveWriteBufferHighWatermark.currentState = .writeDisabled) := by
  rw [ConnectionStateMachine.onAboveWriteBufferHighWatermark]
  split_ifs with hcan
  · have hwrites := horderly hcan
    have hnone : s.writeDisableCount = 0 := by
      refine (h.free fun hheld => ?_).2
      revert hwrites hheld
      cases s.currentState <;> decide
    simp only [hnone, Nat.zero_add, if_true]
    exact ⟨(h.disable hwrites).1, fun _ => (h.disable hwrites).2⟩
  · exact ⟨h, fun hwrites => absurd hwrites hcan⟩

theorem Tracking.onBelowWriteBufferLowWatermark (h : s.Tracking) :
    s.onBelowWriteBufferLowWatermark.Tracking ∧
      (s.currentState = .writeDisabled → s.onBelowWriteBufferLowWatermark.currentState = .connected) := by
  rw [ConnectionStateMachine.onBelowWriteBufferLowWatermark]
  split_ifs with hdisabled
  · have hone : s.writeDisableCount - 1 = 0 := by rw [h.disabled hdisabled.1]
    have hvalid : .connected ∈ s.currentState.validTransitions := by
      rw [hdisabled.1]
      decide
    have harrives := arrives_transitionTo (s := { s with writeDisableCount := 0 }) h.calm h.quiet hvalid
    simp only [hone, if_true]
    refine ⟨harrives.tracking h.calm h.connect h.handshake h.idle (fun harmed => .inl (h.drain harmed)) ?_
      (by decide) rfl, fun _ => harrives.current⟩
    refine eq_false_of_ne_true fun harmed => ?_
    exact absurd (hdisabled.1.symm.trans (h.reconnect harmed)) (by decide)
  · refine ⟨h, fun hstate => absurd ⟨hstate, ?_⟩ hdisabled⟩
    rw [h.disabled hstate]
    exact Nat.one_pos

/-! ### Events -/

/-- A transition that is refused in both states that are held. -/
theorem Tracking.transitionTo' (h : s.Tracking) {state : ConnectionMachineState}
    (hstate : state ∉ [.writeDisabled, .paused, .reconnecting, .closed, .error, .connected, .reading, .closing]) :
    (s.transitionTo state).Tracking := by
  refine h.transitionTo ?_ (refused_of_held (fun _ => ?_) fun _ => ?_)
  all_goals
    revert hstate
    cases state <;> decide

theorem Tracking.reset (h : s.Tracking) (hfree : s.currentState ∉ held) : s.reset.Tracking := by
  have harrives : Arrives .aborted s s.reset := arrives_enter (fun haborted => by cases haborted) h.quiet
  exact h.arrives harrives hfree (by decide)

theorem Tracking.initiateReconnection (h : s.Tracking)
    (hleft : s.currentState = .waitingToReconnect → s.canReconnect = true) : s.initiateReconnection.Tracking := by
  rw [ConnectionStateMachine.initiateReconnection]
  split_ifs with hcan
  · rw [transitionCalm_eq (by decide)]
    refine Tracking.transitionTo' ?_ (by decide)
    exact { h with }
  · rw [transitionCalm_eq (by decide)]
    refine h.transitionTo (by decide) (refused_of_held (fun hwaiting => absurd (hleft hwaiting) hcan) fun _ => ?_)
    decide

theorem Tracking.handleRecoverySuccess (h : s.Tracking) : s.handleRecoverySuccess.Tracking := by
  rw [ConnectionStateMachine.handleRecoverySuccess, callBackIf_quiet]
  · exact { h with }
  · exact h.quiet

theorem Tracking.toError (h : s.Tracking) (hfree : s.currentState ∉ held) : (s.transitionTo .error).Tracking :=
  h.transitionTo (by decide) fun hheld => absurd hheld hfree

theorem Tracking.socketConnected (h : s.Tracking) (hstate : s.currentState = .connecting) :
    ((s.transitionTo .tcpConnected).transitionTo .connected).Tracking := by
  have hvalid : .tcpConnected ∈ s.currentState.validTransitions := by
    rw [hstate]
    decide
  have hcurrent := (arrives_transitionTo h.calm h.quiet hvalid).current
  refine (h.transitionTo' (by decide)).transitionTo (by decide) fun hheld => ?_
  rw [hcurrent] at hheld
  exact absurd hheld (by decide)

theorem Tracking.dispatch (h : s.Tracking) {event : ConnectionStateMachineEvent} (horderly : s.OrderlyEvent event) :
    (s.dispatch event).Tracking := by
  have hgiven : Tracking { s with dispatched := s.dispatched ++ [event] } := { h with }
  cases event
  all_goals simp only [ConnectionStateMachine.dispatch, ConnectionStateMachine.close]
  case resetRequested => exact hgiven.reset horderly
  case socketError | handshakeFailed | connectTimeout => exact hgiven.toError horderly
  case recoveryFailed =>
    rw [ConnectionStateMachine.handleRecoveryFailure, callBackIf_quiet]
    · exact hgiven.toError horderly
    · exact hgiven.quiet
  case reconnectRequested => exact hgiven.initiateReconnection horderly
  case recoveryComplete => exact hgiven.handleRecoverySuccess
  case socketConnected =>
    split_ifs with hstate
    · exact hgiven.socketConnected hstate
    · exact hgiven
  case socketClosed =>
    split_ifs with hterminal
    · exact hgiven
    · obtain ⟨hwaiting, hvalid⟩ := horderly (eq_false_of_ne_true hterminal)
      refine hgiven.transitionTo (by decide) (refused_of_held (fun hstate => absurd hstate hwaiting) fun hstate => ?_)
      decide
  case readReady | writeReady =>
    split_ifs with hstate
    · refine hgiven.transitionTo (by decide) (refused_of_held (fun hheld => ?_) fun hheld => ?_)
      all_goals exact absurd hstate (by rw [hheld]; decide)
    · exact hgiven
  case connectionRequested =>
    split_ifs
    · exact hgiven.transitionTo' (by decide)
    · exact hgiven
  case closeRequested =>
    split_ifs
    · exact hgiven
    · exact hgiven.transitionTo' (by decide)
  case handshakeStarted => exact hgiven.transitionTo' (by decide)
  case handshakeComplete | idleTimeout =>
    exact hgiven.transitionTo (by decide) (refused_of_held (fun _ => by decide) fun hheld => absurd hheld horderly)
  case drainTimeout =>
    exact hgiven.transitionTo (by decide) (refused_of_held (fun hheld => absurd hheld horderly) fun _ => by decide)
  case endOfStream =>
    split_ifs with hhalf
    · exact hgiven.transitionTo' (by decide)
    · exact hgiven.transitionTo (by decide)
        (refused_of_held (fun _ => by decide) fun hheld => absurd (horderly hheld) hhalf)
  case readDisableRequested =>
    have hcounted : Tracking { s with
        dispatched := s.dispatched ++ [.readDisableRequested]
        readDisableCount := s.readDisableCount + 1 } := { h with }
    split_ifs
    · exact hcounted.transitionTo' (by decide)
    · exact hcounted
    · exact hgiven
  case writeDisableRequested => exact (hgiven.onAboveWriteBufferHighWatermark horderly).1
  all_goals exact hgiven

theorem Tracking.transitionTo_breaks (h : s.Tracking) {current : ConnectionMachineState} (hcurrent : s.currentState = current)
    (hheld : current ∈ held) (hvalid : state ∈ current.validTransitions)
    (hstate : state ∉ [.waitingToReconnect, .writeDisabled, .paused]) : ¬ (s.transitionTo state).InPlace := by
  subst hcurrent
  exact (arrives_transitionTo h.calm h.quiet hvalid).not_inPlace h hheld hstate

theorem Tracking.toError_breaks (h : s.Tracking) (hheld : s.currentState ∈ held) : ¬ (s.transitionTo .error).InPlace := by
  refine h.transitionTo_breaks rfl hheld ?_ (by decide)
  revert hheld
  cases s.currentState <;> decide

theorem Tracking.reset_breaks (h : s.Tracking) (hheld : s.currentState ∈ held) : ¬ s.reset.InPlace := by
  have harrives : Arrives .aborted s s.reset := arrives_enter (fun haborted => by cases haborted) h.quiet
  exact harrives.not_inPlace h hheld (by decide)

/-- A request not to write that the table refuses is counted all the same. -/
theorem Tracking.above_breaks (h : s.Tracking)
    (hnot : ¬ (s.currentState.canWrite = true → s.currentState ∈ [.connected, .writing])) :
    ¬ s.onAboveWriteBufferHighWatermark.InPlace := by
  push Not at hnot
  obtain ⟨hcan, hother⟩ := hnot
  have hnone : s.writeDisableCount = 0 := by
    refine (h.free fun hheld => ?_).2
    revert hcan hheld
    cases s.currentState <;> decide
  have hrefused : .writeDisabled ∉ s.currentState.validTransitions := by
    revert hcan hother
    cases s.currentState <;> decide
  intro hplace
  rw [ConnectionStateMachine.onAboveWriteBufferHighWatermark, if_pos hcan] at hplace
  simp only [hnone, Nat.zero_add, if_true] at hplace
  rw [transitionTo_refused (s := { s with writeDisableCount := 1 }) h.quiet hrefused] at hplace
  have hin : s.currentState ∈ [.writeDisabled, .paused] := hplace.writes Nat.one_pos
  revert hcan hin
  cases s.currentState <;> decide

/-- An event that is out of order leaves something out of its place, or the machine open. -/
theorem Tracking.dispatch_breaks (h : s.Tracking) {event : ConnectionStateMachineEvent}
    (hnot : ¬ s.OrderlyEvent event) :
    ¬ (s.dispatch event).InPlace ∨
      event = .socketClosed ∧ s.currentState.isTerminal = false ∧ (s.dispatch event).currentState ≠ .closed := by
  have hgiven : Tracking { s with dispatched := s.dispatched ++ [event] } := { h with }
  cases event
  all_goals simp only [OrderlyEvent, not_not, not_true_eq_false] at hnot
  all_goals simp only [ConnectionStateMachine.dispatch]
  case resetRequested => exact .inl (hgiven.reset_breaks hnot)
  case socketError | handshakeFailed | connectTimeout => exact .inl (hgiven.toError_breaks hnot)
  case recoveryFailed =>
    rw [ConnectionStateMachine.handleRecoveryFailure, callBackIf_quiet]
    · exact .inl (hgiven.toError_breaks hnot)
    · exact hgiven.quiet
  case reconnectRequested =>
    push Not at hnot
    rw [ConnectionStateMachine.initiateReconnection]
    split_ifs with hcan
    · exact absurd hcan hnot.2
    · rw [transitionCalm_eq (by decide)]
      exact .inl (hgiven.transitionTo_breaks hnot.1 (by decide) (by decide) (by decide))
  case socketClosed =>
    push Not at hnot
    obtain ⟨hopen, hrefused⟩ := hnot
    rw [if_neg (by simp [hopen])]
    by_cases hvalid : .closed ∈ s.currentState.validTransitions
    · by_cases hwaiting : s.currentState = .waitingToReconnect
      · exact .inl (hgiven.transitionTo_breaks hwaiting (by decide) (by decide) (by decide))
      · exact absurd hvalid (hrefused hwaiting)
    · rw [transitionTo_refused hgiven.quiet hvalid]
      refine .inr ⟨trivial, hopen, fun hclosed => ?_⟩
      rw [show s.currentState = .closed from hclosed] at hopen
      exact absurd hopen (by decide)
  case handshakeComplete | idleTimeout =>
    exact .inl (hgiven.transitionTo_breaks hnot (by decide) (by decide) (by decide))
  case drainTimeout => exact .inl (hgiven.transitionTo_breaks hnot (by decide) (by decide) (by decide))
  case endOfStream =>
    push Not at hnot
    rw [if_neg hnot.2]
    exact .inl (hgiven.transitionTo_breaks hnot.1 (by decide) (by decide) (by decide))
  case writeDisableRequested => exact .inl (hgiven.above_breaks hnot)

/-! ### Every operation -/

theorem Tracking.handled (h : s.Tracking) {event : ConnectionStateMachineEvent} (horderly : s.OrderlyEvent event) :
    (s.handled event).Tracking := by
  have hraised : Tracking { s with processingEvents := true, raised := s.raised ++ [event] } := { h with }
  have horderly' : OrderlyEvent { s with processingEvents := true, raised := s.raised ++ [event] } event := by
    cases event <;> exact horderly
  exact { hraised.dispatch horderly' with }

theorem Tracking.handled_breaks (h : s.Tracking) {event : ConnectionStateMachineEvent} (hnot : ¬ s.OrderlyEvent event) :
    ¬ (s.handled event).InPlace ∨
      event = .socketClosed ∧ s.currentState.isTerminal = false ∧ (s.handled event).currentState ≠ .closed := by
  have hraised : Tracking { s with processingEvents := true, raised := s.raised ++ [event] } := { h with }
  have hnot' : ¬ OrderlyEvent { s with processingEvents := true, raised := s.raised ++ [event] } event := by
    intro horderly
    cases event <;> exact hnot horderly
  obtain hplace | hopen := hraised.dispatch_breaks hnot'
  · exact .inl fun hplace' => hplace { hplace' with }
  · exact .inr hopen

theorem startConnectTimer_inPlace (h : s.Tracking)
    (hconnecting : s.config.connectTimeout = 0 ∨ s.currentState = .connecting) : s.startConnectTimer.Tracking := by
  rw [startConnectTimer]
  split_ifs with hzero
  · exact h
  · exact { h with connect := fun _ => hconnecting.resolve_left hzero }

/-- A timer armed by hand in another state is out of its place. -/
theorem startConnectTimer_breaks (htimeout : s.config.connectTimeout ≠ 0) (hother : s.currentState ≠ .connecting) :
    ¬ s.startConnectTimer.InPlace := by
  rw [startConnectTimer, if_neg htimeout]
  exact fun hplace => hother (hplace.connect rfl)

theorem startDrainTimer_breaks (htimeout : s.config.drainTimeout ≠ 0) (hquiet : s.replies = [])
    (hother : s.currentState ∉ [.connected, .closing, .draining]) :
    ¬ (s.startDrainTimer.transitionTo .draining).InPlace := by
  have hrefused : .draining ∉ s.currentState.validTransitions := by
    revert hother
    cases s.currentState <;> decide
  rw [startDrainTimer, if_neg htimeout, transitionTo_refused]
  · intro hplace
    have hdraining : s.currentState = .draining := hplace.drain rfl
    exact hother (by rw [hdraining]; decide)
  · exact hquiet
  · exact hrefused

theorem Tracking.closeDelayed (h : s.Tracking)
    (hstate : s.config.drainTimeout = 0 ∨ s.currentState ∈ [.connected, .closing, .draining]) :
    (s.startDrainTimer.transitionTo .draining).Tracking := by
  rw [startDrainTimer]
  split_ifs with hzero
  · exact h.transitionTo' (by decide)
  · have hin := hstate.resolve_left hzero
    have hfree : s.currentState ∉ held := by
      intro hheld
      revert hin hheld
      cases s.currentState <;> decide
    by_cases hvalid : .draining ∈ s.currentState.validTransitions
    · have harrives := arrives_transitionTo (s := { s with drainTimer := true }) h.calm h.quiet hvalid
      apply harrives.tracking h.calm h.connect h.handshake h.idle (fun _ => .inr rfl) (h.free hfree).1 (by decide)
      exact (h.free hfree).2
    · have hdraining : s.currentState = .draining := by
        revert hin hvalid
        cases s.currentState <;> decide
      rw [transitionTo_refused (s := { s with drainTimer := true }) h.quiet hvalid]
      exact { h with drain := fun _ => hdraining }

/-- A machine that has not begun starts to connect when it is asked. -/
theorem Tracking.connectionRequested (h : s.Tracking) :
    (s.handled .connectionRequested).config = s.config ∧
      (s.handled .connectionRequested).currentState =
        if s.currentState ∈ [.uninitialized, .initialized] then .connecting else s.currentState := by
  have hstarted : (s.started .connectionRequested).Tracking := { h with }
  have hnew : s.currentState ∈ [.uninitialized, .initialized] ↔
      s.currentState = .uninitialized ∨ s.currentState = .initialized := by simp
  split_ifs with hin
  · have hvalid : .connecting ∈ (s.started .connectionRequested).currentState.validTransitions := by
      show .connecting ∈ s.currentState.validTransitions
      revert hin
      cases s.currentState <;> decide
    have harrives := arrives_transitionTo hstarted.calm hstarted.quiet hvalid
    have hbegun : s.begun .connectionRequested = (s.started .connectionRequested).transitionTo .connecting :=
      if_pos (hnew.mp hin)
    rw [ConnectionStateMachine.handled, hbegun]
    exact ⟨harrives.config, harrives.current⟩
  · rw [ConnectionStateMachine.handled, begun_connectionRequested hin]
    exact ⟨rfl, rfl⟩

theorem connect_of_client (hclient : s.config.mode ≠ .server) (address callback : Bool) :
    s.connect address callback = ((s.asked address callback).handled .connectionRequested).startConnectTimer := by
  rw [ConnectionStateMachine.connect, if_neg hclient]
  rfl

theorem Tracking.asked (h : s.Tracking) (address callback : Bool) : (s.asked address callback).Tracking := { h with }

theorem Tracking.connected (h : s.Tracking) {address callback : Bool}
    (horderly : s.Orderly (.operation (.connect address callback))) : (s.connect address callback).Tracking := by
  by_cases hserver : s.config.mode = .server
  · rw [ConnectionStateMachine.connect, if_pos hserver]
    exact { h with }
  · obtain ⟨hconfig, hcurrent⟩ := (h.asked address callback).connectionRequested
    rw [connect_of_client hserver]
    refine startConnectTimer_inPlace ((h.asked address callback).handled (by trivial)) ?_
    rw [hconfig, hcurrent]
    refine (horderly.resolve_left hserver).imp id fun hstate => ?_
    show (if s.currentState ∈ [.uninitialized, .initialized] then .connecting else s.currentState) = .connecting
    revert hstate
    cases s.currentState <;> decide

theorem Tracking.connected_breaks (h : s.Tracking) {address callback : Bool}
    (hnot : ¬ s.Orderly (.operation (.connect address callback))) : ¬ (s.connect address callback).InPlace := by
  simp only [Orderly, not_or] at hnot
  obtain ⟨hserver, htimeout, hother⟩ := hnot
  obtain ⟨hconfig, hcurrent⟩ := (h.asked address callback).connectionRequested
  rw [connect_of_client hserver]
  refine startConnectTimer_breaks (by rwa [hconfig]) ?_
  rw [hcurrent]
  show (if s.currentState ∈ [.uninitialized, .initialized] then .connecting else s.currentState) ≠ .connecting
  revert hother
  cases s.currentState <;> decide

/-- The reconnect timer goes off. -/
theorem Tracking.reconnecting (h : s.Tracking) (harmed : s.reconnectTimer = true) :
    (ConnectionStateMachine.transitionTo { s with reconnectTimer := false } .reconnecting).Tracking ∧
      (ConnectionStateMachine.transitionTo { s with reconnectTimer := false } .reconnecting).currentState = .reconnecting ∧
      (ConnectionStateMachine.transitionTo { s with reconnectTimer := false } .reconnecting).reconnectAddress =
        s.reconnectAddress ∧
      (ConnectionStateMachine.transitionTo { s with reconnectTimer := false } .reconnecting).config = s.config := by
  have hwaiting := h.reconnect harmed
  have hvalid : .reconnecting ∈ s.currentState.validTransitions := by
    rw [hwaiting]
    decide
  have hnone : s.writeDisableCount = 0 := by
    by_contra hpositive
    have hplace := h.writes (Nat.pos_of_ne_zero hpositive)
    rw [hwaiting] at hplace
    exact absurd hplace (by decide)
  have harrives := arrives_transitionTo (s := { s with reconnectTimer := false }) h.calm h.quiet hvalid
  refine ⟨?_, harrives.current, harrives.address, harrives.config⟩
  exact harrives.tracking h.calm h.connect h.handshake h.idle (fun harmed => .inl (h.drain harmed)) rfl (by decide) hnone

theorem Tracking.reconnectTimer (h : s.Tracking) (horderly : s.Orderly (.operation .reconnectTimer)) :
    (s.step .reconnectTimer).Tracking := by
  rw [step]
  split_ifs with harmed
  · obtain ⟨hagain, hcurrent, haddress, hconfig⟩ := h.reconnecting harmed
    rw [handleReconnectTimeout]
    split_ifs with hknown
    · rw [haddress] at hknown
      apply hagain.connected
      rw [Orderly, hconfig]
      exact (horderly harmed hknown).imp id .inl
    · exact hagain
  · exact h

theorem Tracking.reconnectTimer_breaks (h : s.Tracking) (hnot : ¬ s.Orderly (.operation .reconnectTimer)) :
    ¬ (s.step .reconnectTimer).InPlace := by
  simp only [Orderly] at hnot
  push Not at hnot
  obtain ⟨harmed, hknown, hclient, htimeout⟩ := hnot
  obtain ⟨hagain, hcurrent, haddress, hconfig⟩ := h.reconnecting harmed
  rw [step, if_pos harmed, handleReconnectTimeout]
  rw [if_pos (haddress.trans hknown)]
  apply hagain.connected_breaks
  rw [Orderly, hconfig, hcurrent]
  simp [hclient, htimeout]

/-- A timer that is armed is in its place, and what it raises there leaves nothing behind. -/
theorem Tracking.fired (h : s.Tracking) (ht : t.Tracking) {armed : Bool} {event : ConnectionStateMachineEvent}
    (horderly : armed = true → t.OrderlyEvent event) : (if armed then t.handled event else s).Tracking := by
  split_ifs with harmed
  · exact ht.handled (horderly harmed)
  · exact h

theorem Tracking.step (h : s.Tracking) {op : Operation} (horderly : s.Orderly (.operation op)) : (s.step op).Tracking := by
  cases op with
  | connect address callback => exact h.connected horderly
  | event event => exact h.handled horderly
  | connectTimer =>
      have hfired : Tracking { s with connectTimer := false } := { h with connect := by simp }
      exact h.fired hfired fun harmed => by
        rw [OrderlyEvent, h.connect harmed]
        decide
  | handshakeTimer =>
      have hfired : Tracking { s with handshakeTimer := false } := { h with handshake := by simp }
      exact h.fired hfired fun harmed => by
        rw [OrderlyEvent, h.handshake harmed]
        decide
  | idleTimer =>
      have hfired : Tracking { s with idleTimer := false } := { h with idle := by simp }
      refine h.fired hfired fun harmed hdisabled => ?_
      have hin := h.idle harmed
      rw [hdisabled] at hin
      exact absurd hin (by decide)
  | drainTimer =>
      have hfired : Tracking { s with drainTimer := false } := { h with drain := by simp }
      refine h.fired hfired fun harmed hwaiting => ?_
      exact absurd ((h.drain harmed).symm.trans hwaiting) (by decide)
  | reconnectTimer => exact h.reconnectTimer horderly

theorem Tracking.perform (h : s.Tracking) {op : PublicOperation} (horderly : s.Orderly op) : (s.perform op).Tracking := by
  cases op with
  | operation op => exact h.step horderly
  | listen =>
      rw [ConnectionStateMachine.perform, listen]
      split_ifs
      · exact h
      · exact h.transitionTo' (by decide)
  | close type =>
      cases type with
      | flushWrite => exact h.transitionTo' (by decide)
      | flushWriteAndDelay => exact h.closeDelayed horderly
      | noFlush | abort | abortReset =>
          refine h.transitionTo (by decide) (refused_of_held (fun _ => by decide) fun hdisabled => ?_)
          exact absurd hdisabled horderly
  | reset => exact h.reset horderly
  | onAboveWriteBufferHighWatermark => exact (h.onAboveWriteBufferHighWatermark horderly).1
  | onBelowWriteBufferLowWatermark => exact h.onBelowWriteBufferLowWatermark.1

theorem run_replicate {op : PublicOperation} (hsame : s.perform op = s) (n : Nat) :
    Runs.run perform s (List.replicate n op) = s := by
  induction n with
  | zero => rfl
  | succ n ih => rw [List.replicate_succ, Runs.run_cons, hsame, ih]

/-- A notification that disables writing, more of them, and as many of the other kind. -/
theorem Tracking.disables (h : s.Tracking) (hcan : s.currentState.canWrite = true)
    (horderly : s.currentState.canWrite = true → s.currentState ∈ [.connected, .writing]) (n : Nat) :
    (s.aboveTimes (n + 1)).currentState = .writeDisabled ∧
      ((s.aboveTimes (n + 1)).belowTimes (n + 1)).currentState.canWrite = true := by
  obtain ⟨habove, hdisabled⟩ := h.onAboveWriteBufferHighWatermark horderly
  have hsame : s.onAboveWriteBufferHighWatermark.perform .onAboveWriteBufferHighWatermark =
      s.onAboveWriteBufferHighWatermark := by
    rw [ConnectionStateMachine.perform, ConnectionStateMachine.onAboveWriteBufferHighWatermark, if_neg]
    rw [hdisabled hcan]
    decide
  have hmore : s.aboveTimes (n + 1) = s.onAboveWriteBufferHighWatermark := run_replicate hsame n
  have hconnected := habove.onBelowWriteBufferLowWatermark.2 (hdisabled hcan)
  have hsame' : s.onAboveWriteBufferHighWatermark.onBelowWriteBufferLowWatermark.perform
      .onBelowWriteBufferLowWatermark = s.onAboveWriteBufferHighWatermark.onBelowWriteBufferLowWatermark := by
    rw [ConnectionStateMachine.perform, ConnectionStateMachine.onBelowWriteBufferLowWatermark, if_neg]
    rw [hconnected]
    exact fun hboth => absurd hboth.1 (by decide)
  have hless : s.onAboveWriteBufferHighWatermark.belowTimes (n + 1) =
      s.onAboveWriteBufferHighWatermark.onBelowWriteBufferLowWatermark := run_replicate hsame' n
  rw [hmore, hless, hconnected]
  exact ⟨hdisabled hcan, by decide⟩

/-- A socket that is closed closes a machine that can be closed. -/
theorem Tracking.closes (h : s.Tracking) (hopen : s.currentState.isTerminal = false)
    (hvalid : .closed ∈ s.currentState.validTransitions) : (s.handled .socketClosed).currentState = .closed := by
  have hbegun : s.begun .socketClosed = (s.started .socketClosed).transitionTo .closed := if_neg (by simp [hopen])
  have harrives := arrives_transitionTo (s := s.started .socketClosed) h.calm h.quiet hvalid
  rw [ConnectionStateMachine.handled, hbegun]
  exact harrives.current

theorem followsSocket_iff (h : s.Tracking) (op : PublicOperation) : s.FollowsSocket op ↔ s.Orderly op := by
  constructor
  · intro hfollows
    by_contra hnot
    cases op with
    | operation op =>
        cases op with
        | connect address callback => exact h.connected_breaks hnot hfollows.inPlace
        | event event =>
            obtain hplace | ⟨rfl, hopen, hother⟩ := h.handled_breaks hnot
            · exact hplace hfollows.inPlace
            · exact hother (hfollows.closes rfl hopen)
        | reconnectTimer => exact h.reconnectTimer_breaks hnot hfollows.inPlace
        | connectTimer | handshakeTimer | idleTimer | drainTimer => exact hnot trivial
    | listen | onBelowWriteBufferLowWatermark => exact hnot trivial
    | close type =>
        cases type with
        | flushWrite => exact hnot trivial
        | flushWriteAndDelay =>
            rw [Orderly, not_or] at hnot
            exact startDrainTimer_breaks hnot.1 h.quiet hnot.2 hfollows.inPlace
        | noFlush | abort | abortReset =>
            have hdisabled : s.currentState = .writeDisabled := not_not.mp hnot
            exact h.transitionTo_breaks hdisabled (by decide) (by decide) (by decide) hfollows.inPlace
    | reset =>
        rw [Orderly, not_not] at hnot
        exact h.reset_breaks hnot hfollows.inPlace
    | onAboveWriteBufferHighWatermark => exact h.above_breaks hnot hfollows.inPlace
  · intro horderly
    refine ⟨(h.perform horderly).toInPlace, ?_, ?_⟩
    · rintro rfl hopen
      exact h.closes hopen (horderly hopen).2
    · rintro rfl hcan n
      exact h.disables hcan horderly n

/-- **The machine follows its socket** along a run just if every step of it is in order. -/
theorem followsSocket_run_iff (config : ConnectionStateMachineConfig) (listeners : Nat) (ops : List PublicOperation) :
    Runs.Guarded perform FollowsSocket (new config listeners []) ops ↔
      Runs.Guarded perform Orderly (new config listeners []) ops := by
  have hproper : Runs.Guarded perform (fun _ _ => True) (new config listeners []) ops :=
    Runs.guarded_of_forall perform (fun _ _ => trivial) _
  have hsame (s : ConnectionStateMachine) (op : PublicOperation) (_ : True) (h : s.Tracking) :
      s.FollowsSocket op ↔ s.Orderly op := followsSocket_iff h op
  have hkeeps (s : ConnectionStateMachine) (op : PublicOperation) (_ : True) (horderly : s.Orderly op) (h : s.Tracking) :
      (s.perform op).Tracking := h.perform horderly
  exact Runs.guarded_iff perform hsame hkeeps (tracking_new config listeners) hproper

/-- A connected machine takes no notice of its socket being closed. -/
theorem not_followsSocket_closed :
    ¬ Runs.Guarded perform FollowsSocket (new watchedConfig 0 [])
      [.operation (.connect true false), .operation (.event .socketConnected), .operation (.event .socketClosed)] := by
  rintro ⟨-, -, ⟨-, hcloses, -⟩, -⟩
  exact absurd (hcloses rfl (by decide)) (by decide)

end ConnectionStateMachine

end GopherMcp
