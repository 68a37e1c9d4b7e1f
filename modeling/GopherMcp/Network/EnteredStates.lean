import GopherMcp.Network.EventHandling

/-!
# The states a connection's machine enters

A connection tells its state machine a few events, and listens to the states the machine enters. On these events
the states entered depend on the current one alone, whatever callbacks the machine has.
-/

namespace GopherMcp

inductive ConnectionState
  | open | closing | closed
  deriving DecidableEq

namespace ConnectionMachineState

/-- The states that the machine of a connection enters on an event the connection, or the machine's connect
timer, gives it. -/
def entered (state : ConnectionMachineState) (event : ConnectionStateMachineEvent) : List ConnectionMachineState :=
  let go (next : ConnectionMachineState) := if next ∈ state.validTransitions then [next] else []
  match event with
  | .connectionRequested => if state = uninitialized ∨ state = initialized then go connecting else []
  | .socketConnected => if state = connecting then [tcpConnected, connected] else []
  | .readReady => if state = connected ∨ state = idle then go reading else []
  | .writeReady => if state = connected ∨ state = idle then go writing else []
  | .closeRequested => if state.isTerminal then [] else go flushing
  | .socketClosed => if state.isTerminal then [] else go closed
  | .connectTimeout => go error
  | _ => []

/-- What the connection's listener makes of a state the machine enters. -/
def stateOf : ConnectionMachineState → ConnectionState → ConnectionState
  | connected, _ | reading, _ | writing, _ | processing, _ | idle, _ => .open
  | closing, _ | draining, _ | flushing, _ | halfClosedLocal, _ | halfClosedRemote, _ => .closing
  | closed, _ | error, _ | aborted, _ => .closed
  | _, state => state

end ConnectionMachineState

namespace ConnectionStateMachine

/-- Between two machines these states were entered, and the machine is at rest again. -/
structure Enters (states : List ConnectionMachineState) (s t : ConnectionStateMachine) : Prop where
  current : t.currentState = states.getLastD s.currentState
  entered : t.entered = s.entered ++ states
  free : t.transitionInProgress = s.transitionInProgress

theorem Enters.refl (s : ConnectionStateMachine) : Enters [] s s := ⟨rfl, (List.append_nil _).symm, rfl⟩

theorem Enters.trans {s t u : ConnectionStateMachine} {before after : List ConnectionMachineState}
    (h : Enters before s t) (h' : Enters after t u) : Enters (before ++ after) s u where
  current := by
    rw [h'.current, h.current]
    simp only [List.getLastD_eq_getLast?, List.getLast?_append]
    cases after.getLast? <;> rfl
  entered := by rw [h'.entered, h.entered, List.append_assoc]
  free := h'.free.trans h.free

theorem enters_callBacks (n : Nat) (s : ConnectionStateMachine) : Enters [] s (callBacks n s) := by
  rw [callBacks_eq]
  exact ⟨rfl, (List.append_nil _).symm, rfl⟩

theorem enters_callPending (s : ConnectionStateMachine) : Enters [] s s.callPending :=
  { enters_callBacks s.pendingCallbacks.length s with }

theorem enters_onStateEnterCalm (state : ConnectionMachineState) (s : ConnectionStateMachine) :
    Enters [] s (onStateEnterCalm state s) := by
  cases state <;> simp only [onStateEnterCalm]
  case connected =>
    unfold startIdleTimer
    split_ifs <;> exact { enters_callPending s with }
  case closed => exact enters_callPending s
  case connecting => unfold startConnectTimer; split_ifs <;> exact { Enters.refl s with }
  case handshakeInProgress => unfold startHandshakeTimer; split_ifs <;> exact { Enters.refl s with }
  case draining => unfold startDrainTimer; split_ifs <;> exact { Enters.refl s with }
  all_goals exact { Enters.refl s with }

/-- While a transition is under way nothing else is entered. -/
theorem enters_onStateEnter (state : ConnectionMachineState) {s : ConnectionStateMachine}
    (hbusy : s.transitionInProgress = true) : Enters [] s (onStateEnter state s) := by
  by_cases herror : state = .error
  · subst herror
    simp only [onStateEnter]
    split_ifs with hreconnect
    · simp only [initiateReconnection, hreconnect, if_true]
      unfold transitionCalm
      split
      · exact { Enters.refl s with }
      · next hfree => exact absurd hbusy hfree
    · exact { Enters.refl s with }
  · have hcalm : onStateEnter state s = onStateEnterCalm state s := by
      cases state <;> first | rfl | exact absurd rfl herror
    rw [hcalm]
    exact enters_onStateEnterCalm state s

theorem enters_onStateExit (s : ConnectionStateMachine) (state : ConnectionMachineState) :
    Enters [] s (s.onStateExit state) := by
  cases state <;> exact { Enters.refl s with }

theorem enters_notifyStateChange (s : ConnectionStateMachine) : Enters [] s s.notifyStateChange := by
  unfold notifyStateChange
  rw [callBackIf_eq]
  exact (enters_callBacks _ s).trans (enters_callBacks _ _)

theorem enters_enter (s : ConnectionStateMachine) (state : ConnectionMachineState)
    (onEnter : ConnectionStateMachine → ConnectionStateMachine)
    (henter : ∀ t : ConnectionStateMachine, t.transitionInProgress = s.transitionInProgress →
      Enters [] t (onEnter t)) :
    Enters [state] s (s.enter state onEnter) := by
  have hexit := enters_onStateExit s s.currentState
  have hset : Enters [state] s { s.onStateExit s.currentState with
      currentState := state, entered := (s.onStateExit s.currentState).entered ++ [state] } :=
    ⟨rfl, by rw [hexit.entered, List.append_nil], hexit.free⟩
  exact (hset.trans (henter _ hexit.free)).trans (enters_notifyStateChange _)

theorem enters_transitionTo {s : ConnectionStateMachine} (hfree : s.transitionInProgress = false)
    (state : ConnectionMachineState) :
    Enters (if state ∈ s.currentState.validTransitions then [state] else []) s (s.transitionTo state) := by
  have hnot : ¬ s.transitionInProgress = true := by simp [hfree]
  unfold transitionTo
  rw [if_neg hnot]
  unfold transitionWith
  split
  · have hentered := enters_enter { s with transitionInProgress := true } state (onStateEnter state)
      fun t hbusy => enters_onStateEnter state hbusy
    exact ⟨hentered.current, hentered.entered, hfree.symm⟩
  · rw [callBackIf_eq]
    exact enters_callBacks _ s

/-- **What the connection is told**: the machine enters the states that `entered` has for the event. -/
theorem entered_dispatch {s : ConnectionStateMachine} (hfree : s.transitionInProgress = false)
    {event : ConnectionStateMachineEvent}
    (hevent : event ∈ [.connectionRequested, .socketConnected, .readReady, .writeReady, .closeRequested,
      .socketClosed, .connectTimeout]) :
    Enters (s.currentState.entered event) s (s.dispatch event) := by
  have hnoted : Enters [] s { s with dispatched := s.dispatched ++ [event] } := { Enters.refl s with }
  have hgo (state : ConnectionMachineState) :
      Enters (if state ∈ s.currentState.validTransitions then [state] else []) s
        ({ s with dispatched := s.dispatched ++ [event] }.transitionTo state) :=
    hnoted.trans (@enters_transitionTo { s with dispatched := s.dispatched ++ [event] } hfree state)
  simp only [List.mem_cons, List.not_mem_nil, or_false] at hevent
  obtain rfl | rfl | rfl | rfl | rfl | rfl | rfl := hevent <;> simp only [dispatch, ConnectionMachineState.entered]
  · split
    · exact hgo .connecting
    · exact hnoted
  · split
    · next hconnecting =>
        have hvalid : ConnectionMachineState.tcpConnected ∈ s.currentState.validTransitions := by
          rw [hconnecting]
          decide
        have hfirst := hgo .tcpConnected
        rw [if_pos hvalid] at hfirst
        have hsecond := enters_transitionTo (hfirst.free.trans hfree) .connected
        rw [hfirst.current, List.getLastD_cons, List.getLastD_nil, if_pos (by decide)] at hsecond
        exact hfirst.trans hsecond
    · exact hnoted
  · split
    · exact hgo .reading
    · exact hnoted
  · split
    · exact hgo .writing
    · exact hnoted
  · split
    · exact hnoted
    · exact hgo .flushing
  · split
    · exact hnoted
    · exact hgo .closed
  · exact hgo .error

end ConnectionStateMachine

end GopherMcp
