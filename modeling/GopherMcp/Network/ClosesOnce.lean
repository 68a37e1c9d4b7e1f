import GopherMcp.Network.ConnectionImpl

/-!
# A close that closes once

After a close event a connection is quiet: no other is raised, nothing is handed to the socket and nothing is given
to a read filter. The timer of a flush is armed while the flush is pending. Both are shown of every run in which
the outside does what the code relies on: a filter that is still running when the connection is closed stops, or
leaves nothing; the transport raises no close event of its own; and a connect does not complete, the timer of the
state machine does not fire, and the timeout is not turned on or off, while a flush is pending.
-/

namespace GopherMcp

/-! ### What is promised -/

namespace Happening

/-- Allowed after a close event. -/
def quiet : Happening → Bool
  | .raised _ => false
  | .sent bytes | .given bytes => bytes.isEmpty

/-- After a close event there is no other, and no bytes go either way. -/
def ClosesOnce : List Happening → Prop
  | [] => True
  | first :: rest => (first.isRaised = true → rest.all quiet = true) ∧ ClosesOnce rest

theorem closesOnce_append {happened : List Happening} {next : Happening} :
    ClosesOnce (happened ++ [next]) ↔
      ClosesOnce happened ∧ (happened.any isRaised = true → next.quiet = true) := by
  induction happened with
  | nil => simp [ClosesOnce]
  | cons first rest ih =>
      simp only [List.cons_append, ClosesOnce, ih, List.all_append, List.any_cons, Bool.and_eq_true, Bool.or_eq_true,
        List.all_cons, List.all_nil, and_true]
      tauto

theorem sentBytes_append (before after : List Happening) :
    sentBytes (before ++ after) = sentBytes before ++ sentBytes after := by
  induction before with
  | nil => rfl
  | cons first rest ih => cases first <;> simp [sentBytes, ih]

end Happening

def CallOut.tears : CallOut → Bool
  | .transportClose _ => true
  | _ => false

/-- The frame of a teardown. -/
def Frame.tears : Frame → Bool
  | .callOut call => call.tears
  | .returnTo _ => false

@[simp] theorem Frame.tears_callOut (call : CallOut) : (Frame.callOut call).tears = call.tears := rfl

@[simp] theorem Frame.tears_returnTo (point : ReturnPoint) : (Frame.returnTo point).tears = false := rfl

namespace ConnectionImpl

/-- A close event was raised. -/
def raised (s : ConnectionImpl) : Bool := s.happened.any Happening.isRaised

/-- A flush was asked for, and the teardown has not begun. -/
def FlushPending (s : ConnectionImpl) : Prop := s.flushAsked = true ∧ s.tornDown = false

/-- A file event on which the connect completes. -/
def completesConnect (s : ConnectionImpl) (write closed socketError : Bool) : Bool :=
  s.immediateErrorEvent = none && !closed && write && s.connecting && !socketError

/-- A call to the outside returns as the code relies on: one that still runs after a close event leaves nothing for
the read filters, a write filter leaves nothing once the connection is no longer open, and the socket connects only
while it is. -/
def inTime (s : ConnectionImpl) : CallOut → CallReply → Bool
  | .onData entry _, .filter status rest | .injected entry _, .filter status rest =>
      !s.raised || status = .stopIteration || rest.isEmpty || !(entry + 1 < s.readFilters)
  | .onWrite left, .filter status rest =>
      0 < left || status = .stopIteration || rest.isEmpty || s.state = .open
  | .socketRead, .io result => !s.raised || result.bytesProcessed = 0 || s.readBuffer.isEmpty
  | .transportConnect, .connect accepted outcome =>
      !(accepted && outcome = .immediate && s.socketOpen) || s.state = .open
  | _, _ => true

/-- What the code relies on: beside that, a mode of a flush is not made one that waits, and the timeout is not turned
on or off while one is pending; the transport raises no close event; a filter continues or injects nothing after one;
and the connect does not complete, nor time out, once the connection is closing. -/
def relies (s : ConnectionImpl) : ConnectionOp → Bool
  | .call (.close type) =>
      type ≠ .flushWriteAndDelay || s.delayedCloseState ≠ .closeAfterFlush || s.delayedCloseTimeout = 0
  | .call (.setDelayedCloseTimeout timeout) =>
      s.delayedCloseState = .none || decide (0 < timeout) = decide (0 < s.delayedCloseTimeout)
  | .call (.raiseEvent event) => !event.isClose
  | .call .continueReading => !s.raised || s.readBuffer.isEmpty || !(s.currentReadFilter < s.readFilters)
  | .call (.injectReadDataToFilterChain data) => !s.raised || data.isEmpty || !(s.injectStart < s.readFilters)
  | .returns reply =>
      match s.frames with
      | .callOut call :: _ => s.inTime call reply
      | _ => true
  | .fileEvent _ write closed socketError => s.state ≠ .closing || !s.completesConnect write closed socketError
  | .connectTimeout => s.machine ≠ .connecting || s.state = .open
  | _ => true

/-! ### What every step keeps -/

/-- A close event is the last of the teardown, and a teardown is on the stack once. The flags of a pending flush,
and its timer, go together; and the state machine does not open what is closing. -/
structure Sound (s : ConnectionImpl) : Prop where
  once : Happening.ClosesOnce s.happened
  raised : s.raised = true → s.state = .closed ∧ s.socketCloseInProgress = false ∧ s.writeBuffer = []
  tearing : s.frames.countP Frame.tears = s.socketCloseInProgress.toNat
  closing : s.socketCloseInProgress = true → s.state ≠ .open
  torn : s.tornDown = true → s.socketCloseInProgress = true ∨ s.state = .closed
  pending : s.delayedCloseState ≠ .none ↔ s.FlushPending
  flushing : s.delayedCloseState ≠ .none → s.state = .closing ∧ s.socketCloseInProgress = false
  armed : s.timerArmed = true ↔ s.delayedCloseState ≠ .none ∧ 0 < s.delayedCloseTimeout
  notIdle : s.machine ≠ .idle
  busy : s.state = .closing → s.socketCloseInProgress = false → s.machine ≠ .connected

/-- What the timer becomes when the mode of the flush changes. -/
def timerIn (s : ConnectionImpl) (state : DelayedCloseState) : Option Bool :=
  if s.delayedCloseState = state then s.delayedCloseTimer
  else if state ≠ .none ∧ 0 < s.delayedCloseTimeout then some true
  else s.delayedCloseTimer.map fun _ => false

theorem transitionDelayedCloseState_eq (s : ConnectionImpl) (state : DelayedCloseState) :
    s.transitionDelayedCloseState state =
      { s with delayedCloseState := state, delayedCloseTimer := s.timerIn state } := by
  by_cases hsame : s.delayedCloseState = state
  · subst hsame
    simp [transitionDelayedCloseState, timerIn]
  · simp only [transitionDelayedCloseState, timerIn, if_neg hsame]

theorem entered_socketClosed (state : ConnectionMachineState) :
    state.entered .socketClosed = [] ∨ state.entered .socketClosed = [.closed] := by
  cases state <;> decide

theorem entered_closeRequested (state : ConnectionMachineState) :
    state.entered .closeRequested = [] ∧ state ≠ .connected ∨ state.entered .closeRequested = [.flushing] := by
  cases state <;> decide

namespace Sound

variable {s : ConnectionImpl}

theorem new (transport : TransportKind) (defers initialized : Bool) (readFilters writeFilters : Nat)
    (connected : Bool) (timeout : Nat) :
    Sound (.new transport defers initialized readFilters writeFilters connected timeout) := by
  constructor <;>
    simp [ConnectionImpl.new, ConnectionImpl.raised, timerArmed, FlushPending, Happening.ClosesOnce]

/-! ### Frames -/

theorem callOut (h : Sound s) {call : CallOut} (htears : call.tears = false) : Sound (s.callOut call) :=
  { h with tearing := by simpa [ConnectionImpl.callOut, htears] using h.tearing }

theorem returnTo (h : Sound s) (point : ReturnPoint) : Sound (s.returnTo point) :=
  { h with tearing := by simpa [ConnectionImpl.returnTo] using h.tearing }

theorem pop (h : Sound s) {frame : Frame} {rest : List Frame} (hframes : s.frames = frame :: rest)
    (htears : frame.tears = false) : Sound { s with frames := rest } :=
  { h with tearing := by simpa [hframes, htears] using h.tearing }

/-- Something that is allowed at any time, or before the close event. -/
theorem happens (h : Sound s) {next : Happening} (hkind : next.isRaised = false)
    (hquiet : s.raised = true → next.quiet = true) : Sound { s with happened := s.happened ++ [next] } :=
  { h with
    once := Happening.closesOnce_append.mpr ⟨h.once, hquiet⟩
    raised := fun hraised => h.raised (by simpa [ConnectionImpl.raised, hkind] using hraised) }

/-! ### The state machine -/

theorem handle (h : Sound s) {event : ConnectionStateMachineEvent} (hidle : (s.handleEvent event).machine ≠ .idle)
    (hstate : (s.handleEvent event).state = s.state)
    (hbusy : s.state = .closing → s.socketCloseInProgress = false → (s.handleEvent event).machine ≠ .connected) :
    Sound (s.handleEvent event) :=
  { h with
    raised := by rw [hstate]; exact h.raised
    closing := by rw [hstate]; exact h.closing
    torn := by rw [hstate]; exact h.torn
    flushing := by rw [hstate]; exact h.flushing
    notIdle := hidle
    busy := by rw [hstate]; exact hbusy }

/-- A file event: the machine of a connection that is closing stays as it is. -/
theorem readyEvent (h : Sound s) {event : ConnectionStateMachineEvent}
    (hevent : event = .readReady ∨ event = .writeReady)
    (hstate : s.state = .open ∨ s.state = .closing ∧ s.socketCloseInProgress = false) :
    Sound (s.handleEvent event) ∧ (s.handleEvent event).state = s.state := by
  by_cases hconnected : s.machine = .connected
  · have hopen : s.state = .open := by
      obtain hopen | hclosing := hstate
      · exact hopen
      · exact absurd hconnected (h.busy hclosing.1 hclosing.2)
    have hsame : (s.handleEvent event).state = s.state := by
      obtain rfl | rfl := hevent <;> simp [handleEvent, hconnected, hopen, ConnectionMachineState.entered,
        ConnectionMachineState.validTransitions, ConnectionMachineState.stateOf]
    refine ⟨h.handle ?_ hsame fun hclosing => ?_, hsame⟩
    · obtain rfl | rfl := hevent <;> simp [handleEvent, hconnected, ConnectionMachineState.entered,
        ConnectionMachineState.validTransitions]
    · rw [hopen] at hclosing
      cases hclosing
  · have hnothing : s.handleEvent event = s := by
      obtain rfl | rfl := hevent <;>
        simp [handleEvent, ConnectionMachineState.entered, hconnected, h.notIdle]
    rw [hnothing]
    exact ⟨h, rfl⟩

theorem state_connectionRequested (s : ConnectionImpl) : (s.handleEvent .connectionRequested).state = s.state := by
  cases hmachine : s.machine <;>
    simp [handleEvent, hmachine, ConnectionMachineState.entered, ConnectionMachineState.validTransitions,
      ConnectionMachineState.stateOf]

theorem connectionRequested (h : Sound s) : Sound (s.handleEvent .connectionRequested) := by
  by_cases hnew : s.machine = .uninitialized ∨ s.machine = .initialized
  · have hentered : s.machine.entered .connectionRequested = [.connecting] := by
      obtain hnew | hnew := hnew <;> rw [hnew] <;> rfl
    apply h.handle ?_ (state_connectionRequested s) <;> simp [handleEvent, hentered]
  · have hnothing : s.handleEvent .connectionRequested = s := by
      simp [handleEvent, ConnectionMachineState.entered, hnew]
    rwa [hnothing]

/-- A connect completes while the connection is open. -/
theorem state_socketConnected (hopen : s.state = .open) : (s.handleEvent .socketConnected).state = s.state := by
  by_cases hconnecting : s.machine = .connecting
  · simp [handleEvent, ConnectionMachineState.entered, hconnecting, ConnectionMachineState.stateOf, hopen]
  · simp [handleEvent, ConnectionMachineState.entered, hconnecting]

theorem socketConnected (h : Sound s) (hopen : s.state = .open) : Sound (s.handleEvent .socketConnected) := by
  refine h.handle ?_ (state_socketConnected hopen) fun hclosing => ?_
  · by_cases hconnecting : s.machine = .connecting
    · simp [handleEvent, ConnectionMachineState.entered, hconnecting]
    · simp [handleEvent, ConnectionMachineState.entered, hconnecting, h.notIdle]
  · rw [hopen] at hclosing
    cases hclosing

theorem no_flush_of_open (h : Sound s) (hopen : s.state = .open) : s.delayedCloseState = .none := by
  by_contra hflush
  rw [(h.flushing hflush).1] at hopen
  cases hopen

/-- The connect times out while the connection is open, which nobody is told of. -/
theorem connectTimeout (h : Sound s) (hopen : s.state = .open) (hconnecting : s.machine = .connecting) :
    Sound (s.handleEvent .connectTimeout) := by
  have hentered : s.machine.entered .connectTimeout = [.error] := by
    rw [hconnecting]
    rfl
  have hnone := h.no_flush_of_open hopen
  have hstate : (s.handleEvent .connectTimeout).state = .closed := by
    simp [handleEvent, hentered, ConnectionMachineState.stateOf]
  exact
    { h with
      raised := fun hraised => absurd hopen (by rw [(h.raised hraised).1]; decide)
      closing := fun _ => by rw [hstate]; decide
      torn := fun _ => .inr hstate
      flushing := fun hflush => absurd hnone hflush
      notIdle := by simp [handleEvent, hentered]
      busy := fun hclosing => by rw [hstate] at hclosing; cases hclosing }

/-! ### The teardown -/

theorem not_raised (h : Sound s) (hclosed : s.state ≠ .closed ∨ s.socketCloseInProgress = true) :
    s.raised = false := by
  by_contra hraised
  have hquiet := h.raised (by simpa using hraised)
  obtain hclosed | hprogress := hclosed
  · exact hclosed hquiet.1
  · rw [hquiet.2.1] at hprogress
    cases hprogress

/-- The timer is armed as it was, or as the new mode has it. -/
theorem armed_timerIn (h : Sound s) (state : DelayedCloseState) :
    s.timerIn state = some true ↔ state ≠ .none ∧ 0 < s.delayedCloseTimeout := by
  by_cases hsame : s.delayedCloseState = state
  · subst hsame
    have harmed := h.armed
    simp only [timerArmed, decide_eq_true_eq] at harmed
    rw [timerIn, if_pos rfl, harmed]
  · rw [timerIn, if_neg hsame]
    by_cases harms : state ≠ .none ∧ 0 < s.delayedCloseTimeout
    · rw [if_pos harms]
      exact ⟨fun _ => harms, fun _ => rfl⟩
    · rw [if_neg harms]
      cases s.delayedCloseTimer <;> simpa using harms

/-- Where the guard of a close, and of file events, lets through. -/
theorem going_on (hguard : ¬ (s.state = .closed ∨ s.socketCloseInProgress = true)) :
    s.state ≠ .closed ∧ s.socketCloseInProgress = false := by
  push Not at hguard
  exact ⟨hguard.1, by simpa using hguard.2⟩

theorem closeSocket (h : Sound s) (event : ConnectionEvent) : Sound (s.closeSocket event) := by
  unfold ConnectionImpl.closeSocket
  split
  · exact h
  · next hguard =>
      obtain ⟨hclosed, hprogress⟩ := going_on hguard
      rw [transitionDelayedCloseState_eq]
      have hnever := h.not_raised (.inl hclosed)
      have hcount := h.tearing
      rw [hprogress] at hcount
      refine
        { h with
          raised := fun hraised => absurd hraised (Bool.eq_false_iff.mp hnever)
          tearing := ?_
          closing := fun _ => ?_
          torn := fun _ => .inl rfl
          pending := ⟨fun hflush => absurd rfl hflush, fun hpending => absurd hpending.2.symm Bool.false_ne_true⟩
          flushing := fun hflush => absurd rfl hflush
          armed := ?_
          notIdle := ?_
          busy := fun _ hidle => absurd hidle.symm Bool.false_ne_true }
      · simp [ConnectionImpl.callOut, handleEvent, List.countP_cons, CallOut.tears, hcount]
      · obtain hentered | hentered := entered_socketClosed s.machine <;>
          simp [ConnectionImpl.callOut, handleEvent, hentered, ConnectionMachineState.stateOf]
      · exact (decide_eq_true_iff).trans (h.armed_timerIn .none)
      · obtain hentered | hentered := entered_socketClosed s.machine <;>
          simp [ConnectionImpl.callOut, handleEvent, hentered, h.notIdle]

/-- A timer that fires is torn down like one that has not. -/
theorem closeSocket_disarmed (h : Sound s) (harmed : s.timerArmed = true) (event : ConnectionEvent) :
    { s with delayedCloseTimer := some false }.closeSocket event = s.closeSocket event := by
  have htimer : s.delayedCloseTimer = some true := by simpa [timerArmed] using harmed
  have hflush := (h.armed.mp harmed).1
  obtain ⟨hclosing, hprogress⟩ := h.flushing hflush
  have hguard : ¬ (s.state = .closed ∨ s.socketCloseInProgress = true) := by simp [hclosing, hprogress]
  unfold ConnectionImpl.closeSocket
  rw [if_neg hguard, if_neg hguard, transitionDelayedCloseState_eq, transitionDelayedCloseState_eq]
  simp [ConnectionImpl.callOut, handleEvent, timerIn, htimer, hflush]

/-- A teardown is on the stack only while it is in progress. -/
theorem progress_of_tears (h : Sound s) {frame : Frame} {rest : List Frame} (hframes : s.frames = frame :: rest)
    (htears : frame.tears = true) : s.socketCloseInProgress = true := by
  have hcount := h.tearing
  rw [hframes, List.countP_cons_of_pos htears] at hcount
  by_contra hnot
  rw [Bool.eq_false_of_not_eq_true hnot] at hcount
  cases hcount

/-- The close event is raised when the teardown is over. -/
theorem finishClose (h : Sound s) {event : ConnectionEvent} {rest : List Frame}
    (hframes : s.frames = .callOut (.transportClose event) :: rest) :
    Sound ({ s with frames := rest }.finishClose event) := by
  have hprogress := h.progress_of_tears hframes rfl
  have hcount := h.tearing
  rw [hframes, List.countP_cons, hprogress] at hcount
  have hnone : s.delayedCloseState = .none := by
    by_contra hflush
    rw [(h.flushing hflush).2] at hprogress
    cases hprogress
  have hnever := h.not_raised (.inr hprogress)
  refine
    { h with
      once := ?_
      raised := fun _ => ⟨rfl, rfl, rfl⟩
      tearing := ?_
      closing := fun hagain => absurd hagain Bool.false_ne_true
      torn := fun _ => .inr rfl
      flushing := fun hflush => absurd hnone hflush
      busy := by simp [ConnectionImpl.finishClose, ConnectionImpl.raiseConnectionEvent, ConnectionImpl.callOut] }
  · simp only [ConnectionImpl.finishClose, raiseConnectionEvent, ConnectionImpl.callOut]
    split
    · exact Happening.closesOnce_append.mpr ⟨h.once, fun hraised => absurd hraised (Bool.eq_false_iff.mp hnever)⟩
    · exact h.once
  · simpa [ConnectionImpl.finishClose, raiseConnectionEvent, ConnectionImpl.callOut, CallOut.tears] using hcount

theorem raiseConnectionEvent (h : Sound s) {event : ConnectionEvent} (hclose : event.isClose = false) :
    Sound (s.raiseConnectionEvent event) := by
  unfold ConnectionImpl.raiseConnectionEvent
  rw [hclose]
  exact h.callOut rfl

/-! ### The read filters -/

theorem onData (h : Sound s) (hquiet : s.raised = true → s.readBuffer = []) (entry : Nat) (endStream : Bool) :
    Sound (s.onData entry endStream) :=
  (h.happens rfl fun hraised => by rw [hquiet hraised]; rfl).callOut rfl

theorem onContinueReading (h : Sound s)
    (hquiet : s.raised = true → s.readBuffer = [] ∨ ¬ s.currentReadFilter < s.readFilters) :
    Sound s.onContinueReading := by
  unfold ConnectionImpl.onContinueReading
  split
  · next hmore =>
      have hmoved : Sound { s with currentReadFilter := s.readFilters } := { h with }
      exact hmoved.onData (fun hraised => (hquiet hraised).resolve_right (not_not.mpr hmore)) ..
  · exact h

theorem onRead (h : Sound s) (hquiet : s.raised = true → s.readBuffer = []) : Sound s.onRead := by
  unfold ConnectionImpl.onRead
  split
  · have hmoved : Sound { s with currentReadFilter := 0 } := { h with }
    exact hmoved.onContinueReading fun hraised => .inl (hquiet hraised)
  · exact h

theorem processReadBuffer (h : Sound s) (hquiet : s.raised = true → s.readBuffer = []) :
    Sound s.processReadBuffer := by
  unfold ConnectionImpl.processReadBuffer
  split
  · exact h
  · split
    · exact h.onRead hquiet
    · have hreading : Sound { s with processingReadBuffer := true } := { h with }
      exact (hreading.returnTo _).onRead hquiet

theorem onInjected (h : Sound s) {data : Bytes} (hquiet : s.raised = true → data = []) (entry saved : Nat) :
    Sound (s.onInjected entry saved data) :=
  (h.happens rfl fun hraised => by rw [hquiet hraised]; rfl).callOut rfl

theorem injectReadDataToFilterChain (h : Sound s) {data : Bytes}
    (hquiet : s.raised = true → data = [] ∨ ¬ s.injectStart < s.readFilters) :
    Sound (s.injectReadDataToFilterChain data) := by
  unfold ConnectionImpl.injectReadDataToFilterChain
  split
  · next hinject =>
      have hmoved : Sound { s with currentReadFilter := s.readFilters } := { h with }
      exact hmoved.onInjected (fun hraised => (hquiet hraised).resolve_right (not_not.mpr hinject.2.2)) ..
  · exact h

theorem closeThroughFilterManager (h : Sound s) (event : ConnectionEvent) :
    Sound (s.closeThroughFilterManager event) := by
  unfold ConnectionImpl.closeThroughFilterManager
  split
  · exact h
  · next hopen =>
      have hreturns := h.returnTo (.deferClose event)
      simp only
      split
      · exact hreturns
      · have hnever := h.not_raised (.inl hopen)
        exact hreturns.processReadBuffer fun hraised => absurd hraised (Bool.eq_false_iff.mp hnever)

/-! ### Writing -/

theorem rearm (h : Sound s) (hflush : s.delayedCloseState ≠ .none) (bytesWritten : Nat) :
    Sound (s.rearm bytesWritten) := by
  unfold ConnectionImpl.rearm
  split
  · next harms => exact { h with armed := ⟨fun _ => ⟨hflush, harms.2.1⟩, fun _ => rfl⟩ }
  · exact h

theorem finishFlushIfDrained (h : Sound s) (bytesWritten : Nat) : Sound (s.finishFlushIfDrained bytesWritten) := by
  unfold ConnectionImpl.finishFlushIfDrained
  split
  · exact h
  · next hflush =>
      push Not at hflush
      have hrearmed := h.rearm hflush.2 bytesWritten
      simp only
      split
      · exact hrearmed
      · exact hrearmed.closeThroughFilterManager _

theorem writeMore (h : Sound s) (bytesWritten : Nat) : Sound (s.writeMore bytesWritten) := by
  unfold ConnectionImpl.writeMore
  split
  · exact h.finishFlushIfDrained _
  · exact h.callOut rfl

theorem doWrite (h : Sound s) : Sound s.doWrite := by
  unfold ConnectionImpl.doWrite
  split
  · exact h
  · split
    · exact h.writeMore _
    · exact h.callOut rfl

theorem transportWrote (h : Sound s) (result : TransportIoResult) : Sound (s.transportWrote result) := by
  unfold ConnectionImpl.transportWrote
  split
  · exact h.closeSocket _
  · exact h.writeMore _

theorem socketWrote (h : Sound s) (bytesWritten : Nat) (result : TransportIoResult) :
    Sound (s.socketWrote bytesWritten result) := by
  unfold ConnectionImpl.socketWrote
  split
  · exact h.closeThroughFilterManager _
  · split
    · exact h.finishFlushIfDrained _
    · exact h.writeMore _

/-- What is put in the buffer while the connection is not open is nothing. -/
theorem putBuffer (h : Sound s) {data : Bytes} (hdata : data = [] ∨ s.state = .open) :
    Sound { s with writeBuffer := s.writeBuffer ++ data } :=
  { h with
    raised := fun hraised => by
      obtain ⟨hclosed, hprogress, hempty⟩ := h.raised hraised
      obtain rfl | hopen := hdata
      · exact ⟨hclosed, hprogress, by simpa using hempty⟩
      · rw [hclosed] at hopen
        cases hopen }

theorem put (h : Sound s) {data : Bytes} (hdata : data = [] ∨ s.state = .open) : Sound (s.put data) := by
  unfold ConnectionImpl.put
  simp only
  split
  · exact (h.putBuffer hdata).doWrite
  · exact h.putBuffer hdata

theorem write (h : Sound s) (data : Bytes) (endStream : Bool) : Sound (s.write data endStream) := by
  unfold ConnectionImpl.write
  split
  · exact h
  · next hguard =>
      push Not at hguard
      have hwrites : Sound { s with writeHalfClosed := endStream } := { h with }
      simp only
      split
      · exact (hwrites.returnTo _).callOut rfl
      · exact (hwrites.returnTo _).put (.inr hguard.1)

theorem wroteThrough (h : Sound s) {left : Nat} {status : FilterStatus} {rest : Bytes}
    (htime : 0 < left ∨ status = .stopIteration ∨ rest = [] ∨ s.state = .open) :
    Sound (s.wroteThrough left status rest) := by
  unfold ConnectionImpl.wroteThrough
  split
  · exact h
  · next hgoes =>
      cases left with
      | zero => exact h.put ((htime.resolve_left (Nat.lt_irrefl 0)).resolve_left hgoes)
      | succ left => exact h.callOut rfl

/-! ### Closing -/

/-- A close that is asked for of a connection that is not closed: the machine is told. -/
theorem closeRequested (h : Sound s) (hclosed : s.state ≠ .closed) (hprogress : s.socketCloseInProgress = false) :
    Sound (s.handleEvent .closeRequested) ∧ (s.handleEvent .closeRequested).state ≠ .closed ∧
      (s.handleEvent .closeRequested).machine ≠ .connected := by
  obtain ⟨hentered, hconnected⟩ | hentered := entered_closeRequested s.machine
  · have hnothing : s.handleEvent .closeRequested = s := by simp [handleEvent, hentered]
    rw [hnothing]
    exact ⟨h, hclosed, hconnected⟩
  · have hstate : (s.handleEvent .closeRequested).state = .closing := by
      simp [handleEvent, hentered, ConnectionMachineState.stateOf]
    have hmachine : (s.handleEvent .closeRequested).machine = .flushing := by simp [handleEvent, hentered]
    refine
      ⟨{ h with
          raised := fun hraised => absurd (h.raised hraised).1 hclosed
          closing := fun hagain => absurd hagain (Bool.eq_false_iff.mp hprogress)
          torn := fun htorn => ?_
          flushing := fun hflush => ⟨hstate, hprogress⟩
          notIdle := by rw [hmachine]; decide
          busy := fun _ _ => by rw [hmachine]; decide },
        by rw [hstate]; decide, by rw [hmachine]; decide⟩
    obtain hagain | hagain := h.torn htorn
    · exact absurd hagain (Bool.eq_false_iff.mp hprogress)
    · exact absurd hagain hclosed

/-- A flush becomes pending, and its timer armed. -/
theorem startFlush (h : Sound s) (hclosed : s.state ≠ .closed) (hprogress : s.socketCloseInProgress = false)
    (hmachine : s.machine ≠ .connected) {state : DelayedCloseState} (hflush : state ≠ .none) :
    Sound ({ s with flushAsked := true }.startFlush state) := by
  have hnever := h.not_raised (.inl hclosed)
  have htorn : s.tornDown = false := by
    by_contra htorn
    obtain hagain | hagain := h.torn (by simpa using htorn)
    · exact absurd hagain (Bool.eq_false_iff.mp hprogress)
    · exact hclosed hagain
  unfold ConnectionImpl.startFlush
  rw [transitionDelayedCloseState_eq]
  exact
    { h with
      raised := fun hraised => absurd hraised (Bool.eq_false_iff.mp hnever)
      closing := by simp
      torn := fun hagain => absurd hagain (Bool.eq_false_iff.mp htorn)
      pending := ⟨fun _ => ⟨rfl, htorn⟩, fun _ => hflush⟩
      flushing := fun _ => ⟨rfl, hprogress⟩
      armed := decide_eq_true_iff.trans (h.armed_timerIn state)
      busy := fun _ _ => hmachine }

/-- The part of a close that flushes before anything is written. -/
theorem beginFlush (h : Sound s) (hclosed : s.state ≠ .closed) (hprogress : s.socketCloseInProgress = false)
    {type : ConnectionCloseType} (hflushes : type.flushes = true) {state : DelayedCloseState}
    (hflush : state ≠ .none) : Sound (((s.noteClose type).handleEvent .closeRequested).startFlush state) := by
  obtain ⟨hrequested, hclosed, hmachine⟩ := h.closeRequested hclosed hprogress
  have hnoted : Sound { s.handleEvent .closeRequested with firstClose := (s.noteClose type).firstClose } :=
    { hrequested with }
  have hstarted := hnoted.startFlush hclosed hprogress hmachine hflush
  have hsame : s.noteClose type = { s with firstClose := (s.noteClose type).firstClose, flushAsked := true } := by
    simp [noteClose, hflushes]
  rw [hsame]
  exact hstarted

theorem close (h : Sound s) (type : ConnectionCloseType) : Sound (s.close type) := by
  unfold ConnectionImpl.close
  split
  · exact h
  · next hguard =>
      obtain ⟨hclosed, hprogress⟩ := going_on hguard
      have hrequested := (h.closeRequested hclosed hprogress).1
      have hnoted : Sound { s.handleEvent .closeRequested with firstClose := (s.noteClose type).firstClose } :=
        { hrequested with }
      cases type with
      | noFlush => exact hnoted.closeSocket _
      | abort => exact hnoted.closeSocket _
      | abortReset => exact hnoted.closeSocket _
      | flushWrite =>
          have hflush : Sound (((s.noteClose .flushWrite).handleEvent .closeRequested).startFlush .closeAfterFlush) :=
            h.beginFlush hclosed hprogress rfl (by decide)
          simp only
          split
          · exact hflush.closeSocket _
          · exact hflush.doWrite
      | flushWriteAndDelay =>
          refine Sound.doWrite (h.beginFlush hclosed hprogress rfl ?_)
          split <;> decide

theorem dataReturned (h : Sound s) {entry : Nat} {endStream : Bool} {status : FilterStatus} {rest : Bytes}
    (htime : s.raised = true → status = .stopIteration ∨ rest = [] ∨ ¬ entry + 1 < s.readFilters) :
    Sound (s.dataReturned entry endStream status rest) := by
  have hleft : Sound { s with readBuffer := rest } := { h with }
  unfold ConnectionImpl.dataReturned
  simp only
  split
  · exact { h with }
  · next hgoes =>
      split
      · next hmore =>
          refine hleft.onData (fun hraised => absurd (htime hraised) ?_) ..
          tauto
      · have hmoved : Sound { s with readBuffer := rest, currentReadFilter := s.readFilters } := { h with }
        split
        · exact hmoved.close _
        · exact hmoved

theorem injectedReturned (h : Sound s) {entry saved : Nat} {status : FilterStatus} {rest : Bytes}
    (htime : s.raised = true → status = .stopIteration ∨ rest = [] ∨ ¬ entry + 1 < s.readFilters) :
    Sound (s.injectedReturned entry saved status rest) := by
  unfold ConnectionImpl.injectedReturned
  split
  · exact { h with }
  · next hgoes => exact h.onInjected (fun hraised => absurd (htime hraised) hgoes) ..

/-! ### Reading -/

theorem readMore (h : Sound s) : Sound s.readMore := by
  unfold ConnectionImpl.readMore
  split
  · exact h.callOut rfl
  · exact h

theorem doRead (h : Sound s) : Sound s.doRead := by
  unfold ConnectionImpl.doRead
  split
  · exact h
  · exact h.readMore

theorem socketWasRead (h : Sound s) {result : TransportIoResult}
    (htime : s.raised = true → result.bytesProcessed = 0 ∨ s.readBuffer = []) : Sound (s.socketWasRead result) := by
  unfold ConnectionImpl.socketWasRead
  split
  · exact h.closeThroughFilterManager _
  split
  · have hended : Sound { s with peerEnded := true } := { h with }
    exact hended.closeThroughFilterManager _
  split
  · split
    · have hended : Sound { s with peerEnded := true, readHalfClosed := true } := { h with }
      exact hended.closeThroughFilterManager _
    · exact h
  · next hbytes =>
      split
      · have hdropped : Sound { s with readBuffer := [] } := { h with }
        exact hdropped.readMore
      · exact (h.returnTo _).processReadBuffer fun hraised => (htime hraised).resolve_left hbytes

/-! ### Connecting and events -/

theorem completeConnect (h : Sound s) (hopen : s.state = .open) (flush : Bool) : Sound (s.completeConnect flush) := by
  have hdone : Sound { s with connecting := false, state := .open } := by
    rw [← hopen]
    exact { h with }
  exact (hdone.socketConnected rfl).callOut rfl

theorem transportWasTold (h : Sound s) (flush : Bool) : Sound (s.transportWasTold flush) := by
  have hevent {s : ConnectionImpl} (h : Sound s) :
      Sound (if s.defersConnectedEvent = true then s else s.raiseConnectionEvent .connected) := by
    split
    · exact h
    · exact h.raiseConnectionEvent rfl
  cases flush with
  | true => exact hevent (h.returnTo _)
  | false => exact hevent h

theorem connect (h : Sound s) : Sound s.connect := by
  have hconnecting : Sound { s with connecting := true } := { h with }
  exact hconnecting.connectionRequested.callOut rfl

theorem socketConnect (h : Sound s) {accepted : Bool} {outcome : ConnectOutcome}
    (htime : accepted = true → outcome = .immediate → s.socketOpen = true → s.state = .open) :
    Sound (s.socketConnect accepted outcome) := by
  unfold ConnectionImpl.socketConnect
  split
  · exact { h with }
  · next haccepted =>
      split
      · next himmediate =>
          have hready : Sound { s with writeReady := true } := { h with }
          refine hready.completeConnect ?_ false
          split at himmediate
          · next hsocket => exact htime (by simpa using haccepted) himmediate hsocket
          · cases himmediate
      · exact h
      · exact { h with }

/-- A file event comes while the connection is open, or closing. -/
theorem open_or_closing (hclosed : s.state ≠ .closed) (hprogress : s.socketCloseInProgress = false) :
    s.state = .open ∨ s.state = .closing ∧ s.socketCloseInProgress = false := by
  cases hcase : s.state with
  | «open» => exact .inl rfl
  | closing => exact .inr ⟨rfl, hprogress⟩
  | closed => exact absurd hcase hclosed

theorem open_or_waiting (h : Sound s) (hread : s.state = .open ∨ s.waitingForPeerClose = true) :
    s.state = .open ∨ s.state = .closing ∧ s.socketCloseInProgress = false := by
  obtain hopen | hwaiting := hread
  · exact .inl hopen
  · simp only [waitingForPeerClose, Bool.and_eq_true, decide_eq_true_eq] at hwaiting
    refine .inr (h.flushing ?_)
    rw [hwaiting.1.2]
    decide

theorem onWriteReady (h : Sound s) {socketError : Bool} (hclosed : s.state ≠ .closed)
    (hprogress : s.socketCloseInProgress = false)
    (htime : s.state = .closing → s.connecting = true → socketError = true) :
    Sound (s.onWriteReady socketError) := by
  have hready : Sound { s with writeReady := true } := { h with }
  have hstate := open_or_closing hclosed hprogress
  unfold ConnectionImpl.onWriteReady
  simp only
  split
  · exact hready
  · obtain ⟨htold, hsame⟩ := hready.readyEvent (.inr rfl) hstate
    split
    · next hconnecting =>
        split
        · exact { htold with }
        · next herror =>
            refine htold.completeConnect ?_ true
            rw [hsame]
            exact hstate.resolve_right fun hclosing => herror (htime hclosing.1 hconnecting)
    · exact (htold.returnTo _).doWrite

theorem onFileEvent (h : Sound s) {read write closed socketError : Bool}
    (htime : s.state = .closing → s.completesConnect write closed socketError = false) :
    Sound (s.onFileEvent read write closed socketError) := by
  unfold ConnectionImpl.onFileEvent
  split
  · exact h
  · next hguard =>
      obtain ⟨hclosed, hprogress⟩ := going_on hguard
      split
      · exact h.closeSocket _
      · next hcalm =>
          split
          · exact h.closeSocket _
          · next hopen =>
              simp only
              split
              · next hwrite =>
                  refine (h.returnTo _).onWriteReady hclosed hprogress fun hclosing hconnecting => ?_
                  have hnot := htime hclosing
                  simp only [completesConnect, hcalm, hopen, hwrite] at hnot
                  simpa [show s.connecting = true from hconnecting] using hnot
              · exact h.returnTo _

theorem raiseEvent (h : Sound s) {event : ConnectionEvent} (hclose : event.isClose = false) :
    Sound (s.raiseEvent event) := by
  have hraise (zeroRtt : Bool) : Sound (s.raiseConnected zeroRtt) := by
    have hready : Sound { s with writeReady := true } := { h with }
    unfold ConnectionImpl.raiseConnected
    simp only
    split
    · exact hready.returnTo _
    · exact (hready.returnTo _).doWrite
  cases event with
  | connected => exact hraise false
  | connectedZeroRtt => exact hraise true
  | remoteClose => exact absurd hclose (by decide)
  | localClose => exact absurd hclose (by decide)

/-! ### Steps -/

theorem called (h : Sound s) {call : ConnectionCall} (hrelies : s.relies (.call call) = true) :
    Sound (s.called call) := by
  cases call with
  | close type => exact h.close type
  | write data endStream => exact h.write data endStream
  | readDisable disable => exact { h with }
  | setDelayedCloseTimeout timeout =>
      simp only [relies, Bool.or_eq_true, decide_eq_true_eq, decide_eq_decide] at hrelies
      refine { h with armed := h.armed.trans (and_congr_right fun hflush => ?_) }
      exact (hrelies.resolve_left hflush).symm
  | connect => exact h.connect
  | raiseEvent event => exact h.raiseEvent (by simpa [relies] using hrelies)
  | flushWriteBuffer => exact h.doWrite
  | continueReading =>
      refine h.onContinueReading fun hraised => ?_
      simpa [relies, hraised] using hrelies
  | injectReadDataToFilterChain data =>
      refine h.injectReadDataToFilterChain fun hraised => ?_
      simpa [relies, hraised] using hrelies

/-- A call other than one of the teardown returns. -/
theorem resume (h : Sound s) {call : CallOut} {reply : CallReply} (htears : call.tears = false)
    (htime : s.inTime call reply = true) {after : ConnectionImpl} (hafter : s.resume call reply = some after) :
    Sound after := by
  cases call <;> cases reply <;> simp only [ConnectionImpl.resume, reduceCtorEq, Option.some.injEq] at hafter <;>
    subst hafter
  case transportConnect accepted outcome =>
    refine h.socketConnect fun haccepted himmediate hsocket => ?_
    simpa [inTime, haccepted, himmediate, hsocket] using htime
  case transportConnected flush => exact h.transportWasTold flush
  case transportClose event => simp [CallOut.tears] at htears
  case transportWrite result => exact h.transportWrote result
  case socketWrite bytesWritten result => exact h.socketWrote bytesWritten result
  case socketRead result =>
    refine h.socketWasRead fun hraised => ?_
    simpa [inTime, hraised] using htime
  case callbacks => exact h
  case onData entry endStream status rest =>
    refine h.dataReturned fun hraised => ?_
    simpa [inTime, hraised, or_assoc] using htime
  case injected entry saved status rest =>
    refine h.injectedReturned fun hraised => ?_
    simpa [inTime, hraised, or_assoc] using htime
  case onWrite left status rest =>
    refine h.wroteThrough ?_
    simpa [inTime, or_assoc] using htime

theorem afterReturn (h : Sound s) {reply : CallReply} (hrelies : s.relies (.returns reply) = true) :
    Sound (s.afterReturn reply) := by
  unfold ConnectionImpl.afterReturn
  split
  · next call rest hframes =>
      have htime : s.inTime call reply = true := by simpa only [relies, hframes] using hrelies
      cases hafter : { s with frames := rest }.resume call reply with
      | none => exact h
      | some after =>
          cases htears : call.tears with
          | false => exact (h.pop hframes htears).resume htears htime hafter
          | true =>
              cases call <;> simp only [CallOut.tears, reduceCtorEq] at htears
              cases reply <;> simp only [ConnectionImpl.resume, reduceCtorEq, Option.some.injEq] at hafter
              subst hafter
              exact h.finishClose hframes
  · exact h

theorem proceed (h : Sound s) (point : ReturnPoint) : Sound (s.proceed point) := by
  cases point with
  | readBufferProcessed => exact { h with }
  | readMore => exact h.readMore
  | deferClose event =>
      simp only [ConnectionImpl.proceed]
      split
      · exact h
      · exact { h with }
  | wroteReady => exact { h with }
  | flushConnected => exact h.doWrite
  | raiseConnected zeroRtt => exact h.raiseConnectionEvent (by cases zeroRtt <;> rfl)
  | writing => exact h
  | handlingWrite read =>
      simp only [ConnectionImpl.proceed]
      split
      · next hread =>
          exact ((h.returnTo .handlingRead).readyEvent (.inl rfl) (h.open_or_waiting hread.1)).1.doRead
      · exact h
  | handlingRead => exact h

/-- What is dropped from the stack is never a teardown. -/
theorem unwind {rest : List Frame} (h : Sound { s with frames := rest }) : Sound (s.unwind rest) := by
  induction rest generalizing s with
  | nil => exact h
  | cons frame rest ih =>
      cases frame with
      | callOut call => exact h
      | returnTo point =>
          have hpopped : Sound { s with frames := rest } := h.pop rfl rfl
          cases point with
          | writing => exact hpopped.closeSocket _
          | handlingWrite read => exact hpopped.closeSocket _
          | handlingRead => exact hpopped.closeSocket _
          | readBufferProcessed => exact ih { hpopped with }
          | readMore => exact ih hpopped
          | deferClose event => exact ih hpopped
          | wroteReady => exact ih hpopped
          | flushConnected => exact ih hpopped
          | raiseConnected zeroRtt => exact ih hpopped

theorem afterThrow (h : Sound s) : Sound s.afterThrow := by
  unfold ConnectionImpl.afterThrow
  split
  · next call rest hframes =>
      cases htears : call.tears with
      | false =>
          have hunwound : Sound ({ s with frames := rest }.unwind rest) := unwind (h.pop hframes htears)
          cases call <;> first | exact hunwound | simp [CallOut.tears] at htears
      | true =>
          cases call <;> simp only [CallOut.tears, reduceCtorEq] at htears
          exact h.finishClose hframes
  · exact h

theorem act (h : Sound s) {op : ConnectionOp} (hrelies : s.relies op = true) : Sound (s.act op) := by
  cases op with
  | call call =>
      simp only [ConnectionImpl.act]
      split
      · exact h.called hrelies
      · exact h
  | takes count =>
      simp only [ConnectionImpl.act]
      split
      · have htaken : Sound { s with writeBuffer := s.writeBuffer.drop count } :=
          { h with
            raised := fun hraised => by
              obtain ⟨hclosed, hprogress, hempty⟩ := h.raised hraised
              exact ⟨hclosed, hprogress, by rw [hempty, List.drop_nil]⟩ }
        refine htaken.happens rfl fun hraised => ?_
        simp [Happening.quiet, (h.raised hraised).2.2]
      · exact h
  | receives bytes =>
      simp only [ConnectionImpl.act]
      split
      · exact { h with }
      · exact h
  | returns reply => exact h.afterReturn hrelies
  | throws => exact h.afterThrow
  | goesOn =>
      simp only [ConnectionImpl.act, goOn]
      split
      · next point rest hframes => exact (h.pop hframes rfl).proceed point
      · exact h
  | fileEvent read write closed socketError =>
      simp only [ConnectionImpl.act]
      split
      · refine h.onFileEvent fun hclosing => ?_
        simpa [relies, hclosing] using hrelies
      · exact h
  | runPosted =>
      simp only [ConnectionImpl.act, ConnectionImpl.runPosted]
      split
      · split
        · exact h
        · next event rest hposted =>
            have hrun : Sound { s with posted := rest } := { h with }
            exact hrun.closeSocket event
      · exact h
  | delayedCloseTimeout =>
      simp only [ConnectionImpl.act]
      split
      · next hfires =>
          rw [h.closeSocket_disarmed hfires.2]
          exact h.closeSocket _
      · exact h
  | connectTimeout =>
      simp only [ConnectionImpl.act]
      split
      · next hfires =>
          refine h.connectTimeout ?_ hfires.2
          simpa [relies, hfires.2] using hrelies
      · exact h

end Sound

end ConnectionImpl

end GopherMcp
