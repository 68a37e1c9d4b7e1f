import GopherMcp.Filter.CodecStateMachine
import GopherMcp.Lib.Runs

/-!
# The timers of the HTTP codec follow its state

At most one timer belongs to a state. Entering a state arms its timer and leaving one disarms its timer, and
since leaving ends last, a transition between two states of one timer disarms it. No two states of a server
that follow each other share a timer, so that a server's timers follow its state in every run. A client waits for
a response with the timer of the headers that come next, and it is made with the idle timer armed, which
leaving `idle` does not disarm.
-/

namespace GopherMcp

inductive CodecTimer
  | header | body | idle
  deriving DecidableEq

/-- The timer of a state. -/
def HttpCodecState.timer : HttpCodecState → Option CodecTimer
  | receivingRequestHeaders | receivingResponseHeaders | waitingForResponse => some .header
  | receivingRequestBody | receivingResponseBody => some .body
  | waitingForRequest => some .idle
  | idle | sendingResponse | sendingRequest | closed | error => none

/-- The states a client is in until it waits for a response. -/
def HttpCodecState.beforeResponse : HttpCodecState → Bool
  | idle | sendingRequest | closed | error => true
  | _ => false

/-- The states of one end of a connection. -/
def HttpCodecStateMachineConfig.has (c : HttpCodecStateMachineConfig) : HttpCodecState → Bool
  | .waitingForRequest | .receivingRequestHeaders | .receivingRequestBody | .sendingResponse => c.isServer
  | .closed | .error => true
  | .idle | .sendingRequest | .waitingForResponse | .receivingResponseHeaders | .receivingResponseBody =>
      !c.isServer

def HttpCodecStateMachineConfig.Positive (c : HttpCodecStateMachineConfig) : Prop :=
  0 < c.headerTimeout ∧ 0 < c.bodyTimeout ∧ 0 < c.idleTimeout

/-- A timer fires. -/
def HttpCodecOp.fires (raised : List HttpCodecEvent) : CodecTimer → HttpCodecOp
  | .header => .headerTimer raised
  | .body => .bodyTimer raised
  | .idle => .idleTimer raised

def HttpCodecOp.raised : HttpCodecOp → List HttpCodecEvent
  | .event _ raised | .posted raised | .headerTimer raised | .bodyTimer raised | .idleTimer raised
  | .resetForNextRequest raised => raised
  | .setExpectRequestBody _ | .setExpectResponseBody _ => []

namespace HttpCodecStateMachine

open HttpCodecState

def armed (s : HttpCodecStateMachine) : CodecTimer → Bool
  | .header => s.headerTimer
  | .body => s.bodyTimer
  | .idle => s.idleTimer

/-! ### What a step can do -/

/-- The state an event leads to, if it leads to another one. -/
def wanted (s : HttpCodecStateMachine) (event : HttpCodecEvent) : Option HttpCodecState :=
  if s.newState event ≠ s.currentState ∧ isTransitionValid s.currentState (s.newState event) then
    some (s.newState event)
  else none

/-- The state a step leads to, if it leads to another one. -/
def asks (s : HttpCodecStateMachine) : HttpCodecOp → Option HttpCodecState
  | .event event _ => s.wanted event
  | .posted _ => s.posted.head?.filter (isTransitionValid s.currentState)
  | .headerTimer _ =>
      if s.headerTimer ∧ (s.currentState = receivingRequestHeaders ∨
          s.currentState = receivingResponseHeaders) then s.wanted .timeout
      else none
  | .bodyTimer _ =>
      if s.bodyTimer ∧ (s.currentState = receivingRequestBody ∨
          s.currentState = receivingResponseBody) then s.wanted .timeout
      else none
  | .idleTimer _ => if s.idleTimer ∧ s.currentState = waitingForRequest then s.wanted .close else none
  | .resetForNextRequest _ =>
      s.wanted (if s.currentState = sendingResponse ∨ s.currentState = waitingForRequest then .reset
        else .close)
  | .setExpectRequestBody _ => none
  | .setExpectResponseBody _ => none

/-- The machine when a step has been taken up and no transition made yet. -/
def takenUp (s : HttpCodecStateMachine) : HttpCodecOp → HttpCodecStateMachine
  | .event _ _ | .resetForNextRequest _ => s
  | .posted _ => { s with posted := s.posted.tail }
  | .headerTimer _ => { s with headerTimer := false }
  | .bodyTimer _ => { s with bodyTimer := false }
  | .idleTimer _ => { s with idleTimer := false }
  | .setExpectRequestBody expect => { s with expectRequestBody := expect }
  | .setExpectResponseBody expect => { s with expectResponseBody := expect }

theorem handleEvent_eq (s : HttpCodecStateMachine) (event : HttpCodecEvent) (raised : List HttpCodecEvent) :
    s.handleEvent event raised =
      (s.wanted event).elim s fun target => s.executeTransition target raised := by
  unfold handleEvent transitionTo wanted
  by_cases hne : s.newState event ≠ s.currentState
  · by_cases hvalid : isTransitionValid s.currentState (s.newState event)
    · rw [if_pos hne, if_pos hvalid, if_pos ⟨hne, hvalid⟩]
      rfl
    · rw [if_pos hne, if_neg hvalid, if_neg fun h => hvalid h.2]
      rfl
  · rw [if_neg hne, if_neg fun h => hne h.1]
    rfl

/-- Every step is a transition or none. -/
theorem step_eq (s : HttpCodecStateMachine) (op : HttpCodecOp) :
    s.step op =
      (s.asks op).elim (s.takenUp op) fun target => (s.takenUp op).executeTransition target op.raised := by
  cases op with
  | event event raised => exact handleEvent_eq s event raised
  | posted raised =>
      unfold step asks takenUp transitionTo
      cases hposted : s.posted with
      | nil =>
          show s = { s with posted := [] }
          rw [← hposted]
      | cons target rest =>
          by_cases hvalid : isTransitionValid s.currentState target
          · simp [Option.filter, hvalid, HttpCodecOp.raised]
          · simp [Option.filter, hvalid]
  | headerTimer raised =>
      unfold step asks takenUp onHeaderTimeout
      cases harmed : s.headerTimer with
      | false =>
          show s = { s with headerTimer := false }
          rw [← harmed]
      | true =>
          simp only [if_true, true_and]
          split
          · exact handleEvent_eq _ _ _
          · rfl
  | bodyTimer raised =>
      unfold step asks takenUp onBodyTimeout
      cases harmed : s.bodyTimer with
      | false =>
          show s = { s with bodyTimer := false }
          rw [← harmed]
      | true =>
          simp only [if_true, true_and]
          split
          · exact handleEvent_eq _ _ _
          · rfl
  | idleTimer raised =>
      unfold step asks takenUp onIdleTimeout
      cases harmed : s.idleTimer with
      | false =>
          show s = { s with idleTimer := false }
          rw [← harmed]
      | true =>
          simp only [if_true, true_and]
          split
          · exact handleEvent_eq _ _ _
          · rfl
  | resetForNextRequest raised =>
      show s.resetForNextRequest raised = (s.wanted _).elim _ _
      unfold resetForNextRequest
      split
      · exact handleEvent_eq _ _ _
      · exact handleEvent_eq _ _ _
  | setExpectRequestBody expect => rfl
  | setExpectResponseBody expect => rfl

/-! ### What a transition changes -/

theorem raise_eq (s : HttpCodecStateMachine) (event : HttpCodecEvent) :
    s.raise event = { s with posted := (s.raise event).posted } := by
  unfold raise
  split <;> rfl

theorem notifyStateChange_eq (s : HttpCodecStateMachine) (raised : List HttpCodecEvent) :
    s.notifyStateChange raised = { s with posted := (s.notifyStateChange raised).posted } := by
  unfold notifyStateChange
  induction raised generalizing s with
  | nil => rfl
  | cons event raised ih =>
      rw [List.foldl_cons, ih (s.raise event)]
      rw [raise_eq s event]

@[simp] theorem config_notifyStateChange (s : HttpCodecStateMachine) (raised : List HttpCodecEvent) :
    (s.notifyStateChange raised).config = s.config := by
  rw [notifyStateChange_eq]

theorem armed_notifyStateChange (s : HttpCodecStateMachine) (raised : List HttpCodecEvent)
    (timer : CodecTimer) : (s.notifyStateChange raised).armed timer = s.armed timer := by
  rw [notifyStateChange_eq]
  cases timer <;> rfl

theorem armed_onStateEnter {s : HttpCodecStateMachine} (positive : s.config.Positive)
    (state : HttpCodecState) (timer : CodecTimer) :
    (s.onStateEnter state).armed timer = (s.armed timer || decide (state.timer = some timer)) := by
  obtain ⟨hheader, hbody, hidle⟩ := positive
  cases state <;> cases timer <;> simp [onStateEnter, armed, HttpCodecState.timer, hheader, hbody, hidle]

theorem armed_onStateExit (s : HttpCodecStateMachine) (state : HttpCodecState)
    (callback : HttpCodecStateMachine → HttpCodecStateMachine) (timer : CodecTimer) :
    (s.onStateExit state callback).armed timer =
      (decide (state.timer ≠ some timer) && (callback s).armed timer) := by
  cases state <;> cases timer <;> simp [onStateExit, armed, HttpCodecState.timer]

/-- The old state's timer is disarmed, whatever the new state's timer is. -/
theorem armed_executeTransition {s : HttpCodecStateMachine} (positive : s.config.Positive)
    (target : HttpCodecState) (raised : List HttpCodecEvent) (timer : CodecTimer) :
    (s.executeTransition target raised).armed timer =
      (decide (s.currentState.timer ≠ some timer) &&
        (s.armed timer || decide (target.timer = some timer))) := by
  have hpositive : ((s.moved target).notifyStateChange raised).config.Positive := by
    rw [config_notifyStateChange]
    exact positive
  unfold executeTransition
  rw [armed_onStateExit, armed_onStateEnter hpositive, armed_notifyStateChange]
  cases timer <;> rfl

/-- What the timers and the flags of a state leave alone. -/
theorem executeTransition_frame (s : HttpCodecStateMachine) (target : HttpCodecState)
    (raised : List HttpCodecEvent) :
    (s.executeTransition target raised).config = s.config ∧
      (s.executeTransition target raised).currentState = target ∧
      (s.executeTransition target raised).totalTransitions = s.totalTransitions + 1 ∧
      (s.executeTransition target raised).posted =
        ((s.moved target).notifyStateChange raised).posted := by
  have hexit : ∀ (t : HttpCodecStateMachine) (state : HttpCodecState)
      (callback : HttpCodecStateMachine → HttpCodecStateMachine),
      (t.onStateExit state callback).config = (callback t).config ∧
        (t.onStateExit state callback).currentState = (callback t).currentState ∧
        (t.onStateExit state callback).totalTransitions = (callback t).totalTransitions ∧
        (t.onStateExit state callback).posted = (callback t).posted := by
    intro t state callback
    cases state <;> exact ⟨rfl, rfl, rfl, rfl⟩
  have henter : ∀ (t : HttpCodecStateMachine) (state : HttpCodecState),
      (t.onStateEnter state).config = t.config ∧ (t.onStateEnter state).currentState = t.currentState ∧
        (t.onStateEnter state).totalTransitions = t.totalTransitions ∧
        (t.onStateEnter state).posted = t.posted := by
    intro t state
    cases state <;> exact ⟨rfl, rfl, rfl, rfl⟩
  obtain ⟨h1, h2, h3, h4⟩ := hexit s s.currentState fun inner =>
    ((inner.moved target).notifyStateChange raised).onStateEnter target
  obtain ⟨h1', h2', h3', h4'⟩ := henter ((s.moved target).notifyStateChange raised) target
  unfold executeTransition
  rw [h1, h2, h3, h4, h1', h2', h3', h4', notifyStateChange_eq]
  exact ⟨rfl, rfl, rfl, rfl⟩

@[simp] theorem config_handleEvent (s : HttpCodecStateMachine) (event : HttpCodecEvent)
    (raised : List HttpCodecEvent) : (s.handleEvent event raised).config = s.config := by
  rw [handleEvent_eq]
  cases s.wanted event with
  | none => rfl
  | some target => exact (s.executeTransition_frame target raised).1

/-! ### Each end keeps to its own states -/

theorem has_newState {s : HttpCodecStateMachine} (_ : s.config.has s.currentState)
    (event : HttpCodecEvent) : s.config.has (s.newState event) := by
  unfold newState
  cases hside : s.config.isServer with
  | true =>
      rw [if_pos rfl]
      unfold serverState
      split
      all_goals try split
      all_goals simp_all [HttpCodecStateMachineConfig.has]
  | false =>
      rw [if_neg Bool.false_ne_true]
      unfold clientState
      split
      all_goals try split
      all_goals try split
      all_goals simp_all [HttpCodecStateMachineConfig.has]

/-- The machine and what waits for it are in states of its end. -/
structure OnSide (s : HttpCodecStateMachine) : Prop where
  current : s.config.has s.currentState
  posted : ∀ target ∈ s.posted, s.config.has target

theorem onSide_notifyStateChange {s : HttpCodecStateMachine} (h : OnSide s)
    (raised : List HttpCodecEvent) : OnSide (s.notifyStateChange raised) := by
  unfold notifyStateChange
  induction raised generalizing s with
  | nil => exact h
  | cons event raised ih =>
      refine ih ?_
      unfold raise
      split
      · refine ⟨h.current, fun target htarget => ?_⟩
        rcases List.mem_append.mp htarget with hold | hnew
        · exact h.posted target hold
        · rw [List.mem_singleton.mp hnew]
          exact has_newState h.current event
      · exact h

theorem wanted_spec {s : HttpCodecStateMachine} {event : HttpCodecEvent} {target : HttpCodecState}
    (h : s.wanted event = some target) :
    target = s.newState event ∧ isTransitionValid s.currentState target := by
  unfold wanted at h
  split at h
  case isTrue hwanted =>
    obtain rfl := Option.some.inj h
    exact ⟨rfl, hwanted.2⟩
  case isFalse => cases h

/-- What a step leads to is in the table, and a state of the same end. -/
theorem asks_spec {s : HttpCodecStateMachine} (side : OnSide s) {op : HttpCodecOp}
    {target : HttpCodecState} (h : s.asks op = some target) :
    isTransitionValid s.currentState target ∧ s.config.has target := by
  have hwanted : ∀ {event}, s.wanted event = some target →
      isTransitionValid s.currentState target ∧ s.config.has target := by
    intro event hevent
    obtain ⟨rfl, hvalid⟩ := wanted_spec hevent
    exact ⟨hvalid, has_newState side.current event⟩
  unfold asks at h
  split at h
  case h_1 => exact hwanted h
  case h_2 =>
    obtain ⟨hhead, hvalid⟩ := Option.filter_eq_some_iff.mp h
    exact ⟨hvalid, side.posted target (List.mem_of_mem_head? hhead)⟩
  case h_6 => exact hwanted h
  all_goals first | (split at h; exact hwanted h; cases h) | cases h

theorem takenUp_frame (s : HttpCodecStateMachine) (op : HttpCodecOp) :
    (s.takenUp op).config = s.config ∧ (s.takenUp op).currentState = s.currentState ∧
      (s.takenUp op).totalTransitions = s.totalTransitions ∧
      ∀ target ∈ (s.takenUp op).posted, target ∈ s.posted := by
  cases op with
  | posted raised => exact ⟨rfl, rfl, rfl, fun _ => List.mem_of_mem_tail⟩
  | _ => exact ⟨rfl, rfl, rfl, fun _ h => h⟩

@[simp] theorem config_step (s : HttpCodecStateMachine) (op : HttpCodecOp) :
    (s.step op).config = s.config := by
  rw [step_eq]
  cases s.asks op with
  | none => exact (s.takenUp_frame op).1
  | some target =>
      exact ((s.takenUp op).executeTransition_frame target op.raised).1.trans (s.takenUp_frame op).1

theorem onSide_takenUp {s : HttpCodecStateMachine} (h : OnSide s) (op : HttpCodecOp) :
    OnSide (s.takenUp op) := by
  obtain ⟨hconfig, hcurrent, _, hposted⟩ := s.takenUp_frame op
  refine ⟨by rw [hconfig, hcurrent]; exact h.current, fun target htarget => ?_⟩
  rw [hconfig]
  exact h.posted target (hposted target htarget)

theorem onSide_executeTransition {s : HttpCodecStateMachine} (h : OnSide s) {target : HttpCodecState}
    (hhas : s.config.has target) (raised : List HttpCodecEvent) :
    OnSide (s.executeTransition target raised) := by
  obtain ⟨hconfig, hcurrent, _, hposted⟩ := s.executeTransition_frame target raised
  have hmoved : OnSide (s.moved target) := ⟨hhas, h.posted⟩
  have hside := onSide_notifyStateChange hmoved raised
  refine ⟨by rw [hconfig, hcurrent]; exact hhas, fun posted hin => ?_⟩
  rw [hposted] at hin
  have hposted := hside.posted posted hin
  rw [config_notifyStateChange] at hposted
  rw [hconfig]
  exact hposted

theorem onSide_step {s : HttpCodecStateMachine} (h : OnSide s) (op : HttpCodecOp) :
    OnSide (s.step op) := by
  have htaken := onSide_takenUp h op
  rw [step_eq]
  cases hasks : s.asks op with
  | none => exact htaken
  | some target =>
      refine onSide_executeTransition htaken ?_ op.raised
      rw [(s.takenUp_frame op).1]
      exact (asks_spec h hasks).2

/-! ### When the timers follow the state -/

/-- Each timer is armed in its states and in no others, and the firing of an armed one takes the machine out
of its state. -/
structure TimersFollow (s : HttpCodecStateMachine) : Prop where
  header : s.headerTimer = true ↔ s.currentState = receivingRequestHeaders ∨
    s.currentState = receivingResponseHeaders ∨ s.currentState = waitingForResponse
  body : s.bodyTimer = true ↔
    s.currentState = receivingRequestBody ∨ s.currentState = receivingResponseBody
  idle : s.idleTimer = true ↔ s.currentState = waitingForRequest
  fires : ∀ timer raised, s.armed timer = true →
    (s.step (.fires raised timer)).currentState ≠ s.currentState

/-- The same of a timer and the state it belongs to. -/
def Matches (s : HttpCodecStateMachine) : Prop :=
  ∀ timer, s.armed timer = decide (s.currentState.timer = some timer)

theorem timersFollow_iff {s : HttpCodecStateMachine} :
    TimersFollow s ↔ Matches s ∧ ∀ timer raised, s.armed timer = true →
      (s.step (.fires raised timer)).currentState ≠ s.currentState := by
  have hmatches : Matches s ↔
      (s.headerTimer = true ↔ s.currentState = receivingRequestHeaders ∨
        s.currentState = receivingResponseHeaders ∨ s.currentState = waitingForResponse) ∧
      (s.bodyTimer = true ↔
        s.currentState = receivingRequestBody ∨ s.currentState = receivingResponseBody) ∧
      (s.idleTimer = true ↔ s.currentState = waitingForRequest) := by
    constructor
    · intro h
      refine ⟨?_, ?_, ?_⟩
      · rw [show s.headerTimer = _ from h .header]
        cases s.currentState <;> decide
      · rw [show s.bodyTimer = _ from h .body]
        cases s.currentState <;> decide
      · rw [show s.idleTimer = _ from h .idle]
        cases s.currentState <;> decide
    · rintro ⟨hheader, hbody, hidle⟩ timer
      cases timer <;> rw [Bool.eq_iff_iff] <;> simp only [armed, hheader, hbody, hidle] <;>
        cases s.currentState <;> decide
  rw [hmatches]
  constructor
  · rintro ⟨hheader, hbody, hidle, hfires⟩
    exact ⟨⟨hheader, hbody, hidle⟩, hfires⟩
  · rintro ⟨⟨hheader, hbody, hidle⟩, hfires⟩
    exact ⟨hheader, hbody, hidle, hfires⟩

theorem ne_of_isTransitionValid {source target : HttpCodecState}
    (h : isTransitionValid source target = true) : source ≠ target := by
  rintro rfl
  cases source <;> cases h

theorem currentState_step {s : HttpCodecStateMachine} (op : HttpCodecOp) :
    (s.step op).currentState = (s.asks op).getD s.currentState := by
  rw [step_eq]
  cases s.asks op with
  | none => exact (s.takenUp_frame op).2.1
  | some target => exact ((s.takenUp op).executeTransition_frame target op.raised).2.1

theorem armed_takenUp (s : HttpCodecStateMachine) (op : HttpCodecOp) (timer : CodecTimer) :
    (s.takenUp op).armed timer = s.armed timer ∨
      (s.takenUp op).armed timer = false ∧ ∃ raised, op = .fires raised timer := by
  cases op with
  | headerTimer raised =>
      cases timer with
      | header => exact .inr ⟨rfl, raised, rfl⟩
      | _ => exact .inl rfl
  | bodyTimer raised =>
      cases timer with
      | body => exact .inr ⟨rfl, raised, rfl⟩
      | _ => exact .inl rfl
  | idleTimer raised =>
      cases timer with
      | idle => exact .inr ⟨rfl, raised, rfl⟩
      | _ => exact .inl rfl
  | _ => cases timer <;> exact .inl rfl

theorem armed_of_armed_takenUp {s : HttpCodecStateMachine} {op : HttpCodecOp} {timer : CodecTimer}
    (h : (s.takenUp op).armed timer = true) : s.armed timer = true := by
  rcases s.armed_takenUp op timer with hsame | ⟨hoff, _⟩
  · rwa [← hsame]
  · rw [hoff] at h
    cases h

/-! ### A server -/

/-- No two states of a server that follow each other share a timer. -/
theorem timer_ne_of_server {c : HttpCodecStateMachineConfig} (server : c.isServer = true)
    {source target : HttpCodecState} (hsource : c.has source) (hvalid : isTransitionValid source target)
    {timer : CodecTimer} (h : source.timer = some timer) : target.timer ≠ some timer := by
  revert hsource hvalid h
  cases source <;> cases target <;> cases timer <;>
    simp [HttpCodecStateMachineConfig.has, isTransitionValid, validTransitions, HttpCodecState.timer, server]

structure Server (s : HttpCodecStateMachine) : Prop where
  isServer : s.config.isServer = true
  positive : s.config.Positive
  side : OnSide s
  matching : Matches s

/-- A timer of a server that fires makes a transition. -/
theorem Server.fires {s : HttpCodecStateMachine} (h : Server s) {timer : CodecTimer}
    (harmed : s.armed timer = true) (raised : List HttpCodecEvent) :
    ∃ target, s.asks (.fires raised timer) = some target := by
  have hcurrent := h.side.current
  have htimer : s.currentState.timer = some timer := of_decide_eq_true ((h.matching timer).symm.trans harmed)
  cases hstate : s.currentState <;> rw [hstate] at htimer hcurrent <;> cases htimer
  case waitingForRequest =>
    refine ⟨closed, ?_⟩
    have hclose : s.newState .close = closed := by simp [newState, h.isServer, serverState, hstate]
    have hidle : s.idleTimer = true := harmed
    simp [HttpCodecOp.fires, asks, wanted, hidle, hstate, hclose, isTransitionValid, validTransitions]
  case receivingRequestHeaders =>
    refine ⟨error, ?_⟩
    have htimeout : s.newState .timeout = error := by simp [newState, h.isServer, serverState, hstate]
    have hheader : s.headerTimer = true := harmed
    simp [HttpCodecOp.fires, asks, wanted, hheader, hstate, htimeout, isTransitionValid, validTransitions]
  case receivingRequestBody =>
    refine ⟨error, ?_⟩
    have htimeout : s.newState .timeout = error := by simp [newState, h.isServer, serverState, hstate]
    have hbody : s.bodyTimer = true := harmed
    simp [HttpCodecOp.fires, asks, wanted, hbody, hstate, htimeout, isTransitionValid, validTransitions]
  all_goals simp [HttpCodecStateMachineConfig.has, h.isServer] at hcurrent

theorem Server.step {s : HttpCodecStateMachine} (h : Server s) (op : HttpCodecOp) :
    Server (s.step op) := by
  have hside := onSide_step h.side op
  obtain ⟨hconfig, hcurrent, _, _⟩ := s.takenUp_frame op
  rw [step_eq] at hside ⊢
  cases hasks : s.asks op with
  | none =>
      rw [hasks] at hside
      refine ⟨hconfig ▸ h.isServer, hconfig ▸ h.positive, hside, fun timer => ?_⟩
      show (s.takenUp op).armed timer = decide ((s.takenUp op).currentState.timer = some timer)
      rw [hcurrent, ← h.matching timer]
      rcases s.armed_takenUp op timer with hsame | ⟨hoff, raised, rfl⟩
      · exact hsame
      · cases harmed : s.armed timer with
        | false => exact hoff
        | true =>
            obtain ⟨target, htarget⟩ := h.fires harmed raised
            rw [hasks] at htarget
            cases htarget
  | some target =>
      rw [hasks] at hside
      have hpositive : (s.takenUp op).config.Positive := hconfig ▸ h.positive
      obtain ⟨hconfig', hcurrent', _, _⟩ := (s.takenUp op).executeTransition_frame target op.raised
      refine ⟨?_, ?_, hside, fun timer => ?_⟩
      · show ((s.takenUp op).executeTransition target op.raised).config.isServer = true
        rw [hconfig', hconfig]
        exact h.isServer
      · show ((s.takenUp op).executeTransition target op.raised).config.Positive
        rw [hconfig']
        exact hpositive
      · show ((s.takenUp op).executeTransition target op.raised).armed timer =
          decide (((s.takenUp op).executeTransition target op.raised).currentState.timer = some timer)
        rw [hcurrent', armed_executeTransition hpositive, hcurrent]
        by_cases hold : s.currentState.timer = some timer
        · have hnew := timer_ne_of_server h.isServer h.side.current (asks_spec h.side hasks).1 hold
          simp [hold, hnew]
        · have hoff : (s.takenUp op).armed timer = false := by
            by_contra hon
            have harmed := armed_of_armed_takenUp (Bool.not_eq_false _ ▸ hon)
            rw [h.matching timer] at harmed
            exact hold (of_decide_eq_true harmed)
          simp [hold, hoff]

theorem Server.timersFollow {s : HttpCodecStateMachine} (h : Server s) : TimersFollow s := by
  refine timersFollow_iff.mpr ⟨h.matching, fun timer raised harmed => ?_⟩
  obtain ⟨target, htarget⟩ := h.fires harmed raised
  rw [currentState_step, htarget]
  exact (ne_of_isTransitionValid (asks_spec h.side htarget).1).symm

/-! ### A client -/

/-- A client that has not waited for a response, nor left `idle` with the idle timer armed. -/
structure Client (s : HttpCodecStateMachine) : Prop where
  isClient : s.config.isServer = false
  positive : s.config.Positive
  side : OnSide s
  current : s.currentState.beforeResponse
  header : s.headerTimer = false
  body : s.bodyTimer = false
  idle : s.idleTimer = true → s.totalTransitions = 0 ∧ s.currentState = HttpCodecState.idle

/-- What a step may do: a server anything; a client must not wait for a response, nor leave `idle` while
the idle timer is armed. -/
def KeepsTimers (s : HttpCodecStateMachine) (op : HttpCodecOp) : Prop :=
  s.config.isServer = true ∨ ∀ target, s.asks op = some target →
    target ≠ waitingForResponse ∧ (s.currentState = HttpCodecState.idle → s.idleTimer = false)

theorem timer_of_beforeResponse {state : HttpCodecState} (h : state.beforeResponse) :
    state.timer = none := by
  cases state <;> first | rfl | cases h

theorem beforeResponse_of_client {c : HttpCodecStateMachineConfig} (client : c.isServer = false)
    {source target : HttpCodecState} (hsource : source.beforeResponse) (htarget : c.has target)
    (hvalid : isTransitionValid source target) (hne : target ≠ waitingForResponse) :
    target.beforeResponse := by
  revert hsource htarget hvalid hne
  cases source <;> cases target <;>
    simp [HttpCodecStateMachineConfig.has, HttpCodecState.beforeResponse, isTransitionValid,
      validTransitions, client]

theorem Client.step {s : HttpCodecStateMachine} (h : Client s) {op : HttpCodecOp}
    (ok : KeepsTimers s op) : Client (s.step op) := by
  have hside := onSide_step h.side op
  obtain ⟨hconfig, hcurrent, htotal, _⟩ := s.takenUp_frame op
  have hoff : ∀ timer, s.armed timer = false → (s.takenUp op).armed timer = false := by
    intro timer hoff
    by_contra hon
    rw [armed_of_armed_takenUp (Bool.not_eq_false _ ▸ hon)] at hoff
    cases hoff
  rw [step_eq] at hside ⊢
  cases hasks : s.asks op with
  | none =>
      rw [hasks] at hside
      refine ⟨hconfig ▸ h.isClient, hconfig ▸ h.positive, hside, hcurrent ▸ h.current,
        hoff .header h.header, hoff .body h.body, fun hidle => ?_⟩
      have harmed : s.armed .idle = true := armed_of_armed_takenUp hidle
      show (s.takenUp op).totalTransitions = 0 ∧ (s.takenUp op).currentState = HttpCodecState.idle
      rw [htotal, hcurrent]
      exact h.idle harmed
  | some target =>
      rw [hasks] at hside
      obtain ⟨hvalid, hhas⟩ := asks_spec h.side hasks
      obtain ⟨hne, hidle⟩ := (ok.resolve_left (by rw [h.isClient]; exact Bool.false_ne_true)) target hasks
      have hbefore := beforeResponse_of_client h.isClient h.current hhas hvalid hne
      have hpositive : (s.takenUp op).config.Positive := hconfig ▸ h.positive
      obtain ⟨hconfig', hcurrent', _, _⟩ := (s.takenUp op).executeTransition_frame target op.raised
      have harmed : ∀ timer, s.armed timer = false →
          ((s.takenUp op).executeTransition target op.raised).armed timer = false := by
        intro timer htimer
        rw [armed_executeTransition hpositive, hoff timer htimer, timer_of_beforeResponse hbefore]
        simp
      have hidleOff : s.idleTimer = false := by
        by_contra hon
        have hstart := (h.idle (Bool.not_eq_false _ ▸ hon)).2
        exact hon (hidle hstart)
      refine ⟨?_, ?_, hside, ?_, harmed .header h.header, harmed .body h.body, fun hon => ?_⟩
      · show ((s.takenUp op).executeTransition target op.raised).config.isServer = false
        rw [hconfig', hconfig]
        exact h.isClient
      · show ((s.takenUp op).executeTransition target op.raised).config.Positive
        rw [hconfig']
        exact hpositive
      · show ((s.takenUp op).executeTransition target op.raised).currentState.beforeResponse
        rw [hcurrent']
        exact hbefore
      · have := harmed .idle hidleOff
        exact absurd (hon.symm.trans this) (by decide)

theorem Client.timersFollow {s : HttpCodecStateMachine} (h : Client s) :
    s.totalTransitions = 0 ∨ TimersFollow s := by
  by_cases hidle : s.idleTimer = true
  · exact .inl (h.idle hidle).1
  · refine .inr (timersFollow_iff.mpr ⟨fun timer => ?_, fun timer raised harmed => ?_⟩)
    · rw [timer_of_beforeResponse h.current]
      cases timer with
      | header => exact h.header
      | body => exact h.body
      | idle => exact Bool.not_eq_true _ ▸ hidle
    · cases timer with
      | header => exact absurd (harmed.symm.trans h.header) (by decide)
      | body => exact absurd (harmed.symm.trans h.body) (by decide)
      | idle => exact absurd harmed hidle

/-- Nobody takes a client out of `waitingForResponse` when the header timer fires. -/
theorem asks_headerTimer_of_waitingForResponse {s : HttpCodecStateMachine}
    (h : s.currentState = waitingForResponse) (raised : List HttpCodecEvent) :
    s.asks (.headerTimer raised) = none := by
  unfold asks
  rw [h, if_neg]
  rintro ⟨_, hstate | hstate⟩ <;> cases hstate

theorem Client.breaks {s : HttpCodecStateMachine} (h : Client s) {op : HttpCodecOp}
    (hnot : ¬ KeepsTimers s op) :
    ¬ ((s.step op).totalTransitions = 0 ∨ TimersFollow (s.step op)) := by
  obtain ⟨target, hasks, hbad⟩ : ∃ target, s.asks op = some target ∧
      (target = waitingForResponse ∨ s.currentState = HttpCodecState.idle ∧ s.idleTimer = true) := by
    by_contra hnone
    refine hnot (.inr fun target hasks => ⟨fun h => hnone ⟨target, hasks, .inl h⟩, fun hidle => ?_⟩)
    by_contra hon
    exact hnone ⟨target, hasks, .inr ⟨hidle, Bool.not_eq_false _ ▸ hon⟩⟩
  obtain ⟨hconfig, hcurrent, _, _⟩ := s.takenUp_frame op
  have hpositive : (s.takenUp op).config.Positive := hconfig ▸ h.positive
  obtain ⟨_, hcurrent', htotal', _⟩ := (s.takenUp op).executeTransition_frame target op.raised
  have harmed := fun timer => armed_executeTransition hpositive target op.raised timer
  have hstep : s.step op = (s.takenUp op).executeTransition target op.raised := by
    rw [step_eq, hasks]
    rfl
  rw [hcurrent, timer_of_beforeResponse h.current] at harmed
  rw [hstep]
  rintro (hzero | hfollow)
  · rw [htotal'] at hzero
    cases hzero
  · rcases hbad with rfl | ⟨hidle, hon⟩
    · -- the header timer is armed, and its firing is not taken up
      have hheader := harmed .header
      refine hfollow.fires .header [] (by rw [hheader]; simp [HttpCodecState.timer]) ?_
      rw [currentState_step]
      show (asks _ (.headerTimer [])).getD _ = _
      rw [asks_headerTimer_of_waitingForResponse hcurrent']
      rfl
    · -- the idle timer was not the one that fired, for it does nothing in `idle`
      have hstill : (s.takenUp op).armed .idle = true := by
        rcases s.armed_takenUp op .idle with hsame | ⟨_, raised, rfl⟩
        · rw [hsame]
          exact hon
        · unfold HttpCodecOp.fires asks at hasks
          rw [hidle] at hasks
          simp at hasks
      have hwaiting : target = waitingForRequest := by
        rw [← hcurrent']
        refine hfollow.idle.mp ?_
        show ((s.takenUp op).executeTransition target op.raised).armed .idle = true
        rw [harmed .idle, hstill]
        simp
      have hhas := (asks_spec h.side hasks).2
      rw [hwaiting] at hhas
      exact absurd (hhas.symm.trans h.isClient) (by decide)

/-! ### Runs -/

theorem server_new {config : HttpCodecStateMachineConfig} (positive : config.Positive)
    (h : config.isServer = true) : Server (new config) := by
  refine ⟨h, positive, ⟨?_, fun _ hin => absurd hin List.not_mem_nil⟩, fun timer => ?_⟩
  · simp [new, h, HttpCodecStateMachineConfig.has]
  · cases timer <;> simp [new, h, armed, HttpCodecState.timer, positive.2.2]

theorem client_new {config : HttpCodecStateMachineConfig} (positive : config.Positive)
    (h : config.isServer = false) : Client (new config) := by
  refine ⟨h, positive, ⟨?_, fun _ hin => absurd hin List.not_mem_nil⟩, ?_, rfl, rfl, fun _ => ⟨rfl, ?_⟩⟩
  · simp [new, h, HttpCodecStateMachineConfig.has]
  · simp [new, h, HttpCodecState.beforeResponse]
  · simp [new, h]

/-- **When the timers follow the state.** They do in every state of a run after the initial one exactly
when the machine is a server, or no step of the client makes it wait for a response or leave `idle` while
the idle timer is armed. -/
theorem timers_follow_iff {config : HttpCodecStateMachineConfig} (positive : config.Positive)
    (ops : List HttpCodecOp) :
    (∀ before after, ops = before ++ after →
        (Runs.run HttpCodecStateMachine.step (new config) before).totalTransitions = 0 ∨
          TimersFollow (Runs.run HttpCodecStateMachine.step (new config) before)) ↔
      Runs.Guarded HttpCodecStateMachine.step KeepsTimers (new config) ops := by
  have hstart : Server (new config) ∨ Client (new config) := by
    cases h : config.isServer with
    | true => exact .inl (server_new positive h)
    | false => exact .inr (client_new positive h)
  have hproper : Runs.Guarded HttpCodecStateMachine.step (fun _ _ => True) (new config) ops :=
    Runs.guarded_of_forall _ (fun _ _ => trivial) _
  refine @Runs.everywhere_iff_of_inv _ _ HttpCodecStateMachine.step (fun _ _ => True) KeepsTimers
    (fun s => Server s ∨ Client s) (fun s => s.totalTransitions = 0 ∨ TimersFollow s) ?_ ?_ ?_ _ hstart
    ops hproper
  · rintro s op _ ok (hserver | hclient)
    · exact .inl (hserver.step op)
    · exact .inr (hclient.step ok)
  · rintro s (hserver | hclient)
    · exact .inr hserver.timersFollow
    · exact hclient.timersFollow
  · rintro s op _ (hserver | hclient) hnot
    · exact absurd (.inl hserver.isServer) hnot
    · exact hclient.breaks hnot

theorem timers_follow_iff_server :
    (∀ before after, [HttpCodecOp.event .requestBegin [], .headerTimer []] = before ++ after →
        (Runs.run HttpCodecStateMachine.step (new (.default true)) before).totalTransitions = 0 ∨
          TimersFollow (Runs.run HttpCodecStateMachine.step (new (.default true)) before)) ↔
      Runs.Guarded HttpCodecStateMachine.step KeepsTimers (new (.default true))
        [.event .requestBegin [], .headerTimer []] :=
  timers_follow_iff ⟨by decide, by decide, by decide⟩ [.event .requestBegin [], .headerTimer []]

/-- A client with its default timeouts still has the idle timer armed when it sends its first request. -/
theorem timers_not_always_follow :
    ¬ ∀ (config : HttpCodecStateMachineConfig) (ops : List HttpCodecOp), config.Positive →
      (Runs.run HttpCodecStateMachine.step (new config) ops).totalTransitions = 0 ∨
        TimersFollow (Runs.run HttpCodecStateMachine.step (new config) ops) := by
  intro h
  rcases h (.default false) [.event .requestBegin []] ⟨by decide, by decide, by decide⟩ with hzero | hfollow
  · exact absurd hzero (by decide)
  · exact absurd (hfollow.idle.mp (by decide)) (by decide)

/-- The transition to the headers of a response arms the header timer and then disarms it: no timeout is
left to end the wait for the rest of them. -/
theorem headerTimer_of_responseBegin {s : HttpCodecStateMachine} (positive : s.config.Positive)
    (client : s.config.isServer = false) (waiting : s.currentState = waitingForResponse)
    (raised : List HttpCodecEvent) :
    (s.step (.event .responseBegin raised)).currentState = receivingResponseHeaders ∧
      (s.step (.event .responseBegin raised)).headerTimer = false := by
  have hasks : s.asks (.event .responseBegin raised) = some receivingResponseHeaders := by
    simp [asks, wanted, newState, client, clientState, waiting, isTransitionValid, validTransitions]
  refine ⟨by rw [currentState_step, hasks]; rfl, ?_⟩
  rw [step_eq, hasks]
  show (s.executeTransition receivingResponseHeaders raised).armed .header = false
  rw [armed_executeTransition positive, waiting]
  rfl

end HttpCodecStateMachine

end GopherMcp
