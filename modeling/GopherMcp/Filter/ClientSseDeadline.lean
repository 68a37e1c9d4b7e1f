import GopherMcp.Filter.ClientSse

/-!
# The deadline of the endpoint

A client that has asked for the stream waits only so long to be told where to post. The timer of that wait is armed
when the wait begins and disarmed when its state is left. The content type of the response, which comes before the
endpoint, leaves that state too: from then on nothing measures the wait.
-/

namespace GopherMcp

/-- The machine with its clock; of the negotiation's timer, when it is due. Times are in milliseconds. -/
structure ClientSseStateMachine where
  currentState : ClientSseState
  now : Int
  negotiationTimer : Option Int
  deriving DecidableEq

/-- An event, or time that passes. -/
inductive ClientSseInput
  | event (event : ClientSseEvent)
  | elapse (duration : Nat)
  deriving DecidableEq

/-- `valid_transitions_`. -/
def ClientSseState.validTransitions : ClientSseState → List ClientSseState
  | awaitingInitResponse => [ready, error, closed]
  | ready => [reinitializing, error, closed]
  | reinitializing => [ready, error, closed]
  | idle => [waitingForGetSent, error, closed]
  | waitingForGetSent => [waitingForEndpoint, error, closed]
  | waitingForEndpoint => [endpointReceived, active, error, closed]
  | endpointReceived => [active, error, closed]
  | active => [error, closed]
  | error => [closed]
  | closed => []

namespace ClientSseStateMachine

open ClientSseState

variable (timeout : Int) (s : ClientSseStateMachine)

def onStateExit (state : ClientSseState) : ClientSseStateMachine :=
  if state = waitingForEndpoint then { s with negotiationTimer := none } else s

/-- A timeout of zero means that there is none. -/
def onStateEnter : ClientSseState → ClientSseStateMachine
  | waitingForEndpoint => if 0 < timeout then { s with negotiationTimer := some (s.now + timeout) } else s
  | error => { s with negotiationTimer := none }
  | closed => { s with negotiationTimer := none }
  | _ => s

def executeTransition (newState : ClientSseState) : ClientSseStateMachine :=
  onStateEnter timeout { s.onStateExit s.currentState with currentState := newState } newState

def transitionTo (newState : ClientSseState) : ClientSseStateMachine :=
  if s.currentState.validTransitions.contains newState then executeTransition timeout s newState else s

def handleEvent (event : ClientSseEvent) : ClientSseStateMachine :=
  if s.currentState.handleEvent event = s.currentState then s
  else transitionTo timeout s (s.currentState.handleEvent event)

def onNegotiationTimeout : ClientSseStateMachine :=
  if s.currentState = waitingForEndpoint then handleEvent timeout s .negotiationTimeout else s

/-- Time passes, and the timer fires once if it is due by then. -/
def elapse (duration : Nat) : ClientSseStateMachine :=
  let later := { s with now := s.now + duration }
  if s.negotiationTimer.any (· ≤ later.now) then onNegotiationTimeout timeout { later with negotiationTimer := none }
  else later

def step : ClientSseInput → ClientSseStateMachine
  | .event event => handleEvent timeout s event
  | .elapse duration => elapse timeout s duration

/-- The client's machine when the request for the stream has been sent. -/
def sent (now : Int) : ClientSseStateMachine :=
  handleEvent timeout (handleEvent timeout ⟨idle, now, none⟩ .connectionReady) .getSent

/-! ### What is promised -/

/-- Neither an endpoint nor the end of the connection. -/
def IsSilent : ClientSseInput → Prop
  | .event .endpointReceived | .event .close | .event .streamError => False
  | _ => True

def durationOf : ClientSseInput → Nat
  | .event _ => 0
  | .elapse duration => duration

def elapsed (inputs : List ClientSseInput) : Nat := (inputs.map durationOf).sum

/-- Once the timeout has passed, the wait has ended in an error. -/
def MeetsDeadline (timeout now : Int) (inputs : List ClientSseInput) : Prop :=
  0 < timeout → timeout ≤ elapsed inputs → (Runs.run (step timeout) (sent timeout now) inputs).currentState = error

/-- The stream is confirmed while the wait goes on. -/
def ConfirmedEarly (wait : Int) (inputs : List ClientSseInput) : Prop :=
  ∃ before after, inputs = before ++ .event .streamStarted :: after ∧ elapsed before < wait ∧
    .event .negotiationTimeout ∉ before

/-! ### Steps -/

variable {timeout} {s} {state : ClientSseState} {now due wait : Int} {input : ClientSseInput} {inputs : List ClientSseInput}

/-- The wait has ended, in the stream or in an error. -/
def Ended (state : ClientSseState) (s : ClientSseStateMachine) : Prop :=
  s.currentState = state ∧ s.negotiationTimer = none

theorem elapse_of_ended (h : Ended state s) (duration : Nat) : Ended state (elapse timeout s duration) := by
  unfold elapse
  rw [h.2]
  exact ⟨h.1, rfl⟩

/-- What is silent ends neither the stream nor the error. -/
theorem ended_step (hstate : state = active ∨ state = error) (hsilent : IsSilent input)
    (h : Ended state s) : Ended state (step timeout s input) := by
  cases input with
  | elapse duration => exact elapse_of_ended h duration
  | event event =>
      have hstays : s.currentState.handleEvent event = s.currentState := by
        rw [h.1]
        obtain rfl | rfl := hstate
        · cases event with
          | streamError | close => exact absurd hsilent id
          | _ => rfl
        · cases event with
          | close => exact absurd hsilent id
          | _ => rfl
      show Ended state (handleEvent timeout s event)
      rw [handleEvent, if_pos hstays]
      exact h

theorem ended_run (hstate : state = active ∨ state = error)
    (hsilent : ∀ input ∈ inputs, IsSilent input) (h : Ended state s) :
    (Runs.run (step timeout) s inputs).currentState = state := by
  have hrun : Ended state (Runs.run (step timeout) s inputs) :=
    Runs.invariant (step timeout) (fun _ _ hinput => ended_step hstate hinput) h
      (Runs.guarded_of_forall (step timeout) hsilent s)
  exact hrun.1

theorem sent_eq (htimeout : 0 < timeout) (now : Int) :
    sent timeout now = ⟨waitingForEndpoint, now, some (now + timeout)⟩ := by
  show onStateEnter timeout ⟨waitingForEndpoint, now, none⟩ waitingForEndpoint = _
  exact if_pos htimeout

/-- Before it is due the timer waits, and then it ends the wait. -/
theorem elapse_waiting (duration : Nat) :
    elapse timeout ⟨waitingForEndpoint, now, some due⟩ duration =
      if due ≤ now + duration then ⟨error, now + duration, none⟩
      else ⟨waitingForEndpoint, now + duration, some due⟩ := by
  unfold elapse
  by_cases hdue : due ≤ now + duration
  · rw [if_pos hdue, if_pos (by simpa using hdue)]
    rfl
  · rw [if_neg hdue, if_neg (by simpa using hdue)]

/-! ### Runs -/

theorem confirmedEarly_cons (input : ClientSseInput) (inputs : List ClientSseInput) :
    ConfirmedEarly wait (input :: inputs) ↔
      input = .event .streamStarted ∧ 0 < wait ∨
        input ≠ .event .negotiationTimeout ∧ ConfirmedEarly (wait - durationOf input) inputs := by
  constructor
  · rintro ⟨before, after, hsplit, hwait, htimeout⟩
    cases before with
    | nil =>
        obtain ⟨rfl, -⟩ := List.cons.inj hsplit
        exact Or.inl ⟨rfl, hwait⟩
    | cons first before =>
        obtain ⟨rfl, hrest⟩ := List.cons.inj hsplit
        refine Or.inr ⟨(List.ne_of_not_mem_cons htimeout).symm, before, after, hrest, ?_,
          List.not_mem_of_not_mem_cons htimeout⟩
        unfold elapsed at hwait ⊢
        rw [List.map_cons, List.sum_cons] at hwait
        omega
  · rintro (⟨rfl, hwait⟩ | ⟨hinput, before, after, rfl, hwait, htimeout⟩)
    · exact ⟨[], inputs, rfl, hwait, List.not_mem_nil⟩
    · refine ⟨input :: before, after, rfl, ?_, List.not_mem_cons_of_ne_of_not_mem (Ne.symm hinput) htimeout⟩
      unfold elapsed at hwait ⊢
      rw [List.map_cons, List.sum_cons]
      omega

/-- A wait that goes on ends in an error unless the stream is confirmed before. -/
theorem run_waiting (hsilent : ∀ input ∈ inputs, IsSilent input) (hdue : now < due)
    (helapsed : due - now ≤ elapsed inputs) :
    (Runs.run (step timeout) ⟨waitingForEndpoint, now, some due⟩ inputs).currentState = error ↔
      ¬ ConfirmedEarly (due - now) inputs := by
  induction inputs generalizing now with
  | nil =>
      have hnone : elapsed [] = 0 := rfl
      rw [hnone] at helapsed
      omega
  | cons input rest ih =>
      obtain ⟨hinput, hrest⟩ := List.forall_mem_cons.mp hsilent
      have hlater : elapsed (input :: rest) = durationOf input + elapsed rest := by
        unfold elapsed
        rw [List.map_cons, List.sum_cons]
      rw [hlater] at helapsed
      rw [Runs.run_cons, confirmedEarly_cons]
      -- What neither confirms the stream nor ends the wait leaves it as long as it was.
      have hignored : durationOf input = 0 → input ≠ .event .streamStarted → input ≠ .event .negotiationTimeout →
          step timeout ⟨waitingForEndpoint, now, some due⟩ input = ⟨waitingForEndpoint, now, some due⟩ →
          ((Runs.run (step timeout) (step timeout ⟨waitingForEndpoint, now, some due⟩ input) rest).currentState =
              error ↔
            ¬ (input = .event .streamStarted ∧ 0 < due - now ∨
              input ≠ .event .negotiationTimeout ∧ ConfirmedEarly (due - now - durationOf input) rest)) := by
        intro hnone hstart htimer hsame
        rw [hsame, ih hrest hdue (by omega), hnone]
        simp [hstart, htimer]
      cases input with
      | elapse duration =>
          show (Runs.run (step timeout) (elapse timeout _ duration) rest).currentState = error ↔ _
          rw [elapse_waiting]
          split_ifs with hfires
          · rw [ended_run (Or.inr rfl) hrest ⟨rfl, rfl⟩]
            refine iff_of_true rfl ?_
            rintro (⟨hstart, -⟩ | ⟨-, before, -, -, hwait, -⟩)
            · exact absurd hstart (by simp)
            · simp only [durationOf] at hwait
              omega
          · rw [ih hrest (by omega) (by simp only [durationOf] at helapsed; omega)]
            have hwait : due - (now + duration) = due - now - duration := by omega
            simp [hwait, durationOf]
      | event event =>
          cases event with
          | endpointReceived | close | streamError => exact absurd hinput id
          | streamStarted =>
              rw [@ended_run timeout _ active _ (Or.inl rfl) hrest ⟨rfl, rfl⟩]
              refine iff_of_false (by decide) ?_
              exact not_not_intro (Or.inl ⟨rfl, by omega⟩)
          | negotiationTimeout =>
              rw [@ended_run timeout _ error _ (Or.inr rfl) hrest ⟨rfl, rfl⟩]
              simp
          | connectionReady | getSent | initResponseReceived | sessionLost =>
              exact hignored rfl (by simp) (by simp) rfl

/-- **The deadline of the endpoint.** With neither an endpoint nor the end of the connection the wait has ended in an
error once its timeout has passed, exactly if the stream was not confirmed while it went on. -/
theorem meetsDeadline_iff (hsilent : ∀ input ∈ inputs, IsSilent input) :
    MeetsDeadline timeout now inputs ↔
      (0 < timeout → timeout ≤ elapsed inputs → ¬ ConfirmedEarly timeout inputs) := by
  unfold MeetsDeadline
  refine forall_congr' fun htimeout => forall_congr' fun helapsed => ?_
  have hwait : now + timeout - now = timeout := by omega
  rw [sent_eq htimeout, run_waiting hsilent (by omega) (by omega), hwait]

theorem meetsDeadline_iff_waited :
    MeetsDeadline 30000 0 [.event .getSent, .elapse 30000, .event .streamStarted] ↔
      ((0 : Int) < 30000 → (30000 : Int) ≤ elapsed [.event .getSent, .elapse 30000, .event .streamStarted] →
        ¬ ConfirmedEarly 30000 [.event .getSent, .elapse 30000, .event .streamStarted]) :=
  meetsDeadline_iff (by simp [IsSilent])

/-- The headers come at once, and then nothing. -/
theorem not_meetsDeadline :
    ¬ ∀ (timeout now : Int) (inputs : List ClientSseInput), (∀ input ∈ inputs, IsSilent input) →
      MeetsDeadline timeout now inputs := by
  intro h
  have herror := h 30000 0 [.event .streamStarted, .elapse 30000] (by simp [IsSilent]) (by decide) (by decide)
  exact absurd herror (by decide)

end ClientSseStateMachine

end GopherMcp
