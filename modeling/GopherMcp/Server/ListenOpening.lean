import GopherMcp.Server.ListenLifecycle

/-!
# What `open` returns

`open` returns in two places: at once, when it refuses, and after the acknowledgement. There it puts the
subscription in, asks to be told of the cancellation of the stream, and returns true. A stream that is
already cancelled tells it on the spot, and the subscription it reports as open is gone.
-/

namespace GopherMcp

namespace ListenRegistry

variable {text : JsonText} {s : State} {subscription : Subscription}

/-! ### Where `open` returns -/

/-- The registry holds the subscription made by this call. -/
def HoldsNumber (s : State) (number : Nat) : Prop :=
  ∃ subscription, Registered s subscription ∧ subscription.number = number

def Entry.isOpened : Entry → Bool
  | .opened _ _ => true
  | _ => false

/-- No call of `open` returns between these states. -/
def NoReturn (s s' : State) : Prop :=
  ∃ new, s'.log = s.log ++ new ∧ ∀ entry ∈ new, entry.isOpened = false

theorem noReturn_of_log {s' : State} (h : s'.log = s.log) : NoReturn s s' :=
  ⟨[], by rw [h, List.append_nil], nofun⟩

theorem noReturn_of_told {s' : State} {entry : Entry} (h : s'.log = s.log ++ [entry])
    (hentry : entry.isOpened = false) : NoReturn s s' :=
  ⟨[entry], h, by simpa using hentry⟩

theorem noReturn_callClose (key : SubscriptionKey) : NoReturn s (s.callClose key) := by
  unfold State.callClose
  split
  · exact noReturn_of_log rfl
  · exact noReturn_of_told rfl rfl

theorem noReturn_turn (frame : Frame) : NoReturn (s.push frame) (s.turn text frame) := by
  unfold State.turn
  split
  · exact noReturn_of_told rfl rfl
  · split_ifs
    · exact noReturn_of_told rfl rfl
    · exact noReturn_of_told rfl rfl
  · exact noReturn_of_log rfl
  · rename_i next held
    simp only
    split_ifs
    · exact noReturn_callClose (s := s.push (.closingAll held)) next.key
    · exact noReturn_of_log rfl
  · exact noReturn_of_log rfl
  · rename_i next observers
    have hlog : ((s.observe next).push (.cancelling observers)).log = s.log ++ [.observed next] := by
      simp only [State.push, State.observe]
      split_ifs <;> rfl
    exact noReturn_of_told hlog rfl
  · exact noReturn_of_log rfl

theorem log_cancel (stream : Nat) : (s.cancel stream).log = s.log := by
  simp only [State.cancel]
  split_ifs <;> rfl

/-- A step in which `open` may return is a call of it, or the return of its acknowledgement. -/
theorem step_opening (text : JsonText) (s : State) (action : Action) :
    NoReturn s (step text s action) ∨
      (∃ caller id stream filter, action = .openCall caller id stream filter ∧
        step text s action = s.callOpen text caller id stream filter) ∨
      ∃ sent subscription stack, s.stack = .acknowledging subscription :: stack ∧
        action = .sendReturns sent ∧
        step text s action = { s with stack := stack }.finishOpen subscription sent := by
  rcases step_cases text s action with
    ⟨_, hstep⟩ | ⟨sent, frame, stack, hstack, haction, hstep⟩ | ⟨frame, stack, hstack, _, hstep⟩ |
      hstep
  · rw [hstep]
    cases action with
    | openCall caller id stream filter =>
        exact Or.inr (Or.inl ⟨caller, id, stream, filter, rfl, rfl⟩)
    | publish change => exact Or.inl (noReturn_of_told rfl rfl)
    | close caller id => exact Or.inl (noReturn_callClose _)
    | cancel stream => exact Or.inl (noReturn_of_log (log_cancel stream))
    | closeAll => exact Or.inl (noReturn_of_log rfl)
    | forget caller id => exact Or.inl (noReturn_of_log rfl)
    | forgetDead alive => exact Or.inl (noReturn_of_log rfl)
    | sendReturns sent => exact Or.inl (noReturn_of_log rfl)
    | turn => exact Or.inl (noReturn_of_log rfl)
  · cases frame with
    | acknowledging subscription =>
        exact Or.inr (Or.inr ⟨sent, subscription, stack, hstack, haction, hstep⟩)
    | notifying publication change pending count => exact Or.inl (noReturn_of_log (by rw [hstep]; rfl))
    | publishing publication change pending count => exact Or.inl (noReturn_of_log (by rw [hstep]; rfl))
    | responding => exact Or.inl (noReturn_of_log (by rw [hstep]; rfl))
    | closingAll held => exact Or.inl (noReturn_of_log (by rw [hstep]; rfl))
    | cancelling observers => exact Or.inl (noReturn_of_log (by rw [hstep]; rfl))
  · refine Or.inl ?_
    rw [hstep, ← push_self hstack]
    exact noReturn_turn frame
  · exact Or.inl (noReturn_of_log (by rw [hstep]))

/-! ### What it returns -/

/-- What `open` is to return, told by the state it is asked in and the state it returns in: true exactly
when its subscription is held, with every other subscription as it was. -/
structure ReturnsTruth (s s' : State) (number : Nat) (result : Bool) : Prop where
  truth : result = true ↔ HoldsNumber s' number
  others : ∀ subscription : Subscription, subscription.number ≠ number →
    (Registered s' subscription ↔ Registered s subscription)

/-- The acknowledgement returns well, the key is free, and the stream is already cancelled. -/
def CancelledAtOnce (s : State) (action : Action) : Prop :=
  ∃ subscription stack, s.stack = .acknowledging subscription :: stack ∧
    action = .sendReturns true ∧ s.subscriptions.contains subscription.key = false ∧
    (s.tokens subscription.stream).cancelled = true

theorem returnsTruth_refused {s' : State} {number : Nat}
    (hsubscriptions : s'.subscriptions = s.subscriptions) (hgone : ¬ HoldsNumber s number) :
    ReturnsTruth s s' number false where
  truth := by
    have hnot : ¬ HoldsNumber s' number := by
      rintro ⟨subscription, hregistered, hnumber⟩
      rw [Registered, hsubscriptions] at hregistered
      exact hgone ⟨subscription, hregistered, hnumber⟩
    simpa using hnot
  others subscription _ := by rw [Registered, Registered, hsubscriptions]

theorem Lifecycle.not_holds_new (h : Lifecycle s) : ¬ HoldsNumber s s.nextNumber := by
  rintro ⟨subscription, hregistered, hnumber⟩
  have hless := (h.held subscription hregistered).1
  omega

theorem Lifecycle.not_holds_acknowledging (h : Lifecycle s) {stack : List Frame}
    (hstack : s.stack = .acknowledging subscription :: stack) :
    ¬ HoldsNumber s subscription.number := by
  rintro ⟨other, hregistered, hnumber⟩
  refine (h.held other hregistered).2 ?_
  rw [hnumber, hstack]
  exact List.mem_cons_self

/-- A subscription that is put in and watched is held. -/
theorem returnsTruth_held {stack : List Frame}
    (hfree : s.subscriptions.contains subscription.key = false)
    (hrunning : (s.tokens subscription.stream).cancelled = false) :
    ReturnsTruth s ({ s with stack := stack }.finishOpen subscription true) subscription.number true := by
  have hfinish : ({ s with stack := stack }.finishOpen subscription true).subscriptions =
      s.subscriptions.insert subscription.key subscription := by
    simp [State.finishOpen, State.addObserver, State.tell, hfree, hrunning]
  have hnone : s.subscriptions.find? subscription.key = none := by
    simpa [OrdMap.contains] using hfree
  refine ⟨by simpa using ⟨subscription, by simp [Registered, hfinish], rfl⟩, fun other hother => ?_⟩
  have hne : other ≠ subscription := fun heq => hother (congrArg Subscription.number heq)
  rw [Registered, Registered, hfinish, OrdMap.find?_insert]
  split_ifs with hkey
  · rw [hkey, hnone]
    simp [hne.symm]
  · rfl

/-- A subscription on a cancelled stream is put in and forgotten. -/
theorem not_holds_cancelled (stack : List Frame) (hgone : ¬ HoldsNumber s subscription.number)
    (hfree : s.subscriptions.contains subscription.key = false)
    (hcancelled : (s.tokens subscription.stream).cancelled = true) :
    ¬ HoldsNumber ({ s with stack := stack }.finishOpen subscription true) subscription.number := by
  have hcurrent : State.isCurrent
      { s with
        stack := stack
        subscriptions := s.subscriptions.insert subscription.key subscription } subscription = true := by
    simp [State.isCurrent]
  have hfinish : ({ s with stack := stack }.finishOpen subscription true).subscriptions =
      (s.subscriptions.insert subscription.key subscription).erase subscription.key := by
    simp [State.finishOpen, State.addObserver, State.observe, State.tell, State.forget, hfree,
      hcancelled, hcurrent]
  rintro ⟨other, hregistered, hnumber⟩
  refine hgone ⟨other, ?_, hnumber⟩
  rw [Registered, hfinish, OrdMap.find?_erase] at hregistered
  split_ifs at hregistered with hkey
  rwa [OrdMap.find?_insert_of_ne _ hkey] at hregistered

/-- The last entry of a log is one entry. -/
theorem told_last {before before' : List Entry} {entry entry' : Entry}
    (h : before ++ [entry] = before' ++ [entry']) : entry = entry' :=
  List.singleton_inj.mp (List.append_inj' h rfl).2

/-- A call of `open` that returns at once has refused. -/
theorem returnsTruth_callOpen (hlife : Lifecycle s) {caller : Bytes} {id : RequestId}
    {stream : Option Nat} {filter : NotificationFilter} {new : List Entry} {number : Nat}
    {result : Bool}
    (hreturns : (s.callOpen text caller id stream filter).log = s.log ++ new ++ [.opened number result]) :
    ReturnsTruth s (s.callOpen text caller id stream filter) number result := by
  unfold State.callOpen at hreturns ⊢
  cases stream with
  | none =>
      cases told_last (hreturns : s.log ++ [_] = _)
      exact returnsTruth_refused rfl hlife.not_holds_new
  | some stream =>
      simp only at hreturns ⊢
      split_ifs at hreturns ⊢
      · cases told_last (hreturns : s.log ++ [_] = _)
        exact returnsTruth_refused rfl hlife.not_holds_new
      · cases told_last (hreturns : s.log ++ [_] = _)

/-- With the key free, `open` returns true. -/
theorem opened_of_free {stack : List Frame} {new : List Entry} {number : Nat} {result : Bool}
    (hfree : s.subscriptions.contains subscription.key = false)
    (hreturns : ({ s with stack := stack }.finishOpen subscription true).log =
      s.log ++ new ++ [.opened number result]) :
    Entry.opened subscription.number true = .opened number result := by
  unfold State.finishOpen at hreturns
  simp only [Bool.not_true, Bool.false_eq_true, if_false, hfree] at hreturns
  exact told_last hreturns

/-- **When `open` reports the truth.** After any run of calls, nested in any way, a call of `open` that
returns has returned the truth exactly when its stream was not already cancelled when it came to be
watched. -/
theorem returnsTruth_iff (text : JsonText) (actions : List Action) (action : Action)
    (new : List Entry) (number : Nat) (result : Bool)
    (hreturns : (step text (run text actions) action).log =
      (run text actions).log ++ new ++ [.opened number result]) :
    ReturnsTruth (run text actions) (step text (run text actions) action) number result ↔
      ¬ CancelledAtOnce (run text actions) action := by
  have hlife := lifecycle_run text actions
  set s := run text actions
  rcases step_opening text s action with
    ⟨told, hlog, htold⟩ | ⟨caller, id, stream, filter, rfl, hstep⟩ |
      ⟨sent, subscription, stack, hstack, rfl, hstep⟩
  · rw [hreturns, List.append_assoc, List.append_cancel_left_eq] at hlog
    exact absurd (htold (.opened number result) (by simp [← hlog])) (by simp [Entry.isOpened])
  · have hnever : ¬ CancelledAtOnce s (.openCall caller id stream filter) := by
      rintro ⟨_, _, _, haction, _⟩
      cases haction
    refine iff_of_true ?_ hnever
    rw [hstep] at hreturns ⊢
    exact returnsTruth_callOpen hlife hreturns
  · have hgone := hlife.not_holds_acknowledging hstack
    rw [hstep] at hreturns ⊢
    cases sent with
    | false =>
        have hnever : ¬ CancelledAtOnce s (.sendReturns false) := by
          rintro ⟨_, _, _, haction, _⟩
          cases haction
        cases told_last (hreturns : s.log ++ [_] = _)
        exact iff_of_true (returnsTruth_refused rfl hgone) hnever
    | true =>
        cases hfree : s.subscriptions.contains subscription.key with
        | true =>
            have hfinish : { s with stack := stack }.finishOpen subscription true =
                { s with stack := stack }.tell (.opened subscription.number false) := by
              simp [State.finishOpen, hfree]
            have hnever : ¬ CancelledAtOnce s (.sendReturns true) := by
              rintro ⟨other, _, hstack', _, hfree', _⟩
              cases hstack.symm.trans hstack'
              rw [hfree] at hfree'
              exact absurd hfree' (by decide)
            rw [hfinish] at hreturns ⊢
            cases told_last (hreturns : s.log ++ [_] = _)
            exact iff_of_true (returnsTruth_refused rfl hgone) hnever
        | false =>
            have hresult := opened_of_free hfree hreturns
            cases hresult
            cases hcancelled : (s.tokens subscription.stream).cancelled with
            | true =>
                refine iff_of_false (fun htruth => ?_) (not_not_intro
                  ⟨subscription, stack, hstack, rfl, hfree, hcancelled⟩)
                exact not_holds_cancelled stack hgone hfree hcancelled (htruth.truth.mp rfl)
            | false =>
                refine iff_of_true (returnsTruth_held hfree hcancelled) ?_
                rintro ⟨other, _, hstack', _, _, hcancelled'⟩
                cases hstack.symm.trans hstack'
                rw [hcancelled] at hcancelled'
                exact absurd hcancelled' (by decide)

/-- A caller that listens for tool changes on a stream of its own. -/
def toolsFilter : NotificationFilter := ⟨true, false, false, [], []⟩

/-- A JSON library that prints nothing, for runs whose texts do not matter. -/
def blankText : JsonText := ⟨fun _ => [], fun _ => none⟩

/-- On a stream nobody cancels, the truth. -/
theorem returnsTruth_running :
    ReturnsTruth (run blankText [.openCall [] (.number 1) (some 0) toolsFilter])
      (run blankText [.openCall [] (.number 1) (some 0) toolsFilter, .sendReturns true]) 0 true :=
  (returnsTruth_iff blankText [.openCall [] (.number 1) (some 0) toolsFilter] (.sendReturns true)
    [] 0 true rfl).mpr (by
      rintro ⟨other, _, hstack, _, _, hcancelled⟩
      cases hstack
      exact absurd hcancelled (by decide))

/-- On a stream that was cancelled before, `open` returns true and holds nothing. -/
theorem returnsTruth_cancelled :
    ¬ ∀ (text : JsonText) (actions : List Action) (action : Action) (new : List Entry)
        (number : Nat) (result : Bool),
      (step text (run text actions) action).log =
        (run text actions).log ++ new ++ [.opened number result] →
      ReturnsTruth (run text actions) (step text (run text actions) action) number result := by
  intro h
  have htruth := h blankText [.cancel 0, .turn, .openCall [] (.number 1) (some 0) toolsFilter]
    (.sendReturns true) [.observed ⟨0, [], .number 1, 0, toolsFilter⟩] 0 true rfl
  have hlife := lifecycle_run blankText
    [.cancel 0, .turn, .openCall [] (.number 1) (some 0) toolsFilter]
  exact not_holds_cancelled [] (hlife.not_holds_acknowledging rfl) rfl rfl (htruth.truth.mp rfl)

end ListenRegistry

end GopherMcp
