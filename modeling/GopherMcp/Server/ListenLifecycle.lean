import GopherMcp.Server.ListenRegistry

/-!
# The life of a subscription

A subscription only moves forward: it is being acknowledged, then held, then gone, and nothing that is
gone is held again. Everything about final responses follows from that, and everything about what `open`
returns.
-/

namespace GopherMcp

namespace ListenRegistry

variable {text : JsonText} {s : State} {subscription : Subscription}

/-! ### Subscriptions -/

/-- The registry holds this subscription. -/
def Registered (s : State) (subscription : Subscription) : Prop :=
  s.subscriptions.find? subscription.key = some subscription

theorem isCurrent_iff : s.isCurrent subscription = true ↔ Registered s subscription := by
  simp [State.isCurrent, Registered]

/-- The numbers of the subscriptions still being acknowledged. -/
def acknowledgingNumbers (stack : List Frame) : List Nat :=
  stack.filterMap fun frame =>
    match frame with
    | .acknowledging subscription => some subscription.number
    | _ => none

@[simp] theorem acknowledgingNumbers_nil : acknowledgingNumbers [] = [] := rfl

/-- The acknowledgement of this subscription is over. -/
def Past (s : State) (subscription : Subscription) : Prop :=
  subscription.number < s.nextNumber ∧ subscription.number ∉ acknowledgingNumbers s.stack

/-- An observer of this subscription is waiting on a token or about to run. -/
def Watched (s : State) (subscription : Subscription) : Prop :=
  (∃ stream, subscription ∈ (s.tokens stream).observers) ∨
    ∃ observers, .cancelling observers ∈ s.stack ∧ subscription ∈ observers

/-- The entry says that this subscription got its final response. -/
def Entry.Responds (subscription : Subscription) : Entry → Prop
  | .responded other _ => other = subscription
  | _ => False

/-- The entry says that this subscription got its final response or was cancelled. -/
def Entry.Ends (subscription : Subscription) : Entry → Prop
  | .responded other _ => other = subscription
  | .observed other => other = subscription
  | _ => False

structure Lifecycle (s : State) : Prop where
  keyed : ∀ key subscription, s.subscriptions.find? key = some subscription → subscription.key = key
  distinct : (acknowledgingNumbers s.stack).Nodup
  numbered : ∀ number ∈ acknowledgingNumbers s.stack, number < s.nextNumber
  held : ∀ subscription, Registered s subscription → Past s subscription
  watched : ∀ subscription, Watched s subscription → Past s subscription
  ended : ∀ subscription, ∀ entry ∈ s.log, entry.Ends subscription →
    Past s subscription ∧ ¬ Registered s subscription
  responses : s.log.Pairwise fun earlier later =>
    ∀ subscription, earlier.Ends subscription → ¬ later.Responds subscription

theorem lifecycle_empty : Lifecycle State.empty where
  keyed _ _ h := by simp [State.empty] at h
  distinct := List.nodup_nil
  numbered _ h := by simp [State.empty] at h
  held _ h := by simp [Registered, State.empty] at h
  watched _ h := by simp [Watched, State.empty] at h
  ended _ _ h := by simp [State.empty] at h
  responses := List.Pairwise.nil

namespace Lifecycle

/-- Frames may be pushed that acknowledge nothing new and run no observer that is not past. -/
theorem setStack (h : Lifecycle s) (stack : List Frame)
    (hsub : (acknowledgingNumbers stack).Sublist (acknowledgingNumbers s.stack))
    (hobservers : ∀ observers, .cancelling observers ∈ stack → ∀ subscription ∈ observers,
      Past s subscription) :
    Lifecycle { s with stack := stack } := by
  have hpast : ∀ subscription, Past s subscription → Past { s with stack := stack } subscription :=
    fun subscription hp => ⟨hp.1, fun hmem => hp.2 (hsub.subset hmem)⟩
  exact
    { keyed := h.keyed
      distinct := h.distinct.sublist hsub
      numbered := fun number hmem => h.numbered number (hsub.subset hmem)
      held := fun subscription hreg => hpast subscription (h.held subscription hreg)
      watched := by
        rintro subscription (htoken | ⟨observers, hframe, hmem⟩)
        · exact hpast subscription (h.watched subscription (Or.inl htoken))
        · exact hpast subscription (hobservers observers hframe subscription hmem)
      ended := fun subscription entry hentry hends =>
        (h.ended subscription entry hentry hends).imp (hpast subscription) id
      responses := h.responses }

/-- An entry may be told that ends only what is past and gone, and responds only to what has not
ended. -/
theorem tell (h : Lifecycle s) (entry : Entry)
    (hends : ∀ subscription, entry.Ends subscription →
      Past s subscription ∧ ¬ Registered s subscription)
    (hresponds : ∀ subscription, entry.Responds subscription →
      ∀ earlier ∈ s.log, ¬ earlier.Ends subscription) :
    Lifecycle (s.tell entry) where
  keyed := h.keyed
  distinct := h.distinct
  numbered := h.numbered
  held := h.held
  watched := h.watched
  ended := by
    intro subscription told htold
    rcases List.mem_append.mp htold with hold | hnew
    · exact h.ended subscription told hold
    · obtain rfl := List.mem_singleton.mp hnew
      exact hends subscription
  responses := by
    refine List.pairwise_append.mpr ⟨h.responses, List.pairwise_singleton _ _, ?_⟩
    intro earlier hearlier later hlater subscription hend hrespond
    obtain rfl := List.mem_singleton.mp hlater
    exact hresponds subscription hrespond earlier hearlier hend

/-- An entry that ends nothing may be told. -/
theorem tell_other (h : Lifecycle s) {entry : Entry} (hentry : ∀ subscription, ¬ entry.Ends subscription)
    (hrespond : ∀ subscription, ¬ entry.Responds subscription) : Lifecycle (s.tell entry) :=
  h.tell entry (fun subscription hends => absurd hends (hentry subscription))
    (fun subscription hresponds => absurd hresponds (hrespond subscription))

/-- Subscriptions may be dropped. -/
theorem setSubscriptions (h : Lifecycle s) (kept : OrdMap SubscriptionKey Subscription)
    (hkept : ∀ key subscription, kept.find? key = some subscription →
      s.subscriptions.find? key = some subscription) :
    Lifecycle { s with subscriptions := kept } where
  keyed key subscription hfind := h.keyed key subscription (hkept key subscription hfind)
  distinct := h.distinct
  numbered := h.numbered
  held subscription hreg := h.held subscription (hkept _ _ hreg)
  watched := h.watched
  ended subscription entry hentry hends :=
    (h.ended subscription entry hentry hends).imp id fun hgone hreg => hgone (hkept _ _ hreg)
  responses := h.responses

theorem forget (h : Lifecycle s) (key : SubscriptionKey) : Lifecycle (s.forget key) :=
  h.setSubscriptions _ fun other subscription hfind => by
    rw [OrdMap.find?_erase] at hfind
    split_ifs at hfind
    exact hfind

theorem not_registered_forget : ¬ Registered (s.forget subscription.key) subscription := by
  simp [Registered, State.forget]

theorem past_observe {other : Subscription} : Past (s.observe subscription) other ↔ Past s other := by
  unfold State.observe
  split_ifs <;> rfl

theorem observe (h : Lifecycle s) (hpast : Past s subscription) :
    Lifecycle (s.observe subscription) := by
  unfold State.observe
  have hnone : ∀ other, (Entry.observed subscription).Responds other → False := fun _ h => h
  split_ifs with hcurrent
  · refine (h.forget subscription.key).tell _ ?_ fun other hresponds => (hnone other hresponds).elim
    rintro other rfl
    exact ⟨hpast, not_registered_forget⟩
  · refine h.tell _ ?_ fun other hresponds => (hnone other hresponds).elim
    rintro other rfl
    exact ⟨hpast, fun hreg => hcurrent (isCurrent_iff.mpr hreg)⟩

theorem setTokens (h : Lifecycle s) (tokens : Nat → CancellationToken)
    (hobservers : ∀ stream, ∀ subscription ∈ (tokens stream).observers, Past s subscription) :
    Lifecycle { s with tokens := tokens } where
  keyed := h.keyed
  distinct := h.distinct
  numbered := h.numbered
  held := h.held
  watched := by
    rintro subscription (⟨stream, hmem⟩ | hframe)
    · exact hobservers stream subscription hmem
    · exact h.watched subscription (Or.inr hframe)
  ended := h.ended
  responses := h.responses

theorem nextNumber (h : Lifecycle s) : Lifecycle { s with nextNumber := s.nextNumber + 1 } := by
  have hpast : ∀ subscription, Past s subscription →
      Past { s with nextNumber := s.nextNumber + 1 } subscription :=
    fun subscription hp => ⟨hp.1.trans (Nat.lt_succ_self _), hp.2⟩
  exact
    { keyed := h.keyed
      distinct := h.distinct
      numbered := fun number hmem => (h.numbered number hmem).trans (Nat.lt_succ_self _)
      held := fun subscription hreg => hpast subscription (h.held subscription hreg)
      watched := fun subscription hwatched => hpast subscription (h.watched subscription hwatched)
      ended := fun subscription entry hentry hends =>
        (h.ended subscription entry hentry hends).imp (hpast subscription) id
      responses := h.responses }

/-- A frame that acknowledges nothing may be pushed. -/
theorem push (h : Lifecycle s) (frame : Frame) (hnumbers : acknowledgingNumbers [frame] = [])
    (hobservers : ∀ observers, frame = .cancelling observers → ∀ subscription ∈ observers,
      Past s subscription) : Lifecycle (s.push frame) := by
  refine h.setStack (frame :: s.stack) ?_ ?_
  · have hcons : acknowledgingNumbers (frame :: s.stack) =
        acknowledgingNumbers [frame] ++ acknowledgingNumbers s.stack := by
      rw [acknowledgingNumbers, acknowledgingNumbers, acknowledgingNumbers, ← List.filterMap_append,
        List.singleton_append]
    rw [hcons, hnumbers, List.nil_append]
  · intro observers hframe subscription hmem
    rcases List.mem_cons.mp hframe with heq | hold
    · exact hobservers observers heq.symm subscription hmem
    · exact h.watched subscription (Or.inr ⟨observers, hold, hmem⟩)

/-- The frame on top may be popped. -/
theorem pop {frame : Frame} (h : Lifecycle (s.push frame)) : Lifecycle s := by
  have hsub : (acknowledgingNumbers s.stack).Sublist (acknowledgingNumbers (frame :: s.stack)) :=
    (List.sublist_cons_self frame s.stack).filterMap _
  refine h.setStack s.stack hsub fun observers hframe subscription hmem => ?_
  exact h.watched subscription (Or.inr ⟨observers, List.mem_cons_of_mem _ hframe, hmem⟩)

/-- An observer waiting in the frame on top belongs to a subscription that is past. -/
theorem past_of_cancelling {observers : List Subscription}
    (h : Lifecycle (s.push (.cancelling observers))) : ∀ other ∈ observers, Past s other :=
  fun other hmem => h.watched other (Or.inr ⟨observers, List.mem_cons_self, hmem⟩)

theorem cancel (h : Lifecycle s) (stream : Nat) : Lifecycle (s.cancel stream) := by
  simp only [State.cancel]
  split_ifs
  · exact h
  · have hobservers : ∀ other ∈ (s.tokens stream).observers, Past s other :=
      fun other hmem => h.watched other (Or.inl ⟨stream, hmem⟩)
    have hpushed : Lifecycle (s.push (.cancelling (s.tokens stream).observers)) :=
      h.push _ rfl fun observers heq => by cases heq; exact hobservers
    refine hpushed.setTokens _ fun other subscription hmem => ?_
    by_cases hstream : other = stream
    · subst hstream
      simp at hmem
    · simp only [Function.update_of_ne hstream] at hmem
      exact hpushed.watched subscription (Or.inl ⟨other, hmem⟩)

theorem addObserver (h : Lifecycle s) (hpast : Past s subscription) :
    Lifecycle (s.addObserver subscription) := by
  simp only [State.addObserver]
  split_ifs
  · exact h.observe hpast
  · refine h.setTokens _ fun stream other hmem => ?_
    by_cases hstream : stream = subscription.stream
    · subst hstream
      rw [Function.update_self, List.mem_append, List.mem_singleton] at hmem
      rcases hmem with hold | rfl
      · exact h.watched other (Or.inl ⟨_, hold⟩)
      · exact hpast
    · rw [Function.update_of_ne hstream] at hmem
      exact h.watched other (Or.inl ⟨stream, hmem⟩)

/-- A subscription whose acknowledgement is over may be held, if nothing has ended it. -/
theorem insert (h : Lifecycle s) (hpast : Past s subscription)
    (hnew : ∀ entry ∈ s.log, ¬ entry.Ends subscription) :
    Lifecycle { s with subscriptions := s.subscriptions.insert subscription.key subscription } := by
  have hcases : ∀ key other,
      (s.subscriptions.insert subscription.key subscription).find? key = some other →
        (key = subscription.key ∧ other = subscription) ∨ s.subscriptions.find? key = some other := by
    intro key other hfind
    rw [OrdMap.find?_insert] at hfind
    split_ifs at hfind with hkey
    · exact Or.inl ⟨hkey, (Option.some.inj hfind).symm⟩
    · exact Or.inr hfind
  exact
    { keyed := fun key other hfind => by
        rcases hcases key other hfind with ⟨rfl, rfl⟩ | hold
        · rfl
        · exact h.keyed key other hold
      distinct := h.distinct
      numbered := h.numbered
      held := fun other hreg => by
        rcases hcases _ other hreg with ⟨_, rfl⟩ | hold
        · exact hpast
        · exact h.held other hold
      watched := h.watched
      ended := fun other entry hentry hends => by
        obtain ⟨hother, hgone⟩ := h.ended other entry hentry hends
        refine ⟨hother, fun hreg => ?_⟩
        rcases hcases _ other hreg with ⟨_, rfl⟩ | hold
        · exact hnew entry hentry hends
        · exact hgone hold
      responses := h.responses }

/-- The subscription on top is past once its frame is popped, and nothing has ended it. -/
theorem past_of_acknowledging (h : Lifecycle (s.push (.acknowledging subscription))) :
    Past s subscription ∧ ∀ entry ∈ s.log, ¬ entry.Ends subscription := by
  have hmem : subscription.number ∈ acknowledgingNumbers (s.push (.acknowledging subscription)).stack :=
    List.mem_cons_self
  refine ⟨⟨h.numbered _ hmem, ?_⟩, fun entry hentry hends => ?_⟩
  · exact (List.nodup_cons.mp h.distinct).1
  · exact (h.ended subscription entry hentry hends).1.2 hmem

theorem finishOpen (h : Lifecycle (s.push (.acknowledging subscription))) (sent : Bool) :
    Lifecycle (s.finishOpen subscription sent) := by
  obtain ⟨hpast, hnew⟩ := h.past_of_acknowledging
  unfold State.finishOpen
  split_ifs
  · exact h.pop.tell_other (fun _ h => h) (fun _ h => h)
  · exact h.pop.tell_other (fun _ h => h) (fun _ h => h)
  · refine Lifecycle.tell_other ?_ (fun _ h => h) (fun _ h => h)
    exact (h.pop.insert hpast hnew).addObserver hpast

/-- A subscription with a new number may start being acknowledged. -/
theorem acknowledge (h : Lifecycle s) (hnumber : subscription.number = s.nextNumber) :
    Lifecycle ({ s with nextNumber := s.nextNumber + 1 }.push (.acknowledging subscription)) := by
  have hpast : ∀ other, Past s other →
      Past ({ s with nextNumber := s.nextNumber + 1 }.push (.acknowledging subscription)) other := by
    rintro other ⟨hless, hmem⟩
    refine ⟨hless.trans (Nat.lt_succ_self _), fun hcons => ?_⟩
    rcases List.mem_cons.mp hcons with heq | hold
    · omega
    · exact hmem hold
  exact
    { keyed := h.keyed
      distinct := List.nodup_cons.mpr
        ⟨fun hmem => absurd (h.numbered _ hmem) (by omega), h.distinct⟩
      numbered := fun number hmem => by
        change number < s.nextNumber + 1
        rcases List.mem_cons.mp hmem with rfl | hold
        · omega
        · exact (h.numbered number hold).trans (Nat.lt_succ_self _)
      held := fun other hreg => hpast other (h.held other hreg)
      watched := by
        rintro other (htoken | ⟨observers, hframe, hmem⟩)
        · exact hpast other (h.watched other (Or.inl htoken))
        · rcases List.mem_cons.mp hframe with heq | hold
          · cases heq
          · exact hpast other (h.watched other (Or.inr ⟨observers, hold, hmem⟩))
      ended := fun other entry hentry hends =>
        (h.ended other entry hentry hends).imp (hpast other) (fun hgone => hgone)
      responses := h.responses }

theorem callOpen (h : Lifecycle s) (caller : Bytes) (id : RequestId) (stream : Option Nat)
    (filter : NotificationFilter) : Lifecycle (s.callOpen text caller id stream filter) := by
  unfold State.callOpen
  cases stream with
  | none => exact h.nextNumber.tell_other (fun _ h => h) (fun _ h => h)
  | some stream =>
      simp only
      split_ifs
      · exact h.nextNumber.tell_other (fun _ h => h) (fun _ h => h)
      · exact (h.acknowledge rfl).tell_other (fun _ h => h) (fun _ h => h)

theorem callClose (h : Lifecycle s) (key : SubscriptionKey) : Lifecycle (s.callClose key) := by
  unfold State.callClose
  split
  · exact h
  · rename_i subscription hfind
    obtain rfl := h.keyed key subscription hfind
    refine Lifecycle.push ?_ _ rfl fun _ heq => by cases heq
    refine (h.forget subscription.key).tell _ ?_ ?_
    · rintro other rfl
      exact ⟨h.held _ hfind, not_registered_forget⟩
    · rintro other rfl earlier hearlier hends
      exact (h.ended _ earlier hearlier hends).2 hfind

theorem turn (frame : Frame) (h : Lifecycle (s.push frame)) : Lifecycle (s.turn text frame) := by
  unfold State.turn
  split
  · exact h.pop.tell_other (fun _ h => h) (fun _ h => h)
  · split_ifs
    · refine Lifecycle.push ?_ _ rfl fun _ heq => by cases heq
      exact h.pop.tell_other (fun _ h => h) (fun _ h => h)
    · refine Lifecycle.push ?_ _ rfl fun _ heq => by cases heq
      exact h.pop.tell_other (fun _ h => h) (fun _ h => h)
  · exact h.pop
  · rename_i subscription held
    have hrest : Lifecycle (s.push (.closingAll held)) :=
      h.pop.push _ rfl fun _ heq => by cases heq
    simp only
    split_ifs
    · exact hrest.callClose _
    · exact hrest
  · exact h.pop
  · have hpast := h.past_of_cancelling
    refine (h.pop.observe (hpast _ List.mem_cons_self)).push _ rfl fun observers heq => ?_
    cases heq
    exact fun other hmem => past_observe.mpr (hpast other (List.mem_cons_of_mem _ hmem))
  · exact h

theorem sendReturns (sent : Bool) (frame : Frame) (h : Lifecycle (s.push frame)) :
    Lifecycle (s.sendReturns sent frame) := by
  unfold State.sendReturns
  split
  · exact h.finishOpen sent
  · exact h.pop.push _ rfl fun _ heq => by cases heq
  · exact h.pop
  · exact h

theorem call (h : Lifecycle s) (action : Action) : Lifecycle (call text s action) := by
  cases action with
  | openCall caller id stream filter => exact h.callOpen caller id stream filter
  | publish change =>
      refine Lifecycle.push ?_ _ rfl fun _ heq => by cases heq
      exact h.nextNumber.tell_other (fun _ h => h) (fun _ h => h)
  | close caller id => exact h.callClose _
  | closeAll => exact h.push _ rfl fun _ heq => by cases heq
  | forget caller id => exact h.forget _
  | forgetDead alive =>
      refine h.setSubscriptions _ fun key other hfind => ?_
      rw [OrdMap.find?_filter, Option.filter_eq_some_iff] at hfind
      exact hfind.1
  | cancel stream => exact h.cancel stream
  | sendReturns sent => exact h
  | turn => exact h

end Lifecycle

theorem push_self {frame : Frame} {stack : List Frame} (hstack : s.stack = frame :: stack) :
    { s with stack := stack }.push frame = s := by
  rw [State.push, ← hstack]

/-- What a step does: a call from outside, the return of the send on top, the next turn of the call on
top, or nothing. -/
theorem step_cases (text : JsonText) (s : State) (action : Action) :
    (s.outside = true ∧ step text s action = call text s action) ∨
      (∃ sent frame stack, s.stack = frame :: stack ∧ action = .sendReturns sent ∧
        step text s action = { s with stack := stack }.sendReturns sent frame) ∨
      (∃ frame stack, s.stack = frame :: stack ∧ action = .turn ∧
        step text s action = { s with stack := stack }.turn text frame) ∨
      step text s action = s := by
  unfold step
  split
  · rename_i sent frame stack hstack
    exact Or.inr (Or.inl ⟨sent, frame, stack, hstack, rfl, rfl⟩)
  · rename_i frame stack hstack
    exact Or.inr (Or.inr (Or.inl ⟨frame, stack, hstack, rfl, rfl⟩))
  · split_ifs with houtside
    · exact Or.inl ⟨houtside, rfl⟩
    · exact Or.inr (Or.inr (Or.inr rfl))

theorem Lifecycle.step (h : Lifecycle s) (action : Action) : Lifecycle (step text s action) := by
  rcases step_cases text s action with
    ⟨_, hstep⟩ | ⟨sent, frame, stack, hstack, _, hstep⟩ | ⟨frame, stack, hstack, _, hstep⟩ | hstep
  · rw [hstep]
    exact h.call action
  · rw [hstep]
    exact Lifecycle.sendReturns sent frame (by rwa [push_self hstack])
  · rw [hstep]
    exact Lifecycle.turn frame (by rwa [push_self hstack])
  · rwa [hstep]

/-- No two keys of the registry hold one subscription. -/
theorem Lifecycle.nodup_values (h : Lifecycle s) : s.subscriptions.values.Nodup := by
  have hkeys : s.subscriptions.values.map Subscription.key = s.subscriptions.keys := by
    rw [OrdMap.values, OrdMap.keys, List.map_map]
    refine List.map_congr_left fun entry hentry => ?_
    exact h.keyed entry.1 entry.2 (s.subscriptions.mem_entries_iff.mp hentry)
  exact List.Nodup.of_map Subscription.key (hkeys ▸ s.subscriptions.nodup_keys)

theorem lifecycle_run (text : JsonText) (actions : List Action) : Lifecycle (run text actions) :=
  Runs.invariant_of_every_step (step text) (fun _ action h => h.step action) lifecycle_empty actions

end ListenRegistry

end GopherMcp
