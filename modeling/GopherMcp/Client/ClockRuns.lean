import GopherMcp.Client.RequestClocks

/-!
# Clocks follow requests

A request that nobody has answered has its clock running, or the task that starts it still posted; one that was
answered has the task that stops its clock posted behind every task that starts it. Both are kept by every step
but the ones the code does not provide for, which are named here.
-/

namespace GopherMcp

namespace ClientClocks

variable {s : ClientClocks} {held : List ClockContext} {context : ClockContext}

/-! ### What is to be kept -/

/-- Once nothing is posted, every request that is tracked, not settled and not following a task has its timer
armed, in time; and nothing is left of the clock of one whose caller was answered. -/
def Clocked (s : ClientClocks) : Prop :=
  s.posted = [] →
    (∀ context ∈ s.tracker.values, context.id ∉ s.settled → context.id ∉ s.following →
        ∃ due, s.requestTimers.find? context.originId = some (some due) ∧ due ≤ s.deadline context) ∧
      ∀ origin ∈ s.answered, s.requestTimers.find? origin = none ∧ s.requestDeadlines.find? origin = none ∧
        origin ∉ s.progressRoutes

/-- A task comes in time: a clock is started once its request is tracked, and before its deadline. -/
def InTime (s : ClientClocks) : ClockTask → Prop
  | .startClock origin deadline _ =>
      (∀ call ∈ s.calls.find? origin, call.stage ≠ .trackRequest) ∧
        ((s.findByOrigin origin).isSome = true → s.now ≤ deadline)
  | .armRequestTimeout origin _ => ∀ deadline ∈ s.requestDeadlines.find? origin, s.now ≤ deadline
  | _ => True

/-- The tasks and the progress that start a clock come in time, what follows a task is not sent again, and no
request that asks for progress is refused. -/
def Timely (s : ClientClocks) : ClockOp → Prop
  | .sendCancellableRequest _ _ _ onProgress allowed => onProgress = true → allowed = true
  | .runTask _ => ∀ task ∈ s.posted.head?, s.InTime task
  | .routeProgress origin isThreadSafe => isThreadSafe = true → s.InTime (.armRequestTimeout origin 0)
  | .sendAgain id _ => id ∉ s.following
  | _ => True

instance decidableInTime (s : ClientClocks) : (task : ClockTask) → Decidable (s.InTime task)
  | .startClock origin deadline _ =>
      inferInstanceAs (Decidable ((∀ call ∈ s.calls.find? origin, call.stage ≠ .trackRequest) ∧
        ((s.findByOrigin origin).isSome = true → s.now ≤ deadline)))
  | .armRequestTimeout origin _ =>
      inferInstanceAs (Decidable (∀ deadline ∈ s.requestDeadlines.find? origin, s.now ≤ deadline))
  | .stopClock _ | .sendRequestInternal _ | .abandonRequest _ => inferInstanceAs (Decidable True)

instance decidableTimely (s : ClientClocks) : (op : ClockOp) → Decidable (s.Timely op)
  | .sendCancellableRequest _ _ _ onProgress allowed =>
      inferInstanceAs (Decidable (onProgress = true → allowed = true))
  | .runTask _ => inferInstanceAs (Decidable (∀ task ∈ s.posted.head?, s.InTime task))
  | .routeProgress origin isThreadSafe =>
      inferInstanceAs (Decidable (isThreadSafe = true → s.InTime (.armRequestTimeout origin 0)))
  | .sendAgain id _ => inferInstanceAs (Decidable (id ∉ s.following))
  | .sendRequest _ _ | .proceed _ _ | .sendInternalJson _ | .retry _ _ | .answer _ | .followTask _ |
    .cancelRequest _ | .timerFires _ _ | .onConnectionClosed | .advance _ => inferInstanceAs (Decidable True)

/-! ### The invariant -/

def Tracked (s : ClientClocks) (context : ClockContext) : Prop := s.tracker.find? context.id = some context

/-- A context something may still be done with; `held` are those the running code has in hand. -/
inductive Known (s : ClientClocks) (held : List ClockContext) (context : ClockContext) : Prop
  | tracked (h : s.Tracked context)
  | called {call : Call} (h : s.calls.find? call.context.id = some call) (hcontext : call.context = context)
      (hstage : call.stage = .sendRequest ∨ call.stage = .removeRequest)
  | posted (h : .sendRequestInternal context ∈ s.posted)
  | held (h : context ∈ held)

/-- A context the tracker has for a caller who still waits. -/
def Waiting (s : ClientClocks) (context : ClockContext) : Prop := s.Tracked context ∧ context.id ∉ s.settled

/-- Nothing is known of a request by this id yet. -/
structure Unmade (s : ClientClocks) (held : List ClockContext) (id : Nat) : Prop where
  known : ∀ context, s.Known held context → context.originId ≠ id ∧ context.id ≠ id
  answered : id ∉ s.answered
  settled : id ∉ s.settled
  deadline : s.requestDeadlines.find? id = none
  timer : s.requestTimers.find? id = none

structure Sound (s : ClientClocks) (held : List ClockContext) : Prop where
  keyed : ∀ id context, s.tracker.find? id = some context → context.id = id
  called : ∀ id call, s.calls.find? id = some call → call.context.id = id ∧ call.context.originId = id
  fresh : ∀ id, s.nextRequestId ≤ id →
    s.Unmade held id ∧ s.calls.find? id = none ∧ ∀ deadline timeout, .startClock id deadline timeout ∉ s.posted
  beginning : ∀ id call, s.calls.find? id = some call → call.stage = .startClock →
    s.Unmade held id ∧ ∀ deadline timeout, .startClock id deadline timeout ∉ s.posted
  tracking : ∀ id call, s.calls.find? id = some call → call.stage = .trackRequest →
    s.Unmade held id ∧ (∃ deadline timeout, .startClock id deadline timeout ∈ s.posted) ∧
      ∀ deadline timeout, .startClock id deadline timeout ∈ s.posted → deadline = s.deadline call.context
  same : ∀ context other, s.Known held context → s.Known held other → context.id = other.id → context = other
  one : ∀ context other, s.Known held context → context.id ∉ s.settled → s.Waiting other →
    context.originId = other.originId → other = context
  live : ∀ context, s.Waiting context → context.originId ∉ s.answered
  done : ∀ context, s.Tracked context → context.id ∈ s.settled → context.originId ∈ s.answered
  agree : ∀ context, s.Waiting context →
    (∀ deadline, s.requestDeadlines.find? context.originId = some deadline → deadline = s.deadline context) ∧
      ∀ deadline timeout, .startClock context.originId deadline timeout ∈ s.posted → deadline = s.deadline context
  clocked : ∀ context, s.Waiting context → context.id ∉ s.following →
    (∃ deadline timeout, .startClock context.originId deadline timeout ∈ s.posted) ∨
      ∃ due, s.requestTimers.find? context.originId = some (some due) ∧ due ≤ s.deadline context
  stops : ∀ origin, .stopClock origin ∈ s.posted → origin ∈ s.answered
  routes : ∀ origin ∈ s.progressRoutes, origin < s.nextRequestId
  routed : ∀ origin ∈ s.answered, origin ∉ s.progressRoutes
  cleared : ∀ origin ∈ s.answered,
    s.requestTimers.find? origin ≠ none ∨ s.requestDeadlines.find? origin ≠ none → .stopClock origin ∈ s.posted
  followed : ∀ origin ∈ s.answered, ∀ deadline timeout rest,
    .startClock origin deadline timeout :: rest <:+ s.posted → .stopClock origin ∈ rest

/-! ### Contexts in hand -/

theorem Known.mono {other : ClientClocks} {others : List ClockContext} (h : other.Known others context)
    (htracker : ∀ context, other.Tracked context → s.Known held context)
    (hcalls : ∀ call, other.calls.find? call.context.id = some call →
      call.stage = .sendRequest ∨ call.stage = .removeRequest → s.Known held call.context)
    (hposted : ∀ context, .sendRequestInternal context ∈ other.posted → s.Known held context)
    (hheld : ∀ context ∈ others, s.Known held context) : s.Known held context := by
  cases h with
  | tracked h => exact htracker _ h
  | called h hcontext hstage => exact hcontext ▸ hcalls _ h hstage
  | posted h => exact hposted _ h
  | held h => exact hheld _ h

/-- What is known depends on the tracker, the calls and what is posted. -/
theorem Known.congr {other : ClientClocks} (h : other.Known held context) (htracker : other.tracker = s.tracker)
    (hcalls : other.calls = s.calls) (hposted : other.posted = s.posted) : s.Known held context := by
  apply h.mono
  · intro context htracked
    unfold Tracked at htracked
    rw [htracker] at htracked
    exact .tracked htracked
  · intro call hcall hstage
    rw [hcalls] at hcall
    exact .called hcall rfl hstage
  · intro context hin
    rw [hposted] at hin
    exact .posted hin
  · exact fun _ => .held

theorem Unmade.of_known {others : List ClockContext} {id : Nat} (h : s.Unmade held id)
    (hknown : ∀ context, s.Known others context → s.Known held context) : s.Unmade others id :=
  ⟨fun context hcontext => h.known context (hknown context hcontext), h.answered, h.settled, h.deadline, h.timer⟩

/-- What is sound about ids: which are of no request yet, and which of the same one. -/
structure Origins (s : ClientClocks) (held : List ClockContext) : Prop where
  fresh : ∀ id, s.nextRequestId ≤ id →
    s.Unmade held id ∧ s.calls.find? id = none ∧ ∀ deadline timeout, .startClock id deadline timeout ∉ s.posted
  beginning : ∀ id call, s.calls.find? id = some call → call.stage = .startClock →
    s.Unmade held id ∧ ∀ deadline timeout, .startClock id deadline timeout ∉ s.posted
  tracking : ∀ id call, s.calls.find? id = some call → call.stage = .trackRequest →
    s.Unmade held id ∧ (∃ deadline timeout, .startClock id deadline timeout ∈ s.posted) ∧
      ∀ deadline timeout, .startClock id deadline timeout ∈ s.posted → deadline = s.deadline call.context
  same : ∀ context other, s.Known held context → s.Known held other → context.id = other.id → context = other

/-- Where calls and tasks stay, nothing more is known and what was not made still is not. -/
theorem Sound.origins (h : s.Sound held) {other : ClientClocks} {others : List ClockContext}
    (hknown : ∀ context, other.Known others context → s.Known held context)
    (hunmade : ∀ id, s.Unmade held id → other.Unmade others id) (hnext : other.nextRequestId = s.nextRequestId)
    (hcalls : other.calls = s.calls) (hposted : other.posted = s.posted) (hdeadline : other.deadline = s.deadline) :
    other.Origins others where
  fresh := by
    rw [hnext, hcalls, hposted]
    exact fun id hid => ⟨hunmade id (h.fresh id hid).1, (h.fresh id hid).2⟩
  beginning := by
    rw [hcalls, hposted]
    exact fun id call hcall hstage =>
      ⟨hunmade id (h.beginning id call hcall hstage).1, (h.beginning id call hcall hstage).2⟩
  tracking := by
    rw [hcalls, hposted, hdeadline]
    exact fun id call hcall hstage =>
      ⟨hunmade id (h.tracking id call hcall hstage).1, (h.tracking id call hcall hstage).2⟩
  same context other hcontext hother := h.same context other (hknown context hcontext) (hknown other hother)

/-- Which contexts are in hand says only what may become of them. -/
theorem Sound.of_known {others : List ClockContext} (h : s.Sound held)
    (hknown : ∀ context, s.Known others context → s.Known held context) : s.Sound others :=
  { h.origins hknown (fun _ hid => hid.of_known hknown) rfl rfl rfl rfl, h with
    one := fun context other hcontext => h.one context other (hknown context hcontext) }

theorem Sound.hold (h : s.Sound held) (hcontext : s.Known held context) : s.Sound (context :: held) := by
  apply h.of_known
  intro other hother
  refine hother.mono (fun _ => .tracked) (fun _ hcall hstage => .called hcall rfl hstage) (fun _ => .posted) ?_
  intro other hin
  obtain rfl | hin := List.mem_cons.mp hin
  · exact hcontext
  · exact .held hin

theorem Sound.fewer {others : List ClockContext} (h : s.Sound held) (hless : ∀ context ∈ others, context ∈ held) :
    s.Sound others := by
  apply h.of_known
  intro other hother
  exact hother.mono (fun _ => .tracked) (fun _ hcall hstage => .called hcall rfl hstage) (fun _ => .posted)
    fun context hin => .held (hless context hin)

theorem Sound.letGo (h : s.Sound (context :: held)) : s.Sound held := h.fewer fun _ => List.mem_cons_of_mem _

/-! ### The tracker -/

/-- The tracker with some of its requests forgotten. -/
def withTracker (s : ClientClocks) (tracker : OrdMap Nat ClockContext) : ClientClocks := { s with tracker }

theorem known_withTracker {tracker : OrdMap Nat ClockContext}
    (hless : ∀ id context, tracker.find? id = some context → s.tracker.find? id = some context)
    {other : ClockContext} (h : (s.withTracker tracker).Known held other) : s.Known held other :=
  h.mono (fun _ htracked => .tracked (hless _ _ htracked)) (fun _ hcall hstage => .called hcall rfl hstage)
    (fun _ hposted => .posted hposted) fun _ => .held

/-- A request that is forgotten asks for nothing any more. -/
theorem Sound.withTracker (h : s.Sound held) {tracker : OrdMap Nat ClockContext}
    (hless : ∀ id context, tracker.find? id = some context → s.tracker.find? id = some context) :
    (s.withTracker tracker).Sound held := by
  have hwaiting (other : ClockContext) (hother : (s.withTracker tracker).Waiting other) : s.Waiting other :=
    ⟨hless _ _ hother.1, hother.2⟩
  have hunmade {other : Nat} (hother : s.Unmade held other) : (s.withTracker tracker).Unmade held other :=
    ⟨fun context hcontext => hother.known context (known_withTracker hless hcontext), hother.answered, hother.settled,
      hother.deadline, hother.timer⟩
  exact
    { h.origins (fun _ => known_withTracker hless) (fun _ => hunmade) rfl rfl rfl rfl, h with
      keyed := fun key context hfind => h.keyed key context (hless key context hfind)
      one := fun context other hcontext hsettled hother =>
        h.one context other (known_withTracker hless hcontext) hsettled (hwaiting other hother)
      live := fun context hcontext => h.live context (hwaiting context hcontext)
      done := fun context hcontext => h.done context (hless _ _ hcontext)
      agree := fun context hcontext => h.agree context (hwaiting context hcontext)
      clocked := fun context hcontext => h.clocked context (hwaiting context hcontext) }

theorem Sound.removeRequest (h : s.Sound held) (id : Nat) : (s.removeRequest id).Sound held :=
  h.withTracker fun _ _ hfind => (OrdMap.find?_erase_eq_some_iff.mp hfind).1

/-! ### Tasks -/

/-- A task that neither starts a clock nor stops one. -/
def Neutral : ClockTask → Prop
  | .startClock _ _ _ | .stopClock _ => False
  | _ => True

/-- What ends with one more task is that task alone, or ended without it before. -/
theorem suffix_concat_cases {tasks rest : List ClockTask} {first last : ClockTask}
    (h : first :: rest <:+ tasks ++ [last]) :
    first = last ∧ rest = [] ∨ ∃ front, rest = front ++ [last] ∧ first :: front <:+ tasks := by
  obtain hnil | ⟨front, hfront, hsuffix⟩ := List.suffix_concat_iff.mp h
  · cases hnil
  · cases front with
    | nil => exact Or.inl (List.cons.inj hfront)
    | cons head front =>
        obtain ⟨rfl, rfl⟩ := List.cons.inj hfront
        exact Or.inr ⟨front, rfl, hsuffix⟩

theorem Sound.post (h : s.Sound held) {task : ClockTask} (hneutral : Neutral task)
    (hknown : ∀ context, task = .sendRequestInternal context → s.Known held context) :
    (s.post task).Sound held := by
  have hstart {origin : Nat} {deadline timeout : Int}
      (hin : .startClock origin deadline timeout ∈ (s.post task).posted) :
      .startClock origin deadline timeout ∈ s.posted := by
    obtain hin | hin := List.mem_append.mp hin
    · exact hin
    · rw [← List.mem_singleton.mp hin] at hneutral
      exact absurd hneutral id
  have hlater {other : ClockTask} (hin : other ∈ s.posted) : other ∈ (s.post task).posted :=
    List.mem_append_left _ hin
  have hsame (other : ClockContext) (hother : (s.post task).Known held other) : s.Known held other := by
    refine hother.mono (fun _ htracked => .tracked htracked) (fun _ hcall hstage => .called hcall rfl hstage) ?_
      fun _ => .held
    intro other hin
    obtain hin | hin := List.mem_append.mp hin
    · exact .posted hin
    · exact hknown other (List.mem_singleton.mp hin).symm
  have hunmade {id : Nat} (hid : s.Unmade held id) : (s.post task).Unmade held id :=
    ⟨fun context hcontext => hid.known context (hsame context hcontext), hid.answered, hid.settled, hid.deadline,
      hid.timer⟩
  exact
    { h with
      fresh := fun id hid =>
        ⟨hunmade (h.fresh id hid).1, (h.fresh id hid).2.1, fun _ _ hin => (h.fresh id hid).2.2 _ _ (hstart hin)⟩
      beginning := fun id call hcall hstage =>
        ⟨hunmade (h.beginning id call hcall hstage).1,
          fun _ _ hin => (h.beginning id call hcall hstage).2 _ _ (hstart hin)⟩
      tracking := fun id call hcall hstage =>
        have ⟨hid, ⟨deadline, timeout, hin⟩, hall⟩ := h.tracking id call hcall hstage
        ⟨hunmade hid, ⟨deadline, timeout, hlater hin⟩, fun _ _ hin => hall _ _ (hstart hin)⟩
      same := fun context other hcontext hother => h.same context other (hsame context hcontext) (hsame other hother)
      one := fun context other hcontext => h.one context other (hsame context hcontext)
      agree := fun context hcontext =>
        ⟨(h.agree context hcontext).1, fun _ _ hin => (h.agree context hcontext).2 _ _ (hstart hin)⟩
      clocked := fun context hcontext hfollowing =>
        (h.clocked context hcontext hfollowing).imp_left fun ⟨deadline, timeout, hin⟩ =>
          ⟨deadline, timeout, hlater hin⟩
      stops := by
        intro origin hin
        obtain hin | hin := List.mem_append.mp hin
        · exact h.stops origin hin
        · rw [← List.mem_singleton.mp hin] at hneutral
          exact absurd hneutral id
      cleared := fun origin hanswered hleft => hlater (h.cleared origin hanswered hleft)
      followed := by
        intro origin hanswered deadline timeout rest hsuffix
        obtain ⟨hlast, -⟩ | ⟨front, rfl, hfront⟩ := suffix_concat_cases hsuffix
        · rw [← hlast] at hneutral
          exact absurd hneutral id
        · exact List.mem_append_left _ (h.followed origin hanswered deadline timeout front hfront) }

/-- The task at the front may go where nothing depends on it any more. -/
theorem Sound.dropTask (h : s.Sound held) {task : ClockTask} {rest : List ClockTask} (hposted : s.posted = task :: rest)
    (htracking : ∀ id call, s.calls.find? id = some call → call.stage = .trackRequest →
      ∃ deadline timeout, .startClock id deadline timeout ∈ rest)
    (hclocked : ∀ context, s.Waiting context → context.id ∉ s.following →
      (∃ deadline timeout, .startClock context.originId deadline timeout ∈ rest) ∨
        ∃ due, s.requestTimers.find? context.originId = some (some due) ∧ due ≤ s.deadline context)
    (hcleared : ∀ origin ∈ s.answered,
      s.requestTimers.find? origin ≠ none ∨ s.requestDeadlines.find? origin ≠ none → .stopClock origin ∈ rest) :
    { s with posted := rest }.Sound held := by
  have hlater {other : ClockTask} (hin : other ∈ rest) : other ∈ s.posted := by
    rw [hposted]
    exact List.mem_cons_of_mem _ hin
  have hsame (other : ClockContext) (hother : { s with posted := rest }.Known held other) : s.Known held other :=
    hother.mono (fun _ htracked => .tracked htracked) (fun _ hcall hstage => .called hcall rfl hstage)
      (fun _ hin => .posted (hlater hin)) fun _ => .held
  have hunmade {id : Nat} (hid : s.Unmade held id) : { s with posted := rest }.Unmade held id :=
    ⟨fun context hcontext => hid.known context (hsame context hcontext), hid.answered, hid.settled, hid.deadline,
      hid.timer⟩
  exact
    { h with
      fresh := fun id hid =>
        ⟨hunmade (h.fresh id hid).1, (h.fresh id hid).2.1, fun _ _ hin => (h.fresh id hid).2.2 _ _ (hlater hin)⟩
      beginning := fun id call hcall hstage =>
        ⟨hunmade (h.beginning id call hcall hstage).1,
          fun _ _ hin => (h.beginning id call hcall hstage).2 _ _ (hlater hin)⟩
      tracking := fun id call hcall hstage =>
        have ⟨hid, _, hall⟩ := h.tracking id call hcall hstage
        ⟨hunmade hid, htracking id call hcall hstage, fun _ _ hin => hall _ _ (hlater hin)⟩
      same := fun context other hcontext hother => h.same context other (hsame context hcontext) (hsame other hother)
      one := fun context other hcontext => h.one context other (hsame context hcontext)
      agree := fun context hcontext =>
        ⟨(h.agree context hcontext).1, fun _ _ hin => (h.agree context hcontext).2 _ _ (hlater hin)⟩
      clocked := hclocked
      stops := fun origin hin => h.stops origin (hlater hin)
      cleared := hcleared
      followed := by
        intro origin hanswered deadline timeout tasks hsuffix
        apply h.followed origin hanswered deadline timeout tasks
        rw [hposted]
        exact hsuffix.trans (List.suffix_cons task rest) }

theorem mem_rest {first task : ClockTask} {rest : List ClockTask} (hposted : s.posted = first :: rest)
    (hin : task ∈ s.posted) (hne : task ≠ first) : task ∈ rest := by
  rw [hposted] at hin
  exact (List.mem_cons.mp hin).resolve_left hne

theorem Sound.dropNeutral (h : s.Sound held) {task : ClockTask} {rest : List ClockTask}
    (hposted : s.posted = task :: rest) (hneutral : Neutral task) : { s with posted := rest }.Sound held := by
  have hstart {id : Nat} {deadline timeout : Int} : .startClock id deadline timeout ≠ task := by
    intro heq
    rw [← heq] at hneutral
    exact hneutral
  have hstop {origin : Nat} : .stopClock origin ≠ task := by
    intro heq
    rw [← heq] at hneutral
    exact hneutral
  apply h.dropTask hposted
  · intro id call hcall hstage
    obtain ⟨-, ⟨deadline, timeout, hin⟩, -⟩ := h.tracking id call hcall hstage
    exact ⟨deadline, timeout, mem_rest hposted hin hstart⟩
  · intro context hcontext hfollowing
    exact (h.clocked context hcontext hfollowing).imp_left fun ⟨deadline, timeout, hin⟩ =>
      ⟨deadline, timeout, mem_rest hposted hin hstart⟩
  · intro origin hanswered hleft
    exact mem_rest hposted (h.cleared origin hanswered hleft) hstop

/-- The task that starts a clock goes when the clock is running, or nobody waits for it. -/
theorem Sound.dropStart (h : s.Sound held) {origin : Nat} {deadline timeout : Int} {rest : List ClockTask}
    (hposted : s.posted = .startClock origin deadline timeout :: rest)
    (hcalls : ∀ call ∈ s.calls.find? origin, call.stage ≠ .trackRequest)
    (harmed : ∀ context, s.Waiting context → context.originId = origin →
      ∃ due, s.requestTimers.find? context.originId = some (some due) ∧ due ≤ s.deadline context) :
    { s with posted := rest }.Sound held := by
  have hother {id : Nat} {due after : Int} (hne : id ≠ origin) (hin : .startClock id due after ∈ s.posted) :
      .startClock id due after ∈ rest :=
    mem_rest hposted hin fun heq => hne (ClockTask.startClock.inj heq).1
  apply h.dropTask hposted
  · intro id call hcall hstage
    obtain ⟨-, ⟨due, after, hin⟩, -⟩ := h.tracking id call hcall hstage
    exact ⟨due, after, hother (fun heq => hcalls call (heq ▸ hcall) hstage) hin⟩
  · intro context hcontext hfollowing
    by_cases horigin : context.originId = origin
    · exact Or.inr (harmed context hcontext horigin)
    · exact (h.clocked context hcontext hfollowing).imp_left fun ⟨due, after, hin⟩ => ⟨due, after, hother horigin hin⟩
  · intro other hanswered hleft
    apply mem_rest hposted (h.cleared other hanswered hleft)
    intro heq
    cases heq

/-! ### Ends -/

/-- The request of a context is answered. -/
def settle (s : ClientClocks) (context : ClockContext) : ClientClocks :=
  { s with
    settled := context.id :: s.settled
    answered := context.originId :: s.answered
    progressRoutes := s.progressRoutes.filter (· ≠ context.originId) }.post (.stopClock context.originId)

theorem finish_cases (s : ClientClocks) (context : ClockContext) :
    context.id ∈ s.settled ∧ s.finish context = s ∨ context.id ∉ s.settled ∧ s.finish context = s.settle context := by
  by_cases hsettled : context.id ∈ s.settled
  · exact Or.inl ⟨hsettled, if_pos (List.contains_iff_mem.mpr hsettled)⟩
  · exact Or.inr ⟨hsettled, if_neg fun hcontains => hsettled (List.contains_iff_mem.mp hcontains)⟩

theorem known_settle {other : ClockContext} (h : (s.settle context).Known held other) : s.Known held other := by
  refine h.mono (fun _ htracked => .tracked htracked) (fun _ hcall hstage => .called hcall rfl hstage) ?_
    fun _ => .held
  intro other hin
  obtain hin | hin := List.mem_append.mp hin
  · exact .posted hin
  · cases List.mem_singleton.mp hin

theorem startClock_settle {origin : Nat} {deadline timeout : Int} :
    .startClock origin deadline timeout ∈ (s.settle context).posted ↔
      .startClock origin deadline timeout ∈ s.posted := by
  refine ⟨fun hin => ?_, List.mem_append_left _⟩
  obtain hin | hin := List.mem_append.mp hin
  · exact hin
  · cases List.mem_singleton.mp hin

theorem waiting_settle {other : ClockContext} (h : (s.settle context).Waiting other) :
    s.Waiting other ∧ other.id ≠ context.id :=
  have ⟨hne, hsettled⟩ := not_or.mp fun hin => h.2 (List.mem_cons.mpr hin)
  ⟨⟨h.1, hsettled⟩, hne⟩

theorem unmade_settle {id : Nat} (h : s.Unmade held id) (hcontext : s.Known held context) :
    (s.settle context).Unmade held id where
  known other hother := h.known other (known_settle hother)
  answered hin := by
    obtain rfl | hin := List.mem_cons.mp hin
    · exact (h.known context hcontext).1 rfl
    · exact h.answered hin
  settled hin := by
    obtain rfl | hin := List.mem_cons.mp hin
    · exact (h.known context hcontext).2 rfl
    · exact h.settled hin
  deadline := h.deadline
  timer := h.timer

/-- Behind all that is posted the clock is stopped. -/
theorem Sound.settle (h : s.Sound held) (hcontext : s.Known held context) (hsettled : context.id ∉ s.settled) :
    (s.settle context).Sound held where
  keyed := h.keyed
  called := h.called
  fresh id hid :=
    ⟨unmade_settle (h.fresh id hid).1 hcontext, (h.fresh id hid).2.1,
      fun _ _ hin => (h.fresh id hid).2.2 _ _ (startClock_settle.mp hin)⟩
  beginning id call hcall hstage :=
    ⟨unmade_settle (h.beginning id call hcall hstage).1 hcontext,
      fun _ _ hin => (h.beginning id call hcall hstage).2 _ _ (startClock_settle.mp hin)⟩
  tracking id call hcall hstage :=
    have ⟨hid, ⟨deadline, timeout, hin⟩, hall⟩ := h.tracking id call hcall hstage
    ⟨unmade_settle hid hcontext, ⟨deadline, timeout, startClock_settle.mpr hin⟩,
      fun _ _ hin => hall _ _ (startClock_settle.mp hin)⟩
  same first other hfirst hother := h.same first other (known_settle hfirst) (known_settle hother)
  one first other hfirst hnot hother :=
    h.one first other (known_settle hfirst) (fun hin => hnot (List.mem_cons_of_mem _ hin)) (waiting_settle hother).1
  live other hother hanswered := by
    obtain ⟨hwaiting, hne⟩ := waiting_settle hother
    obtain heq | hin := List.mem_cons.mp hanswered
    · exact hne (congrArg ClockContext.id (h.one context other hcontext hsettled hwaiting heq.symm))
    · exact h.live other hwaiting hin
  done other hother hin := by
    obtain heq | hin := List.mem_cons.mp hin
    · rw [h.same other context (.tracked hother) hcontext heq]
      exact List.mem_cons_self
    · exact List.mem_cons_of_mem _ (h.done other hother hin)
  agree other hother :=
    ⟨(h.agree other (waiting_settle hother).1).1,
      fun _ _ hin => (h.agree other (waiting_settle hother).1).2 _ _ (startClock_settle.mp hin)⟩
  clocked other hother hfollowing :=
    (h.clocked other (waiting_settle hother).1 hfollowing).imp_left fun ⟨deadline, timeout, hin⟩ =>
      ⟨deadline, timeout, startClock_settle.mpr hin⟩
  stops origin hin := by
    obtain hin | hin := List.mem_append.mp hin
    · exact List.mem_cons_of_mem _ (h.stops origin hin)
    · cases List.mem_singleton.mp hin
      exact List.mem_cons_self
  routes origin hroute := h.routes origin (List.mem_filter.mp hroute).1
  routed origin hanswered hroute := by
    obtain ⟨hroute, hne⟩ := List.mem_filter.mp hroute
    obtain rfl | hin := List.mem_cons.mp hanswered
    · exact of_decide_eq_true hne rfl
    · exact h.routed origin hin hroute
  cleared origin hanswered hleft := by
    obtain rfl | hin := List.mem_cons.mp hanswered
    · exact List.mem_append_right _ (List.mem_singleton_self _)
    · exact List.mem_append_left _ (h.cleared origin hin hleft)
  followed origin hanswered deadline timeout rest hsuffix := by
    obtain ⟨hlast, -⟩ | ⟨front, rfl, hfront⟩ := suffix_concat_cases hsuffix
    · cases hlast
    · obtain rfl | hin := List.mem_cons.mp hanswered
      · exact List.mem_append_right _ (List.mem_singleton_self _)
      · exact List.mem_append_left _ (h.followed origin hin deadline timeout front hfront)

theorem Sound.finish (h : s.Sound held) (hcontext : s.Known held context) : (s.finish context).Sound held := by
  obtain ⟨-, hsame⟩ | ⟨hsettled, hsame⟩ := finish_cases s context
  · rw [hsame]
    exact h
  · rw [hsame]
    exact h.settle hcontext hsettled

/-- A request that is answered, or cannot be sent. -/
theorem Sound.completeRequest (h : s.Sound held) (hcontext : s.Known held context) :
    (s.completeRequest context).Sound held :=
  (h.finish hcontext).removeRequest context.id

/-- A context in hand is posted, to be sent later. -/
theorem Sound.postSend (h : s.Sound held) (hknown : s.Known held context) :
    (s.post (.sendRequestInternal context)).Sound held := by
  have hneutral : Neutral (.sendRequestInternal context) := trivial
  apply h.post hneutral
  intro other hother
  cases hother
  exact hknown

/-- On the dispatcher a context goes out, is settled, or is posted once more. -/
theorem Sound.sendRequestInternal (h : s.Sound held) (hcontext : s.Known held context) (outcome : SendOutcome) :
    (s.sendRequestInternal context outcome).Sound held := by
  unfold ClientClocks.sendRequestInternal
  split_ifs
  · exact h
  · cases outcome with
    | sent => exact h
    | failed => exact h.completeRequest hcontext
    | postponed => exact h.postSend hcontext

/-! ### Timers -/

/-- A timer is set, in time for whoever waits for it. -/
theorem Sound.setTimer (h : s.Sound held) {origin : Nat} {timer : Option Int}
    (hintime : ∀ context, s.Waiting context → context.originId = origin →
      ∃ due, timer = some due ∧ due ≤ s.deadline context)
    (hmade : s.requestDeadlines.find? origin ≠ none ∨ s.requestTimers.find? origin ≠ none) :
    { s with requestTimers := s.requestTimers.insert origin timer }.Sound held := by
  have hsame (other : ClockContext)
      (hother : { s with requestTimers := s.requestTimers.insert origin timer }.Known held other) : s.Known held other :=
    hother.congr rfl rfl rfl
  have hunmade {id : Nat} (hid : s.Unmade held id) :
      { s with requestTimers := s.requestTimers.insert origin timer }.Unmade held id := by
    refine ⟨fun context hcontext => hid.known context (hsame context hcontext), hid.answered, hid.settled,
      hid.deadline, (OrdMap.find?_insert_of_ne _ ?_ _).trans hid.timer⟩
    intro heq
    subst heq
    exact hmade.elim (fun hdeadline => hdeadline hid.deadline) fun htimer => htimer hid.timer
  exact
    { h.origins hsame (fun _ => hunmade) rfl rfl rfl rfl, h with
      one := fun context other hcontext => h.one context other (hsame context hcontext)
      clocked := by
        intro context hcontext hfollowing
        by_cases horigin : context.originId = origin
        · obtain ⟨due, rfl, hdue⟩ := hintime context hcontext horigin
          right
          refine ⟨due, ?_, hdue⟩
          rw [horigin]
          exact OrdMap.find?_insert_self _ _ _
        · show _ ∨ ∃ due, (s.requestTimers.insert origin timer).find? context.originId = some (some due) ∧ _
          rw [OrdMap.find?_insert_of_ne _ horigin]
          exact h.clocked context hcontext hfollowing
      cleared := by
        intro other hanswered hother
        by_cases horigin : other = origin
        · rw [horigin] at hanswered ⊢
          exact h.cleared origin hanswered hmade.symm
        · apply h.cleared other hanswered
          have hkept : (s.requestTimers.insert origin timer).find? other = s.requestTimers.find? other :=
            OrdMap.find?_insert_of_ne _ horigin _
          exact hother.imp_left fun htimer hnone => htimer (hkept.trans hnone) }

/-- Armed before the deadline, a timer is due by then. -/
theorem due_le {now deadline after : Int} (h : now ≤ deadline) :
    now + (if (deadline - now).tdiv 1000000 < after then max ((deadline - now).tdiv 1000000) 0 else after) * 1000000 ≤
      deadline := by
  have hdiv : (deadline - now).tdiv 1000000 = (deadline - now) / 1000000 :=
    Int.tdiv_eq_ediv_of_nonneg (Int.sub_nonneg_of_le h)
  rw [hdiv]
  split_ifs
  · omega
  · omega

theorem armRequestTimeout_of_some {origin : Nat} {deadline : Int} (h : s.requestDeadlines.find? origin = some deadline)
    (after : Int) :
    ∃ due, s.armRequestTimeout origin after =
        { s with requestTimers := s.requestTimers.insert origin (some due) } ∧ (s.now ≤ deadline → due ≤ deadline) := by
  refine ⟨_, ?_, @due_le s.now deadline after⟩
  unfold armRequestTimeout
  rw [h]

theorem Sound.armRequestTimeout (h : s.Sound held) {origin : Nat} (after : Int)
    (hintime : ∀ deadline ∈ s.requestDeadlines.find? origin, s.now ≤ deadline) :
    (s.armRequestTimeout origin after).Sound held := by
  cases hdeadline : s.requestDeadlines.find? origin with
  | none =>
      unfold ClientClocks.armRequestTimeout
      rw [hdeadline]
      exact h
  | some deadline =>
      obtain ⟨due, hsame, hdue⟩ := armRequestTimeout_of_some hdeadline after
      rw [hsame]
      apply h.setTimer
      · intro context hcontext horigin
        refine ⟨due, rfl, ?_⟩
        rw [← (h.agree context hcontext).1 deadline (by rw [horigin]; exact hdeadline)]
        exact hdue (hintime deadline hdeadline)
      · exact Or.inl (by rw [hdeadline]; exact Option.some_ne_none _)

/-! ### Clocks -/

theorem findByOrigin_isSome {origin : Nat} (h : s.Waiting context) (horigin : context.originId = origin) :
    (s.findByOrigin origin).isSome = true := by
  rw [findByOrigin, List.find?_isSome]
  exact ⟨context, s.tracker.mem_values_iff.mpr ⟨context.id, h.1⟩, beq_iff_eq.mpr horigin⟩

theorem Sound.tracked_of_findByOrigin (h : s.Sound held) {origin : Nat} (hfind : s.findByOrigin origin = some context) :
    s.Tracked context ∧ context.originId = origin := by
  have hfound : (s.tracker.values.find? fun context => context.originId == origin) = some context := hfind
  obtain ⟨id, hentry⟩ := s.tracker.mem_values_iff.mp (List.mem_of_find?_eq_some hfound)
  have horigin := @List.find?_some _ (fun context : ClockContext => context.originId == origin) _ _ hfound
  refine ⟨?_, beq_iff_eq.mp horigin⟩
  unfold Tracked
  rw [h.keyed id context hentry]
  exact hentry

/-- A clock's deadline is kept: it is that of whoever waits for it, and it belongs to a request that was made. -/
theorem Sound.setDeadline (h : s.Sound held) {origin : Nat} {deadline timeout : Int}
    (hstart : .startClock origin deadline timeout ∈ s.posted)
    (hcalls : ∀ call ∈ s.calls.find? origin, call.stage ≠ .trackRequest)
    (hleft : origin ∈ s.answered → .stopClock origin ∈ s.posted) :
    { s with requestDeadlines := s.requestDeadlines.insert origin deadline }.Sound held := by
  have hsame (other : ClockContext)
      (hother : { s with requestDeadlines := s.requestDeadlines.insert origin deadline }.Known held other) :
      s.Known held other :=
    hother.congr rfl rfl rfl
  have hunmade {id : Nat} (hid : s.Unmade held id) (hne : id ≠ origin) :
      { s with requestDeadlines := s.requestDeadlines.insert origin deadline }.Unmade held id :=
    ⟨fun context hcontext => hid.known context (hsame context hcontext), hid.answered, hid.settled,
      (OrdMap.find?_insert_of_ne _ hne _).trans hid.deadline, hid.timer⟩
  exact
    { h with
      fresh := fun id hid =>
        ⟨hunmade (h.fresh id hid).1 fun heq => (h.fresh id hid).2.2 deadline timeout (heq ▸ hstart), (h.fresh id hid).2⟩
      beginning := fun id call hcall hstage =>
        ⟨hunmade (h.beginning id call hcall hstage).1 fun heq =>
            (h.beginning id call hcall hstage).2 deadline timeout (heq ▸ hstart),
          (h.beginning id call hcall hstage).2⟩
      tracking := fun id call hcall hstage =>
        ⟨hunmade (h.tracking id call hcall hstage).1 fun heq => hcalls call (heq ▸ hcall) hstage,
          (h.tracking id call hcall hstage).2⟩
      same := fun context other hcontext hother => h.same context other (hsame context hcontext) (hsame other hother)
      one := fun context other hcontext => h.one context other (hsame context hcontext)
      agree := by
        intro context hcontext
        refine ⟨fun other hother => ?_, (h.agree context hcontext).2⟩
        have hinsert : (s.requestDeadlines.insert origin deadline).find? context.originId = some other := hother
        by_cases horigin : context.originId = origin
        · rw [horigin, OrdMap.find?_insert_self] at hinsert
          cases hinsert
          exact (h.agree context hcontext).2 deadline timeout (horigin ▸ hstart)
        · rw [OrdMap.find?_insert_of_ne _ horigin] at hinsert
          exact (h.agree context hcontext).1 other hinsert
      cleared := by
        intro other hanswered hother
        by_cases horigin : other = origin
        · rw [horigin] at hanswered ⊢
          exact hleft hanswered
        · apply h.cleared other hanswered
          have hkept : (s.requestDeadlines.insert origin deadline).find? other = s.requestDeadlines.find? other :=
            OrdMap.find?_insert_of_ne _ horigin _
          exact hother.imp_right fun hdeadline hnone => hdeadline (hkept.trans hnone) }

/-- The task that starts a clock is run: the request is tracked by now, or answered already. -/
theorem Sound.clockStarted (h : s.Sound held) {origin : Nat} {deadline timeout : Int} {rest : List ClockTask}
    (hposted : s.posted = .startClock origin deadline timeout :: rest)
    (hcalls : ∀ call ∈ s.calls.find? origin, call.stage ≠ .trackRequest)
    (hintime : (s.findByOrigin origin).isSome = true → s.now ≤ deadline) :
    ({ s with posted := rest }.clockStarted origin deadline timeout).Sound held := by
  have hstart : .startClock origin deadline timeout ∈ s.posted := by
    rw [hposted]
    exact List.mem_cons_self
  have hstop (hanswered : origin ∈ s.answered) : .stopClock origin ∈ s.posted := by
    rw [hposted]
    exact List.mem_cons_of_mem _
      (h.followed origin hanswered deadline timeout rest (by rw [hposted]))
  unfold ClientClocks.clockStarted
  split_ifs with hfind
  · have hfind : (s.findByOrigin origin).isSome = true := hfind
    have hset := h.setDeadline hstart hcalls hstop
    obtain ⟨due, hsame, hdue⟩ := @armRequestTimeout_of_some
      { s with posted := rest, requestDeadlines := s.requestDeadlines.insert origin deadline } origin deadline
      (OrdMap.find?_insert_self _ _ _) timeout
    have hintime (context : ClockContext) (hcontext : s.Waiting context) (horigin : context.originId = origin) :
        due ≤ s.deadline context := by
      rw [← (h.agree context hcontext).2 deadline timeout (horigin ▸ hstart)]
      exact hdue (hintime hfind)
    rw [hsame]
    have harmed := @Sound.setTimer _ held hset origin (some due)
      (fun context hcontext horigin => ⟨due, rfl, hintime context hcontext horigin⟩)
      (Or.inl (by rw [OrdMap.find?_insert_self]; exact Option.some_ne_none _))
    refine harmed.dropStart hposted hcalls fun context hcontext horigin => ⟨due, ?_, hintime context hcontext horigin⟩
    rw [horigin]
    exact OrdMap.find?_insert_self _ _ _
  · have hnobody (context : ClockContext) (hcontext : s.Waiting context) : context.originId ≠ origin :=
      fun horigin => hfind (findByOrigin_isSome hcontext horigin)
    exact h.dropStart hposted hcalls fun context hcontext horigin => absurd horigin (hnobody context hcontext)

/-- A clock that nobody waits for is cleared. -/
theorem Sound.eraseClock (h : s.Sound held) {origin : Nat}
    (hidle : ∀ context, s.Waiting context → context.id ∉ s.following → context.originId ≠ origin) :
    (s.eraseClock origin).Sound held := by
  have hsame (other : ClockContext) (hother : (s.eraseClock origin).Known held other) : s.Known held other :=
    hother.congr rfl rfl rfl
  have herased {ν : Type} {table : OrdMap Nat ν} {id : Nat} (hid : table.find? id = none) :
      (table.erase origin).find? id = none := by
    rw [OrdMap.find?_erase]
    split_ifs
    · rfl
    · exact hid
  have hunmade {id : Nat} (hid : s.Unmade held id) : (s.eraseClock origin).Unmade held id :=
    ⟨fun context hcontext => hid.known context (hsame context hcontext), hid.answered, hid.settled,
      herased hid.deadline, herased hid.timer⟩
  exact
    { h.origins hsame (fun _ => hunmade) rfl rfl rfl rfl, h with
      one := fun context other hcontext => h.one context other (hsame context hcontext)
      agree := fun context hcontext =>
        ⟨fun deadline hfind => (h.agree context hcontext).1 deadline (OrdMap.find?_erase_eq_some_iff.mp hfind).1,
          (h.agree context hcontext).2⟩
      clocked := by
        intro context hcontext hfollowing
        have hne := hidle context hcontext hfollowing
        show _ ∨ ∃ due, (s.requestTimers.erase origin).find? context.originId = some (some due) ∧ _
        rw [OrdMap.find?_erase_of_ne _ hne]
        exact h.clocked context hcontext hfollowing
      cleared := by
        intro other hanswered hleft
        apply h.cleared other hanswered
        exact hleft.imp (fun htimer hnone => htimer (herased hnone)) fun hdeadline hnone => hdeadline (herased hnone) }

/-- The task that stops a clock is run. -/
theorem Sound.clockStopped (h : s.Sound held) {origin : Nat} {rest : List ClockTask}
    (hposted : s.posted = .stopClock origin :: rest) : ({ s with posted := rest }.eraseClock origin).Sound held := by
  have hanswered : origin ∈ s.answered := h.stops origin (by rw [hposted]; exact List.mem_cons_self)
  have herased := h.eraseClock fun context hcontext _ horigin => h.live context hcontext (horigin ▸ hanswered)
  have hstart {id : Nat} {due after : Int} (hin : .startClock id due after ∈ s.posted) :
      .startClock id due after ∈ rest := mem_rest hposted hin fun heq => by cases heq
  apply herased.dropTask hposted
  · intro id call hcall hstage
    obtain ⟨-, ⟨due, after, hin⟩, -⟩ := h.tracking id call hcall hstage
    exact ⟨due, after, hstart hin⟩
  · intro context hcontext hfollowing
    exact (herased.clocked context hcontext hfollowing).imp_left fun ⟨due, after, hin⟩ => ⟨due, after, hstart hin⟩
  · intro other hother hleft
    apply mem_rest hposted (herased.cleared other hother hleft)
    intro heq
    cases heq
    obtain htimer | hdeadline := hleft
    · exact htimer (OrdMap.find?_erase_self _ _)
    · exact hdeadline (OrdMap.find?_erase_self _ _)

/-! ### New requests -/

theorem known_takeId {other : ClockContext} (h : s.takeId.Known held other) : s.Known held other :=
  h.mono (fun _ htracked => .tracked htracked) (fun _ hcall hstage => .called hcall rfl hstage)
    (fun _ hin => .posted hin) fun _ => .held

theorem unmade_takeId {id : Nat} (h : s.Unmade held id) : s.takeId.Unmade held id :=
  ⟨fun context hcontext => h.known context (known_takeId hcontext), h.answered, h.settled, h.deadline, h.timer⟩

theorem Sound.takeId (h : s.Sound held) : s.takeId.Sound held :=
  { h with
    fresh := fun id hid =>
      have hid := Nat.le_of_succ_le hid
      ⟨unmade_takeId (h.fresh id hid).1, (h.fresh id hid).2⟩
    beginning := fun id call hcall hstage =>
      ⟨unmade_takeId (h.beginning id call hcall hstage).1, (h.beginning id call hcall hstage).2⟩
    tracking := fun id call hcall hstage =>
      ⟨unmade_takeId (h.tracking id call hcall hstage).1, (h.tracking id call hcall hstage).2⟩
    same := fun context other hcontext hother => h.same context other (known_takeId hcontext) (known_takeId hother)
    one := fun context other hcontext => h.one context other (known_takeId hcontext)
    routes := fun origin hroute => Nat.lt_succ_of_lt (h.routes origin hroute) }

theorem known_startClock {other : ClockContext} (h : (s.startClock context).Known held other) : s.Known held other := by
  refine h.mono (fun _ htracked => .tracked htracked) (fun _ hcall hstage => .called hcall rfl hstage) ?_ fun _ => .held
  intro other hin
  obtain hin | hin := List.mem_append.mp hin
  · exact .posted hin
  · cases List.mem_singleton.mp hin

theorem unmade_startClock {id : Nat} (h : s.Unmade held id) : (s.startClock context).Unmade held id :=
  ⟨fun context hcontext => h.known context (known_startClock hcontext), h.answered, h.settled, h.deadline, h.timer⟩

/-- The clock of a request that is about to be made is to be started. -/
theorem Sound.startClock (h : s.Sound held) (hunmade : s.Unmade held context.originId)
    (hlt : context.originId < s.nextRequestId) (hcall : s.calls.find? context.originId = none) :
    (s.startClock context).Sound held := by
  have hlater {task : ClockTask} (hin : task ∈ s.posted) : task ∈ (s.startClock context).posted :=
    List.mem_append_left _ hin
  have hstart {id : Nat} {deadline timeout : Int} (hin : .startClock id deadline timeout ∈ (s.startClock context).posted)
      (hne : id ≠ context.originId) : .startClock id deadline timeout ∈ s.posted := by
    obtain hin | hin := List.mem_append.mp hin
    · exact hin
    · exact absurd (ClockTask.startClock.inj (List.mem_singleton.mp hin)).1 hne
  have hother {id : Nat} {call : Call} (hfind : s.calls.find? id = some call) : id ≠ context.originId := by
    intro heq
    rw [heq, hcall] at hfind
    cases hfind
  exact
    { h with
      fresh := fun id hid =>
        ⟨unmade_startClock (h.fresh id hid).1, (h.fresh id hid).2.1, fun _ _ hin =>
          (h.fresh id hid).2.2 _ _ (hstart hin (Nat.ne_of_gt (Nat.lt_of_lt_of_le hlt hid)))⟩
      beginning := fun id call hfind hstage =>
        ⟨unmade_startClock (h.beginning id call hfind hstage).1, fun _ _ hin =>
          (h.beginning id call hfind hstage).2 _ _ (hstart hin (hother hfind))⟩
      tracking := fun id call hfind hstage =>
        have ⟨hid, ⟨deadline, timeout, hin⟩, hall⟩ := h.tracking id call hfind hstage
        ⟨unmade_startClock hid, ⟨deadline, timeout, hlater hin⟩, fun _ _ hin => hall _ _ (hstart hin (hother hfind))⟩
      same := fun first other hfirst hother => h.same first other (known_startClock hfirst) (known_startClock hother)
      one := fun first other hfirst => h.one first other (known_startClock hfirst)
      agree := fun other hwaiting =>
        ⟨(h.agree other hwaiting).1, fun _ _ hin =>
          (h.agree other hwaiting).2 _ _ (hstart hin (hunmade.known other (.tracked hwaiting.1)).1)⟩
      clocked := fun other hwaiting hfollowing =>
        (h.clocked other hwaiting hfollowing).imp_left fun ⟨deadline, timeout, hin⟩ => ⟨deadline, timeout, hlater hin⟩
      stops := by
        intro origin hin
        obtain hin | hin := List.mem_append.mp hin
        · exact h.stops origin hin
        · cases List.mem_singleton.mp hin
      cleared := fun origin hanswered hleft => hlater (h.cleared origin hanswered hleft)
      followed := by
        intro origin hanswered deadline timeout rest hsuffix
        obtain ⟨hlast, -⟩ | ⟨front, rfl, hfront⟩ := suffix_concat_cases hsuffix
        · cases hlast
          exact absurd hanswered hunmade.answered
        · exact List.mem_append_left _ (h.followed origin hanswered deadline timeout front hfront) }

theorem known_cons_cases {other : ClockContext} (h : s.Known (context :: held) other) :
    other = context ∨ s.Known held other := by
  cases h with
  | tracked h => exact Or.inr (.tracked h)
  | called h hsame hstage => exact Or.inr (.called h hsame hstage)
  | posted h => exact Or.inr (.posted h)
  | held h => exact (List.mem_cons.mp h).imp_right .held

/-- A context that was not known is taken in hand. -/
theorem Sound.introduce (h : s.Sound held) (hunmade : s.Unmade held context.id) (hlt : context.id < s.nextRequestId)
    (hcall : s.calls.find? context.id = none)
    (horigin : ∀ id, s.Unmade held id → id ≠ context.id → context.originId ≠ id)
    (halone : ∀ other, s.Waiting other → context.originId ≠ other.originId) : s.Sound (context :: held) := by
  have hkept {id : Nat} (hother : s.Unmade held id) (hne : id ≠ context.id) : s.Unmade (context :: held) id := by
    refine ⟨fun other hin => ?_, hother.answered, hother.settled, hother.deadline, hother.timer⟩
    obtain rfl | hin := known_cons_cases hin
    · exact ⟨horigin id hother hne, hne.symm⟩
    · exact hother.known other hin
  have hother {id : Nat} {call : Call} (hfind : s.calls.find? id = some call) : id ≠ context.id := by
    intro heq
    rw [heq, hcall] at hfind
    cases hfind
  exact
    { h with
      fresh := fun id hfresh =>
        ⟨hkept (h.fresh id hfresh).1 (Nat.ne_of_gt (Nat.lt_of_lt_of_le hlt hfresh)), (h.fresh id hfresh).2⟩
      beginning := fun id call hfind hstage =>
        ⟨hkept (h.beginning id call hfind hstage).1 (hother hfind), (h.beginning id call hfind hstage).2⟩
      tracking := fun id call hfind hstage =>
        ⟨hkept (h.tracking id call hfind hstage).1 (hother hfind), (h.tracking id call hfind hstage).2⟩
      same := by
        intro first other hfirst hother heq
        obtain rfl | hold := known_cons_cases hfirst
        · obtain rfl | hold := known_cons_cases hother
          · rfl
          · exact absurd heq.symm (hunmade.known other hold).2
        · obtain rfl | hlast := known_cons_cases hother
          · exact absurd heq (hunmade.known first hold).2
          · exact h.same first other hold hlast heq
      one := by
        intro first other hfirst hsettled hwaiting heq
        obtain rfl | hold := known_cons_cases hfirst
        · exact absurd heq (halone other hwaiting)
        · exact h.one first other hold hsettled hwaiting heq }

/-- A context in hand is put into the tracker. -/
theorem Sound.trackRequest (h : s.Sound held) (hknown : s.Known held context) (hsettled : context.id ∉ s.settled)
    (hone : ∀ other, s.Known held other → other.id ∉ s.settled → context.originId = other.originId → other = context)
    (hanswered : context.originId ∉ s.answered)
    (hagree : (∀ deadline, s.requestDeadlines.find? context.originId = some deadline → deadline = s.deadline context) ∧
      ∀ deadline timeout, .startClock context.originId deadline timeout ∈ s.posted → deadline = s.deadline context)
    (hclocked : (∃ deadline timeout, .startClock context.originId deadline timeout ∈ s.posted) ∨
      ∃ due, s.requestTimers.find? context.originId = some (some due) ∧ due ≤ s.deadline context) :
    (s.trackRequest context).Sound held := by
  have htracked {other : ClockContext} (hother : (s.trackRequest context).Tracked other) :
      other = context ∨ s.Tracked other := by
    have hfind : (s.tracker.insert context.id context).find? other.id = some other := hother
    by_cases hid : other.id = context.id
    · rw [hid, OrdMap.find?_insert_self] at hfind
      exact Or.inl (Option.some.inj hfind).symm
    · rw [OrdMap.find?_insert_of_ne _ hid] at hfind
      exact Or.inr hfind
  have hsame {other : ClockContext} (hother : (s.trackRequest context).Known held other) : s.Known held other := by
    refine hother.mono ?_ (fun _ hcall hstage => .called hcall rfl hstage) (fun _ hin => .posted hin) fun _ => .held
    intro other hother
    obtain rfl | hother := htracked hother
    · exact hknown
    · exact .tracked hother
  have hwaiting {other : ClockContext} (hother : (s.trackRequest context).Waiting other) :
      other = context ∨ s.Waiting other := (htracked hother.1).imp_right fun hin => ⟨hin, hother.2⟩
  have hunmade {id : Nat} (hid : s.Unmade held id) : (s.trackRequest context).Unmade held id :=
    ⟨fun other hother => hid.known other (hsame hother), hid.answered, hid.settled, hid.deadline, hid.timer⟩
  exact
    { h.origins (fun _ => hsame) (fun _ => hunmade) rfl rfl rfl rfl, h with
      keyed := by
        intro id other hfind
        have hfind : (s.tracker.insert context.id context).find? id = some other := hfind
        by_cases hid : id = context.id
        · rw [hid, OrdMap.find?_insert_self] at hfind
          rw [hid, Option.some.inj hfind]
        · rw [OrdMap.find?_insert_of_ne _ hid] at hfind
          exact h.keyed id other hfind
      one := by
        intro first other hfirst hnot hother heq
        obtain rfl | hother := hwaiting hother
        · exact (hone first (hsame hfirst) hnot heq.symm).symm
        · exact h.one first other (hsame hfirst) hnot hother heq
      live := by
        intro other hother
        obtain rfl | hother := hwaiting hother
        · exact hanswered
        · exact h.live other hother
      done := by
        intro other hother hin
        obtain rfl | hother := htracked hother
        · exact absurd hin hsettled
        · exact h.done other hother hin
      agree := by
        intro other hother
        obtain rfl | hother := hwaiting hother
        · exact hagree
        · exact h.agree other hother
      clocked := by
        intro other hother hfollowing
        obtain rfl | hother := hwaiting hother
        · exact hclocked
        · exact h.clocked other hother hfollowing }

/-! ### Calls -/

theorem find?_endCall {id other : Nat} {call : Call} (h : (s.endCall id).calls.find? other = some call) :
    s.calls.find? other = some call := (OrdMap.find?_erase_eq_some_iff.mp h).1

theorem known_endCall {id : Nat} {other : ClockContext} (h : (s.endCall id).Known held other) : s.Known held other :=
  h.mono (fun _ htracked => .tracked htracked) (fun _ hcall hstage => .called (find?_endCall hcall) rfl hstage)
    (fun _ hin => .posted hin) fun _ => .held

theorem unmade_endCall {id other : Nat} (h : s.Unmade held other) : (s.endCall id).Unmade held other :=
  ⟨fun context hcontext => h.known context (known_endCall hcontext), h.answered, h.settled, h.deadline, h.timer⟩

theorem Sound.endCall (h : s.Sound held) (id : Nat) : (s.endCall id).Sound held :=
  { h with
    called := fun other call hcall => h.called other call (find?_endCall hcall)
    fresh := by
      intro other hid
      refine ⟨unmade_endCall (h.fresh other hid).1, ?_, (h.fresh other hid).2.2⟩
      show (s.calls.erase id).find? other = none
      rw [OrdMap.find?_erase]
      split_ifs
      · rfl
      · exact (h.fresh other hid).2.1
    beginning := fun other call hcall hstage =>
      have hcall := find?_endCall hcall
      ⟨unmade_endCall (h.beginning other call hcall hstage).1, (h.beginning other call hcall hstage).2⟩
    tracking := fun other call hcall hstage =>
      have hcall := find?_endCall hcall
      ⟨unmade_endCall (h.tracking other call hcall hstage).1, (h.tracking other call hcall hstage).2⟩
    same := fun context other hcontext hother => h.same context other (known_endCall hcontext) (known_endCall hother)
    one := fun context other hcontext => h.one context other (known_endCall hcontext) }

/-- What a call that has come to its stage is to find. -/
def Ready (s : ClientClocks) (held : List ClockContext) (call : Call) : Prop :=
  match call.stage with
  | .startClock =>
      s.Unmade held call.context.id ∧ ∀ deadline timeout, .startClock call.context.id deadline timeout ∉ s.posted
  | .trackRequest =>
      s.Unmade held call.context.id ∧
        (∃ deadline timeout, .startClock call.context.id deadline timeout ∈ s.posted) ∧
        ∀ deadline timeout, .startClock call.context.id deadline timeout ∈ s.posted → deadline = s.deadline call.context
  | .sendRequest | .removeRequest => s.Known held call.context

def addCall (s : ClientClocks) (call : Call) : ClientClocks :=
  { s with calls := s.calls.insert call.context.id call }

theorem Sound.addCall (h : s.Sound held) {call : Call} (hid : call.context.originId = call.context.id)
    (hlt : call.context.id < s.nextRequestId) (hready : s.Ready held call) : (s.addCall call).Sound held := by
  have hcases {other : Nat} {made : Call} (hfind : (s.addCall call).calls.find? other = some made) :
      other = call.context.id ∧ made = call ∨ s.calls.find? other = some made := by
    have hfind : (s.calls.insert call.context.id call).find? other = some made := hfind
    by_cases hother : other = call.context.id
    · rw [hother, OrdMap.find?_insert_self] at hfind
      exact Or.inl ⟨hother, (Option.some.inj hfind).symm⟩
    · rw [OrdMap.find?_insert_of_ne _ hother] at hfind
      exact Or.inr hfind
  have hsame (other : ClockContext) (hother : (s.addCall call).Known held other) : s.Known held other := by
    refine hother.mono (fun _ htracked => .tracked htracked) ?_ (fun _ hin => .posted hin) fun _ => .held
    intro made hfind hstage
    obtain ⟨-, rfl⟩ | hfind := hcases hfind
    · unfold Ready at hready
      obtain hstage | hstage := hstage
      · rw [hstage] at hready
        exact hready
      · rw [hstage] at hready
        exact hready
    · exact .called hfind rfl hstage
  have hunmade {other : Nat} (hother : s.Unmade held other) : (s.addCall call).Unmade held other :=
    ⟨fun context hcontext => hother.known context (hsame context hcontext), hother.answered, hother.settled,
      hother.deadline, hother.timer⟩
  exact
    { h with
      called := by
        intro other made hfind
        obtain ⟨rfl, rfl⟩ | hfind := hcases hfind
        · exact ⟨rfl, hid⟩
        · exact h.called other made hfind
      fresh := by
        intro other hother
        refine ⟨hunmade (h.fresh other hother).1, ?_, (h.fresh other hother).2.2⟩
        show (s.calls.insert call.context.id call).find? other = none
        rw [OrdMap.find?_insert_of_ne _ (Nat.ne_of_gt (Nat.lt_of_lt_of_le hlt hother))]
        exact (h.fresh other hother).2.1
      beginning := by
        intro other made hfind hstage
        obtain ⟨rfl, rfl⟩ | hfind := hcases hfind
        · unfold Ready at hready
          rw [hstage] at hready
          exact ⟨hunmade hready.1, hready.2⟩
        · exact ⟨hunmade (h.beginning other made hfind hstage).1, (h.beginning other made hfind hstage).2⟩
      tracking := by
        intro other made hfind hstage
        obtain ⟨rfl, rfl⟩ | hfind := hcases hfind
        · unfold Ready at hready
          rw [hstage] at hready
          exact ⟨hunmade hready.1, hready.2⟩
        · exact ⟨hunmade (h.tracking other made hfind hstage).1, (h.tracking other made hfind hstage).2⟩
      same := fun context other hcontext hother => h.same context other (hsame context hcontext) (hsame other hother)
      one := fun context other hcontext => h.one context other (hsame context hcontext) }

/-- A call goes on to its next stage: it is taken away and put back. -/
theorem setStage_eq (s : ClientClocks) (call : Call) (stage : CallStage) :
    s.setStage call stage = (s.endCall call.context.id).addCall { call with stage } := by
  unfold setStage addCall endCall
  rw [OrdMap.insert_erase_self]

/-- A request nobody knew is tracked, with its clock to be started. -/
theorem Sound.trackNew (h : s.Sound held) (hunmade : s.Unmade held context.id)
    (hid : context.originId = context.id) (hlt : context.id < s.nextRequestId) (hcall : s.calls.find? context.id = none)
    (hstart : ∃ deadline timeout, .startClock context.originId deadline timeout ∈ s.posted)
    (hagree : ∀ deadline timeout, .startClock context.originId deadline timeout ∈ s.posted →
      deadline = s.deadline context) : (s.trackRequest context).Sound (context :: held) := by
  have hheld : s.Sound (context :: held) :=
    h.introduce hunmade hlt hcall (fun _ _ hne => hid ▸ hne.symm) fun other hwaiting heq =>
      (hunmade.known other (.tracked hwaiting.1)).1 (heq.symm.trans hid)
  apply hheld.trackRequest (.held List.mem_cons_self) hunmade.settled
  · intro other hother _ heq
    obtain rfl | hother := known_cons_cases hother
    · rfl
    · exact absurd (heq.symm.trans hid) (hunmade.known other hother).1
  · rw [hid]
    exact hunmade.answered
  · refine ⟨fun deadline hdeadline => ?_, hagree⟩
    rw [hid, hunmade.deadline] at hdeadline
    cases hdeadline
  · exact Or.inl hstart

/-- The id a request made now would have. -/
theorem Sound.unmade_next (h : s.Sound held) :
    s.Unmade held s.nextRequestId ∧ s.calls.find? s.nextRequestId = none ∧
      ∀ deadline timeout, .startClock s.nextRequestId deadline timeout ∉ s.posted :=
  h.fresh s.nextRequestId (Nat.le_refl _)

theorem Sound.sendInternalJson (h : s.Sound held) (outcome : SendOutcome) : (s.sendInternalJson outcome).Sound held := by
  obtain ⟨hunmade, hcall, hfree⟩ := h.unmade_next
  let context := s.newContext false none false
  have hstarted : (s.takeId.startClock context).Sound held :=
    h.takeId.startClock (unmade_takeId hunmade) (Nat.lt_succ_self _) hcall
  have htracked : ((s.takeId.startClock context).trackRequest context).Sound (context :: held) := by
    apply @Sound.trackNew _ held context hstarted (unmade_startClock (unmade_takeId hunmade)) rfl (Nat.lt_succ_self _)
      hcall
    · exact ⟨_, _, List.mem_append_right _ (List.mem_singleton_self _)⟩
    · intro deadline timeout hin
      obtain hin | hin := List.mem_append.mp hin
      · exact absurd hin (hfree deadline timeout)
      · exact (ClockTask.startClock.inj (List.mem_singleton.mp hin)).2.1
  exact (htracked.sendRequestInternal (.held List.mem_cons_self) outcome).letGo

theorem Sound.beginCall (h : s.Sound held) (hid : context.id = s.nextRequestId) (horigin : context.originId = context.id)
    (cancellable : Bool) : (s.beginCall context cancellable).Sound held := by
  obtain ⟨hunmade, -, hfree⟩ := h.unmade_next
  have hready : s.takeId.Ready held ⟨context, cancellable, .startClock⟩ := by
    show s.takeId.Unmade held context.id ∧ _
    rw [hid]
    exact ⟨unmade_takeId hunmade, hfree⟩
  exact h.takeId.addCall horigin (Nat.lt_of_le_of_lt (Nat.le_of_eq hid) (Nat.lt_succ_self _)) hready

/-- A request that asks for progress gets a route. -/
theorem Sound.addRoute (h : s.Sound held) {origin : Nat} (hlt : origin < s.nextRequestId)
    (hanswered : origin ∉ s.answered) : { s with progressRoutes := origin :: s.progressRoutes }.Sound held := by
  have hsame {other : ClockContext}
      (hother : { s with progressRoutes := origin :: s.progressRoutes }.Known held other) : s.Known held other :=
    hother.congr rfl rfl rfl
  have hunmade {id : Nat} (hid : s.Unmade held id) :
      { s with progressRoutes := origin :: s.progressRoutes }.Unmade held id :=
    ⟨fun context hcontext => hid.known context (hsame hcontext), hid.answered, hid.settled, hid.deadline, hid.timer⟩
  exact
    { h.origins (fun _ => hsame) (fun _ => hunmade) rfl rfl rfl rfl, h with
      one := fun first other hfirst => h.one first other (hsame hfirst)
      routes := by
        intro other hroute
        obtain rfl | hroute := List.mem_cons.mp hroute
        · exact hlt
        · exact h.routes other hroute
      routed := by
        intro other hother hroute
        obtain rfl | hroute := List.mem_cons.mp hroute
        · exact hanswered hother
        · exact h.routed other hother hroute }

/-- A request that is refused is answered at once, with nothing to clear. -/
theorem Sound.refuse (h : s.Sound held) {id : Nat} (hunmade : s.Unmade held id) (hlt : id < s.nextRequestId)
    (hcall : s.calls.find? id = none) (hfree : ∀ deadline timeout, .startClock id deadline timeout ∉ s.posted)
    (hroute : id ∉ s.progressRoutes) :
    { s with settled := id :: s.settled, answered := id :: s.answered }.Sound held := by
  have hsame {other : ClockContext}
      (hother : { s with settled := id :: s.settled, answered := id :: s.answered }.Known held other) :
      s.Known held other :=
    hother.congr rfl rfl rfl
  have hwaiting {other : ClockContext}
      (hother : { s with settled := id :: s.settled, answered := id :: s.answered }.Waiting other) :
      s.Waiting other := ⟨hother.1, fun hin => hother.2 (List.mem_cons_of_mem _ hin)⟩
  have hkept {other : Nat} (hother : s.Unmade held other) (hne : other ≠ id) :
      { s with settled := id :: s.settled, answered := id :: s.answered }.Unmade held other :=
    ⟨fun context hcontext => hother.known context (hsame hcontext),
      fun hin => hother.answered ((List.mem_cons.mp hin).resolve_left hne),
      fun hin => hother.settled ((List.mem_cons.mp hin).resolve_left hne), hother.deadline, hother.timer⟩
  have hothers {other : Nat} {call : Call} (hfind : s.calls.find? other = some call) : other ≠ id := by
    intro heq
    rw [heq, hcall] at hfind
    cases hfind
  exact
    { h with
      fresh := fun other hother =>
        ⟨hkept (h.fresh other hother).1 (Nat.ne_of_gt (Nat.lt_of_lt_of_le hlt hother)), (h.fresh other hother).2⟩
      beginning := fun other call hfind hstage =>
        ⟨hkept (h.beginning other call hfind hstage).1 (hothers hfind), (h.beginning other call hfind hstage).2⟩
      tracking := fun other call hfind hstage =>
        ⟨hkept (h.tracking other call hfind hstage).1 (hothers hfind), (h.tracking other call hfind hstage).2⟩
      same := fun first other hfirst hother => h.same first other (hsame hfirst) (hsame hother)
      one := fun first other hfirst hnot hother =>
        h.one first other (hsame hfirst) (fun hin => hnot (List.mem_cons_of_mem _ hin)) (hwaiting hother)
      live := by
        intro other hother hanswered
        obtain heq | hin := List.mem_cons.mp hanswered
        · exact (hunmade.known other (.tracked hother.1)).1 heq
        · exact h.live other (hwaiting hother) hin
      done := by
        intro other hother hin
        obtain heq | hin := List.mem_cons.mp hin
        · exact absurd heq (hunmade.known other (.tracked hother)).2
        · exact List.mem_cons_of_mem _ (h.done other hother hin)
      agree := fun other hother => h.agree other (hwaiting hother)
      clocked := fun other hother => h.clocked other (hwaiting hother)
      stops := fun origin hin => List.mem_cons_of_mem _ (h.stops origin hin)
      routed := by
        intro origin hanswered
        obtain rfl | hin := List.mem_cons.mp hanswered
        · exact hroute
        · exact h.routed origin hin
      cleared := by
        intro origin hanswered hleft
        obtain rfl | hin := List.mem_cons.mp hanswered
        · exact absurd hleft (not_or.mpr ⟨not_not.mpr hunmade.timer, not_not.mpr hunmade.deadline⟩)
        · exact h.cleared origin hin hleft
      followed := by
        intro origin hanswered deadline timeout rest hsuffix
        obtain rfl | hin := List.mem_cons.mp hanswered
        · exact absurd (hsuffix.subset List.mem_cons_self) (hfree deadline timeout)
        · exact h.followed origin hin deadline timeout rest hsuffix }

theorem Sound.sendRequest (h : s.Sound held) (isInitialize allowed : Bool) :
    (s.sendRequest isInitialize allowed).Sound held := by
  unfold ClientClocks.sendRequest
  split_ifs
  · exact h.beginCall rfl rfl false
  · exact h

theorem Sound.sendCancellableRequest (h : s.Sound held) {isInitialize progressResetsTimeout onProgress allowed : Bool}
    {timeout : Option Int} (hallowed : onProgress = true → allowed = true) :
    (s.sendCancellableRequest isInitialize timeout progressResetsTimeout onProgress allowed).Sound held := by
  obtain ⟨hunmade, hcall, hfree⟩ := h.unmade_next
  let context := s.newContext isInitialize timeout progressResetsTimeout
  cases allowed with
  | true =>
      have hbegun : (s.beginCall context true).Sound held := h.beginCall rfl rfl true
      cases onProgress with
      | true => exact @Sound.addRoute _ held hbegun context.id (Nat.lt_succ_self _) hunmade.answered
      | false => exact hbegun
  | false =>
      cases onProgress with
      | true => cases hallowed rfl
      | false =>
          exact @Sound.refuse _ held h.takeId context.id (unmade_takeId hunmade) (Nat.lt_succ_self _) hcall hfree
            fun hin => Nat.lt_irrefl _ (h.routes _ hin)

/-- One step of a calling thread. -/
theorem Sound.proceed (h : s.Sound held) (id : Nat) (outcome : SendOutcome) : (s.proceed id outcome).Sound held := by
  unfold ClientClocks.proceed
  cases hcall : s.calls.find? id with
  | none => exact h
  | some call =>
      obtain ⟨context, cancellable, stage⟩ := call
      obtain ⟨rfl, hsame⟩ : context.id = id ∧ context.originId = id := h.called id _ hcall
      have hlt : context.id < s.nextRequestId := by
        by_contra hge
        rw [(h.fresh _ (Nat.le_of_not_lt hge)).2.1] at hcall
        cases hcall
      have hended : (s.endCall context.id).calls.find? context.id = none := OrdMap.find?_erase_self _ _
      cases stage with
      | startClock =>
          obtain ⟨hunmade, hfree⟩ := h.beginning _ _ hcall rfl
          have hstarted : ((s.endCall context.id).startClock context).Sound held := by
            apply (h.endCall context.id).startClock
            · rw [hsame]
              exact unmade_endCall hunmade
            · rw [hsame]
              exact hlt
            · rw [hsame]
              exact hended
          have hready : ((s.endCall context.id).startClock context).Ready held ⟨context, cancellable, .trackRequest⟩ := by
            refine ⟨unmade_startClock (unmade_endCall hunmade), ?_, ?_⟩
            · rw [← hsame]
              exact ⟨_, _, List.mem_append_right _ (List.mem_singleton_self _)⟩
            · intro deadline timeout hin
              obtain hin | hin := List.mem_append.mp hin
              · exact absurd hin (hfree deadline timeout)
              · exact (ClockTask.startClock.inj (List.mem_singleton.mp hin)).2.1
          show ((s.startClock context).setStage _ .trackRequest).Sound held
          rw [setStage_eq]
          exact hstarted.addCall hsame hlt hready
      | trackRequest =>
          obtain ⟨hunmade, hstart, hagree⟩ := h.tracking _ _ hcall rfl
          have htracked : ((s.endCall context.id).trackRequest context).Sound (context :: held) := by
            apply (h.endCall context.id).trackNew (unmade_endCall hunmade) hsame hlt hended
            · rw [hsame]
              exact hstart
            · rw [hsame]
              exact hagree
          have hready : ((s.endCall context.id).trackRequest context).Ready (context :: held)
              ⟨context, cancellable, .sendRequest⟩ := .held List.mem_cons_self
          show ((s.trackRequest context).setStage _ .sendRequest).Sound held
          rw [setStage_eq]
          exact (htracked.addCall hsame hlt hready).letGo
      | sendRequest =>
          have hknown : s.Known held context :=
            @Known.called s held context ⟨context, cancellable, .sendRequest⟩ hcall rfl (Or.inl rfl)
          dsimp only
          split_ifs
          · exact (h.postSend hknown).endCall _
          · exact h.endCall _
          · cases outcome with
            | sent => exact h.endCall _
            | failed =>
                have hfinished := ((h.hold hknown).finish (.held List.mem_cons_self)).endCall context.id
                have hready : ((s.finish context).endCall context.id).Ready (context :: held)
                    ⟨context, cancellable, .removeRequest⟩ := .held List.mem_cons_self
                have hnext : ((s.finish context).endCall context.id).nextRequestId = s.nextRequestId := by
                  obtain ⟨-, hfinish⟩ | ⟨-, hfinish⟩ := finish_cases s context
                  · rw [hfinish]
                    rfl
                  · rw [hfinish]
                    rfl
                show ((s.finish context).setStage _ .removeRequest).Sound held
                rw [setStage_eq]
                exact (hfinished.addCall hsame (hnext ▸ hlt) hready).letGo
            | postponed => exact (h.postSend hknown).endCall _
      | removeRequest => exact (h.removeRequest _).endCall _

/-! ### Going on, and giving up -/

/-- The clock goes on, and more calls follow tasks. -/
theorem Sound.aside (h : s.Sound held) (now : Int) {following : List Nat} (hmore : ∀ id ∈ s.following, id ∈ following) :
    { s with now, following }.Sound held := by
  have hsame {other : ClockContext} (hother : { s with now, following }.Known held other) : s.Known held other :=
    hother.congr rfl rfl rfl
  have hunmade {id : Nat} (hid : s.Unmade held id) : { s with now, following }.Unmade held id :=
    ⟨fun context hcontext => hid.known context (hsame hcontext), hid.answered, hid.settled, hid.deadline, hid.timer⟩
  exact
    { h.origins (fun _ => hsame) (fun _ => hunmade) rfl rfl rfl rfl, h with
      one := fun first other hfirst => h.one first other (hsame hfirst)
      clocked := fun context hcontext hnot => h.clocked context hcontext fun hin => hnot (hmore context.id hin) }

/-- A call that follows a task from now on has no clock. -/
theorem Sound.followTask (h : s.Sound held) (id : Nat) : (s.followTask id).Sound held := by
  unfold ClientClocks.followTask
  cases hfind : s.tracker.find? id with
  | none => exact h
  | some context =>
      obtain rfl : context.id = id := h.keyed id context hfind
      dsimp only
      split_ifs with hcontains
      · exact h
      have hsettled : context.id ∉ s.settled := fun hin => hcontains (List.contains_iff_mem.mpr hin)
      have hfollows := h.aside s.now (fun _ => List.mem_cons_of_mem context.id)
      apply hfollows.eraseClock
      intro other hother hnot heq
      rw [h.one context other (.tracked hfind) hsettled hother heq.symm] at hnot
      exact hnot List.mem_cons_self

/-- A context that is not tracked any more is settled, for another to take its place. -/
theorem Sound.retire (h : s.Sound held) (hknown : s.Known held context) (hfind : s.tracker.find? context.id = none) :
    { s with settled := context.id :: s.settled }.Sound held := by
  have hsame {other : ClockContext} (hother : { s with settled := context.id :: s.settled }.Known held other) :
      s.Known held other :=
    hother.congr rfl rfl rfl
  have hwaiting {other : ClockContext} (hother : { s with settled := context.id :: s.settled }.Waiting other) :
      s.Waiting other := ⟨hother.1, fun hin => hother.2 (List.mem_cons_of_mem _ hin)⟩
  have hunmade {id : Nat} (hid : s.Unmade held id) : { s with settled := context.id :: s.settled }.Unmade held id := by
    refine ⟨fun context hcontext => hid.known context (hsame hcontext), hid.answered, fun hin => ?_, hid.deadline,
      hid.timer⟩
    obtain rfl | hin := List.mem_cons.mp hin
    · exact (hid.known context hknown).2 rfl
    · exact hid.settled hin
  exact
    { h.origins (fun _ => hsame) (fun _ => hunmade) rfl rfl rfl rfl, h with
      one := fun first other hfirst hnot hother =>
        h.one first other (hsame hfirst) (fun hin => hnot (List.mem_cons_of_mem _ hin)) (hwaiting hother)
      live := fun other hother => h.live other (hwaiting hother)
      done := by
        intro other hother hin
        obtain heq | hin := List.mem_cons.mp hin
        · have hother : s.tracker.find? other.id = some other := hother
          rw [heq, hfind] at hother
          cases hother
        · exact h.done other hother hin
      agree := fun other hother => h.agree other (hwaiting hother)
      clocked := fun other hother => h.clocked other (hwaiting hother) }

/-- A request goes on in a new context, whose clock is the one it had. -/
theorem Sound.carryOver (h : s.Sound held) (hwaiting : s.Waiting context) (hfollowing : context.id ∉ s.following) :
    (s.carryOver context).1.Sound ((s.carryOver context).2 :: held) := by
  let again : ClockContext := { context with id := s.nextRequestId }
  let retired : ClientClocks := { s.takeId.removeRequest context.id with settled := context.id :: s.settled }
  have hheld : s.Sound (context :: held) := h.hold (.tracked hwaiting.1)
  have hretired : retired.Sound (context :: held) :=
    (hheld.takeId.removeRequest context.id).retire (.held List.mem_cons_self) (OrdMap.find?_erase_self _ _)
  obtain ⟨hnext, hcall, -⟩ := hheld.unmade_next
  have hsame {other : ClockContext} (hother : retired.Known (context :: held) other) : s.Known (context :: held) other :=
    hother.mono (fun _ htracked => .tracked (OrdMap.find?_erase_eq_some_iff.mp htracked).1)
      (fun _ hcall hstage => .called hcall rfl hstage) (fun _ hin => .posted hin) fun _ => .held
  have hunmade : retired.Unmade (context :: held) again.id := by
    refine ⟨fun other hother => hnext.known other (hsame hother), hnext.answered, fun hin => ?_, hnext.deadline,
      hnext.timer⟩
    obtain heq | hin := List.mem_cons.mp hin
    · exact (hnext.known context (.held List.mem_cons_self)).2 heq.symm
    · exact hnext.settled hin
  -- whoever else had this request in hand is settled by now
  have hnobody (other : ClockContext) (hother : s.Known (context :: held) other) (hnot : other.id ∉ retired.settled)
      (heq : again.originId = other.originId) : False := by
    have hsettled : other.id ∉ s.settled := fun hin => hnot (List.mem_cons_of_mem _ hin)
    have hcontext : context = other := hheld.one other context hother hsettled hwaiting heq.symm
    exact hnot (hcontext ▸ List.mem_cons_self)
  have hintroduced : retired.Sound (again :: context :: held) := by
    apply hretired.introduce hunmade (Nat.lt_succ_self _) hcall
    · intro id hid _
      exact (hid.known context (.held List.mem_cons_self)).1
    · intro other hother heq
      exact hnobody other (hsame (.tracked hother.1)) hother.2 heq
  have htracked : (retired.trackRequest again).Sound (again :: context :: held) := by
    apply hintroduced.trackRequest (.held List.mem_cons_self) hunmade.settled
    · intro other hother hnot heq
      obtain rfl | hother := known_cons_cases hother
      · rfl
      · exact absurd heq fun heq => hnobody other (hsame hother) hnot heq
    · exact hheld.live context hwaiting
    · exact hheld.agree context hwaiting
    · exact hheld.clocked context hwaiting hfollowing
  exact htracked.fewer fun other hin => by
    obtain rfl | hin := List.mem_cons.mp hin
    · exact List.mem_cons_self
    · exact List.mem_cons_of_mem _ (List.mem_cons_of_mem _ hin)

theorem Sound.abandonRequest (h : s.Sound held) (hcontext : s.Known held context) (outcome : SendOutcome) :
    (s.abandonRequest context outcome).Sound held := by
  unfold ClientClocks.abandonRequest
  split_ifs
  · exact h
  · have hremoved := ((h.hold hcontext).removeRequest context.id).sendInternalJson outcome
    exact (hremoved.finish (.held List.mem_cons_self)).letGo
  · have hremoved := (h.hold hcontext).removeRequest context.id
    exact (hremoved.finish (.held List.mem_cons_self)).letGo

theorem Sound.abandonOrigin (h : s.Sound held) (origin : Nat) (outcome : SendOutcome) :
    (s.abandonOrigin origin outcome).Sound held := by
  unfold ClientClocks.abandonOrigin
  cases hfind : s.findByOrigin origin with
  | none => exact h
  | some context => exact h.abandonRequest (.tracked (h.tracked_of_findByOrigin hfind).1) outcome

theorem Sound.sendAgain (h : s.Sound held) {id : Nat} (hfollowing : id ∉ s.following) (outcome : SendOutcome) :
    (s.sendAgain id outcome).Sound held := by
  unfold ClientClocks.sendAgain
  cases hfind : s.tracker.find? id with
  | none => exact h
  | some context =>
      obtain rfl : context.id = id := h.keyed id context hfind
      dsimp only
      split_ifs with hcontains
      · exact h
      have hsettled : context.id ∉ s.settled := fun hin => hcontains (List.contains_iff_mem.mpr hin)
      exact ((h.carryOver ⟨hfind, hsettled⟩ hfollowing).sendRequestInternal (.held List.mem_cons_self) outcome).letGo

/-- A timer that fires is armed no longer, and whoever waited for it waits no longer. -/
theorem Sound.onRequestTimedOut (h : s.Sound held) (origin : Nat) (outcome : SendOutcome) :
    (s.onRequestTimedOut origin outcome).Sound held := by
  unfold ClientClocks.onRequestTimedOut
  split
  case h_2 => exact h
  case h_1 due hdue =>
    split_ifs
    case neg => exact h
    have hmade : s.requestDeadlines.find? origin ≠ none ∨ s.requestTimers.find? origin ≠ none :=
      Or.inr (by rw [hdue]; exact Option.some_ne_none _)
    -- the context found is settled already, or it is the one that waited
    unfold ClientClocks.abandonOrigin
    cases hfind : s.findByOrigin origin with
    | none =>
        have hsame : ({ s with requestTimers := s.requestTimers.insert origin none } : ClientClocks).findByOrigin origin =
            none := hfind
        rw [hsame]
        apply h.setTimer _ hmade
        intro context hwaiting horigin
        have hfound := findByOrigin_isSome hwaiting horigin
        rw [hfind] at hfound
        cases hfound
    | some context =>
        have hsame : ({ s with requestTimers := s.requestTimers.insert origin none } : ClientClocks).findByOrigin origin =
            some context := hfind
        rw [hsame]
        obtain ⟨htracked, horigin⟩ := h.tracked_of_findByOrigin hfind
        dsimp only
        unfold ClientClocks.abandonRequest
        by_cases hsettled : context.id ∈ s.settled
        · rw [if_pos (List.contains_iff_mem.mpr hsettled)]
          apply h.setTimer _ hmade
          intro other hwaiting heq
          exact absurd (horigin ▸ h.done context htracked hsettled) (heq ▸ h.live other hwaiting)
        · rw [if_neg fun hcontains => hsettled (List.contains_iff_mem.mp hcontains)]
          have hremoved := (h.hold (.tracked htracked)).removeRequest context.id
          have hdisarmed : ({ s with requestTimers := s.requestTimers.insert origin none } : ClientClocks).removeRequest
              context.id |>.Sound (context :: held) := by
            apply hremoved.setTimer _ hmade
            intro other hwaiting heq
            obtain ⟨hother, hne⟩ := OrdMap.find?_erase_eq_some_iff.mp hwaiting.1
            have hcontext := h.one context other (.tracked htracked) hsettled ⟨hother, hwaiting.2⟩ (horigin.trans heq.symm)
            exact absurd (congrArg ClockContext.id hcontext) hne
          split_ifs
          · exact ((hdisarmed.sendInternalJson outcome).finish (.held List.mem_cons_self)).letGo
          · exact (hdisarmed.finish (.held List.mem_cons_self)).letGo

theorem Sound.cancelRequest (h : s.Sound held) (origin : Nat) : (s.cancelRequest origin).Sound held := by
  have hposted : (s.post (.abandonRequest origin)).Sound held := by
    have hneutral : Neutral (.abandonRequest origin) := trivial
    exact h.post hneutral fun _ heq => by cases heq
  unfold ClientClocks.cancelRequest
  split
  · split_ifs
    · exact h
    · exact hposted
  · exact h

theorem Sound.routeProgress (h : s.Sound held) {origin : Nat} {isThreadSafe : Bool}
    (hintime : isThreadSafe = true → ∀ deadline ∈ s.requestDeadlines.find? origin, s.now ≤ deadline) :
    (s.routeProgress origin isThreadSafe).Sound held := by
  unfold ClientClocks.routeProgress
  by_cases hroute : s.progressRoutes.contains origin = true
  · rw [if_pos hroute]
    cases s.findByOrigin origin with
    | none => exact h
    | some context =>
        dsimp only
        split_ifs with hsettled hresets hsafe
        · exact h
        · exact h.armRequestTimeout _ (hintime hsafe)
        · have hneutral : Neutral (.armRequestTimeout origin (context.timeout.getD s.requestTimeout)) := trivial
          exact h.post hneutral fun _ heq => by cases heq
        · exact h
  · rw [if_neg hroute]
    exact h

/-- Contexts in hand are settled one after another. -/
theorem Sound.finishAll {contexts : List ClockContext} (h : s.Sound held) (hknown : ∀ context ∈ contexts, context ∈ held) :
    (contexts.foldl ClientClocks.finish s).Sound held := by
  induction contexts generalizing s with
  | nil => exact h
  | cons context rest ih =>
      exact ih (h.finish (.held (hknown context List.mem_cons_self))) fun other hin =>
        hknown other (List.mem_cons_of_mem _ hin)

theorem Sound.holdAll {contexts : List ClockContext} (h : s.Sound held)
    (hknown : ∀ context ∈ contexts, s.Known held context) : s.Sound (contexts ++ held) := by
  apply h.of_known
  intro other hother
  refine hother.mono (fun _ => .tracked) (fun _ hcall hstage => .called hcall rfl hstage) (fun _ => .posted) ?_
  intro other hin
  obtain hin | hin := List.mem_append.mp hin
  · exact hknown other hin
  · exact .held hin

theorem Sound.onConnectionClosed (h : s.Sound held) : s.onConnectionClosed.Sound held := by
  have hheld : s.Sound (s.tracker.values.filter s.overdue ++ held) := by
    apply h.holdAll
    intro context hin
    obtain ⟨id, hfind⟩ := s.tracker.mem_values_iff.mp (List.mem_filter.mp hin).1
    obtain rfl : context.id = id := h.keyed id context hfind
    exact .tracked hfind
  have hforgotten := @Sound.withTracker _ _ hheld (s.tracker.filter fun _ context => !s.overdue context)
    fun id context hfind => by
      rw [OrdMap.find?_filter] at hfind
      exact (Option.filter_eq_some_iff.mp hfind).1
  have hfinished := @Sound.finishAll _ _ (s.tracker.values.filter s.overdue) hforgotten
    fun _ hin => List.mem_append_left _ hin
  exact hfinished.fewer fun _ hin => List.mem_append_right _ hin

/-! ### Runs -/

/-- The dispatcher runs a task. -/
theorem Sound.runTask (h : s.Sound []) {outcome : SendOutcome} (htimely : s.Timely (.runTask outcome)) :
    (s.runTask outcome).Sound [] := by
  unfold ClientClocks.runTask
  cases hposted : s.posted with
  | nil => exact h
  | cons task rest =>
      have hintime : s.InTime task := htimely task (by rw [hposted]; rfl)
      cases task with
      | startClock origin deadline timeout => exact h.clockStarted hposted hintime.1 hintime.2
      | stopClock origin => exact h.clockStopped hposted
      | armRequestTimeout origin after => exact (h.dropNeutral hposted trivial).armRequestTimeout after hintime
      | sendRequestInternal context =>
          have hheld := h.hold (.posted (by rw [hposted]; exact List.mem_cons_self))
          exact ((hheld.dropNeutral hposted trivial).sendRequestInternal (.held List.mem_cons_self) outcome).letGo
      | abandonRequest origin => exact (h.dropNeutral hposted trivial).abandonOrigin origin outcome

theorem sound_step (h : s.Sound []) {op : ClockOp} (htimely : s.Timely op) : (s.step op).Sound [] := by
  cases op with
  | sendRequest isInitialize allowed => exact h.sendRequest isInitialize allowed
  | sendCancellableRequest isInitialize timeout progressResetsTimeout onProgress allowed =>
      exact h.sendCancellableRequest htimely
  | proceed id outcome => exact h.proceed id outcome
  | sendInternalJson outcome => exact h.sendInternalJson outcome
  | runTask outcome => exact h.runTask htimely
  | retry id outcome =>
      cases hfind : s.tracker.find? id with
      | none =>
          simp only [step, hfind]
          exact h
      | some context =>
          obtain rfl : context.id = id := h.keyed id context hfind
          simp only [step, hfind]
          exact h.sendRequestInternal (.tracked hfind) outcome
  | answer id =>
      cases hfind : s.tracker.find? id with
      | none =>
          simp only [step, hfind]
          exact h
      | some context =>
          obtain rfl : context.id = id := h.keyed id context hfind
          simp only [step, hfind]
          exact h.completeRequest (.tracked hfind)
  | followTask id => exact h.followTask id
  | sendAgain id outcome => exact h.sendAgain htimely outcome
  | cancelRequest origin => exact h.cancelRequest origin
  | routeProgress origin isThreadSafe =>
      exact h.routeProgress htimely
  | timerFires origin outcome => exact h.onRequestTimedOut origin outcome
  | onConnectionClosed => exact h.onConnectionClosed
  | advance nanoseconds => exact h.aside _ fun _ hin => hin

theorem sound_new (requestTimeout requestTimeoutMax now : Int) :
    (new requestTimeout requestTimeoutMax now).Sound [] := by
  have hknown (context : ClockContext) : ¬ (new requestTimeout requestTimeoutMax now).Known [] context := by
    intro h
    cases h with
    | tracked h => cases h
    | called h _ _ => cases h
    | posted h => cases h
    | held h => cases h
  exact
    { keyed := fun _ _ hfind => by cases hfind
      called := fun _ _ hfind => by cases hfind
      fresh := fun _ _ => ⟨⟨fun context h => absurd h (hknown context), List.not_mem_nil, List.not_mem_nil, rfl, rfl⟩,
        rfl, fun _ _ => List.not_mem_nil⟩
      beginning := fun _ _ hfind => by cases hfind
      tracking := fun _ _ hfind => by cases hfind
      same := fun context _ h => absurd h (hknown context)
      one := fun context _ h => absurd h (hknown context)
      live := fun _ h => by cases h.1
      done := fun _ h => by cases h
      agree := fun _ h => by cases h.1
      clocked := fun _ h => by cases h.1
      stops := fun _ h => by cases h
      routes := fun _ h => by cases h
      routed := fun _ h => by cases h
      cleared := fun _ h => by cases h
      followed := fun _ h => by cases h }

/-- Once nothing is posted, what the tasks were to do is done. -/
theorem Sound.clocked_of_posted (h : s.Sound held) : s.Clocked := by
  intro hposted
  refine ⟨fun context hin hsettled hfollowing => ?_, fun origin hanswered => ?_⟩
  · obtain ⟨id, hfind⟩ := s.tracker.mem_values_iff.mp hin
    obtain rfl : context.id = id := h.keyed id context hfind
    obtain ⟨deadline, timeout, hstart⟩ | hdue := h.clocked context ⟨hfind, hsettled⟩ hfollowing
    · rw [hposted] at hstart
      exact absurd hstart List.not_mem_nil
    · exact hdue
  · have hstopped : ¬ (s.requestTimers.find? origin ≠ none ∨ s.requestDeadlines.find? origin ≠ none) := by
      intro hleft
      have hstop := h.cleared origin hanswered hleft
      rw [hposted] at hstop
      exact absurd hstop List.not_mem_nil
    rw [not_or, not_not, not_not] at hstopped
    exact ⟨hstopped.1, hstopped.2, h.routed origin hanswered⟩

/-- **Clocks follow requests**, whatever thread takes which step, in every run whose steps are timely. -/
theorem clocked_run (requestTimeout requestTimeoutMax now : Int) {ops : List ClockOp}
    (htimely : Runs.Guarded step Timely (new requestTimeout requestTimeoutMax now) ops) :
    (Runs.run step (new requestTimeout requestTimeoutMax now) ops).Clocked :=
  (@Runs.invariant _ _ step Timely (fun s => s.Sound []) (fun _ _ htimely h => sound_step h htimely) _
    (sound_new requestTimeout requestTimeoutMax now) ops htimely).clocked_of_posted

/-- A request that can be cancelled is sent, its progress starts its clock again, and it is sent once more. -/
def sentAgain : List ClockOp :=
  [.sendCancellableRequest false none true true true, .proceed 1 .sent, .proceed 1 .sent, .runTask .sent,
    .proceed 1 .sent, .runTask .sent, .advance 1000000000, .routeProgress 1 true, .sendAgain 1 .sent]

theorem clocked_run_sentAgain : (Runs.run step (new 30000 60000 0) sentAgain).Clocked :=
  clocked_run 30000 60000 0 (by decide)

/-- A clock is to be started before the request is tracked, and it never is. -/
def trackedLate : List ClockOp :=
  [.sendRequest false true, .proceed 1 .sent, .runTask .sent, .proceed 1 .sent, .proceed 1 .sent]

/-- A request that asks for progress is refused, and its route stays. -/
def refusedWithProgress : List ClockOp := [.sendCancellableRequest false none true true false]

theorem not_always_clocked :
    ¬ (Runs.run step (new 30000 60000 0) trackedLate).Clocked ∧
      ¬ (Runs.run step (new 30000 60000 0) refusedWithProgress).Clocked := by
  constructor
  · intro h
    obtain ⟨due, htimer, -⟩ := (h rfl).1 ⟨1, 1, false, 0, none, false⟩ List.mem_cons_self (by decide) (by decide)
    cases htimer
  · intro h
    exact ((h rfl).2 1 (by decide)).2.2 (by decide)

end ClientClocks

end GopherMcp
