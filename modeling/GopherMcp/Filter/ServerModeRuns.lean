import GopherMcp.Filter.ServerConnectionMode

/-!
# Runs of a server connection's mode

A listener may call the machine while a change is told to it, and a reset made there lets the next transition begin before
the last listener has heard of the one before. Whatever is done so, the mode goes from one to the next along the few ways
there are, and when all calls have returned nobody is owed a call: each listener has been told each transition once, and
each completion callback has been called or is about to be.
-/

namespace GopherMcp

/-- Where an event leads. What is closed stays closed, and an error leads only there. -/
def ServerConnMode.successor : ServerConnMode → ServerConnEvent → Option ServerConnMode
  | .closed, _ => none
  | _, .close => some .closed
  | .error, _ => none
  | _, .streamError => some .error
  | .undetermined, .plainHttpDetected => some .plainHttp
  | .undetermined, .sseGetDetected => some .sseStream
  | .undetermined, .callbackPostDetected => some .callbackProxy
  | _, _ => none

theorem ServerConnMode.ended_of_successor {mode next : ServerConnMode} {event : ServerConnEvent}
    (hmode : mode = .sseStream ∨ mode = .error ∨ mode = .closed) (h : mode.successor event = some next) :
    next = .error ∨ next = .closed := by
  obtain rfl | rfl | rfl := hmode <;> cases event <;> simp_all [successor]

namespace ModeEntry

def context? : ModeEntry → Option ServerConnTransitionContext
  | .transition context => some context
  | _ => none

/-- The mode, and whether the headers of a stream were written, behind one more entry. -/
def follow (state : ServerConnMode × Bool) : ModeEntry → Option (ServerConnMode × Bool)
  | .transition context =>
      if context.fromMode = state.1 ∧ state.1.successor context.triggeringEvent = some context.toMode then
        some (context.toMode, state.2)
      else none
  | .headersWritten => if state.1 = .sseStream then some (state.1, true) else none
  | .reset =>
      if state.1 = .plainHttp ∨ state.1 = .callbackProxy ∨ state.1 = .error then some (.undetermined, false) else none

/-- Headers are written on a stream, and what they were written on is reused only after an error. -/
def Streamed (state : ServerConnMode × Bool) : Prop :=
  state.2 = true → state.1 = .sseStream ∨ state.1 = .error ∨ state.1 = .closed

theorem streamed_follow {state next : ServerConnMode × Bool} {entry : ModeEntry} (h : follow state entry = some next)
    (hstate : Streamed state) : Streamed next := by
  obtain ⟨mode, headers⟩ := state
  cases entry with
  | transition context =>
      rw [follow] at h
      split_ifs at h with hled
      cases h
      intro hheaders
      exact Or.inr (ServerConnMode.ended_of_successor (hstate hheaders) hled.2)
  | headersWritten =>
      rw [follow] at h
      split_ifs at h with hmode
      cases h
      exact fun _ => Or.inl hmode
  | reset =>
      rw [follow] at h
      split_ifs at h
      cases h
      exact fun hheaders => absurd hheaders nofun

theorem streamed_of_follow {entries : List ModeEntry} {state final : ServerConnMode × Bool}
    (h : entries.foldlM follow state = some final) (hstate : Streamed state) : Streamed final := by
  induction entries generalizing state with
  | nil =>
      cases h
      exact hstate
  | cons entry rest ih =>
      rw [List.foldlM_cons] at h
      obtain ⟨next, hnext, hrest⟩ := Option.bind_eq_some_iff.mp h
      exact ih hrest (streamed_follow hnext hstate)

end ModeEntry

namespace ServerConnectionMode

def transitionsOf (entries : List ModeEntry) : List ServerConnTransitionContext := entries.filterMap ModeEntry.context?

/-- The reasons of the transitions into the error mode. -/
def errorsOf (entries : List ModeEntry) : List String :=
  ((transitionsOf entries).filter fun context => context.toMode = .error).map (·.reason)

/-- The last of the transitions that were made. -/
def recent (entries : List ModeEntry) : List ServerConnTransitionContext :=
  (transitionsOf entries).drop ((transitionsOf entries).length - kMaxHistorySize)

/-! ### What callbacks are owed -/

/-- A call that somebody may be owed: a listener that of a transition, the error callback that of an error, and a
completion callback its call, with whatever outcome. -/
inductive Due
  | changed (listener : Nat) (context : ServerConnTransitionContext)
  | failed (reason : String)
  | completed (callback : Nat)
  deriving DecidableEq

/-- What a call settles. -/
def Due.settledBy : ModeNotice → Due
  | .changed listener context => .changed listener context
  | .failed reason => .failed reason
  | .completed callback _ => .completed callback

/-- A callback that is there. -/
def Expected (m : ServerConnectionMode) : Due → Prop
  | .changed listener _ => listener < m.audience
  | .failed _ => m.config.errorCallback = true
  | .completed _ => True

/-- How often a call was made or is about to be made by a posted task. -/
def made (m : ServerConnectionMode) (due : Due) : Nat :=
  (m.notices.map Due.settledBy).count due + (m.posted.map Due.completed).count due

/-- How often there was ground for a call. -/
def grounds (m : ServerConnectionMode) : Due → Nat
  | .changed _ context => (transitionsOf m.entries).count context
  | .failed reason => (errorsOf m.entries).count reason
  | .completed callback => m.handedIn.count callback

/-- Calls made beyond those there was ground for. -/
def lead (m : ServerConnectionMode) (due : Due) : Int := (m.made due : Int) - m.grounds due

/-- What code does to the machine that runs between two moments and makes `gained` calls more than it gives ground for. -/
structure Moves (gained : Due → Int) (m m' : ServerConnectionMode) : Prop where
  config : m'.config = m.config
  listeners : m'.listeners = m.listeners
  follows : ∃ more, m'.entries = m.entries ++ more ∧
    more.foldlM ModeEntry.follow (m.currentMode, m.sseHeadersWritten) = some (m'.currentMode, m'.sseHeadersWritten)
  history : m.stateHistory = recent m.entries → m'.stateHistory = recent m'.entries
  counted : m.totalTransitions = UInt64.ofNat (transitionsOf m.entries).length →
    m'.totalTransitions = UInt64.ofNat (transitionsOf m'.entries).length
  lead : ∀ due, m.Expected due → m'.lead due = m.lead due + gained due

/-- Nobody is owed more or less than before. -/
def Keeps (m m' : ServerConnectionMode) : Prop := Moves (fun _ => 0) m m'

theorem Moves.expected {gained : Due → Int} {m m' : ServerConnectionMode} (h : Moves gained m m') (due : Due) :
    m'.Expected due ↔ m.Expected due := by
  cases due with
  | changed listener context => simp only [Expected, audience, h.config, h.listeners]
  | failed reason => simp only [Expected, h.config]
  | completed callback => exact Iff.rfl

theorem Moves.trans {gained more : Due → Int} {m m' m'' : ServerConnectionMode} (h : Moves gained m m')
    (h' : Moves more m' m'') : Moves (fun due => gained due + more due) m m'' where
  config := h'.config.trans h.config
  listeners := h'.listeners.trans h.listeners
  follows := by
    obtain ⟨first, hfirst, hled⟩ := h.follows
    obtain ⟨second, hsecond, hled'⟩ := h'.follows
    refine ⟨first ++ second, by rw [hsecond, hfirst, List.append_assoc], ?_⟩
    rw [List.foldlM_append, hled]
    exact hled'
  history := h'.history ∘ h.history
  counted := h'.counted ∘ h.counted
  lead due hexpected := by
    rw [h'.lead due ((h.expected due).mpr hexpected), h.lead due hexpected]
    ring

/-- The mode and what is kept of the past. -/
def past (m : ServerConnectionMode) :=
  (m.config, m.listeners, m.entries, m.currentMode, m.sseHeadersWritten, m.stateHistory, m.totalTransitions)

theorem Moves.of_past {gained : Due → Int} {m m' : ServerConnectionMode} (h : m'.past = m.past)
    (hlead : ∀ due, m'.lead due = m.lead due + gained due) : Moves gained m m' := by
  simp only [past, Prod.mk.injEq] at h
  obtain ⟨hconfig, hlisteners, hentries, hmode, hheaders, hhistory, hcounted⟩ := h
  refine ⟨hconfig, hlisteners, ⟨[], ?_, ?_⟩, fun hwas => ?_, fun hwas => ?_, fun due _ => hlead due⟩
  · rw [hentries, List.append_nil]
  · rw [hmode, hheaders]
    rfl
  · rw [hhistory, hwas, hentries]
  · rw [hcounted, hwas, hentries]

theorem Moves.congr {gained more : Due → Int} {m m' : ServerConnectionMode} (h : Moves gained m m')
    (hsame : ∀ due, m.Expected due → gained due = more due) : Moves more m m' :=
  { h with lead := fun due hexpected => by rw [h.lead due hexpected, hsame due hexpected] }

theorem Keeps.refl (m : ServerConnectionMode) : Keeps m m := Moves.of_past rfl fun _ => (add_zero _).symm

theorem Keeps.trans (m m' m'' : ServerConnectionMode) (h : Keeps m m') (h' : Keeps m' m'') : Keeps m m'' :=
  Moves.congr (Moves.trans h h') fun _ _ => add_zero 0

theorem lead_add {m m' : ServerConnectionMode} {due : Due} {made grounds : Int}
    (hmade : (m'.made due : Int) = m.made due + made) (hgrounds : (m'.grounds due : Int) = m.grounds due + grounds) :
    m'.lead due = m.lead due + (made - grounds) := by
  rw [ServerConnectionMode.lead, hmade, hgrounds, ServerConnectionMode.lead]
  ring

/-! ### What each piece of code gains -/

/-- Somebody is called. -/
def dueOf (notice : ModeNotice) (due : Due) : Int := if Due.settledBy notice = due then 1 else 0

/-- A completion callback, where there is one. -/
def dueOn (callback : Option Nat) (due : Due) : Int := ((callback.toList.map Due.completed).count due : Nat)

/-- What a transition gives ground for. -/
def dueBy (context : ServerConnTransitionContext) : Due → Int
  | .changed _ other => if context = other then 1 else 0
  | .failed reason => if context.toMode = .error ∧ context.reason = reason then 1 else 0
  | .completed _ => 0

section Callbacks

variable {χ : Type} {callBack : ModeNotice → ServerConnectionMode × χ → ServerConnectionMode × χ}

theorem moves_call (hcalls : ∀ notice, Reentry.Keeping Keeps (callBack notice)) (notice : ModeNotice)
    (w : ServerConnectionMode × χ) : Moves (dueOf notice) w.1 (call callBack notice w).1 := by
  have hnoted : Moves (dueOf notice) w.1 { w.1 with notices := w.1.notices ++ [notice] } := by
    refine Moves.of_past rfl fun due => ?_
    have hgrounds : grounds { w.1 with notices := w.1.notices ++ [notice] } due = w.1.grounds due := by
      cases due <;> rfl
    simp only [lead, hgrounds, made, dueOf, List.map_append, List.map_singleton, List.count_append, List.count_singleton,
      beq_iff_eq]
    split_ifs <;> push_cast <;> ring
  have hreplied : Keeps { w.1 with notices := w.1.notices ++ [notice] } (call callBack notice w).1 :=
    hcalls notice ({ w.1 with notices := w.1.notices ++ [notice] }, w.2)
  exact (Moves.trans hnoted hreplied).congr fun _ _ => add_zero _

theorem moves_complete (hcalls : ∀ notice, Reentry.Keeping Keeps (callBack notice)) (callback : Option Nat)
    (success : Bool) (w : ServerConnectionMode × χ) :
    Moves (dueOn callback) w.1 (complete callBack callback success w).1 := by
  cases callback with
  | none => exact Moves.of_past rfl fun _ => (add_zero _).symm
  | some id =>
      refine (moves_call hcalls (.completed id success) w).congr fun due _ => ?_
      by_cases hdue : Due.completed id = due <;> simp [dueOf, dueOn, Due.settledBy, hdue]

/-- Every listener of a list is told of the change once. -/
theorem moves_listeners (hcalls : ∀ notice, Reentry.Keeping Keeps (callBack notice))
    (context : ServerConnTransitionContext) (listeners : List Nat) (w : ServerConnectionMode × χ) :
    Moves (fun due => ((listeners.map fun listener => Due.changed listener context).count due : Nat)) w.1
      (listeners.foldl (fun w listener => call callBack (.changed listener context) w) w).1 := by
  induction listeners generalizing w with
  | nil => exact Moves.of_past rfl fun _ => (add_zero _).symm
  | cons listener rest ih =>
      rw [List.foldl_cons]
      refine ((moves_call hcalls (.changed listener context) w).trans (ih _)).congr fun due _ => ?_
      rw [List.map_cons, List.count_cons]
      by_cases hdue : Due.changed listener context = due
      · simp [dueOf, Due.settledBy, hdue, add_comm]
      · simp [dueOf, Due.settledBy, hdue]

theorem transitionsOf_enter (m : ServerConnectionMode) (context : ServerConnTransitionContext) :
    transitionsOf (m.enter context).entries = transitionsOf m.entries ++ [context] := by
  simp [enter, recordTransition, transitionsOf, ModeEntry.context?]

theorem moves_enter (m : ServerConnectionMode) {context : ServerConnTransitionContext}
    (hfrom : context.fromMode = m.currentMode)
    (hleads : m.currentMode.successor context.triggeringEvent = some context.toMode) :
    Moves (fun due => -dueBy context due) m (m.enter context) where
  config := rfl
  listeners := rfl
  follows := by
    refine ⟨[.transition context], rfl, ?_⟩
    simp only [List.foldlM_cons, List.foldlM_nil, ModeEntry.follow, hfrom, hleads, and_self, if_true]
    rfl
  history h := by
    simp only [recent, transitionsOf_enter]
    simp only [enter, recordTransition, h, recent]
    rw [← List.drop_append_of_le_length (by omega), List.drop_drop]
    congr 1
    simp only [List.length_append, List.length_drop, List.length_singleton]
    omega
  counted h := by
    have htotal : (m.enter context).totalTransitions = m.totalTransitions + 1 := rfl
    rw [transitionsOf_enter, htotal, h, List.length_append, List.length_singleton, UInt64.ofNat_add]
    rfl
  lead due _ := by
    have hmade : (m.enter context).made due = m.made due := rfl
    cases due with
    | changed listener other =>
        simp only [lead, hmade, grounds, transitionsOf_enter, List.count_append, List.count_singleton, dueBy, beq_iff_eq]
        split_ifs <;> push_cast <;> ring
    | failed reason =>
        simp only [lead, hmade, grounds, errorsOf, transitionsOf_enter, List.filter_append, List.map_append, List.count_append,
          dueBy, List.filter_singleton]
        by_cases hto : context.toMode = .error
        · by_cases hreason : context.reason = reason
          · simp only [hto, hreason, decide_true, cond_true, List.map_cons, List.map_nil, List.count_singleton_self,
              and_self, if_true]
            push_cast
            ring
          · simp [hto, hreason]
        · simp [hto]
    | completed callback =>
        have hhanded : (m.enter context).handedIn = m.handedIn := rfl
        simp [lead, hmade, grounds, hhanded, dueBy]

theorem moves_reportError (hcalls : ∀ notice, Reentry.Keeping Keeps (callBack notice)) (newMode : ServerConnMode)
    (reason : String) (w : ServerConnectionMode × χ) :
    Moves (fun due => if newMode = .error then dueOf (.failed reason) due else 0) w.1
      (reportError callBack newMode reason w).1 := by
  unfold reportError
  by_cases hmode : newMode = .error
  · cases hset : w.1.config.errorCallback with
    | true =>
        simp only [hmode, decide_true, Bool.and_self, if_true]
        exact moves_call hcalls (.failed reason) w
    | false =>
        simp only [Bool.and_false, Bool.false_eq_true, if_false]
        refine Moves.congr (Keeps.refl w.1) fun due hexpected => ?_
        rw [if_pos hmode, dueOf, if_neg]
        rintro rfl
        exact absurd (hset.symm.trans hexpected) nofun
  · simp only [hmode, decide_false, Bool.false_and, Bool.false_eq_true, if_false]
    exact Keeps.refl w.1

/-- The calls that are made of a transition are those it gives ground for. -/
theorem dueBy_eq {m : ServerConnectionMode} (context : ServerConnTransitionContext) {due : Due}
    (hexpected : m.Expected due) :
    ((((List.range m.audience).map fun listener => Due.changed listener context).count due : Nat) : Int) +
        (if context.toMode = .error then dueOf (.failed context.reason) due else 0) =
      dueBy context due := by
  cases due with
  | changed listener other =>
      have hno : Due.settledBy (.failed context.reason) ≠ Due.changed listener other := nofun
      rw [dueOf, if_neg hno, ite_self, add_zero, dueBy]
      split_ifs with hsame
      · subst hsame
        have hinj : Function.Injective fun listener => Due.changed listener context := by
          intro a b hab
          cases hab
          rfl
        have hcount := List.count_map_of_injective (List.range m.audience) _ hinj listener
        have honce : (List.range m.audience).count listener = 1 :=
          List.count_eq_one_of_mem List.nodup_range (List.mem_range.mpr hexpected)
        exact_mod_cast hcount.trans honce
      · have hnone : Due.changed listener other ∉
            (List.range m.audience).map fun listener => Due.changed listener context := by
          rw [List.mem_map]
          rintro ⟨_, -, heq⟩
          cases heq
          exact hsame rfl
        exact_mod_cast List.count_eq_zero.mpr hnone
  | failed reason =>
      have hnone : Due.failed reason ∉ (List.range m.audience).map fun listener => Due.changed listener context := by
        simp
      rw [List.count_eq_zero.mpr hnone, dueBy, dueOf, Due.settledBy]
      by_cases hto : context.toMode = .error <;> by_cases hreason : context.reason = reason <;> simp [hto, hreason]
  | completed callback =>
      have hnone : Due.completed callback ∉ (List.range m.audience).map fun listener => Due.changed listener context := by
        simp
      rw [List.count_eq_zero.mpr hnone, dueBy, dueOf]
      simp [Due.settledBy]

theorem moves_executeTransition (hcalls : ∀ notice, Reentry.Keeping Keeps (callBack notice)) {newMode : ServerConnMode}
    {event : ServerConnEvent} (reason : String) (callback : Option Nat) (w : ServerConnectionMode × χ)
    (hleads : w.1.currentMode.successor event = some newMode) :
    Moves (dueOn callback) w.1 (executeTransition callBack newMode event reason callback w).1 := by
  let context : ServerConnTransitionContext :=
    ⟨w.1.currentMode, newMode, event, w.1.now, reason, w.1.getTimeInCurrentMode⟩
  let told := notifyStateChange callBack context (w.1.enter context, w.2)
  let reported := reportError callBack newMode reason told
  have hentered : Moves (fun due => -dueBy context due) w.1 (w.1.enter context) := moves_enter w.1 rfl hleads
  have htold := moves_listeners hcalls context (List.range (w.1.enter context).audience) (w.1.enter context, w.2)
  have hreported := moves_reportError hcalls newMode reason told
  have hended : Keeps reported.1 { reported.1 with transitionInProgress := false } :=
    Moves.of_past rfl fun _ => (add_zero _).symm
  have hcompleted := moves_complete hcalls callback true ({ reported.1 with transitionInProgress := false }, reported.2)
  refine ((((hentered.trans htold).trans hreported).trans hended).trans hcompleted).congr fun due hexpected => ?_
  have hpaid := dueBy_eq (m := w.1.enter context) context ((hentered.expected due).mpr hexpected)
  have hsame : context.toMode = newMode := rfl
  have hreason : context.reason = reason := rfl
  rw [hsame, hreason] at hpaid
  linarith

/-! ### Each operation -/

theorem successor_of_identify {mode newMode : ServerConnMode} {event : ServerConnEvent} {reason : String}
    (h : identify mode event = some (newMode, reason)) : mode.successor event = some newMode := by
  cases mode <;> cases event <;> cases h <;> rfl

theorem moves_postRefusal (m : ServerConnectionMode) (callback : Option Nat) :
    Moves (dueOn callback) m (m.postRefusal callback) := by
  refine Moves.of_past rfl fun due => ?_
  have hmade : ((m.postRefusal callback).made due : Int) = m.made due + dueOn callback due := by
    simp only [made, dueOn, postRefusal, List.map_append, List.count_append]
    push_cast
    ring
  have hgrounds : ((m.postRefusal callback).grounds due : Int) = m.grounds due + 0 := by
    cases due <;> exact (add_zero _).symm
  rw [lead_add hmade hgrounds, sub_zero]

theorem moves_headersWritten {m : ServerConnectionMode} (h : m.currentMode = .sseStream) :
    Keeps m { m with sseHeadersWritten := true, entries := m.entries ++ [.headersWritten] } := by
  have htransitions : transitionsOf (m.entries ++ [.headersWritten]) = transitionsOf m.entries := by
    simp [transitionsOf, ModeEntry.context?]
  refine ⟨rfl, rfl, ⟨[.headersWritten], rfl, ?_⟩, fun hhistory => ?_, fun hcounted => ?_, fun due _ => ?_⟩
  · simp only [List.foldlM_cons, List.foldlM_nil, ModeEntry.follow, h, if_true]
    rfl
  · rw [recent, htransitions]
    exact hhistory
  · rw [htransitions]
    exact hcounted
  · cases due <;> simp only [lead, made, grounds, errorsOf, htransitions, add_zero]

theorem moves_react (hcalls : ∀ notice, Reentry.Keeping Keeps (callBack notice)) (event : ServerConnEvent)
    (callback : Option Nat) (w : ServerConnectionMode × χ) :
    Moves (dueOn callback) w.1 (react callBack event callback w).1.1 := by
  unfold react
  by_cases hheaders : w.1.currentMode = .sseStream ∧ event = .sseHeadersWritten
  · rw [if_pos hheaders]
    have hwritten := moves_headersWritten hheaders.1
    have hcompleted := moves_complete hcalls callback true
      ({ w.1 with sseHeadersWritten := true, entries := w.1.entries ++ [.headersWritten] }, w.2)
    exact (Moves.trans hwritten hcompleted).congr fun _ _ => zero_add _
  · rw [if_neg hheaders]
    split
    · exact moves_postRefusal w.1 callback
    · next newMode reason hidentify =>
        split_ifs
        · exact moves_postRefusal w.1 callback
        · exact moves_postRefusal w.1 callback
        · have hbegun : Keeps w.1 { w.1 with transitionInProgress := true } :=
            Moves.of_past rfl fun _ => (add_zero _).symm
          have hmade := moves_executeTransition hcalls reason callback
            ({ w.1 with transitionInProgress := true }, w.2) (successor_of_identify hidentify)
          exact (Moves.trans hbegun hmade).congr fun _ _ => zero_add _

theorem keeps_handleEvent (hcalls : ∀ notice, Reentry.Keeping Keeps (callBack notice)) (event : ServerConnEvent)
    (callback : Option Nat) : Reentry.Keeping Keeps fun w => (handleEvent callBack event callback w).1 := by
  intro w
  have hhanded : Moves (fun due => -dueOn callback due) w.1
      { w.1 with handedIn := w.1.handedIn ++ callback.toList } := by
    refine Moves.of_past rfl fun due => ?_
    have hmade : (made { w.1 with handedIn := w.1.handedIn ++ callback.toList } due : Int) = w.1.made due + 0 :=
      (add_zero _).symm
    have hgrounds : (grounds { w.1 with handedIn := w.1.handedIn ++ callback.toList } due : Int) =
        w.1.grounds due + dueOn callback due := by
      cases due with
      | completed id =>
          have hinj : Function.Injective Due.completed := fun _ _ heq => Due.completed.inj heq
          simp only [grounds, dueOn, List.count_append, List.count_map_of_injective _ _ hinj]
          push_cast
          ring
      | changed | failed => cases callback <;> simp [grounds, dueOn]
    rw [lead_add hmade hgrounds, zero_sub]
  have hreacted := moves_react hcalls event callback ({ w.1 with handedIn := w.1.handedIn ++ callback.toList }, w.2)
  exact (hhanded.trans hreacted).congr fun _ _ => neg_add_cancel _

theorem keeps_resetForNextRequest (m : ServerConnectionMode) : Keeps m m.resetForNextRequest := by
  unfold resetForNextRequest
  split_ifs with hkept
  · exact Keeps.refl m
  · have hmode : m.currentMode = .plainHttp ∨ m.currentMode = .callbackProxy ∨ m.currentMode = .error := by
      cases hmode : m.currentMode <;> simp [hmode] at hkept ⊢
    have htransitions : transitionsOf (m.entries ++ [.reset]) = transitionsOf m.entries := by
      simp [transitionsOf, ModeEntry.context?]
    refine ⟨rfl, rfl, ⟨[.reset], rfl, ?_⟩, fun hhistory => ?_, fun hcounted => ?_, fun due _ => ?_⟩
    · simp only [List.foldlM_cons, List.foldlM_nil, ModeEntry.follow, hmode, if_true]
      rfl
    · rw [recent, htransitions]
      exact hhistory
    · rw [htransitions]
      exact hcounted
    · cases due <;> simp only [lead, made, grounds, errorsOf, htransitions, add_zero]

theorem keeps_perform (hcalls : ∀ notice, Reentry.Keeping Keeps (callBack notice)) (request : Call) :
    Reentry.Keeping Keeps fun w => perform callBack w request := by
  cases request with
  | handleEvent event callback => exact keeps_handleEvent hcalls event callback
  | resetForNextRequest => exact fun w => keeps_resetForNextRequest w.1
  | beginHandshakeWrite => exact fun w => Moves.of_past rfl fun _ => (add_zero _).symm
  | endHandshakeWrite => exact fun w => Moves.of_past rfl fun _ => (add_zero _).symm

/-- A posted refusal was owed from the moment it was posted. -/
theorem keeps_runPosted (hcalls : ∀ notice, Reentry.Keeping Keeps (callBack notice)) :
    Reentry.Keeping Keeps (runPosted callBack) := by
  intro w
  unfold runPosted
  split
  · exact Keeps.refl w.1
  · next callback rest hposted =>
      have htaken : Moves (fun due => -dueOf (.completed callback false) due) w.1 { w.1 with posted := rest } := by
        refine Moves.of_past rfl fun due => ?_
        have hmade : (made { w.1 with posted := rest } due : Int) =
            w.1.made due + -dueOf (.completed callback false) due := by
          simp only [made, hposted, List.map_cons, List.count_cons, beq_iff_eq, dueOf, Due.settledBy]
          by_cases hdue : Due.completed callback = due
          · simp [hdue, add_assoc]
          · simp [hdue]
        have hgrounds : (grounds { w.1 with posted := rest } due : Int) = w.1.grounds due + 0 := by
          cases due <;> exact (add_zero _).symm
        rw [lead_add hmade hgrounds, sub_zero]
      have hcalled := moves_call hcalls (.completed callback false) ({ w.1 with posted := rest }, w.2)
      exact (htaken.trans hcalled).congr fun _ _ => neg_add_cancel _

theorem keeps_step (hcalls : ∀ notice, Reentry.Keeping Keeps (callBack notice)) (event : Step) :
    Reentry.Keeping Keeps fun w => step callBack w event := by
  cases event with
  | call request => exact keeps_perform hcalls request
  | task => exact keeps_runPosted hcalls
  | elapse nanoseconds => exact fun w => Moves.of_past rfl fun _ => (add_zero _).symm

end Callbacks

/-! ### Runs -/

/-- The books of a machine whose calls have all returned. -/
structure InOrder (m : ServerConnectionMode) : Prop where
  followed : m.entries.foldlM ModeEntry.follow (.undetermined, false) = some (m.currentMode, m.sseHeadersWritten)
  streamed : m.sseHeadersWritten = true →
    m.currentMode = .sseStream ∨ m.currentMode = .error ∨ m.currentMode = .closed
  history : m.stateHistory = recent m.entries
  counted : m.totalTransitions = UInt64.ofNat (transitionsOf m.entries).length
  settled : ∀ due, m.Expected due → m.made due = m.grounds due

theorem inOrder_create (config : ServerConnModeConfig) (listeners : Nat) : InOrder (create config listeners) where
  followed := rfl
  streamed h := absurd h nofun
  history := rfl
  counted := rfl
  settled due _ := by
    cases due <;> rfl

theorem Keeps.followed {m m' : ServerConnectionMode} (h : Keeps m m') (hm : InOrder m) :
    m'.entries.foldlM ModeEntry.follow (.undetermined, false) = some (m'.currentMode, m'.sseHeadersWritten) := by
  obtain ⟨more, hmore, hled⟩ := h.follows
  rw [hmore, List.foldlM_append, hm.followed]
  exact hled

theorem Keeps.inOrder {m m' : ServerConnectionMode} (h : Keeps m m') (hm : InOrder m) : InOrder m' where
  followed := h.followed hm
  streamed := ModeEntry.streamed_of_follow (h.followed hm) nofun
  history := h.history hm.history
  counted := h.counted hm.counted
  settled due hexpected := by
    have hwas := (h.expected due).mp hexpected
    have hbefore := hm.settled due hwas
    have hlead := h.lead due hwas
    simp only [lead] at hlead
    omega

/-- **The mode is followed and everybody is told**, whatever those who are told do to the machine, so many levels deep,
and in whatever order calls, tasks and time come. -/
theorem modes_in_order (config : ServerConnModeConfig) (listeners depth : Nat) (replies : List (List Call))
    (steps : List Step) :
    InOrder (Runs.run (step (Reentry.reply perform depth)) (create config listeners, replies) steps).1 := by
  have hcalls := Reentry.keeping_reply perform Keeps.refl Keeps.trans (fun _ hcalls => keeps_perform hcalls) depth
  exact Runs.invariant_of_every_step _ (fun w event hw => (keeps_step hcalls event w).inOrder hw)
    (inOrder_create config listeners) steps

end ServerConnectionMode

end GopherMcp
