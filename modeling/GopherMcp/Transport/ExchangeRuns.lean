import GopherMcp.Transport.ExchangeInvariant

/-!
# Runs of exchanges

Every operation keeps the invariant of the exchange it is on and moves the shared counters by what
that exchange holds more or less; so over any run the counters say what all live exchanges hold
together. What a run does to an exchange that has begun its answer, it does behind a status line and
headers that stay as they are.
-/

namespace GopherMcp

namespace RequestExchange

variable {x : RequestExchange} {shared : ReplayAccounting}

/-! ### The invariant -/

theorem Sound.nameEvent (h : Sound x) (id : Option Bytes) : Sound (x.nameEvent id).2 := by
  have hnumbered := h.numbered.nameEvent id
  rcases nameEvent_cases x id with ⟨given, -, hname⟩ | ⟨-, hname⟩
  · rw [hname]
    exact h
  · rw [hname] at hnumbered ⊢
    exact ⟨h.answer, hnumbered, h.keeping, h.once⟩

theorem Sound.record (h : Sound x) (shared : ReplayAccounting) (event : RetainedEvent) :
    Sound (x.record shared event).1 := by
  obtain ⟨replay, dropped, kept, observed, heq, hkept⟩ :=
    record_cases x shared event h.keeping.newest
  rw [heq]
  refine ⟨h.answer, h.numbered, ?_, h.once⟩
  rcases hkept with ⟨hwanted, rfl, rfl⟩ | ⟨hunwanted, rfl, rfl⟩
  · exact h.keeping.add hwanted event
  · exact h.keeping.skip hunwanted event

theorem mode_record (h : Sound x) (shared : ReplayAccounting) (event : RetainedEvent) :
    (x.record shared event).1.mode = x.mode := by
  obtain ⟨replay, dropped, kept, observed, heq, -⟩ := record_cases x shared event h.keeping.newest
  rw [heq]

theorem mode_nameEvent (x : RequestExchange) (id : Option Bytes) :
    (x.nameEvent id).2.mode = x.mode := by
  rcases nameEvent_cases x id with ⟨given, -, hname⟩ | ⟨-, hname⟩ <;> rw [hname]

/-- What is framed on an open stream goes out behind what went out before. -/
theorem OneAnswer.send {handed : List Handed} {firstByteWritten firstByteWritten' : Bool}
    {writer : ResponseWriter} (h : OneAnswer .stream handed firstByteWritten (some writer))
    {item : Handed} (hitem : item.isHead = false)
    (hfirst : firstByteWritten = true → firstByteWritten' = true) :
    OneAnswer .stream (handed ++ (writer.out ++ [item])) firstByteWritten'
      (some { writer with out := [] }) := by
  have htold := h.told writer rfl
  refine h.more rfl (fun other hother => ?_) (Or.inl rfl) hfirst rfl htold.1 htold.2
  rw [h.drained writer rfl, List.nil_append, List.mem_singleton] at hother
  rw [hother, hitem]

theorem Sound.writeEvent (h : Sound x) (shared : ReplayAccounting) (event data : Bytes)
    (id : Option Bytes) : Sound (x.writeEvent shared event data id).2.1 := by
  rcases writeEvent_cases x shared event data id with hsame | ⟨hmode, y, left, hrecord, hsent⟩
  · rw [hsame]
    exact h
  · have hnamed := h.nameEvent id
    have hy : Sound y := by
      have hsound := hnamed.record shared ⟨(x.nameEvent id).1, event, data⟩
      rwa [hrecord] at hsound
    have hstream : y.mode = .stream := by
      have hkept := mode_record hnamed shared ⟨(x.nameEvent id).1, event, data⟩
      rw [hrecord, mode_nameEvent, hmode] at hkept
      exact hkept
    rcases hsent with heq | ⟨writer, item, hwriter, hitem, heq⟩
    · rw [heq]
      exact hy
    · rw [heq]
      have hanswer := hy.answer
      rw [hstream, hwriter] at hanswer
      refine ⟨?_, hy.numbered, hy.keeping, hy.once⟩
      simp only [hstream]
      exact hanswer.send hitem fun _ => rfl

theorem Sound.passed {y : RequestExchange} (h : Sound x) (hy : Passed x y) : Sound y := by
  rcases hy with rfl | ⟨writer, item, hmode, hwriter, hitem, rfl⟩
  · exact h
  · have hanswer := h.answer
    rw [hmode, hwriter] at hanswer
    refine ⟨?_, h.numbered, h.keeping, h.once⟩
    simp only [hmode]
    exact hanswer.send hitem id

/-- An open exchange is answered. -/
theorem Sound.answered (h : Sound x) {answer : Handed} (hopened : x.mode = .opened) (hanswer : answer.isAnswer = true)
    (phase : Phase) :
    Sound { x with
      mode := .complete
      phase := phase
      firstByteWritten := true
      handed := x.handed ++ [answer] } := by
  have hone := h.answer.answer hopened hanswer
  rw [← (h.answer.opened hopened).2] at hone
  exact ⟨hone, h.numbered, h.keeping, h.once⟩

theorem Sound.respondJson (h : Sound x) (body : Bytes) : Sound (x.respondJson body).2 := by
  rcases respondJson_cases x body with hsame | ⟨answer, phase, hopened, hanswer, heq⟩
  · rw [hsame]
    exact h
  · rw [heq]
    exact h.answered hopened hanswer phase

theorem Sound.respondUnary (h : Sound x) (contentType body : Bytes) :
    Sound (x.respondUnary contentType body).2 := by
  rcases respondUnary_cases x contentType body with hsame | ⟨answer, hopened, hanswer, heq⟩
  · rw [hsame]
    exact h
  · rw [heq]
    exact h.answered hopened hanswer x.phase

theorem Sound.beginStream (h : Sound x) : Sound x.beginStream.2 := by
  rcases beginStream_cases x with hsame | ⟨answer, hopened, hanswer, heq⟩ |
    ⟨statusCode, headers, writer, hopened, hout, htold, heq⟩
  · rw [hsame]
    exact h
  · rw [heq]
    exact ⟨h.answer.answer hopened hanswer, h.numbered, h.keeping, h.once⟩
  · rw [heq]
    exact ⟨h.answer.begin hopened statusCode headers hout htold, h.numbered, h.keeping, h.once⟩

theorem Sound.releaseReplay (h : Sound x) (shared : ReplayAccounting) :
    Sound (x.releaseReplay shared).1 :=
  ⟨h.answer, h.numbered, keeping_released, h.once⟩

/-- Settled before the first event, a name or a limit finds nothing kept. -/
theorem Sound.settle (h : Sound x) (hnone : x.written = []) (limit : Nat) (streamId : Bytes)
    (given : Bool) :
    Sound { x with retainedEventLimit := limit, streamId := streamId, accounting := given } := by
  have hkeeping := h.keeping
  rw [hnone] at hkeeping
  refine ⟨h.answer, h.numbered, ?_, h.once⟩
  simp only [hnone]
  exact hkeeping.settle limit streamId

theorem Sound.apply (h : Sound x) (shared : ReplayAccounting) (operation : Operation)
    (hsettles : x.settles operation = true) : Sound (x.apply shared operation).1 := by
  cases operation with
  | setPhase phase =>
      obtain ⟨phase', heq⟩ := setPhase_eq x phase
      simp only [RequestExchange.apply, heq]
      exact ⟨h.answer, h.numbered, h.keeping, h.once⟩
  | setRequestId id =>
      simp only [RequestExchange.apply, setRequestId]
      split_ifs
      · exact h
      · exact h
      · exact ⟨h.answer, h.numbered, h.keeping, h.once⟩
  | setResponseOptions http11 keepAlive => exact ⟨h.answer, h.numbered, h.keeping, h.once⟩
  | setStatus statusCode =>
      simp only [RequestExchange.apply, setStatus]
      split_ifs
      · exact h
      · exact ⟨h.answer, h.numbered, h.keeping, h.once⟩
  | setResponseHeader name value =>
      simp only [RequestExchange.apply, setResponseHeader]
      split_ifs
      · exact h
      · exact ⟨h.answer, h.numbered, h.keeping, h.once⟩
  | removeResponseHeader name =>
      simp only [RequestExchange.apply, removeResponseHeader]
      split_ifs
      · exact h
      · exact ⟨h.answer, h.numbered, h.keeping, h.once⟩
      · exact h
  | setFramedHeaders headers => exact ⟨h.answer, h.numbered, h.keeping, h.once⟩
  | respondJson body => exact h.respondJson body
  | respondUnary contentType body => exact h.respondUnary contentType body
  | beginStream => exact h.beginStream
  | makeResumable streamId given =>
      simp only [settles, Bool.and_eq_true, List.isEmpty_iff] at hsettles
      exact h.settle hsettles.2 x.retainedEventLimit streamId given
  | releaseReplay => exact h.releaseReplay shared
  | setEventObserver given => exact ⟨h.answer, h.numbered, h.keeping, h.once⟩
  | setStreamObserver given => exact ⟨h.answer, h.numbered, h.keeping, h.once⟩
  | writeEvent event data id => exact h.writeEvent shared event data id
  | writeComment comment => exact h.passed (passed_writeComment x comment)
  | writeRetry milliseconds => exact h.passed (passed_writeRetry x milliseconds)
  | complete => exact h.complete
  | setCompletionObserver given =>
      exact ⟨h.answer, h.numbered, h.keeping, h.once.setCompletionObserver given⟩
  | setConnectionGoneObserver given =>
      exact ⟨h.answer, h.numbered, h.keeping, h.once.setConnectionGoneObserver given⟩
  | addObserver => exact ⟨h.answer, h.numbered, h.keeping, h.once.addObserver⟩
  | cancel => exact h.cancel
  | setRetainOnDisconnect retain => exact ⟨h.answer, h.numbered, h.keeping, h.once⟩
  | setRetainedEventLimit events =>
      simp only [settles, List.isEmpty_iff] at hsettles
      exact h.settle hsettles events x.streamId x.accounting
  | announceGone => exact ⟨h.answer, h.numbered, h.keeping, h.once.announceGone⟩
  | settleGone => exact h.settleGone
  | setWriteInProgress inProgress => exact ⟨h.answer, h.numbered, h.keeping, h.once⟩
  | connectionCloses => exact ⟨h.answer, h.numbered, h.keeping, h.once⟩

/-! ### The shared counters -/

theorem counted_nameEvent (x : RequestExchange) (id : Option Bytes) :
    (x.nameEvent id).2.counted = x.counted := by
  rcases nameEvent_cases x id with ⟨given, -, hname⟩ | ⟨-, hname⟩
  · rw [hname]
  · rw [hname]
    rfl

theorem counted_complete (x : RequestExchange) : x.complete.2.counted = x.counted := by
  unfold RequestExchange.complete
  split_ifs
  · rfl
  · rcases finishStream_cases x with hsame | ⟨-, items, drained, -, -, -, -, -, heq⟩
    · rw [hsame]
      rfl
    · rw [heq]
      rfl

theorem counted_passed {y : RequestExchange} (hy : Passed x y) : y.counted = x.counted := by
  rcases hy with rfl | ⟨writer, item, -, -, -, rfl⟩ <;> rfl

theorem writeEvent_counted (x : RequestExchange) (events bytes : Nat) (event data : Bytes)
    (id : Option Bytes) :
    (x.writeEvent (holding events bytes x.counted) event data id).2.2 =
      holding events bytes
        (x.writeEvent (holding events bytes x.counted) event data id).2.1.counted := by
  rcases writeEvent_cases x (holding events bytes x.counted) event data id with
    hsame | ⟨-, y, left, hrecord, hsent⟩
  · rw [hsame]
  · have hcounted := record_counted (x.nameEvent id).2 events bytes
      ⟨(x.nameEvent id).1, event, data⟩
    rw [counted_nameEvent, hrecord] at hcounted
    rcases hsent with heq | ⟨writer, item, -, -, heq⟩
    · rw [heq]
      exact hcounted
    · rw [heq]
      exact hcounted

theorem releaseReplay_counted (x : RequestExchange) (events bytes : Nat) :
    (x.releaseReplay (holding events bytes x.counted)).2 = holding events bytes [] := by
  unfold RequestExchange.releaseReplay counted
  split_ifs
  · exact foldl_giveBack_holding events bytes x.replay
  · rfl

theorem counted_releaseReplay (x : RequestExchange) (shared : ReplayAccounting) :
    (x.releaseReplay shared).1.counted = [] := by
  unfold RequestExchange.releaseReplay counted
  split_ifs <;> rfl

theorem replay_eq_nil (h : Sound x) (hnone : x.written = []) : x.replay = [] := by
  have hkept : x.kept = [] := List.suffix_nil.mp (hnone ▸ h.keeping.suffix)
  rw [h.keeping.newest, hkept]
  simp [List.rtake]

/-- **An operation moves the counters by what its exchange holds more or less.** -/
theorem apply_counted (h : Sound x) (events bytes : Nat) (operation : Operation)
    (hsettles : x.settles operation = true) :
    (x.apply (holding events bytes x.counted) operation).2 =
      holding events bytes (x.apply (holding events bytes x.counted) operation).1.counted := by
  cases operation with
  | setPhase phase =>
      obtain ⟨phase', heq⟩ := setPhase_eq x phase
      simp only [RequestExchange.apply, heq]
      rfl
  | setRequestId id =>
      simp only [RequestExchange.apply, setRequestId]
      split_ifs <;> rfl
  | setResponseOptions http11 keepAlive => rfl
  | setStatus statusCode =>
      simp only [RequestExchange.apply, setStatus]
      split_ifs <;> rfl
  | setResponseHeader name value =>
      simp only [RequestExchange.apply, setResponseHeader]
      split_ifs <;> rfl
  | removeResponseHeader name =>
      simp only [RequestExchange.apply, removeResponseHeader]
      split_ifs <;> rfl
  | setFramedHeaders headers => rfl
  | respondJson body =>
      rcases respondJson_cases x body with heq | ⟨answer, phase, -, -, heq⟩
      · simp only [RequestExchange.apply, heq]
      · simp only [RequestExchange.apply, heq]
        rfl
  | respondUnary contentType body =>
      rcases respondUnary_cases x contentType body with heq | ⟨answer, -, -, heq⟩
      · simp only [RequestExchange.apply, heq]
      · simp only [RequestExchange.apply, heq]
        rfl
  | beginStream =>
      rcases beginStream_cases x with heq | ⟨answer, -, -, heq⟩ |
        ⟨statusCode, headers, writer, -, -, -, heq⟩
      · simp only [RequestExchange.apply, heq]
      · simp only [RequestExchange.apply, heq]
        rfl
      · simp only [RequestExchange.apply, heq]
        rfl
  | makeResumable streamId given =>
      simp only [settles, Bool.and_eq_true, List.isEmpty_iff] at hsettles
      simp only [RequestExchange.apply, makeResumable, counted, replay_eq_nil h hsettles.2, ite_self]
  | releaseReplay =>
      simp only [RequestExchange.apply]
      rw [releaseReplay_counted, counted_releaseReplay]
  | setEventObserver given => rfl
  | setStreamObserver given => rfl
  | writeEvent event data id => exact writeEvent_counted x events bytes event data id
  | writeComment comment =>
      simp only [RequestExchange.apply]
      rw [counted_passed (passed_writeComment x comment)]
  | writeRetry milliseconds =>
      simp only [RequestExchange.apply]
      rw [counted_passed (passed_writeRetry x milliseconds)]
  | complete =>
      simp only [RequestExchange.apply]
      rw [counted_complete]
  | setCompletionObserver given => rfl
  | setConnectionGoneObserver given => rfl
  | addObserver => rfl
  | cancel => rfl
  | setRetainOnDisconnect retain => rfl
  | setRetainedEventLimit events => rfl
  | announceGone => rfl
  | settleGone =>
      simp only [RequestExchange.apply, settleGone]
      split_ifs <;> rfl
  | setWriteInProgress inProgress => rfl
  | connectionCloses => rfl

/-! ### What has been said -/

/-- An answer that has begun keeps its status and its headers, and goes on after what was sent. -/
def Keeps (x y : RequestExchange) : Prop :=
  x.handed <+: y.handed ∧
    (x.firstByteWritten = true →
      y.firstByteWritten = true ∧ y.statusCode = x.statusCode ∧ y.headers = x.headers)

theorem Keeps.refl (x : RequestExchange) : Keeps x x :=
  ⟨List.prefix_refl _, fun hfirst => ⟨hfirst, rfl, rfl⟩⟩

theorem Keeps.trans {x y z : RequestExchange} (h : Keeps x y) (h' : Keeps y z) : Keeps x z := by
  refine ⟨h.1.trans h'.1, fun hfirst => ?_⟩
  obtain ⟨hy, hstatus, hheaders⟩ := h.2 hfirst
  obtain ⟨hz, hstatus', hheaders'⟩ := h'.2 hy
  exact ⟨hz, hstatus'.trans hstatus, hheaders'.trans hheaders⟩

theorem Keeps.of_handed {y : RequestExchange} (hhanded : x.handed <+: y.handed)
    (hfirst : x.firstByteWritten = true → y.firstByteWritten = true)
    (hstatus : y.statusCode = x.statusCode) (hheaders : y.headers = x.headers) : Keeps x y :=
  ⟨hhanded, fun h => ⟨hfirst h, hstatus, hheaders⟩⟩

theorem keeps_passed {y : RequestExchange} (hy : Passed x y) : Keeps x y := by
  rcases hy with rfl | ⟨writer, item, -, -, -, rfl⟩
  · exact Keeps.refl y
  · exact Keeps.of_handed (List.prefix_append _ _) id rfl rfl

theorem keeps_nameEvent (x : RequestExchange) (id : Option Bytes) :
    Keeps x (x.nameEvent id).2 := by
  rcases nameEvent_cases x id with ⟨given, -, hname⟩ | ⟨-, hname⟩ <;> rw [hname] <;>
    exact Keeps.refl x

theorem keeps_record (h : Sound x) (shared : ReplayAccounting) (event : RetainedEvent) :
    Keeps x (x.record shared event).1 := by
  obtain ⟨replay, dropped, kept, observed, heq, -⟩ := record_cases x shared event h.keeping.newest
  rw [heq]
  exact Keeps.refl x

theorem keeps_writeEvent (h : Sound x) (shared : ReplayAccounting) (event data : Bytes)
    (id : Option Bytes) : Keeps x (x.writeEvent shared event data id).2.1 := by
  rcases writeEvent_cases x shared event data id with hsame | ⟨-, y, left, hrecord, hsent⟩
  · rw [hsame]
    exact Keeps.refl x
  · have hrecorded := keeps_record (h.nameEvent id) shared ⟨(x.nameEvent id).1, event, data⟩
    rw [hrecord] at hrecorded
    have hy : Keeps x y := (keeps_nameEvent x id).trans hrecorded
    rcases hsent with heq | ⟨writer, item, -, -, heq⟩
    · rw [heq]
      exact hy
    · rw [heq]
      exact hy.trans (Keeps.of_handed (List.prefix_append _ _) (fun _ => rfl) rfl rfl)

theorem keeps_complete (x : RequestExchange) : Keeps x x.complete.2 := by
  unfold RequestExchange.complete
  split_ifs
  · exact Keeps.refl x
  · rcases finishStream_cases x with hsame | ⟨-, items, drained, -, -, -, -, -, heq⟩
    · rw [hsame]
      exact Keeps.refl x
    · rw [heq]
      exact Keeps.of_handed (List.prefix_append _ _) id rfl rfl

theorem keeps_apply (h : Sound x) (shared : ReplayAccounting) (operation : Operation) :
    Keeps x (x.apply shared operation).1 := by
  cases operation with
  | setPhase phase =>
      obtain ⟨phase', heq⟩ := setPhase_eq x phase
      simp only [RequestExchange.apply, heq]
      exact Keeps.refl x
  | setRequestId id =>
      simp only [RequestExchange.apply, setRequestId]
      split_ifs <;> exact Keeps.refl x
  | setResponseOptions http11 keepAlive => exact Keeps.refl x
  | setStatus statusCode =>
      simp only [RequestExchange.apply, setStatus]
      split_ifs with hfirst
      · exact Keeps.refl x
      · exact ⟨List.prefix_refl _, fun hbegun => absurd hbegun hfirst⟩
  | setResponseHeader name value =>
      simp only [RequestExchange.apply, setResponseHeader]
      split_ifs with hfirst
      · exact Keeps.refl x
      · exact ⟨List.prefix_refl _, fun hbegun => absurd hbegun hfirst⟩
  | removeResponseHeader name =>
      simp only [RequestExchange.apply, removeResponseHeader]
      split_ifs with hfirst
      · exact Keeps.refl x
      · exact ⟨List.prefix_refl _, fun hbegun => absurd hbegun hfirst⟩
      · exact Keeps.refl x
  | setFramedHeaders headers => exact Keeps.refl x
  | respondJson body =>
      rcases respondJson_cases x body with heq | ⟨answer, phase, -, -, heq⟩
      · simp only [RequestExchange.apply, heq]
        exact Keeps.refl x
      · simp only [RequestExchange.apply, heq]
        exact Keeps.of_handed (List.prefix_append _ _) (fun _ => rfl) rfl rfl
  | respondUnary contentType body =>
      rcases respondUnary_cases x contentType body with heq | ⟨answer, -, -, heq⟩
      · simp only [RequestExchange.apply, heq]
        exact Keeps.refl x
      · simp only [RequestExchange.apply, heq]
        exact Keeps.of_handed (List.prefix_append _ _) (fun _ => rfl) rfl rfl
  | beginStream =>
      rcases beginStream_cases x with heq | ⟨answer, -, -, heq⟩ |
        ⟨statusCode, headers, writer, -, -, -, heq⟩
      · simp only [RequestExchange.apply, heq]
        exact Keeps.refl x
      · simp only [RequestExchange.apply, heq]
        exact Keeps.of_handed (List.prefix_append _ _) (fun _ => rfl) rfl rfl
      · simp only [RequestExchange.apply, heq]
        exact Keeps.of_handed (List.prefix_append _ _) (fun _ => rfl) rfl rfl
  | makeResumable streamId given => exact Keeps.refl x
  | releaseReplay => exact Keeps.refl x
  | setEventObserver given => exact Keeps.refl x
  | setStreamObserver given => exact Keeps.refl x
  | writeEvent event data id => exact keeps_writeEvent h shared event data id
  | writeComment comment => exact keeps_passed (passed_writeComment x comment)
  | writeRetry milliseconds => exact keeps_passed (passed_writeRetry x milliseconds)
  | complete => exact keeps_complete x
  | setCompletionObserver given => exact Keeps.refl x
  | setConnectionGoneObserver given => exact Keeps.refl x
  | addObserver => exact Keeps.refl x
  | cancel => exact Keeps.refl x
  | setRetainOnDisconnect retain => exact Keeps.refl x
  | setRetainedEventLimit events => exact Keeps.refl x
  | announceGone => exact Keeps.refl x
  | settleGone =>
      simp only [RequestExchange.apply, settleGone]
      split_ifs <;> exact Keeps.refl x
  | setWriteInProgress inProgress => exact Keeps.refl x
  | connectionCloses => exact Keeps.refl x

end RequestExchange

/-! ### All exchanges -/

/-- What is promised of an exchange in every state it is in. -/
structure RequestExchange.Promises (x : RequestExchange) : Prop where
  oneHead : x.handed.countP Handed.isHead ≤ 1
  oneAnswer : ∀ answer ∈ x.handed, answer.isAnswer = true → x.handed = [answer]
  increasing : x.minted.Pairwise fun earlier later => earlier.1 < later.1
  named : ∀ entry ∈ x.minted, ∃ streamId, entry.2 = mintedId streamId entry.1
  neverReused : (x.minted.map Prod.snd).Nodup
  newest : x.replay = x.kept.rtake x.retainedEventLimit
  suffix : x.kept <:+ x.written
  whole : x.streamId ≠ [] → x.released = false → x.kept = x.written
  observersOnce : x.ran.Nodup
  closedOnce : ∀ writer ∈ x.streamWriter, writer.toldFinished ≤ 1

theorem RequestExchange.Sound.promises {x : RequestExchange} (h : x.Sound) : x.Promises where
  oneHead := h.answer.once.1
  oneAnswer := h.answer.once.2
  increasing := h.numbered.increasing.1
  named := h.numbered.ids
  neverReused := h.numbered.increasing.2
  newest := h.keeping.newest
  suffix := h.keeping.suffix
  whole := h.keeping.whole
  observersOnce := h.once.nodup_ran
  closedOnce writer hwriter := (h.answer.told writer hwriter).1

namespace Exchanges

open RequestExchange (holding counted)

/-- What the live exchanges with accounting keep. -/
def keptEvents (s : Exchanges) : Nat := s.live.total fun x => x.counted.length

def keptBytes (s : Exchanges) : Nat :=
  s.live.total fun x => (x.counted.map RetainedEvent.size).sum

structure Balanced (s : Exchanges) : Prop where
  live : ∀ number x, s.live.find? number = some x → x.Sound ∧ number < s.next
  ended : ∀ number x, s.ended.find? number = some x → x.Sound ∧ number < s.next
  apart : ∀ number x, s.live.find? number = some x → s.ended.find? number = none
  accounting : s.accounting = ⟨s.keptEvents, s.keptBytes, false⟩

theorem balanced_empty : Balanced empty where
  live _ _ h := by simp [empty] at h
  ended _ _ h := by simp [empty] at h
  apart _ _ h := by simp [empty] at h
  accounting := rfl

/-- Every exchange there was is still there, and has kept what it said. -/
def Evolves (s t : Exchanges) : Prop :=
  ∀ number x, s.exchange? number = some x → ∃ y, t.exchange? number = some y ∧ x.Keeps y

theorem Evolves.trans {s t u : Exchanges} (h : Evolves s t) (h' : Evolves t u) : Evolves s u := by
  intro number x hx
  obtain ⟨y, hy, hkeeps⟩ := h number x hx
  obtain ⟨z, hz, hkeeps'⟩ := h' number y hy
  exact ⟨z, hz, hkeeps.trans hkeeps'⟩

/-- The counters as one exchange sees them, beside what all others hold. -/
theorem Balanced.holding {s : Exchanges} (h : Balanced s) {number : Nat} {x : RequestExchange}
    (hfind : s.live.find? number = some x) :
    s.accounting = RequestExchange.holding
      ((s.live.erase number).total fun y => y.counted.length)
      ((s.live.erase number).total fun y => (y.counted.map RetainedEvent.size).sum) x.counted := by
  rw [h.accounting, keptEvents, keptBytes, OrdMap.total_of_find? _ hfind,
    OrdMap.total_of_find? _ hfind]
  rfl

theorem Balanced.create {s : Exchanges} (h : Balanced s) (sink : Sink) (id : Option RequestId) :
    Balanced (s.step (.create sink id)) ∧ Evolves s (s.step (.create sink id)) := by
  have hfree : s.live.find? s.next = none := by
    rw [Option.eq_none_iff_forall_not_mem]
    exact fun x hx => (h.live _ x hx).2.ne rfl
  have hended : s.ended.find? s.next = none := by
    rw [Option.eq_none_iff_forall_not_mem]
    exact fun x hx => (h.ended _ x hx).2.ne rfl
  refine ⟨⟨fun number x hx => ?_, fun number x hx => ?_, fun number x hx => ?_, ?_⟩,
    fun number x hx => ?_⟩
  · simp only [step, OrdMap.find?_insert] at hx ⊢
    split_ifs at hx with hnumber
    · cases hx
      exact ⟨RequestExchange.sound_create sink id, by omega⟩
    · exact ⟨(h.live number x hx).1, (h.live number x hx).2.trans (Nat.lt_succ_self _)⟩
  · exact ⟨(h.ended number x hx).1, (h.ended number x hx).2.trans (Nat.lt_succ_self _)⟩
  · simp only [step, OrdMap.find?_insert] at hx ⊢
    split_ifs at hx with hnumber
    · exact hnumber ▸ hended
    · exact h.apart number x hx
  · simp only [step, keptEvents, keptBytes, OrdMap.total_insert, OrdMap.erase_of_find?_eq_none hfree]
    exact h.accounting
  · refine ⟨x, ?_, RequestExchange.Keeps.refl x⟩
    have hne : number ≠ s.next := by
      rintro rfl
      simp [exchange?, hfree, hended] at hx
    simp only [exchange?, step, OrdMap.find?_insert_of_ne _ hne]
    exact hx

theorem Balanced.on {s : Exchanges} (h : Balanced s) (number : Nat)
    (operation : RequestExchange.Operation) (hsettles : s.settles (.on number operation) = true) :
    Balanced (s.step (.on number operation)) ∧ Evolves s (s.step (.on number operation)) := by
  cases hfind : s.live.find? number with
  | none =>
      simp only [step, hfind]
      exact ⟨h, fun _ x hx => ⟨x, hx, RequestExchange.Keeps.refl x⟩⟩
  | some x =>
      have hsound := (h.live number x hfind).1
      have hok : x.settles operation = true := by simpa [settles, hfind] using hsettles
      have hheld := h.holding hfind
      have hcounted := RequestExchange.apply_counted hsound
        ((s.live.erase number).total fun y => y.counted.length)
        ((s.live.erase number).total fun y => (y.counted.map RetainedEvent.size).sum) operation hok
      rw [← hheld] at hcounted
      simp only [step, hfind]
      refine ⟨⟨fun other y hy => ?_, h.ended, fun other y hy => ?_, ?_⟩, fun other y hy => ?_⟩
      · simp only [OrdMap.find?_insert] at hy
        split_ifs at hy with hother
        · cases hy
          exact ⟨hsound.apply _ operation hok, hother ▸ (h.live number x hfind).2⟩
        · exact h.live other y hy
      · simp only [OrdMap.find?_insert] at hy
        split_ifs at hy with hother
        · exact hother ▸ h.apart number x hfind
        · exact h.apart other y hy
      · simp only [keptEvents, keptBytes, OrdMap.total_insert]
        exact hcounted
      · by_cases hother : other = number
        · subst hother
          simp only [exchange?, hfind, Option.some_or] at hy
          cases hy
          refine ⟨_, ?_, RequestExchange.keeps_apply hsound s.accounting operation⟩
          simp [exchange?]
        · refine ⟨y, ?_, RequestExchange.Keeps.refl y⟩
          simp only [exchange?, OrdMap.find?_insert_of_ne _ hother]
          exact hy

theorem Balanced.destroy {s : Exchanges} (h : Balanced s) (number : Nat) :
    Balanced (s.step (.destroy number)) ∧ Evolves s (s.step (.destroy number)) := by
  cases hfind : s.live.find? number with
  | none =>
      simp only [step, hfind]
      exact ⟨h, fun _ x hx => ⟨x, hx, RequestExchange.Keeps.refl x⟩⟩
  | some x =>
      have hsound := (h.live number x hfind).1
      have hcounted := RequestExchange.releaseReplay_counted x
        ((s.live.erase number).total fun y => y.counted.length)
        ((s.live.erase number).total fun y => (y.counted.map RetainedEvent.size).sum)
      rw [← h.holding hfind] at hcounted
      simp only [step, hfind]
      refine ⟨⟨fun other y hy => ?_, fun other y hy => ?_, fun other y hy => ?_, ?_⟩,
        fun other y hy => ?_⟩
      · simp only [OrdMap.find?_erase] at hy
        split_ifs at hy
        exact h.live other y hy
      · simp only [OrdMap.find?_insert] at hy
        split_ifs at hy with hother
        · cases hy
          exact ⟨hsound.releaseReplay _, hother ▸ (h.live number x hfind).2⟩
        · exact h.ended other y hy
      · simp only [OrdMap.find?_erase] at hy
        split_ifs at hy with hother
        simp only [OrdMap.find?_insert_of_ne _ hother]
        exact h.apart other y hy
      · simp only [keptEvents, keptBytes]
        exact hcounted
      · by_cases hother : other = number
        · subst hother
          simp only [exchange?, hfind, Option.some_or] at hy
          cases hy
          refine ⟨_, ?_, RequestExchange.keeps_apply hsound s.accounting .releaseReplay⟩
          simp [exchange?, RequestExchange.apply]
        · refine ⟨y, ?_, RequestExchange.Keeps.refl y⟩
          simp only [exchange?, OrdMap.find?_insert_of_ne _ hother, OrdMap.find?_erase_of_ne _ hother]
          exact hy

theorem Balanced.step {s : Exchanges} (h : Balanced s) (operation : Operation)
    (hsettles : s.settles operation = true) :
    Balanced (s.step operation) ∧ Evolves s (s.step operation) := by
  cases operation with
  | create sink id => exact h.create sink id
  | on number operation => exact h.on number operation hsettles
  | destroy number => exact h.destroy number

/-- From any balanced state on, a run keeps the balance and everything that was said. -/
theorem Balanced.run {s : Exchanges} (h : Balanced s) {operations : List Operation}
    (hsettles : Runs.Guarded Exchanges.step (fun s operation => s.settles operation = true) s
      operations) :
    Balanced (Runs.run Exchanges.step s operations) ∧
      Evolves s (Runs.run Exchanges.step s operations) := by
  have hkeeps (t : Exchanges) (operation : Operation) (hok : t.settles operation = true)
      (ht : Balanced t ∧ Evolves s t) :
      Balanced (t.step operation) ∧ Evolves s (t.step operation) := by
    obtain ⟨hnext, hstep⟩ := ht.1.step operation hok
    exact ⟨hnext, ht.2.trans hstep⟩
  have hstart : Balanced s ∧ Evolves s s :=
    ⟨h, fun _ x hx => ⟨x, hx, RequestExchange.Keeps.refl x⟩⟩
  exact Runs.invariant Exchanges.step hkeeps hstart hsettles

/-- What is promised of a state reached, and of the way from an earlier state to it. -/
structure Consistent (s t : Exchanges) : Prop where
  events : t.accounting.events = t.keptEvents
  bytes : t.accounting.bytes = t.keptBytes
  neverBelowZero : t.accounting.belowZero = false
  promises : ∀ number x, t.exchange? number = some x → x.Promises
  keeps : Evolves s t

theorem Balanced.sound_exchange? {s : Exchanges} (h : Balanced s) {number : Nat}
    {x : RequestExchange} (hx : s.exchange? number = some x) : x.Sound := by
  rcases Option.or_eq_some_iff.mp hx with hlive | ⟨-, hended⟩
  · exact (h.live number x hlive).1
  · exact (h.ended number x hended).1

/-- **Every run of exchanges is consistent**, from any state it passes through to its end, when each
stream is given its name, its accounting and its limit before its first event. -/
theorem consistent_run (before after : List Operation)
    (hsettles : Runs.Guarded step (fun s operation => s.settles operation = true) empty
      (before ++ after)) :
    Consistent (run before) (run (before ++ after)) := by
  obtain ⟨hbefore, hafter⟩ := (Runs.guarded_append step).mp hsettles
  have hstart : Balanced (run before) := (balanced_empty.run hbefore).1
  obtain ⟨hend, hkeeps⟩ := hstart.run hafter
  have hrun : run (before ++ after) = Runs.run step (run before) after :=
    Runs.run_append step empty before after
  rw [hrun]
  refine ⟨?_, ?_, ?_, fun number x hx => (hend.sound_exchange? hx).promises, hkeeps⟩
  · rw [hend.accounting]
  · rw [hend.accounting]
  · rw [hend.accounting]

/-- A stream carries an event of another stream, is lost, and goes on without its client. -/
theorem consistent_run_detached :
    Runs.Guarded step (fun s operation => s.settles operation = true) empty
        ([.create (.connection true true false) none, .on 0 (.makeResumable (ascii "b") true),
          .on 0 .beginStream, .on 0 (.writeEvent [] (ascii "x") (some (ascii "a:7")))] ++
          [.on 0 .announceGone, .on 0 .settleGone, .on 0 (.writeEvent [] (ascii "y") none),
            .destroy 0]) ∧
      Consistent
        (run [.create (.connection true true false) none, .on 0 (.makeResumable (ascii "b") true),
          .on 0 .beginStream, .on 0 (.writeEvent [] (ascii "x") (some (ascii "a:7")))])
        (run ([.create (.connection true true false) none, .on 0 (.makeResumable (ascii "b") true),
          .on 0 .beginStream, .on 0 (.writeEvent [] (ascii "x") (some (ascii "a:7")))] ++
          [.on 0 .announceGone, .on 0 .settleGone, .on 0 (.writeEvent [] (ascii "y") none),
            .destroy 0])) :=
  ⟨by decide, consistent_run _ _ (by decide)⟩

/-- What is kept need not be what the stream minted; a limit can be set below what is kept; and a
stream that is lost without a name keeps its events outside the accounting. -/
theorem consistent_run_limits :
    (¬ ∀ operations number x, (run operations).exchange? number = some x →
        x.replay.map (·.id) <:+ x.minted.map Prod.snd) ∧
      (¬ ∀ operations number x, (run operations).exchange? number = some x →
        x.replay.length ≤ x.retainedEventLimit) ∧
      ¬ ∀ operations, (run operations).accounting.events =
        (run operations).live.total fun x => x.replay.length := by
  refine ⟨fun h => ?_, fun h => ?_, fun h => ?_⟩
  · have hcarried := h [.create .retained none, .on 0 (.makeResumable (ascii "b") true),
      .on 0 .beginStream, .on 0 (.writeEvent [] (ascii "x") (some (ascii "a:7")))] 0 _ rfl
    revert hcarried
    decide
  · have hlowered := h [.create .retained none, .on 0 (.makeResumable (ascii "b") true),
      .on 0 .beginStream, .on 0 (.writeEvent [] (ascii "x") (some (ascii "a:7"))),
      .on 0 (.setRetainedEventLimit 0)] 0 _ rfl
    revert hlowered
    decide
  · have hunnamed := h [.create .retained none, .on 0 (.setRetainOnDisconnect true),
      .on 0 .beginStream, .on 0 .settleGone,
      .on 0 (.writeEvent [] (ascii "x") (some (ascii "a:7")))]
    revert hunnamed
    decide

end Exchanges

end GopherMcp
