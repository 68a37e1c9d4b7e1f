import GopherMcp.Server.ClientQuestions

/-!
# Which answer counts

Nothing but the id connects an answer to its question. Whoever waits is told a response with the id of
the question and no other, but it may come from any client.
-/

namespace GopherMcp

namespace ClientQuestions

/-- Whoever waits does so under the id of the question, and was told responses with that id only. -/
structure Keyed (s : ClientQuestions) : Prop where
  waiting : ∀ key q, s.waiters.find? key = some q → q.key = key
  answered : ∀ q response, .answered q response ∈ s.log → response.id = q.id

variable {s s' : ClientQuestions}

theorem keyed_empty : empty.Keyed where
  waiting _ _ h := by cases h
  answered _ _ h := absurd h List.not_mem_nil

/-- The waiters are among the old ones, and nobody was told anything. -/
theorem Keyed.of_quiet (h : s.Keyed)
    (hwaiters : ∀ key q, s'.waiters.find? key = some q → s.waiters.find? key = some q)
    (hlog : ∀ q response, .answered q response ∈ s'.log → .answered q response ∈ s.log) :
    s'.Keyed where
  waiting key q hq := h.waiting key q (hwaiters key q hq)
  answered q response hmem := h.answered q response (hlog q response hmem)

theorem mem_note {q : ClientQuestion} {response : ClientResponse} {event : QuestionEvent}
    (h : QuestionEvent.answered q response ∈ (s.note event).log)
    (hother : event ≠ .answered q response) : .answered q response ∈ s.log := by
  obtain hmem | hmem := List.mem_append.mp h
  · exact hmem
  · exact absurd (List.mem_singleton.mp hmem).symm hother

theorem Keyed.ask (h : s.Keyed) (q : ClientQuestion) (hasStream hasWaiter : Bool) :
    (s.ask q hasStream hasWaiter).Keyed := by
  have hasked : (s.note (.asked q)).Keyed :=
    h.of_quiet (fun _ _ hq => hq) fun _ _ hmem => mem_note hmem nofun
  rw [ClientQuestions.ask]
  split_ifs
  · exact hasked.of_quiet (fun _ _ hq => hq) fun _ _ hmem => mem_note hmem nofun
  · exact hasked.of_quiet (fun _ _ hq => hq) fun _ _ hmem => mem_note hmem nofun
  · refine ⟨fun key other hother => ?_, hasked.answered⟩
    simp only [expect, OrdMap.find?_insert] at hother
    split_ifs at hother with hkey
    · rw [← Option.some.inj hother, hkey]
    · exact hasked.waiting key other hother

theorem Keyed.sent (h : s.Keyed) (q : ClientQuestion) (sendError : Option Error) :
    (s.sent q sendError).Keyed := by
  cases sendError with
  | some error =>
      exact h.of_quiet (fun _ _ hq => (OrdMap.find?_erase_eq_some_iff.mp hq).1) fun _ _ hmem => mem_note hmem nofun
  | none =>
      have haccepted : (s.note (.accepted q)).Keyed :=
        h.of_quiet (fun _ _ hq => hq) fun _ _ hmem => mem_note hmem nofun
      rw [ClientQuestions.sent]
      split_ifs
      · exact haccepted
      · exact haccepted.of_quiet (fun _ _ hq => hq) fun _ _ hmem => hmem

theorem Keyed.returns (h : s.Keyed) (sendError : Option Error) : (s.returns sendError).Keyed := by
  have hpopped (calls : List QuestionCall) : Keyed { s with calls } :=
    h.of_quiet (fun _ _ hq => hq) fun _ _ hmem => hmem
  rw [ClientQuestions.returns]
  split
  · exact h
  · exact (hpopped _).sent _ sendError
  · exact h.of_quiet (fun _ _ hq => hq) fun _ _ hmem => hmem

theorem deliver_eq {q : ClientQuestion} {response : ClientResponse}
    (h : s.waiters.find? (requestIdKey response.id) = some q) :
    s.onResponse response =
      { s with waiters := s.waiters.erase (requestIdKey response.id) }.settle q response := by
  rw [onResponse, deliver, h]
  rfl

theorem Keyed.onResponse (h : s.Keyed) (response : ClientResponse) : (s.onResponse response).Keyed := by
  cases hwaiter : s.waiters.find? (requestIdKey response.id) with
  | none =>
      rw [ClientQuestions.onResponse, deliver, hwaiter]
      exact h.of_quiet (fun _ _ hq => hq) fun _ _ hmem => mem_note hmem nofun
  | some q =>
      rw [deliver_eq hwaiter]
      refine ⟨fun key other hother => h.waiting key other (OrdMap.find?_erase_eq_some_iff.mp hother).1,
        fun other response' hmem => ?_⟩
      obtain hmem | hmem := List.mem_append.mp hmem
      · exact h.answered other response' hmem
      · obtain ⟨hq, hresponse⟩ := QuestionEvent.answered.inj (List.mem_singleton.mp hmem)
        rw [hq, hresponse]
        exact requestIdKey_injective (h.waiting _ _ hwaiter).symm

theorem Keyed.elapse (h : s.Keyed) (key : RequestIdKey) : (s.elapse key).Keyed := by
  rw [ClientQuestions.elapse]
  split_ifs
  · exact h
  split
  · rw [fire]
    simp only
    split_ifs
    · exact h.of_quiet (fun _ _ hq => (OrdMap.find?_erase_eq_some_iff.mp hq).1) fun _ _ hmem => mem_note hmem nofun
    · exact h.of_quiet (fun _ _ hq => (OrdMap.find?_erase_eq_some_iff.mp hq).1) fun _ _ hmem => hmem
  · exact h

theorem Keyed.step (h : s.Keyed) (op : QuestionOp) : (s.step op).Keyed := by
  cases op with
  | ask q hasStream hasWaiter => exact h.ask q hasStream hasWaiter
  | returns sendError => exact h.returns sendError
  | respond response => exact h.onResponse response
  | elapse key => exact h.elapse key
  | runPosted key =>
      rw [ClientQuestions.step, runPosted]
      split_ifs
      · exact h.of_quiet (fun _ _ hq => hq) fun _ _ hmem => hmem
      · exact h

theorem keyed_run (ops : List QuestionOp) : (Runs.run step empty ops).Keyed :=
  Runs.invariant_of_every_step step (fun _ op h => h.step op) keyed_empty ops

/-- Whoever waits for the answer to a question is told a response with the id of the question, whichever
client sent it, and goes on waiting after a response with another. -/
structure AnsweredById (s : ClientQuestions) : Prop where
  answered : ∀ q response, .answered q response ∈ s.log → response.id = q.id
  counts : ∀ q response, s.waiters.find? q.key = some q → response.id = q.id →
    (s.onResponse response).log = s.log ++ [.answered q response]
  waits : ∀ q response, s.waiters.find? q.key = some q → response.id ≠ q.id →
    (s.onResponse response).waiters.find? q.key = some q

/-- Answers came from the clients that were asked. -/
def OnlyFromAsked (s : ClientQuestions) : Prop :=
  ∀ q response, .answered q response ∈ s.log → response.session = q.session

/-- The client of one session is asked, and the client of another answers. -/
def strangerAnswers : List QuestionOp :=
  [.ask ⟨0, .askClient, ascii "alice", .number 1, 30000⟩ true true, .returns none,
    .respond ⟨ascii "mallory", .number 1, ascii "yes"⟩]

end ClientQuestions

end GopherMcp
