import GopherMcp.Server.ClientQuestions

/-!
# The ledger of questions

What the log says of each question: it is asked, then accepted or refused, and settled at most once.
Each event is entered under the condition it needs.
-/

namespace GopherMcp

namespace QuestionEvent

/-- The event is a call of `on_answer` of this question. -/
def settles (q : ClientQuestion) : QuestionEvent → Bool
  | answered other _ => other = q
  | timedOut other _ => other = q
  | _ => false

end QuestionEvent

open QuestionEvent

/-- How often `on_answer` of a question was called. -/
def settlements (log : List QuestionEvent) (q : ClientQuestion) : Nat := log.countP (settles q)

/-- The question was asked, and not refused, and nobody was told its answer yet. -/
structure Outstanding (log : List QuestionEvent) (q : ClientQuestion) : Prop where
  asked : asked q ∈ log
  unsettled : settlements log q = 0
  unrefused : ∀ error, refused q error ∉ log

/-- The log is in order. -/
structure Orderly (log : List QuestionEvent) : Prop where
  once : ∀ q, settlements log q ≤ 1
  settled : ∀ q, 0 < settlements log q → asked q ∈ log
  accepted : ∀ q, accepted q ∈ log → asked q ∈ log ∧ ∀ error, refused q error ∉ log
  refused : ∀ q error, refused q error ∈ log → asked q ∈ log ∧ settlements log q = 0
  timedOut : ∀ q error, timedOut q error ∈ log →
    .accepted q ∈ log ∧ 0 < q.timeout ∧ error = ClientQuestions.notInTime

variable {log : List QuestionEvent} {q other : ClientQuestion} {event : QuestionEvent}

theorem settlements_concat (log : List QuestionEvent) (event : QuestionEvent) (q : ClientQuestion) :
    settlements (log ++ [event]) q = settlements log q + if settles q event then 1 else 0 := by
  rw [settlements, settlements, List.countP_append, List.countP_singleton]

theorem settlements_quiet (h : settles q event = false) :
    settlements (log ++ [event]) q = settlements log q := by
  rw [settlements_concat, h]
  rfl

/-- A question stays outstanding until it is settled or refused. -/
theorem Outstanding.concat (h : Outstanding log q) (hsettles : settles q event = false)
    (hrefuses : ∀ error, event ≠ .refused q error) : Outstanding (log ++ [event]) q where
  asked := List.mem_append_left _ h.asked
  unsettled := (settlements_quiet hsettles).trans h.unsettled
  unrefused error hmem := by
    obtain hmem | hmem := List.mem_append.mp hmem
    · exact h.unrefused error hmem
    · exact hrefuses error (List.mem_singleton.mp hmem).symm

/-- A question that is outstanding after an event was so before, or the event asked it. -/
theorem Outstanding.of_concat (h : Outstanding (log ++ [event]) q) (hasks : event ≠ .asked q) :
    Outstanding log q where
  asked := by
    obtain hmem | hmem := List.mem_append.mp h.asked
    · exact hmem
    · exact absurd (List.mem_singleton.mp hmem).symm hasks
  unsettled := by
    have hcount := h.unsettled
    rw [settlements_concat] at hcount
    omega
  unrefused error hmem := h.unrefused error (List.mem_append_left _ hmem)

theorem Outstanding.not_settles (h : Outstanding (log ++ [event]) q) : settles q event = false := by
  have hcount := h.unsettled
  rw [settlements_concat] at hcount
  by_contra hsettles
  rw [if_pos (Bool.eq_true_of_not_eq_false hsettles)] at hcount
  omega

theorem orderly_nil : Orderly [] where
  once _ := Nat.zero_le _
  settled _ h := absurd h (Nat.lt_irrefl 0)
  accepted _ h := absurd h List.not_mem_nil
  refused _ _ h := absurd h List.not_mem_nil
  timedOut _ _ h := absurd h List.not_mem_nil

/-- An event that settles nothing. -/
theorem Orderly.quiet (h : Orderly log) (hsettles : ∀ q, settles q event = false)
    (haccepts : ∀ q, event = .accepted q → .asked q ∈ log ∧ ∀ error, .refused q error ∉ log)
    (hrefuses : ∀ q error, event = .refused q error →
      .asked q ∈ log ∧ .accepted q ∉ log ∧ settlements log q = 0) :
    Orderly (log ++ [event]) where
  once q := by
    rw [settlements_quiet (hsettles q)]
    exact h.once q
  settled q hq := by
    rw [settlements_quiet (hsettles q)] at hq
    exact List.mem_append_left _ (h.settled q hq)
  accepted q hq := by
    have hbefore : .asked q ∈ log ∧ ∀ error, .refused q error ∉ log := by
      obtain hmem | hmem := List.mem_append.mp hq
      · exact h.accepted q hmem
      · exact haccepts q (List.mem_singleton.mp hmem).symm
    refine ⟨List.mem_append_left _ hbefore.1, fun error hmem => ?_⟩
    obtain hmem | hmem := List.mem_append.mp hmem
    · exact hbefore.2 error hmem
    · have hevent := (List.mem_singleton.mp hmem).symm
      rw [hevent] at hq
      obtain hold | hnew := List.mem_append.mp hq
      · exact (hrefuses q error hevent).2.1 hold
      · cases List.mem_singleton.mp hnew
  refused q error hq := by
    rw [settlements_quiet (hsettles q)]
    obtain hmem | hmem := List.mem_append.mp hq
    · exact ⟨List.mem_append_left _ (h.refused q error hmem).1, (h.refused q error hmem).2⟩
    · obtain ⟨hasked, -, hcount⟩ := hrefuses q error (List.mem_singleton.mp hmem).symm
      exact ⟨List.mem_append_left _ hasked, hcount⟩
  timedOut q error hq := by
    obtain hmem | hmem := List.mem_append.mp hq
    · obtain ⟨haccepted, hrest⟩ := h.timedOut q error hmem
      exact ⟨List.mem_append_left _ haccepted, hrest⟩
    · have hquiet := hsettles q
      rw [← List.mem_singleton.mp hmem, settles, decide_eq_false_iff_not] at hquiet
      exact absurd rfl hquiet

/-- An event that settles a question settles no other. -/
theorem eq_of_settles (h : settles q event = true) (hother : settles other event = true) :
    other = q := by
  cases event with
  | answered asked response => exact (of_decide_eq_true hother).symm.trans (of_decide_eq_true h)
  | timedOut asked error => exact (of_decide_eq_true hother).symm.trans (of_decide_eq_true h)
  | asked _ => cases h
  | accepted _ => cases h
  | refused _ _ => cases h
  | unmatched _ => cases h

theorem mem_of_mem_concat {older : QuestionEvent} (h : older ∈ log ++ [event])
    (hsettles : settles q event = true) (hquiet : settles q older = false) : older ∈ log := by
  obtain hmem | hmem := List.mem_append.mp h
  · exact hmem
  · rw [List.mem_singleton.mp hmem, hsettles] at hquiet
    cases hquiet

/-- An event that settles an outstanding question. -/
theorem Orderly.settling (h : Orderly log) (hout : Outstanding log q)
    (hsettles : settles q event = true)
    (htime : ∀ error, event = .timedOut q error →
      .accepted q ∈ log ∧ 0 < q.timeout ∧ error = ClientQuestions.notInTime) :
    Orderly (log ++ [event]) where
  once other := by
    rw [settlements_concat]
    split_ifs with hother
    · rw [eq_of_settles hsettles hother, hout.unsettled]
    · exact h.once other
  settled other hother := by
    rw [settlements_concat] at hother
    split_ifs at hother with hsame
    · rw [eq_of_settles hsettles hsame]
      exact List.mem_append_left _ hout.asked
    · exact List.mem_append_left _ (h.settled other hother)
  accepted other hother := by
    obtain ⟨hasked, hunrefused⟩ := h.accepted other (mem_of_mem_concat hother hsettles rfl)
    exact ⟨List.mem_append_left _ hasked,
      fun error hmem => hunrefused error (mem_of_mem_concat hmem hsettles rfl)⟩
  refused other error hother := by
    have hbefore := mem_of_mem_concat hother hsettles rfl
    obtain ⟨hasked, hcount⟩ := h.refused other error hbefore
    refine ⟨List.mem_append_left _ hasked, ?_⟩
    have hdiffer : settles other event = false := by
      by_contra hsame
      rw [eq_of_settles hsettles (Bool.eq_true_of_not_eq_false hsame)] at hbefore
      exact hout.unrefused error hbefore
    rw [settlements_quiet hdiffer, hcount]
  timedOut other error hother := by
    obtain hmem | hmem := List.mem_append.mp hother
    · obtain ⟨haccepted, hrest⟩ := h.timedOut other error hmem
      exact ⟨List.mem_append_left _ haccepted, hrest⟩
    · have hevent := (List.mem_singleton.mp hmem).symm
      have hself : settles other event = true := by
        rw [hevent]
        exact decide_eq_true rfl
      have hsame := eq_of_settles hsettles hself
      rw [hsame] at hevent ⊢
      obtain ⟨haccepted, hrest⟩ := htime error hevent
      exact ⟨List.mem_append_left _ haccepted, hrest⟩

end GopherMcp
