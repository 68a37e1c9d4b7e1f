import GopherMcp.Server.QuestionAnswers
import GopherMcp.Server.QuestionLedger

/-!
# Every question is settled once

Waiters and deadlines are kept under the id of a question. As long as no id is used again while
something of an earlier question is left under it, whoever waits is told once, by the answer or by the
deadline.
-/

namespace GopherMcp

namespace ClientQuestions

open QuestionEvent

/-- The waiters are the outstanding questions, and the deadlines theirs or without effect. -/
structure Sound (s : ClientQuestions) : Prop where
  orderly : Orderly s.log
  waiting : ∀ key q, s.waiters.find? key = some q → q.key = key ∧ Outstanding s.log q
  outstanding : ∀ q, Outstanding s.log q → s.waiters.find? q.key = some q
  sending : ∀ q, .sending q ∈ s.calls →
    asked q ∈ s.log ∧ accepted q ∉ s.log ∧ ∀ error, refused q error ∉ s.log
  apart : (s.calls.map QuestionCall.key).Nodup
  unposted : ∀ q, .sending q ∈ s.calls → q.key ∉ s.posted
  early : ∀ q, .sending q ∈ s.calls → 0 < settlements s.log q → s.waiters.find? q.key = none
  deadlines : ∀ key d, s.deadlines.find? key = some d →
    d.question.key = key ∧ accepted d.question ∈ s.log ∧ 0 < d.question.timeout
  stale : ∀ key q, s.deadlines.find? key = some ⟨q, true⟩ → 0 < settlements s.log q →
    s.waiters.find? key = none
  deadline : ∀ q, accepted q ∈ s.log → 0 < q.timeout → settlements s.log q = 0 →
    s.deadlines.find? q.key = some ⟨q, true⟩ ∧ q.key ∉ s.posted ∧ .telling q.key ∉ s.calls

/-- No question that is outstanding has the id of a new one. -/
def Unused (s : ClientQuestions) (q : ClientQuestion) : Prop :=
  asked q ∉ s.log ∧ ∀ other, Outstanding s.log other → other.key ≠ q.key

/-- The ids of questions are used as asked for. -/
def Proper (s : ClientQuestions) : QuestionOp → Prop
  | .ask q _ _ => s.Unused q
  | _ => True

/-- Nothing of an earlier question is left under the id of a new one: it is not being sent nor told that
time is up, no deadline of it can fire, and no task is to drop one. And no answer came for a question that
could not be sent. -/
def Clear (s : ClientQuestions) : QuestionOp → Prop
  | .ask q _ _ =>
      (∀ call ∈ s.calls, call.key ≠ q.key) ∧ (∀ other, s.deadlines.find? q.key ≠ some ⟨other, true⟩) ∧
        q.key ∉ s.posted
  | .returns (some _) =>
      ∀ q calls, s.calls = .sending q :: calls → settlements s.log q = 0
  | _ => True

variable {s : ClientQuestions} {q : ClientQuestion}

theorem sound_empty : empty.Sound where
  orderly := orderly_nil
  waiting _ _ h := by cases h
  outstanding _ h := absurd h.asked List.not_mem_nil
  sending _ h := absurd h List.not_mem_nil
  apart := List.nodup_nil
  unposted _ h := absurd h List.not_mem_nil
  early _ h := absurd h List.not_mem_nil
  deadlines _ _ h := by cases h
  stale _ _ h := by cases h
  deadline _ h := absurd h List.not_mem_nil

/-- Two outstanding questions of one id are one. -/
theorem Sound.eq_of_key (h : s.Sound) {other : ClientQuestion} (hq : Outstanding s.log q)
    (hother : Outstanding s.log other) (hkey : other.key = q.key) : other = q := by
  have hwaiter := h.outstanding other hother
  rw [hkey, h.outstanding q hq] at hwaiter
  exact (Option.some.inj hwaiter).symm

/-- A question that is accepted and not settled is outstanding. -/
theorem Sound.outstanding_of_accepted (h : s.Sound) (haccepted : accepted q ∈ s.log)
    (hcount : settlements s.log q = 0) : Outstanding s.log q :=
  ⟨(h.orderly.accepted q haccepted).1, hcount, (h.orderly.accepted q haccepted).2⟩

theorem Sound.outstanding_of_sending (h : s.Sound) (hsending : .sending q ∈ s.calls)
    (hcount : settlements s.log q = 0) : Outstanding s.log q :=
  ⟨(h.sending q hsending).1, hcount, (h.sending q hsending).2.2⟩

/-! ### Events that change no table -/

/-- Events that leave the outstanding questions as they were. -/
theorem Sound.extend (h : s.Sound) {later : List QuestionEvent} (horderly : Orderly (s.log ++ later))
    (hcount : ∀ q, settlements (s.log ++ later) q = settlements s.log q)
    (hout : ∀ q, Outstanding (s.log ++ later) q ↔ Outstanding s.log q)
    (haccepts : ∀ q, accepted q ∉ later)
    (hrefuses : ∀ q error, refused q error ∈ later → .sending q ∉ s.calls) :
    Sound { s with log := s.log ++ later } where
  orderly := horderly
  waiting key q hq := ⟨(h.waiting key q hq).1, (hout q).mpr (h.waiting key q hq).2⟩
  outstanding q hq := h.outstanding q ((hout q).mp hq)
  sending q hq := by
    obtain ⟨hasked, haccepted, hunrefused⟩ := h.sending q hq
    refine ⟨List.mem_append_left _ hasked, fun hmem => ?_, fun error hmem => ?_⟩
    · exact (List.mem_append.mp hmem).elim haccepted (haccepts q)
    · exact (List.mem_append.mp hmem).elim (hunrefused error)
        fun hlater => hrefuses q error hlater hq
  apart := h.apart
  unposted := h.unposted
  early q hq hpositive := h.early q hq ((hcount q) ▸ hpositive)
  deadlines key d hd := by
    obtain ⟨hkey, haccepted, htimeout⟩ := h.deadlines key d hd
    exact ⟨hkey, List.mem_append_left _ haccepted, htimeout⟩
  stale key q hq hpositive := h.stale key q hq ((hcount q) ▸ hpositive)
  deadline q hq htimeout hzero := by
    have hbefore := (List.mem_append.mp hq).resolve_right (haccepts q)
    exact h.deadline q hbefore htimeout ((hcount q) ▸ hzero)

/-- A response nobody waited for. -/
theorem Sound.unmatched (h : s.Sound) (response : ClientResponse) :
    (s.note (.unmatched response)).Sound := by
  have hcount (q : ClientQuestion) :
      settlements (s.log ++ [.unmatched response]) q = settlements s.log q := settlements_quiet rfl
  refine h.extend ?_ hcount (fun q => ⟨fun hq => ?_, fun hq => ?_⟩) (fun q => ?_) fun q error => ?_
  · exact h.orderly.quiet (fun _ => rfl) (by simp) (by simp)
  · exact hq.of_concat (by simp)
  · exact hq.concat rfl (by simp)
  · simp
  · simp

/-- A question that is refused before anything was done. -/
theorem Sound.refuseAtOnce (h : s.Sound) (hnew : asked q ∉ s.log) (error : Error) :
    ((s.note (.asked q)).note (.refused q error)).Sound := by
  have hzero : settlements s.log q = 0 := by
    by_contra hpositive
    exact hnew (h.orderly.settled q (Nat.pos_of_ne_zero hpositive))
  have hnever : accepted q ∉ s.log := fun hmem => hnew (h.orderly.accepted q hmem).1
  have hcount (other : ClientQuestion) :
      settlements (s.log ++ [.asked q, .refused q error]) other = settlements s.log other := by
    rw [settlements, List.countP_append]
    rfl
  have hlog : s.log ++ [.asked q, .refused q error] = s.log ++ [.asked q] ++ [.refused q error] := by
    rw [List.append_assoc]
    rfl
  have hsplit : (s.note (.asked q)).note (.refused q error) =
      { s with log := s.log ++ [.asked q, .refused q error] } := by
    rw [hlog]
    rfl
  rw [hsplit]
  refine h.extend ?_ hcount (fun other => ⟨fun hout => ?_, fun hout => ?_⟩) (fun other => ?_)
    fun other error' hmem hsending => ?_
  · rw [hlog]
    have hasked : Orderly (s.log ++ [.asked q]) := h.orderly.quiet (fun _ => rfl) (by simp) (by simp)
    refine hasked.quiet (fun _ => rfl) (by simp) fun other error' heq => ?_
    obtain ⟨hother, -⟩ := QuestionEvent.refused.inj heq
    rw [← hother, settlements_quiet rfl]
    refine ⟨by simp, fun hmem => ?_, hzero⟩
    exact hnever ((List.mem_append.mp hmem).resolve_right (by simp))
  · have hother : other ≠ q := by
      intro heq
      exact hout.unrefused error (by simp [heq])
    rw [hlog] at hout
    exact (hout.of_concat (by simp)).of_concat fun heq => hother (QuestionEvent.asked.inj heq).symm
  · have hother : other ≠ q := fun heq => hnew (heq ▸ hout.asked)
    have hasked : Outstanding (s.log ++ [.asked q]) other := hout.concat rfl (by simp)
    rw [hlog]
    exact hasked.concat rfl fun _ heq => hother (QuestionEvent.refused.inj heq).1.symm
  · simp
  · have hother : other = q ∧ error' = error := by simpa using hmem
    rw [hother.1] at hsending
    exact hnew (h.sending q hsending).1

/-! ### Asking -/

/-- A new question is registered and goes out. -/
theorem Sound.register (h : s.Sound) (hunused : s.Unused q)
    (hcalls : ∀ call ∈ s.calls, call.key ≠ q.key)
    (hdeadline : ∀ other, s.deadlines.find? q.key ≠ some ⟨other, true⟩) (hposted : q.key ∉ s.posted) :
    Sound { (s.note (.asked q)).expect q with calls := .sending q :: s.calls } := by
  obtain ⟨hnew, hkeys⟩ := hunused
  have hzero : settlements s.log q = 0 := by
    by_contra hpositive
    exact hnew (h.orderly.settled q (Nat.pos_of_ne_zero hpositive))
  have hcount (other : ClientQuestion) :
      settlements (s.log ++ [.asked q]) other = settlements s.log other := settlements_quiet rfl
  have hmem {event : QuestionEvent} (hold : event ∈ s.log ++ [.asked q])
      (hother : event ≠ .asked q) : event ∈ s.log :=
    (List.mem_append.mp hold).resolve_right fun hlast => hother (List.mem_singleton.mp hlast)
  have hself : Outstanding (s.log ++ [.asked q]) q := by
    refine ⟨by simp, (hcount q).trans hzero, fun error hrefused => ?_⟩
    exact hnew (h.orderly.refused q error (hmem hrefused (by simp))).1
  have hwaiter {key : RequestIdKey} (hkey : key ≠ q.key) :
      (s.waiters.insert q.key q).find? key = s.waiters.find? key :=
    OrdMap.find?_insert_of_ne _ hkey _
  refine ⟨h.orderly.quiet (fun _ => rfl) (by simp) (by simp), fun key other hother => ?_,
    fun other hother => ?_, fun other hother => ?_, ?_, fun other hother => ?_,
    fun other hother hpositive => ?_, fun key d hd => ?_, fun key other hother hpositive => ?_,
    fun other haccepted htimeout hunsettled => ?_⟩
  · by_cases hkey : key = q.key
    · have hfound : some q = some other := by
        rw [← hother, hkey]
        exact (OrdMap.find?_insert_self _ _ _).symm
      rw [← Option.some.inj hfound]
      exact ⟨hkey.symm, hself⟩
    · obtain ⟨hsame, hout⟩ := h.waiting key other ((hwaiter hkey).symm.trans hother)
      exact ⟨hsame, hout.concat rfl (by simp)⟩
  · by_cases hsame : other = q
    · rw [hsame]
      exact OrdMap.find?_insert_self _ _ _
    · have hout : Outstanding s.log other :=
        hother.of_concat fun heq => hsame (QuestionEvent.asked.inj heq).symm
      exact (hwaiter (hkeys other hout)).trans (h.outstanding other hout)
  · obtain hfirst | hrest := List.mem_cons.mp hother
    · rw [QuestionCall.sending.inj hfirst]
      refine ⟨by simp [note, expect], fun haccepted => ?_, hself.unrefused⟩
      exact hnew (h.orderly.accepted q (hmem haccepted (by simp))).1
    · obtain ⟨hasked, haccepted, hunrefused⟩ := h.sending other hrest
      exact ⟨List.mem_append_left _ hasked, fun hold => haccepted (hmem hold (by simp)),
        fun error hold => hunrefused error (hmem hold (by simp))⟩
  · refine List.nodup_cons.mpr ⟨fun hsame => ?_, h.apart⟩
    obtain ⟨call, hcall, hkey⟩ := List.mem_map.mp hsame
    exact hcalls call hcall hkey
  · obtain hfirst | hrest := List.mem_cons.mp hother
    · rw [QuestionCall.sending.inj hfirst]
      exact hposted
    · exact h.unposted other hrest
  · obtain hfirst | hrest := List.mem_cons.mp hother
    · rw [QuestionCall.sending.inj hfirst] at hpositive
      exact absurd hself.unsettled (Nat.ne_of_gt hpositive)
    · have hkey : other.key ≠ q.key := hcalls _ hrest
      exact (hwaiter hkey).trans (h.early other hrest ((hcount other) ▸ hpositive))
  · obtain ⟨hkey, haccepted, htimeout⟩ := h.deadlines key d hd
    exact ⟨hkey, List.mem_append_left _ haccepted, htimeout⟩
  · have hkey : key ≠ q.key := fun heq => hdeadline other (heq ▸ hother)
    exact (hwaiter hkey).trans (h.stale key other hother ((hcount other) ▸ hpositive))
  · obtain ⟨hfound, hunposted, htelling⟩ :=
      h.deadline other (hmem haccepted (by simp)) htimeout ((hcount other) ▸ hunsettled)
    exact ⟨hfound, hunposted, fun hmem => (List.mem_cons.mp hmem).elim (by simp) htelling⟩

/-! ### The send returns -/

variable {calls : List QuestionCall}

/-- The other calls under way are of other ids. -/
theorem Sound.apart_of_cons (h : s.Sound) {first : QuestionCall} (hcalls : s.calls = first :: calls) :
    (∀ call ∈ calls, call.key ≠ first.key) ∧ (calls.map QuestionCall.key).Nodup := by
  have hapart := h.apart
  rw [hcalls, List.map_cons, List.nodup_cons] at hapart
  exact ⟨fun call hcall hkey => hapart.1 (List.mem_map.mpr ⟨call, hcall, hkey⟩), hapart.2⟩

/-- The question could not be sent. -/
theorem Sound.sendFailed (h : s.Sound) (hcalls : s.calls = .sending q :: calls)
    (hzero : settlements s.log q = 0) (error : Error) :
    ((ClientQuestions.forget { s with calls } q.id).1.note (.refused q error)).Sound := by
  have hself : .sending q ∈ s.calls := by simp [hcalls]
  have hin {call : QuestionCall} (hcall : call ∈ calls) : call ∈ s.calls := by simp [hcalls, hcall]
  obtain ⟨hother, hnodup⟩ := h.apart_of_cons hcalls
  have hout := h.outstanding_of_sending hself hzero
  have hcount (other : ClientQuestion) :
      settlements (s.log ++ [.refused q error]) other = settlements s.log other :=
    settlements_quiet rfl
  have hmem {event : QuestionEvent} (hold : event ∈ s.log ++ [.refused q error])
      (hdiffer : event ≠ .refused q error) : event ∈ s.log :=
    (List.mem_append.mp hold).resolve_right fun hlast => hdiffer (List.mem_singleton.mp hlast)
  have hwaiter {key : RequestIdKey} (hkey : key ≠ q.key) :
      (s.waiters.erase (requestIdKey q.id)).find? key = s.waiters.find? key :=
    OrdMap.find?_erase_of_ne _ hkey
  refine ⟨?_, fun key other hfound => ?_, fun other hstill => ?_, fun other hsending => ?_, hnodup,
    fun other hsending => h.unposted other (hin hsending), fun other hsending hpositive => ?_,
    fun key d hd => ?_, fun key other hfound hpositive => ?_,
    fun other haccepted htimeout hunsettled => ?_⟩
  · refine h.orderly.quiet (fun _ => rfl) (by simp) fun other error' heq => ?_
    rw [← (QuestionEvent.refused.inj heq).1]
    exact ⟨hout.asked, (h.sending q hself).2.1, hzero⟩
  · have hkey : key ≠ q.key := by
      intro heq
      rw [heq] at hfound
      exact absurd ((OrdMap.find?_erase_self _ _).symm.trans hfound) (by simp)
    obtain ⟨hsame, hstill⟩ := h.waiting key other ((hwaiter hkey).symm.trans hfound)
    refine ⟨hsame, hstill.concat rfl fun _ heq => hkey ?_⟩
    rw [← hsame, (QuestionEvent.refused.inj heq).1]
  · have hbefore : Outstanding s.log other := hstill.of_concat (by simp)
    have hdiffer : other ≠ q := fun heq => hstill.unrefused error (by simp [note, heq, forget])
    have hkey : other.key ≠ q.key := fun heq => hdiffer (h.eq_of_key hout hbefore heq)
    exact (hwaiter hkey).trans (h.outstanding other hbefore)
  · obtain ⟨hasked, haccepted, hunrefused⟩ := h.sending other (hin hsending)
    refine ⟨List.mem_append_left _ hasked, fun hold => haccepted (hmem hold (by simp)),
      fun error' hold => hunrefused error' (hmem hold fun heq => ?_)⟩
    exact hother _ hsending (congrArg ClientQuestion.key (QuestionEvent.refused.inj heq).1)
  · have hkey : other.key ≠ q.key := hother _ hsending
    exact (hwaiter hkey).trans (h.early other (hin hsending) ((hcount other) ▸ hpositive))
  · obtain ⟨hkey, haccepted, htimeout⟩ := h.deadlines key d hd
    exact ⟨hkey, List.mem_append_left _ haccepted, htimeout⟩
  · have hnone := h.stale key other hfound ((hcount other) ▸ hpositive)
    exact (OrdMap.find?_erase _ _ _).trans (by rw [hnone]; split_ifs <;> rfl)
  · obtain ⟨hfound, hunposted, htelling⟩ :=
      h.deadline other (hmem haccepted (by simp)) htimeout ((hcount other) ▸ hunsettled)
    exact ⟨hfound, hunposted, fun hcall => htelling (hin hcall)⟩

/-- The question was sent, and its deadline is hung up if it has one. -/
theorem Sound.sendDone (h : s.Sound) (hcalls : s.calls = .sending q :: calls)
    {deadlines : OrdMap RequestIdKey Deadline}
    (hothers : ∀ key ≠ q.key, deadlines.find? key = s.deadlines.find? key)
    (hfrom : ∀ d, deadlines.find? q.key = some d →
      d = ⟨q, true⟩ ∧ 0 < q.timeout ∨ s.deadlines.find? q.key = some d)
    (hown : 0 < q.timeout → deadlines.find? q.key = some ⟨q, true⟩) :
    Sound { s with calls, deadlines, log := s.log ++ [.accepted q] } := by
  have hself : .sending q ∈ s.calls := by simp [hcalls]
  have hin {call : QuestionCall} (hcall : call ∈ calls) : call ∈ s.calls := by simp [hcalls, hcall]
  obtain ⟨hother, hnodup⟩ := h.apart_of_cons hcalls
  obtain ⟨hasked, hunaccepted, hunrefused⟩ := h.sending q hself
  have hcount (other : ClientQuestion) :
      settlements (s.log ++ [.accepted q]) other = settlements s.log other := settlements_quiet rfl
  refine ⟨?_, fun key other hfound => ?_, fun other hstill => h.outstanding other (hstill.of_concat (by simp)),
    fun other hsending => ?_, hnodup, fun other hsending => h.unposted other (hin hsending),
    fun other hsending hpositive => h.early other (hin hsending) ((hcount other) ▸ hpositive),
    fun key d hd => ?_, fun key other hfound hpositive => ?_,
    fun other haccepted htimeout hunsettled => ?_⟩
  · refine h.orderly.quiet (fun _ => rfl) (fun other heq => ?_) (by simp)
    rw [← QuestionEvent.accepted.inj heq]
    exact ⟨hasked, hunrefused⟩
  · obtain ⟨hsame, hout⟩ := h.waiting key other hfound
    exact ⟨hsame, hout.concat rfl (by simp)⟩
  · obtain ⟨hasked, haccepted, hunrefused⟩ := h.sending other (hin hsending)
    refine ⟨List.mem_append_left _ hasked, fun hmem => ?_, fun error hmem => ?_⟩
    · obtain hold | hlast := List.mem_append.mp hmem
      · exact haccepted hold
      · exact hother _ hsending (congrArg ClientQuestion.key
          (QuestionEvent.accepted.inj (List.mem_singleton.mp hlast)))
    · exact hunrefused error ((List.mem_append.mp hmem).resolve_right (by simp))
  · have hold : s.deadlines.find? key = some d →
        d.question.key = key ∧ accepted d.question ∈ s.log ++ [.accepted q] ∧
          0 < d.question.timeout := fun hbefore => by
      obtain ⟨hkey, haccepted, htimeout⟩ := h.deadlines key d hbefore
      exact ⟨hkey, List.mem_append_left _ haccepted, htimeout⟩
    by_cases hkey : key = q.key
    · rw [hkey] at hd
      obtain ⟨hnew, htimeout⟩ | hbefore := hfrom d hd
      · rw [hnew, hkey]
        exact ⟨rfl, by simp, htimeout⟩
      · exact hold (hkey ▸ hbefore)
    · exact hold ((hothers key hkey).symm.trans hd)
  · -- a timer of a question that was answered while it was sent finds nobody waiting
    by_cases hkey : key = q.key
    · rw [hkey] at hfound ⊢
      obtain ⟨hnew, -⟩ | hbefore := hfrom _ hfound
      · rw [(Deadline.mk.inj hnew).1] at hpositive
        exact h.early q hself ((hcount q) ▸ hpositive)
      · exact h.stale _ other hbefore ((hcount other) ▸ hpositive)
    · exact h.stale key other ((hothers key hkey).symm.trans hfound) ((hcount other) ▸ hpositive)
  · by_cases hsame : other = q
    · rw [hsame] at htimeout ⊢
      exact ⟨hown htimeout, h.unposted q hself, fun hcall => hother _ hcall rfl⟩
    · have hbefore : accepted other ∈ s.log := (List.mem_append.mp haccepted).resolve_right
        fun hlast => hsame (QuestionEvent.accepted.inj (List.mem_singleton.mp hlast))
      have hzero : settlements s.log other = 0 := (hcount other) ▸ hunsettled
      obtain ⟨hfound, hunposted, htelling⟩ := h.deadline other hbefore htimeout hzero
      have hout := h.outstanding_of_accepted hbefore hzero
      have hkey : other.key ≠ q.key := by
        intro heq
        by_cases hsettled : settlements s.log q = 0
        · exact hsame (h.eq_of_key (h.outstanding_of_sending hself hsettled) hout heq)
        · have hnone := h.early q hself (Nat.pos_of_ne_zero hsettled)
          rw [← heq, h.outstanding other hout] at hnone
          cases hnone
      exact ⟨(hothers _ hkey).trans hfound, hunposted, fun hcall => htelling (hin hcall)⟩

theorem Sound.returns (h : s.Sound) (sendError : Option Error)
    (hclear : s.Clear (.returns sendError)) : (s.returns sendError).Sound := by
  rw [ClientQuestions.returns]
  split
  · exact h
  · next q calls hcalls =>
      cases sendError with
      | some error => exact h.sendFailed hcalls (hclear q calls hcalls) error
      | none =>
          rw [ClientQuestions.sent]
          split_ifs with htimeout
          · exact h.sendDone hcalls (fun _ _ => rfl) (fun _ hd => Or.inr hd) (by omega)
          · refine h.sendDone hcalls (fun key hkey => OrdMap.find?_insert_of_ne _ hkey _)
              (fun d hd => Or.inl ⟨?_, by omega⟩) fun _ => OrdMap.find?_insert_self _ _ _
            exact (Option.some.inj ((OrdMap.find?_insert_self _ _ _).symm.trans hd)).symm
  · next key calls hcalls =>
      -- the task that drops the timer is posted
      have hin {call : QuestionCall} (hcall : call ∈ calls) : call ∈ s.calls := by simp [hcalls, hcall]
      obtain ⟨hother, hnodup⟩ := h.apart_of_cons hcalls
      have hself : .telling key ∈ s.calls := by simp [hcalls]
      refine ⟨h.orderly, h.waiting, h.outstanding, fun q hq => h.sending q (hin hq), hnodup,
        fun q hq hmem => ?_, fun q hq => h.early q (hin hq), h.deadlines, h.stale,
        fun q haccepted htimeout hunsettled => ?_⟩
      · obtain hold | hlast := List.mem_append.mp hmem
        · exact h.unposted q (hin hq) hold
        · exact hother _ hq (List.mem_singleton.mp hlast)
      · obtain ⟨hfound, hunposted, htelling⟩ := h.deadline q haccepted htimeout hunsettled
        refine ⟨hfound, fun hmem => ?_, fun hcall => htelling (hin hcall)⟩
        obtain hold | hlast := List.mem_append.mp hmem
        · exact hunposted hold
        · rw [List.mem_singleton.mp hlast] at htelling
          exact htelling hself

/-! ### Answers and deadlines -/

theorem ne_of_settles {event : QuestionEvent} (h : settles q event = true) :
    (∀ other, event ≠ .asked other) ∧ (∀ other, event ≠ .accepted other) ∧
      ∀ other error, event ≠ .refused other error := by
  cases event with
  | answered other response => exact ⟨(by simp), (by simp), (by simp)⟩
  | timedOut other error => exact ⟨(by simp), (by simp), (by simp)⟩
  | asked other => cases h
  | accepted other => cases h
  | refused other error => cases h
  | unmatched response => cases h

/-- Whoever waits is told, and neither a waiter nor a deadline that can fire is left under the id. -/
theorem Sound.settled (h : s.Sound) (hwaiter : s.waiters.find? q.key = some q) {event : QuestionEvent}
    (hsettles : settles q event = true)
    (htime : ∀ error, event = .timedOut q error →
      accepted q ∈ s.log ∧ 0 < q.timeout ∧ error = notInTime)
    {deadlines : OrdMap RequestIdKey Deadline}
    (hothers : ∀ key ≠ q.key, deadlines.find? key = s.deadlines.find? key)
    (hown : ∀ d, deadlines.find? q.key = some d →
      d.armed = false ∧ s.deadlines.find? q.key = some ⟨d.question, true⟩)
    {calls : List QuestionCall} (hsending : ∀ other, .sending other ∈ calls → .sending other ∈ s.calls)
    (htelling : ∀ key, .telling key ∈ calls → key = q.key ∨ .telling key ∈ s.calls)
    (hapart : (calls.map QuestionCall.key).Nodup) :
    Sound { s with waiters := s.waiters.erase q.key, deadlines, calls, log := s.log ++ [event] } := by
  have hout : Outstanding s.log q := (h.waiting _ _ hwaiter).2
  obtain ⟨hasks, haccepts, hrefuses⟩ := ne_of_settles hsettles
  have hmem {older : QuestionEvent} (hold : older ∈ s.log ++ [event]) (hother : event ≠ older) :
      older ∈ s.log :=
    (List.mem_append.mp hold).resolve_right fun hlast => hother (List.mem_singleton.mp hlast).symm
  have hquiet {other : ClientQuestion} (hother : other ≠ q) : settles other event = false :=
    Bool.eq_false_iff.mpr fun hsame => hother (eq_of_settles hsettles hsame)
  have hnone {key : RequestIdKey} (hbefore : s.waiters.find? key = none) :
      (s.waiters.erase q.key).find? key = none := by
    rw [OrdMap.find?_erase, hbefore]
    exact ite_self _
  have hdiffer {other : ClientQuestion} (hstill : settles other event = false) : other ≠ q := by
    intro heq
    rw [heq, hsettles] at hstill
    cases hstill
  refine ⟨h.orderly.settling hout hsettles htime, fun key other hfound => ?_, fun other hstill => ?_,
    fun other hcall => ?_, hapart, fun other hcall => h.unposted other (hsending other hcall),
    fun other hcall hpositive => ?_, fun key d hd => ?_, fun key other hfound hpositive => ?_,
    fun other haccepted htimeout hunsettled => ?_⟩
  · obtain ⟨hkey, hfound⟩ : key ≠ q.key ∧ s.waiters.find? key = some other := by
      rw [OrdMap.find?_erase] at hfound
      split_ifs at hfound with hkey
      exact ⟨hkey, hfound⟩
    obtain ⟨hsame, hbefore⟩ := h.waiting key other hfound
    have hother : other ≠ q := fun heq => hkey (hsame.symm.trans (congrArg ClientQuestion.key heq))
    exact ⟨hsame, hbefore.concat (hquiet hother) (hrefuses other)⟩
  · have hother : other ≠ q := hdiffer hstill.not_settles
    have hbefore : Outstanding s.log other := hstill.of_concat (hasks other)
    have hkey : other.key ≠ q.key := fun heq => hother (h.eq_of_key hout hbefore heq)
    exact (OrdMap.find?_erase_of_ne _ hkey).trans (h.outstanding other hbefore)
  · obtain ⟨hasked, haccepted, hunrefused⟩ := h.sending other (hsending other hcall)
    exact ⟨List.mem_append_left _ hasked, fun hold => haccepted (hmem hold (haccepts other)),
      fun error hold => hunrefused error (hmem hold (hrefuses other error))⟩
  · by_cases hother : other = q
    · rw [hother]
      exact OrdMap.find?_erase_self _ _
    · rw [settlements_quiet (hquiet hother)] at hpositive
      exact hnone (h.early other (hsending other hcall) hpositive)
  · obtain ⟨armed, hbefore⟩ : ∃ armed, s.deadlines.find? key = some ⟨d.question, armed⟩ := by
      by_cases hkey : key = q.key
      · rw [hkey] at hd ⊢
        exact ⟨true, (hown d hd).2⟩
      · exact ⟨d.armed, (hothers key hkey).symm.trans hd⟩
    obtain ⟨hkey, haccepted, htimeout⟩ := h.deadlines key _ hbefore
    exact ⟨hkey, List.mem_append_left _ haccepted, htimeout⟩
  · have hkey : key ≠ q.key := by
      intro heq
      rw [heq] at hfound
      cases (hown _ hfound).1
    have hbefore := (hothers key hkey).symm.trans hfound
    have hother : other ≠ q := fun heq =>
      hkey ((h.deadlines key _ hbefore).1.symm.trans (congrArg ClientQuestion.key heq))
    rw [settlements_quiet (hquiet hother)] at hpositive
    exact hnone (h.stale key other hbefore hpositive)
  · have hstill : settles other event = false := by
      rw [settlements_concat] at hunsettled
      exact Bool.eq_false_iff.mpr fun hsame => by simp [hsame] at hunsettled
    rw [settlements_quiet hstill] at hunsettled
    have hbefore := hmem haccepted (haccepts other)
    have hstanding := h.outstanding_of_accepted hbefore hunsettled
    have hkey : other.key ≠ q.key := fun heq => hdiffer hstill (h.eq_of_key hout hstanding heq)
    obtain ⟨hfound, hunposted, huntold⟩ := h.deadline other hbefore htimeout hunsettled
    exact ⟨(hothers _ hkey).trans hfound, hunposted,
      fun hcall => (htelling _ hcall).elim hkey huntold⟩

/-- A response reaches whoever waits for it. -/
theorem Sound.onResponse (h : s.Sound) (response : ClientResponse) : (s.onResponse response).Sound := by
  cases hwaiter : s.waiters.find? (requestIdKey response.id) with
  | none =>
      rw [ClientQuestions.onResponse, deliver, hwaiter]
      exact h.unmatched response
  | some q =>
      have hkey : requestIdKey response.id = q.key := (h.waiting _ _ hwaiter).1.symm
      rw [deliver_eq hwaiter, hkey]
      have hsettles : settles q (.answered q response) = true := decide_eq_true rfl
      refine h.settled (hkey ▸ hwaiter) hsettles (by simp)
        (fun key hother => OrdMap.find?_erase_of_ne _ hother) (fun d hd => ?_) (fun _ hcall => hcall)
        (fun _ hcall => Or.inr hcall) h.apart
      rw [OrdMap.find?_erase_self] at hd
      cases hd

/-- A timer that fires when nobody waits any more. -/
theorem Sound.disarm (h : s.Sound) (hfound : s.deadlines.find? q.key = some ⟨q, true⟩)
    (hnone : s.waiters.find? q.key = none) :
    Sound { s with deadlines := s.deadlines.insert q.key ⟨q, false⟩ } := by
  refine ⟨h.orderly, h.waiting, h.outstanding, h.sending, h.apart, h.unposted, h.early,
    fun key d hd => ?_, fun key other hother => ?_, fun other haccepted htimeout hunsettled => ?_⟩
  · rw [OrdMap.find?_insert] at hd
    split_ifs at hd with hkey
    · obtain rfl := Option.some.inj hd
      exact ⟨hkey.symm, (h.deadlines _ _ hfound).2⟩
    · exact h.deadlines key d hd
  · rw [OrdMap.find?_insert] at hother
    split_ifs at hother with hkey
    · cases hother
    · exact h.stale key other hother
  · obtain ⟨hbefore, hrest⟩ := h.deadline other haccepted htimeout hunsettled
    have hwaiting := h.outstanding other (h.outstanding_of_accepted haccepted hunsettled)
    have hkey : other.key ≠ q.key := by
      intro heq
      rw [heq, hnone] at hwaiting
      cases hwaiting
    exact ⟨(OrdMap.find?_insert_of_ne _ hkey _).trans hbefore, hrest⟩

/-- What a timer of a question that is still outstanding does when it fires. -/
theorem fire_of_waiting (h : s.waiters.find? q.key = some q) :
    s.fire q =
      { s with
        waiters := s.waiters.erase q.key
        deadlines := s.deadlines.insert q.key ⟨q, false⟩
        calls := .telling q.key :: s.calls
        log := s.log ++ [.timedOut q notInTime] } := by
  have hcontains : s.waiters.contains (requestIdKey q.id) = true := by
    rw [OrdMap.contains]
    exact Option.isSome_iff_exists.mpr ⟨q, h⟩
  rw [fire]
  simp only [forget, hcontains]
  rfl

theorem fire_of_nobody (h : s.waiters.find? q.key = none) :
    s.fire q = { s with deadlines := s.deadlines.insert q.key ⟨q, false⟩ } := by
  have hcontains : s.waiters.contains (requestIdKey q.id) = false := by
    rw [OrdMap.contains]
    exact Option.isSome_eq_false_iff.mpr (Option.isNone_iff_eq_none.mpr h)
  have herase : s.waiters.erase (requestIdKey q.id) = s.waiters := OrdMap.erase_of_find?_eq_none h
  rw [fire]
  simp only [forget, hcontains, herase]
  rfl

/-- A timer that can fire finds the one it is for waiting, or nobody. -/
theorem Sound.fire (h : s.Sound) (hcalls : s.calls = [])
    (hfound : s.deadlines.find? q.key = some ⟨q, true⟩) : (s.fire q).Sound := by
  obtain ⟨-, haccepted, htimeout⟩ := h.deadlines _ _ hfound
  by_cases hsettled : settlements s.log q = 0
  · have hwaiter := h.outstanding q (h.outstanding_of_accepted haccepted hsettled)
    have hsettles : settles q (.timedOut q notInTime) = true := decide_eq_true rfl
    rw [fire_of_waiting hwaiter, hcalls]
    refine h.settled hwaiter hsettles (fun error heq => ?_)
      (fun key hother => OrdMap.find?_insert_of_ne _ hother _) (fun d hd => ?_) (fun other hcall => ?_)
      (fun key hcall => ?_) (List.nodup_singleton _)
    · exact ⟨haccepted, htimeout, (QuestionEvent.timedOut.inj heq).2.symm⟩
    · rw [OrdMap.find?_insert_self] at hd
      obtain rfl := Option.some.inj hd
      exact ⟨rfl, hfound⟩
    · cases List.mem_singleton.mp hcall
    · exact Or.inl (QuestionCall.telling.inj (List.mem_singleton.mp hcall))
  · have hnone := h.stale _ q hfound (Nat.pos_of_ne_zero hsettled)
    rw [fire_of_nobody hnone]
    exact h.disarm hfound hnone

theorem Sound.elapse (h : s.Sound) (key : RequestIdKey) : (s.elapse key).Sound := by
  rw [ClientQuestions.elapse]
  split_ifs with hcalls
  · exact h
  split
  · next q hfound =>
      obtain ⟨hkey, -⟩ := h.deadlines key _ hfound
      exact h.fire (not_not.mp hcalls) (hkey ▸ hfound)
  · exact h

/-- The task that drops a timer. -/
theorem Sound.runPosted (h : s.Sound) (key : RequestIdKey) : (s.runPosted key).Sound := by
  rw [ClientQuestions.runPosted]
  split_ifs with hready
  · obtain ⟨-, hposted⟩ := hready
    have hkept {other : RequestIdKey} (hmem : other ∈ s.posted.erase key) : other ∈ s.posted :=
      List.mem_of_mem_erase hmem
    refine ⟨h.orderly, h.waiting, h.outstanding, h.sending, h.apart,
      fun q hcall hmem => h.unposted q hcall (hkept hmem), h.early,
      fun other d hd => h.deadlines other d (OrdMap.find?_erase_eq_some_iff.mp hd).1,
      fun other q hfound => h.stale other q (OrdMap.find?_erase_eq_some_iff.mp hfound).1,
      fun q haccepted htimeout hunsettled => ?_⟩
    obtain ⟨hfound, hunposted, huntold⟩ := h.deadline q haccepted htimeout hunsettled
    have hkey : q.key ≠ key := fun heq => hunposted (heq ▸ hposted)
    exact ⟨(OrdMap.find?_erase_of_ne _ hkey).trans hfound, fun hmem => hunposted (hkept hmem), huntold⟩
  · exact h

/-! ### Runs -/

theorem Sound.ask (h : s.Sound) (q : ClientQuestion) (hasStream hasWaiter : Bool)
    (hunused : s.Unused q) (hclear : s.Clear (.ask q hasStream hasWaiter)) :
    (s.ask q hasStream hasWaiter).Sound := by
  obtain ⟨hcalls, hdeadline, hposted⟩ := hclear
  rw [ClientQuestions.ask]
  split_ifs
  · exact h.refuseAtOnce hunused.1 _
  · exact h.refuseAtOnce hunused.1 _
  · exact h.register hunused hcalls hdeadline hposted

theorem Sound.step (h : s.Sound) (op : QuestionOp) (hproper : s.Proper op) (hclear : s.Clear op) :
    (s.step op).Sound := by
  cases op with
  | ask q hasStream hasWaiter => exact h.ask q hasStream hasWaiter hproper hclear
  | returns sendError => exact h.returns sendError hclear
  | respond response => exact h.onResponse response
  | elapse key => exact h.elapse key
  | runPosted key => exact h.runPosted key

/-- What a question to a client comes to. -/
structure SettledOnce (s : ClientQuestions) : Prop where
  once : ∀ q, settlements s.log q ≤ 1
  answered : ∀ q response, answered q response ∈ s.log → asked q ∈ s.log ∧ response.id = q.id
  timedOut : ∀ q error, timedOut q error ∈ s.log →
    accepted q ∈ s.log ∧ 0 < q.timeout ∧ error = notInTime
  inTime : ∀ q, accepted q ∈ s.log → 0 < q.timeout → settlements s.log q = 0 →
    s.deadlines.find? q.key = some ⟨q, true⟩ ∧
      (s.calls = [] → (s.elapse q.key).log = s.log ++ [.timedOut q notInTime])
  refused : ∀ q error, refused q error ∈ s.log →
    settlements s.log q = 0 ∧ (∀ key, s.waiters.find? key ≠ some q) ∧
      ∀ key d, s.deadlines.find? key = some d → d.question ≠ q

theorem settlements_pos_of_mem {log : List QuestionEvent} {event : QuestionEvent} (h : event ∈ log)
    (hsettles : settles q event = true) : 0 < settlements log q :=
  List.countP_pos_iff.mpr ⟨event, h, hsettles⟩

theorem Sound.settledOnce (h : s.Sound) (hkeyed : s.Keyed) : s.SettledOnce where
  once := h.orderly.once
  answered q response hmem :=
    ⟨h.orderly.settled q (settlements_pos_of_mem hmem (decide_eq_true rfl)), hkeyed.answered q response hmem⟩
  timedOut := h.orderly.timedOut
  inTime q haccepted htimeout hunsettled := by
    obtain ⟨hfound, -⟩ := h.deadline q haccepted htimeout hunsettled
    have hwaiter := h.outstanding q (h.outstanding_of_accepted haccepted hunsettled)
    refine ⟨hfound, fun hcalls => ?_⟩
    have hfire : s.elapse q.key = s.fire q := by
      rw [ClientQuestions.elapse, if_neg (not_not.mpr hcalls), hfound]
    rw [hfire, fire_of_waiting hwaiter]
  refused q error hmem := by
    refine ⟨(h.orderly.refused q error hmem).2, fun key hwaiter => ?_, fun key d hd heq => ?_⟩
    · exact (h.waiting key q hwaiter).2.unrefused error hmem
    · have haccepted := (h.deadlines key d hd).2.1
      rw [heq] at haccepted
      exact (h.orderly.accepted q haccepted).2 error hmem

/-- **Every question is settled once**, in every run in which the ids are used as asked for, each new
question finds nothing of an earlier one under its id, and no answer comes for a question that cannot be
sent. -/
theorem settledOnce_run {ops : List QuestionOp}
    (h : Runs.Guarded step (fun s op => s.Proper op ∧ s.Clear op) empty ops) :
    (Runs.run step empty ops).SettledOnce := by
  have hsound : (Runs.run step empty ops).Sound :=
    Runs.invariant step (fun _ op hok hs => hs.step op hok.1 hok.2) sound_empty h
  exact hsound.settledOnce (keyed_run ops)

/-- Two questions under one id. -/
def firstQuestion : ClientQuestion := ⟨0, .askClient, ascii "alice", .number 1, 30000⟩

def secondQuestion : ClientQuestion := ⟨1, .askClient, ascii "alice", .number 1, 30000⟩

/-- After the only question so far is settled, its id is free. -/
theorem unused_of_settled {first : ClientQuestion} {event : QuestionEvent}
    (hlog : s.log = [.asked first, .accepted first, event]) (hsettles : settles first event = true)
    (hnew : q ≠ first) : s.Unused q := by
  have hasked (other : ClientQuestion) (hmem : asked other ∈ s.log) : other = first := by
    rw [hlog, List.mem_cons, List.mem_cons, List.mem_singleton] at hmem
    obtain heq | heq | heq := hmem
    · exact QuestionEvent.asked.inj heq
    · cases heq
    · exact absurd heq.symm ((ne_of_settles hsettles).1 other)
  refine ⟨fun hmem => hnew (hasked q hmem), fun other hout => ?_⟩
  have hunsettled := hout.unsettled
  rw [hasked other hout.asked] at hunsettled
  have hsettled : 0 < settlements s.log first := settlements_pos_of_mem (by simp [hlog]) hsettles
  omega

/-- The id is used again after the answer. -/
theorem settledOnce_run_answered :
    (Runs.run step empty
      [.ask firstQuestion true true, .returns none, .respond ⟨ascii "alice", .number 1, ascii "yes"⟩,
        .ask secondQuestion true true, .returns none]).SettledOnce := by
  refine settledOnce_run ⟨⟨⟨List.not_mem_nil, fun _ hout => ?_⟩, (by rintro _ ⟨⟩), (by rintro _ ⟨⟩), List.not_mem_nil⟩,
    ⟨trivial, trivial⟩, ⟨trivial, trivial⟩, ⟨?_, (by rintro _ ⟨⟩), (by rintro _ ⟨⟩), List.not_mem_nil⟩,
    ⟨trivial, trivial⟩, trivial⟩
  · exact absurd hout.asked List.not_mem_nil
  · exact @unused_of_settled _ _ firstQuestion _ rfl (by decide) (by decide)

/-- A question whose id is used again from inside `on_answer`: the task that is posted next drops the
deadline of the new question. -/
def askedAgain : List QuestionOp :=
  [.ask firstQuestion true true, .returns none, .elapse firstQuestion.key,
    .ask secondQuestion true true, .returns none, .returns none, .runPosted firstQuestion.key]

theorem not_settledOnce_askedAgain :
    Runs.Guarded step Proper empty askedAgain ∧ ¬ (Runs.run step empty askedAgain).SettledOnce := by
  refine ⟨⟨⟨List.not_mem_nil, fun _ hout => ?_⟩, trivial, trivial, ?_, trivial, trivial, trivial,
    trivial⟩, fun h => ?_⟩
  · exact absurd hout.asked List.not_mem_nil
  · exact @unused_of_settled _ _ firstQuestion _ rfl (by decide) (by decide)
  · obtain ⟨hfound, -⟩ := h.inTime secondQuestion (by decide) (by decide) (by decide)
    have hdropped : (Runs.run step empty askedAgain).deadlines.find? secondQuestion.key = none := by
      decide
    rw [hdropped] at hfound
    cases hfound

end ClientQuestions

end GopherMcp
