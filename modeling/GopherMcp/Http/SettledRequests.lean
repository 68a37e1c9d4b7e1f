import GopherMcp.Http.FollowedResponses

/-!
# Requests are settled once

Every context calls back once, whatever the order of its callbacks, and has done so when its connection is closed. That
it calls back with the response its caller is owed takes more: an interim response must not end before the final one,
the end of the input must not be what ends a body, and the head must be kept whole.
-/

namespace GopherMcp

namespace HttpExchange

/-! ### What happens to a request -/

/-- A call stays right where the answer stays and whoever was silent stays so. -/
theorem Right.of_same {s t : HttpExchange} {call : HttpCall} (h : s.Right call) (hanswer : t.answer = s.answer)
    (hsilent : s.Silent → t.Silent) : t.Right call := by
  cases call with
  | onResponse r =>
      unfold Right
      rw [hanswer]
      exact h
  | onError error => exact ⟨(congrArg ResponseReader.settled hanswer).trans h.1, hsilent h.2⟩

/-- A context that fails while nothing more is heard. -/
theorem Counted.fail {s t : HttpExchange} (h : Counted s) (message : Bytes)
    (hcontext : t.context = s.context.fail message) (hanswer : t.answer = s.answer) (hsilent : t.Silent)
    (isServer : t.codec.isServer = false) (streamBody : t.streamBody = [])
    (complains : ∀ error, .onError error ∈ t.posted → t.parserError ≠ none) : Sound t where
  isServer := isServer
  streamBody := streamBody
  unsettled hopen := by
    rw [hcontext, RequestContext.completed_fail] at hopen
    cases hopen
  settled _ := by
    cases hbefore : s.context.completed with
    | true =>
        obtain ⟨call, hcalls, hright⟩ := h.settled hbefore
        rw [RequestContext.fail_of_completed hbefore] at hcontext
        exact ⟨call, (congrArg _ hcontext).trans hcalls, hright.of_same hanswer fun _ => hsilent⟩
    | false =>
        obtain ⟨hcalls, hsettled⟩ := h.unsettled hbefore
        refine ⟨.onError message, ?_, (congrArg _ hanswer).trans hsettled, hsilent⟩
        rw [hcontext, RequestContext.calls_fail hbefore, hcalls]
        rfl
  closed _ := by
    rw [hcontext]
    exact RequestContext.completed_fail _ _
  complains := complains
  follows hopen := by
    rw [hcontext, RequestContext.completed_fail] at hopen
    cases hopen

theorem sound_closeSocket {s : HttpExchange} (h : Counted s) : Sound s.closeSocket := by
  unfold closeSocket
  split_ifs with hclosed
  · refine ⟨h, fun hopen => ?_⟩
    rw [h.closed hclosed] at hopen
    cases hopen
  · exact h.fail _ (RequestContext.onClose_eq s.context) rfl (.inl rfl) h.isServer h.streamBody h.complains

/-- A parser that has stopped, and its error posted. -/
theorem sound_handleParserError {s : HttpExchange} (h : Counted s) (takes : s.Takes) (reason : Bytes) :
    Sound ({ s with parserError := some reason }.handleParserError reason) where
  isServer := h.isServer
  streamBody := h.streamBody
  unsettled := h.unsettled
  settled hdone := by
    obtain ⟨call, hcalls, hright⟩ := h.settled hdone
    exact ⟨call, hcalls, hright.of_same rfl fun _ => .inr (Option.some_ne_none _)⟩
  closed hclosed := absurd (takes.1.symm.trans hclosed) (by decide)
  complains _ _ := Option.some_ne_none _
  follows _ hnone := absurd hnone (Option.some_ne_none _)

theorem sound_dispatch {s : HttpExchange} (h : Sound s) (hconnection : s.connection = .open) {events : List ParserEvent}
    {stopped : Bool} {reason : Bytes} (reports : s.Reports (.read events stopped reason))
    (meets : s.Meets (.read events stopped reason)) : Sound (s.dispatch events stopped reason) := by
  unfold dispatch
  cases hparser : s.parserError with
  | some error =>
      refine ⟨⟨h.isServer, h.streamBody, h.unsettled, h.settled, h.closed, fun _ _ => ?_⟩, fun _ hnone => ?_⟩
      · exact fun hnone => absurd (hparser.symm.trans hnone) (by simp)
      · exact absurd (hparser.symm.trans hnone) (by simp)
  | none =>
      have takes : s.Takes := ⟨hconnection, hparser⟩
      obtain ⟨hcounted, htakes, hsound⟩ := counted_reports h takes (reports takes) (meets takes)
      generalize s.reports events = outcome at hcounted htakes hsound ⊢
      obtain ⟨t, result⟩ := outcome
      cases result with
      | success =>
          dsimp only
          split_ifs
          · exact sound_handleParserError hcounted htakes reason
          · exact hsound rfl
      | error => exact sound_handleParserError hcounted htakes reason
      | thrown => exact sound_closeSocket hcounted

/-- No more is read, and the close is posted. -/
theorem sound_closeThroughFilterManager {s : HttpExchange} (h : Sound s) (hconnection : s.connection = .open) :
    Sound s.closeThroughFilterManager where
  isServer := h.isServer
  streamBody := h.streamBody
  unsettled := h.unsettled
  settled hdone := by
    obtain ⟨call, hcalls, hright⟩ := h.settled hdone
    refine ⟨call, hcalls, hright.of_same rfl fun hsilent => hsilent.imp (fun hclosed => ?_) id⟩
    exact absurd (hconnection.symm.trans hclosed) (by decide)
  closed hclosed := by cases hclosed
  complains error hin := by
    obtain hin | hin := List.mem_append.mp hin
    · exact h.complains error hin
    · simp at hin
  follows hopen hparser := by
    obtain ⟨between, head, body⟩ := h.follows hopen hparser
    exact ⟨between, head, body⟩

/-- The end of the input, which ends no response that is awaited. -/
theorem sound_ended {s : HttpExchange} (h : Sound s) (takes : s.Takes)
    (meets : s.context.completed = false → s.answer.awaitsEnd = false) :
    Sound { s with answer := s.answer.ended } := by
  cases hdone : s.context.completed with
  | false =>
      have hsame : s.answer.ended = s.answer := by
        unfold ResponseReader.ended ResponseReader.settle
        rw [meets hdone]
        rfl
      rw [hsame]
      exact h
  | true =>
      refine ⟨⟨h.isServer, h.streamBody, fun hopen => ?_, fun _ => ?_, h.closed, h.complains⟩, fun hopen => ?_⟩
      · exact absurd (hdone.symm.trans hopen) (by decide)
      · obtain ⟨call, hcalls, hright⟩ := h.settled hdone
        refine ⟨call, hcalls, ?_⟩
        cases call with
        | onResponse r =>
            obtain ⟨m, hsettled, hgives⟩ := hright
            exact ⟨m, ResponseReader.settled_settle_of_some hsettled _, hgives⟩
        | onError error =>
            obtain hclosed | hstopped := hright.2
            · exact absurd (takes.1.symm.trans hclosed) (by decide)
            · exact absurd takes.2 hstopped
      · exact absurd (hdone.symm.trans hopen) (by decide)

theorem sound_runPosted {s : HttpExchange} (h : Sound s) {call : PostedCall} {posted : List PostedCall}
    (hposted : s.posted = call :: posted) : Sound ({ s with posted := posted }.runPosted call) := by
  have hrest : ∀ error, .onError error ∈ posted → s.parserError ≠ none := fun error hin =>
    h.complains error (by rw [hposted]; exact List.mem_cons_of_mem _ hin)
  cases call with
  | closeSocket =>
      exact sound_closeSocket (s := { s with posted := posted })
        ⟨h.isServer, h.streamBody, h.unsettled, h.settled, h.closed, hrest⟩
  | onError error =>
      have hparser : s.parserError ≠ none :=
        h.complains error (by rw [hposted]; exact List.mem_cons_self)
      exact h.toCounted.fail _ rfl rfl (.inr hparser) h.isServer h.streamBody hrest

theorem sound_step {s : HttpExchange} (h : Sound s) {op : Op} (reports : s.Reports op) (meets : s.Meets op) :
    Sound (s.step op) := by
  cases op with
  | connected => exact h
  | read events stopped reason =>
      rw [step]
      split_ifs with hconnection
      · exact sound_dispatch h hconnection reports meets
      · exact h
  | endOfInput =>
      rw [step]
      split_ifs with hconnection hparser
      · have takes : s.Takes := ⟨hconnection, Option.isNone_iff_eq_none.mp hparser⟩
        exact sound_closeThroughFilterManager (sound_ended h takes (meets takes)) hconnection
      · exact sound_closeThroughFilterManager h hconnection
      · exact h
  | readFails =>
      rw [step]
      split_ifs with hconnection
      · exact sound_closeThroughFilterManager h hconnection
      · exact h
  | closes =>
      rw [step]
      split_ifs
      · exact h
      · exact sound_closeSocket h.toCounted
  | runsPosted =>
      rw [step]
      cases hposted : s.posted with
      | nil => exact h
      | cons call posted => exact sound_runPosted h hposted
  | deletes =>
      rw [step]
      split_ifs
      · refine sound_closeSocket ⟨h.isServer, h.streamBody, h.unsettled, h.settled, h.closed, fun _ hin => ?_⟩
        cases hin
      · exact h

theorem sound_new (onHeaders : Option (Int → OrdMap Bytes Bytes → Bool)) : Sound (new onHeaders .open) where
  isServer := rfl
  streamBody := rfl
  unsettled _ := ⟨rfl, rfl⟩
  settled hdone := by cases hdone
  closed hclosed := by cases hclosed
  complains _ hin := by cases hin
  follows _ _ := ⟨fun _ => rfl, fun hphase => (by cases hphase), fun hphase => (by cases hphase)⟩

/-- A request without a connection. -/
structure Unmade (s : HttpExchange) : Prop where
  connection : s.connection = .unopened
  posted : s.posted = []
  calls : s.context.calls = []
  owner : s.context.owner = .nobody

/-- Nothing happens to it. -/
theorem step_unmade {s : HttpExchange} (h : Unmade s) (op : Op) : s.step op = s := by
  cases op with
  | connected => rfl
  | closes => exact if_pos h.connection
  | runsPosted =>
      rw [step, h.posted]
  | deletes => exact if_neg (by rw [h.owner]; decide)
  | _ => exact if_neg (by rw [h.connection]; decide)

end HttpExchange

/-! ### The client -/

/-- The request calls back once, and has done so when its connection is closed; with the response that it was to be
settled with, or with an error if there was none. Of a request that was not accepted nothing is heard and nothing is
kept. -/
structure SentRequest.Settles (sent : SentRequest) : Prop where
  once : sent.request.context.calls.length ≤ 1
  closed : sent.outcome = .accepted → sent.request.connection = .closed → sent.request.context.calls ≠ []
  response : ∀ r, .onResponse r ∈ sent.request.context.calls →
    ∃ m, sent.request.answer.settled = some m ∧ Gives m r
  error : ∀ message, .onError message ∈ sent.request.context.calls → sent.request.answer.settled = none
  unaccepted : sent.outcome ≠ .accepted →
    sent.request.context.calls = [] ∧ sent.request.context.owner ≠ .activeRequests

/-- A request in flight is sound, and any other was never made. -/
def SentRequest.Sound (sent : SentRequest) : Prop :=
  sent.outcome = .accepted ∧ sent.request.Sound ∨ sent.outcome ≠ .accepted ∧ sent.request.Unmade

theorem SentRequest.Sound.settles {sent : SentRequest} (h : sent.Sound) : sent.Settles := by
  obtain ⟨haccepted, hsound⟩ | ⟨hother, hunmade⟩ := h
  · cases hdone : sent.request.context.completed with
    | false =>
        have hcalls := (hsound.unsettled hdone).1
        refine ⟨by rw [hcalls]; decide, fun _ hclosed => ?_, fun r hin => ?_, fun message hin => ?_,
          fun hother => absurd haccepted hother⟩
        · exact absurd ((hsound.closed hclosed).symm.trans hdone) (by decide)
        · rw [hcalls] at hin
          cases hin
        · rw [hcalls] at hin
          cases hin
    | true =>
        obtain ⟨call, hcalls, hright⟩ := hsound.settled hdone
        refine ⟨by rw [hcalls]; exact le_rfl, fun _ _ => by rw [hcalls]; exact List.cons_ne_nil _ _, fun r hin => ?_,
          fun message hin => ?_, fun hother => absurd haccepted hother⟩
        · rw [hcalls, List.mem_singleton] at hin
          rw [← hin] at hright
          exact hright
        · rw [hcalls, List.mem_singleton] at hin
          rw [← hin] at hright
          exact hright.1
  · refine ⟨by rw [hunmade.calls]; exact Nat.zero_le _, fun haccepted => absurd haccepted hother, fun r hin => ?_,
      fun message hin => ?_, fun _ => ⟨hunmade.calls, by rw [hunmade.owner]; decide⟩⟩
    · rw [hunmade.calls] at hin
      cases hin
    · rw [hunmade.calls] at hin
      cases hin

namespace HttpAsyncClient

variable (inetPton : Bytes → Bool)

/-- What the parser of each request reports is what it can report. -/
def Reports (client : List SentRequest) : Op → Prop
  | .send _ _ _ => True
  | .happens i op => (client[i]?.map fun sent => sent.request.Reports op).getD True

/-- Every request is to an address, and what happens to it meets what it has to. -/
def Meets (client : List SentRequest) : Op → Prop
  | .send url _ _ => ((parseUrl url).map fun url => inetPton url.host = true).getD True
  | .happens i op => (client[i]?.map fun sent => sent.request.Meets op).getD True

instance decidableOfSome {α : Type} {p : α → Prop} [∀ a, Decidable (p a)] :
    (o : Option α) → Decidable ((o.map p).getD True)
  | none => inferInstanceAs (Decidable True)
  | some a => inferInstanceAs (Decidable (p a))

instance decidableReports (client : List SentRequest) : (op : Op) → Decidable (Reports client op)
  | .send _ _ _ => inferInstanceAs (Decidable True)
  | .happens i op => inferInstanceAs (Decidable ((client[i]?.map fun sent => sent.request.Reports op).getD True))

instance decidableMeets (client : List SentRequest) : (op : Op) → Decidable (Meets inetPton client op)
  | .send url _ _ => inferInstanceAs (Decidable (((parseUrl url).map fun url => inetPton url.host = true).getD True))
  | .happens i op => inferInstanceAs (Decidable ((client[i]?.map fun sent => sent.request.Meets op).getD True))

/-- What `send` leaves. -/
theorem sound_sent {url : Bytes} (onHeaders : Option (Int → OrdMap Bytes Bytes → Bool)) (resources : Bool)
    (meets : ((parseUrl url).map fun url => inetPton url.host = true).getD True) :
    (sent inetPton url onHeaders resources).Sound := by
  unfold sent
  cases hurl : parseUrl url with
  | none => exact .inr ⟨by simp, rfl, rfl, rfl, rfl⟩
  | some parsed =>
      rw [hurl] at meets
      have haddress : inetPton parsed.host = true := meets
      dsimp only
      unfold start
      rw [haddress]
      cases resources with
      | true => exact .inl ⟨rfl, HttpExchange.sound_new onHeaders⟩
      | false => exact .inr ⟨by simp, rfl, rfl, rfl, rfl⟩

theorem sound_happens {sent : SentRequest} (h : sent.Sound) {op : HttpExchange.Op} (reports : sent.request.Reports op)
    (meets : sent.request.Meets op) : ({ sent with request := sent.request.step op } : SentRequest).Sound := by
  obtain ⟨haccepted, hsound⟩ | ⟨hother, hunmade⟩ := h
  · exact .inl ⟨haccepted, HttpExchange.sound_step hsound reports meets⟩
  · refine .inr ⟨hother, ?_⟩
    rw [HttpExchange.step_unmade hunmade]
    exact hunmade

theorem sound_step {client : List SentRequest} (h : ∀ sent ∈ client, sent.Sound) {op : Op}
    (reports : Reports client op) (meets : Meets inetPton client op) :
    ∀ sent ∈ step inetPton client op, sent.Sound := by
  cases op with
  | send url onHeaders resources =>
      intro sent hin
      obtain hin | hin := List.mem_append.mp hin
      · exact h sent hin
      · rw [List.mem_singleton.mp hin]
        exact sound_sent inetPton onHeaders resources meets
  | happens i op =>
      intro sent hin
      obtain ⟨j, hj⟩ := List.getElem?_of_mem hin
      rw [step, List.getElem?_modify] at hj
      obtain ⟨before, hbefore, rfl⟩ := Option.map_eq_some_iff.mp hj
      have hsound := h before (List.mem_of_getElem? hbefore)
      split_ifs with hij
      · subst hij
        rw [Reports, hbefore] at reports
        rw [Meets, hbefore] at meets
        exact sound_happens hsound reports meets
      · exact hsound

/-- **Requests are settled once, with the response they are owed.** In every state of every run in which no interim
response completes before a request is settled, no body it waits for ends with the input, every head it is given was
kept whole, and every host is an address. -/
theorem settles_each_once {ops : List Op} (reports : Runs.Guarded (step inetPton) Reports [] ops)
    (meets : Runs.Guarded (step inetPton) (Meets inetPton) [] ops) {before after : List Op}
    (hops : ops = before ++ after) : ∀ sent ∈ Runs.run (step inetPton) [] before, sent.Settles := by
  subst hops
  have hboth := Runs.guarded_and (step inetPton) (Runs.guarded_append (step inetPton) |>.mp reports).1
    (Runs.guarded_append (step inetPton) |>.mp meets).1
  have hkeeps (client : List SentRequest) (op : Op) (hop : Reports client op ∧ Meets inetPton client op)
      (hclient : ∀ sent ∈ client, sent.Sound) : ∀ sent ∈ step inetPton client op, sent.Sound :=
    sound_step inetPton hclient hop.1 hop.2
  have hsound := Runs.invariant (step inetPton) hkeeps (fun _ hin => (by cases hin)) hboth
  exact fun sent hin => (hsound sent hin).settles

/-- A response of one read, with a field and a body, and the connection closed behind it. -/
def oneResponse : List Op :=
  [.send (ascii "http://10.0.0.1/") none true, .happens 0 .connected,
    .happens 0 (.read [.messageBegin, .status (ascii "OK"), .headerField (ascii "A"), .headerValue (ascii "b"),
      .headersComplete 200 false, .body (ascii "c"), .messageComplete] false []),
    .happens 0 .deletes]

theorem settles_each_once_oneResponse :
    ((Runs.run (step fun host => host == ascii "10.0.0.1") [] oneResponse).map fun sent =>
        sent.request.context.calls.length) = [1] ∧
      ∀ sent ∈ Runs.run (step fun host => host == ascii "10.0.0.1") [] oneResponse, sent.Settles :=
  ⟨by decide, @settles_each_once _ oneResponse (by decide) (by decide) oneResponse [] rfl⟩

/-- A response that is to be waited for, and the one that comes of it, in one read. -/
def continued : List Op :=
  [.send (ascii "http://10.0.0.1/") none true, .happens 0 .connected,
    .happens 0 (.read [.messageBegin, .status (ascii "Continue"), .headersComplete 100 false, .messageComplete,
      .messageBegin, .status (ascii "OK"), .headersComplete 200 false, .body (ascii "c"), .messageComplete] false [])]

/-- The first of the two is given. -/
theorem not_settles_each_once_continued :
    Runs.Guarded (step fun host => host == ascii "10.0.0.1") Reports [] continued ∧
      ¬ ∀ sent ∈ Runs.run (step fun host => host == ascii "10.0.0.1") [] continued, sent.Settles := by
  refine ⟨by decide, fun h => ?_⟩
  obtain ⟨m, hsettled, hgives⟩ := (h _ List.mem_cons_self).response _ List.mem_cons_self
  have hcode := hgives.statusCode
  cases hsettled
  exact absurd hcode (by decide)

end HttpAsyncClient

end GopherMcp
