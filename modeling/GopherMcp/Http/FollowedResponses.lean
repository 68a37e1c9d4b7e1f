import GopherMcp.Http.KeptHeads
import GopherMcp.Lib.Runs

/-!
# Responses as the client follows them

While a request is not settled, what the codec and the context keep of the response that is being read is a function
of the callbacks so far. So the callback that completes it, or the head at which its caller has seen enough, settles the
request with the response that was sent, if that is not an interim one and its head was kept whole.
-/

namespace GopherMcp

open WireWriter (lowercase)
open ParserCallbacks (spans)

/-! ### The context -/

namespace RequestContext

@[simp] theorem calls_finishRequest (s : RequestContext) : s.finishRequest.calls = s.calls := by
  unfold finishRequest
  split <;> rfl

@[simp] theorem completed_finishRequest (s : RequestContext) : s.finishRequest.completed = s.completed := by
  unfold finishRequest
  split <;> rfl

theorem complete_of_completed {s : RequestContext} (h : s.completed = true) : s.complete = s := if_pos h

theorem fail_of_completed {s : RequestContext} (h : s.completed = true) (message : Bytes) : s.fail message = s :=
  if_pos h

theorem completed_complete (s : RequestContext) : s.complete.completed = true := by
  unfold complete
  split_ifs with h
  · exact h
  · exact completed_finishRequest _

theorem calls_complete {s : RequestContext} (h : s.completed = false) :
    s.complete.calls = s.calls ++ [.onResponse s.response] := by
  unfold complete
  rw [if_neg (by simp [h])]
  exact calls_finishRequest _

theorem completed_fail (s : RequestContext) (message : Bytes) : (s.fail message).completed = true := by
  unfold fail
  split_ifs with h
  · exact h
  · exact completed_finishRequest _

theorem calls_fail {s : RequestContext} (h : s.completed = false) (message : Bytes) :
    (s.fail message).calls = s.calls ++ [.onError message] := by
  unfold fail
  rw [if_neg (by simp [h])]
  exact calls_finishRequest _

theorem onClose_eq (s : RequestContext) :
    s.onClose = s.fail (ascii "connection closed before response completed") := by
  unfold onClose fail
  cases s.completed with
  | true => rfl
  | false => rfl

/-- A context that has called back does so no more. -/
structure Same (s t : RequestContext) : Prop where
  completed : t.completed = s.completed
  calls : t.calls = s.calls

theorem same_onHeaders {s : RequestContext} (h : s.completed = true) (headers : OrdMap Bytes Bytes) :
    Same s (s.onHeaders headers) := by
  unfold onHeaders
  dsimp only
  rw [if_neg (by simp [h])]
  exact ⟨rfl, rfl⟩

/-- A context that has not called back asks its caller. -/
theorem onHeaders_of_open {s : RequestContext} (h : s.completed = false) (headers : OrdMap Bytes Bytes) :
    s.onHeaders headers =
      let shown := { s with response := withStatusText (headers.entries.foldl copyHeader s.response) }
      if shown.wantsNoMore then shown.complete else shown := by
  unfold onHeaders
  dsimp only
  rw [h]
  rfl

theorem same_onBody (s : RequestContext) (data : Bytes) (endStream : Bool) : Same s (s.onBody data endStream) := by
  unfold onBody
  split_ifs <;> exact ⟨rfl, rfl⟩

end RequestContext

/-! ### What is heard -/

namespace ResponseReader

variable {stops : ResponseMessage → Bool} {r : ResponseReader}

theorem settled_settle_of_some {m : ResponseMessage} (h : r.settled = some m) (enough : Bool) :
    (r.settle enough).settled = some m := by
  unfold settle
  rw [h]
  simpa using h

theorem settled_settle_of_none (h : r.settled = none) (enough : Bool) :
    (r.settle enough).settled = if enough then some r.message else none := by
  unfold settle
  rw [h]
  cases enough with
  | true => rfl
  | false => exact h

theorem hear_headerField (h : r.phase = .head) (data : Bytes) :
    r.hear stops (.headerField data) = { r with head := r.head.addName data } := if_pos h

theorem hear_headerField_of_ne (h : r.phase ≠ .head) (data : Bytes) : r.hear stops (.headerField data) = r := if_neg h

theorem hear_headerValue (h : r.phase = .head) (data : Bytes) :
    r.hear stops (.headerValue data) = { r with head := r.head.addValue data } := if_pos h

theorem hear_headerValue_of_ne (h : r.phase ≠ .head) (data : Bytes) : r.hear stops (.headerValue data) = r := if_neg h

/-- What a request is to be settled with does not change. -/
theorem settled_hear_of_some {m : ResponseMessage} (h : r.settled = some m) (event : ParserEvent) :
    (r.hear stops event).settled = some m := by
  cases event with
  | messageBegin => exact h
  | status data => exact h
  | headerField data =>
      show (if r.phase = .head then _ else r).settled = _
      split <;> exact h
  | headerValue data =>
      show (if r.phase = .head then _ else r).settled = _
      split <;> exact h
  | headersComplete statusCode needsEof =>
      exact @settled_settle_of_some
        { r with phase := .body, statusCode := statusCode, needsEof := needsEof } m h _
  | body data => exact h
  | messageComplete => exact settled_settle_of_some h _

@[simp] theorem phase_settle (enough : Bool) : (r.settle enough).phase = r.phase := by
  unfold settle
  split <;> rfl

@[simp] theorem head_settle (enough : Bool) : (r.settle enough).head = r.head := by
  unfold settle
  split <;> rfl

@[simp] theorem statusCode_settle (enough : Bool) : (r.settle enough).statusCode = r.statusCode := by
  unfold settle
  split <;> rfl

@[simp] theorem body_settle (enough : Bool) : (r.settle enough).body = r.body := by
  unfold settle
  split <;> rfl

end ResponseReader

/-! ### A request in flight -/

namespace HttpExchange

/-- What a callback has to meet so that the request is settled as it should be, as long as it is not settled: a caller
that is shown a head is shown a whole one, whose length an `int` holds, and the response that is complete is not an
interim one and has its head whole. -/
def EventMeets (s : HttpExchange) : ParserEvent → Prop
  | .headersComplete _ _ =>
      s.context.completed = false → s.context.onHeadersCallback.isSome = true →
        s.answer.head.KeptWhole ∧
          ∀ field ∈ s.answer.head.fields, lowercase field.1 = ascii "content-length" → (stoi field.2).isSome = true
  | .messageComplete =>
      s.context.completed = false → s.answer.message.isInterim = false ∧ s.answer.head.KeptWhole
  | _ => True

instance decidableEventMeets (s : HttpExchange) : (event : ParserEvent) → Decidable (s.EventMeets event)
  | .headersComplete _ _ => inferInstanceAs (Decidable (_ → _ → _ ∧ _))
  | .messageComplete => inferInstanceAs (Decidable (_ → _ ∧ _))
  | .messageBegin | .status _ | .headerField _ | .headerValue _ | .body _ => inferInstanceAs (Decidable True)

/-- The parser takes what is read as long as it has not stopped. -/
def Takes (s : HttpExchange) : Prop := s.connection = .open ∧ s.parserError = none

instance decidableTakes (s : HttpExchange) : Decidable s.Takes := inferInstanceAs (Decidable (_ ∧ _))

/-- What the parser reports of a read is what it can report. -/
def Reports (s : HttpExchange) : Op → Prop
  | .read events _ _ =>
      s.Takes → Runs.Guarded (fun s event => (s.report event).1) (fun s event => s.answer.Reports event) s events
  | _ => True

/-- Every callback meets what it has to, and the end of the input is not the end of the response that is awaited. -/
def Meets (s : HttpExchange) : Op → Prop
  | .read events _ _ => s.Takes → Runs.Guarded (fun s event => (s.report event).1) EventMeets s events
  | .endOfInput => s.Takes → s.context.completed = false → s.answer.awaitsEnd = false
  | _ => True

instance decidableReports (s : HttpExchange) : (op : Op) → Decidable (s.Reports op)
  | .read _ _ _ => inferInstanceAs (Decidable (_ → Runs.Guarded _ _ _ _))
  | .connected | .endOfInput | .readFails | .closes | .runsPosted | .deletes => inferInstanceAs (Decidable True)

instance decidableMeets (s : HttpExchange) : (op : Op) → Decidable (s.Meets op)
  | .read _ _ _ => inferInstanceAs (Decidable (_ → Runs.Guarded _ _ _ _))
  | .endOfInput => inferInstanceAs (Decidable (_ → _ → _))
  | .connected | .readFails | .closes | .runsPosted | .deletes => inferInstanceAs (Decidable True)

/-- The response before any of it is read. -/
def blank : HttpResponse := ⟨0, [], .empty, []⟩

/-- What is kept of the response that is being read. -/
structure Follows (s : HttpExchange) : Prop where
  between : s.answer.phase = .between → s.context.response = blank
  head : s.answer.phase = .head → s.context.response = blank ∧ s.answer.head.Plain ∧ s.answer.body = [] ∧
    ∃ base : ParserCallbacks, base.isServer = false ∧
      s.codec = Runs.run ParserCallbacks.step base.onMessageBegin (spans false s.answer.head.division)
  body : s.answer.phase = .body → s.answer.head.Plain ∧
    ∃ base : ParserCallbacks, base.isServer = false ∧
      s.context.response =
        { heardHead base s.answer.head s.answer.statusCode with body := s.answer.body }

/-- Nothing more is heard. -/
def Silent (s : HttpExchange) : Prop := s.connection = .closed ∨ s.parserError ≠ none

/-- A call that was right. After one of `on_error` nothing more is heard. -/
def Right (s : HttpExchange) : HttpCall → Prop
  | .onResponse r => ∃ m, s.answer.settled = some m ∧ Gives m r
  | .onError _ => s.answer.settled = none ∧ s.Silent

/-- Calls are counted, and right. -/
structure Counted (s : HttpExchange) : Prop where
  isServer : s.codec.isServer = false
  streamBody : s.streamBody = []
  unsettled : s.context.completed = false → s.context.calls = [] ∧ s.answer.settled = none
  settled : s.context.completed = true → ∃ call, s.context.calls = [call] ∧ s.Right call
  closed : s.connection = .closed → s.context.completed = true
  complains : ∀ error, .onError error ∈ s.posted → s.parserError ≠ none

/-- And what is read is followed, as long as anybody waits for it. -/
structure Sound (s : HttpExchange) : Prop extends Counted s where
  follows : s.context.completed = false → s.parserError = none → s.Follows

/-! ### One callback -/

theorem answer_report (s : HttpExchange) (event : ParserEvent) :
    (s.report event).1.answer = s.answer.hear s.stops event := by
  cases event with
  | headersComplete statusCode needsEof =>
      unfold report onParserEvent
      dsimp only
      split <;> rfl
  | body data =>
      unfold report onParserEvent
      dsimp only
      split_ifs <;> rfl
  | _ => rfl

/-- A callback leaves the connection to itself. -/
theorem report_apart (s : HttpExchange) (event : ParserEvent) :
    (s.report event).1.connection = s.connection ∧ (s.report event).1.parserError = s.parserError ∧
      (s.report event).1.posted = s.posted := by
  cases event with
  | headersComplete statusCode needsEof =>
      unfold report onParserEvent
      dsimp only
      split <;> exact ⟨rfl, rfl, rfl⟩
  | body data =>
      unfold report onParserEvent
      dsimp only
      split_ifs <;> exact ⟨rfl, rfl, rfl⟩
  | _ => exact ⟨rfl, rfl, rfl⟩

theorem isServer_report {s : HttpExchange} (h : s.codec.isServer = false) (event : ParserEvent) :
    (s.report event).1.codec.isServer = false := by
  cases event with
  | messageBegin => exact h
  | status data => exact (ParserCallbacks.isServer_step s.codec (.status data)).trans h
  | headerField data => exact h
  | headerValue data => exact h
  | headersComplete statusCode needsEof =>
      have hcodec : (s.codec.onHeadersComplete .unknown statusCode).isServer = false := by
        unfold ParserCallbacks.onHeadersComplete
        split <;> exact h
      unfold report onParserEvent
      dsimp only
      split <;> exact hcodec
  | body data =>
      unfold report onParserEvent
      dsimp only
      split_ifs <;> exact h
  | messageComplete => exact h

theorem streamBody_report {s : HttpExchange} (h : s.streamBody = []) (event : ParserEvent) :
    (s.report event).1.streamBody = [] := by
  cases event with
  | messageBegin => rfl
  | headersComplete statusCode needsEof =>
      unfold report onParserEvent
      dsimp only
      split <;> exact h
  | body data =>
      unfold report onParserEvent
      dsimp only
      split_ifs <;> exact h
  | _ => exact h

theorem context_messageComplete {s : HttpExchange} (h : s.streamBody = []) :
    (s.report .messageComplete).1.context = s.context.complete := by
  unfold report onParserEvent
  dsimp only
  rw [if_pos h]
  rfl

/-- Once settled, the context only takes note. -/
theorem same_report {s : HttpExchange} (h : s.context.completed = true) (hbody : s.streamBody = [])
    (event : ParserEvent) : RequestContext.Same s.context (s.report event).1.context := by
  cases event with
  | headersComplete statusCode needsEof =>
      unfold report onParserEvent
      dsimp only
      split
      · exact ⟨rfl, rfl⟩
      · exact RequestContext.same_onHeaders h _
  | body data =>
      unfold report onParserEvent
      dsimp only
      split_ifs
      · exact ⟨rfl, rfl⟩
      · exact ⟨rfl, rfl⟩
      · exact RequestContext.same_onBody s.context data false
  | messageComplete =>
      rw [context_messageComplete hbody, RequestContext.complete_of_completed h]
      exact ⟨rfl, rfl⟩
  | _ => exact ⟨rfl, rfl⟩

/-- A right call stays right while the parser reports. -/
theorem Right.report {s : HttpExchange} {call : HttpCall} (h : s.Right call) (takes : s.Takes) (event : ParserEvent) :
    (s.report event).1.Right call := by
  cases call with
  | onResponse r =>
      obtain ⟨m, hsettled, hgives⟩ := h
      refine ⟨m, ?_, hgives⟩
      rw [answer_report]
      exact ResponseReader.settled_hear_of_some hsettled event
  | onError error =>
      obtain hclosed | hstopped := h.2
      · exact absurd (takes.1.symm.trans hclosed) (by decide)
      · exact absurd takes.2 hstopped

/-- How a callback leaves a request that was not settled: as it was, or with the response it is owed. -/
def Answers (s t : HttpExchange) : Prop :=
  t.context.completed = false ∧ t.context.calls = s.context.calls ∧ t.answer.settled = none ∨
    ∃ r m, t.context.completed = true ∧ t.context.calls = s.context.calls ++ [.onResponse r] ∧
      t.answer.settled = some m ∧ Gives m r

theorem counted_report {s : HttpExchange} (h : Counted s) (takes : s.Takes) {event : ParserEvent}
    (answers : s.context.completed = false → s.Answers (s.report event).1) : Counted (s.report event).1 := by
  obtain ⟨hconnection, hparser, hposted⟩ := report_apart s event
  refine ⟨isServer_report h.isServer event, streamBody_report h.streamBody event, fun hopen => ?_, fun hdone => ?_,
    fun hclosed => ?_, fun error hin => ?_⟩
  · cases hbefore : s.context.completed with
    | true =>
        have hafter := (same_report hbefore h.streamBody event).completed.trans hbefore
        exact absurd (hopen.symm.trans hafter) (by simp)
    | false =>
        obtain ⟨-, hcalls, hsettled⟩ | ⟨r, m, hdone, -⟩ := answers hbefore
        · exact ⟨hcalls.trans (h.unsettled hbefore).1, hsettled⟩
        · exact absurd (hdone.symm.trans hopen) (by simp)
  · cases hbefore : s.context.completed with
    | true =>
        obtain ⟨call, hcalls, hright⟩ := h.settled hbefore
        exact ⟨call, (same_report hbefore h.streamBody event).calls.trans hcalls, hright.report takes event⟩
    | false =>
        obtain ⟨hopen, -⟩ | ⟨r, m, -, hcalls, hsettled, hgives⟩ := answers hbefore
        · exact absurd (hdone.symm.trans hopen) (by simp)
        · rw [(h.unsettled hbefore).1] at hcalls
          exact ⟨.onResponse r, hcalls, m, hsettled, hgives⟩
  · exact absurd (takes.1.symm.trans (hconnection.symm.trans hclosed)) (by simp)
  · rw [hposted] at hin
    rw [hparser]
    exact h.complains error hin

/-- A head that is kept whole is shown to the caller as it was sent. -/
theorem response_onHeadersComplete {s : HttpExchange} (follows : s.Follows) (hphase : s.answer.phase = .head)
    (statusCode : UInt16) :
    ∃ base : ParserCallbacks, base.isServer = false ∧
      RequestContext.withStatusText ((s.codec.onHeadersComplete .unknown statusCode).headers.entries.foldl
        RequestContext.copyHeader s.context.response) = heardHead base s.answer.head statusCode := by
  obtain ⟨hblank, -, -, base, hbase, hcodec⟩ := follows.head hphase
  refine ⟨base, hbase, ?_⟩
  rw [hblank, hcodec]
  unfold heardHead ParserCallbacks.readHead
  rw [hbase]
  rfl

/-- What the caller is shown of a head that is kept whole gives it, and no length in it is an exception. -/
theorem shown_of_keptWhole {s : HttpExchange} (follows : s.Follows) (hphase : s.answer.phase = .head)
    (whole : s.answer.head.KeptWhole) (statusCode : UInt16) :
    RequestContext.withStatusText ((s.codec.onHeadersComplete .unknown statusCode).headers.entries.foldl
        RequestContext.copyHeader s.context.response) =
      ⟨statusCode.toNat,
        if s.answer.head.start.flatten = [] then statusTextForCode statusCode.toNat
        else s.answer.head.start.flatten, headerMap s.answer.head.fields, []⟩ ∧
      ((∀ field ∈ s.answer.head.fields, lowercase field.1 = ascii "content-length" →
        (stoi field.2).isSome = true) →
        lengthThrows (s.codec.onHeadersComplete .unknown statusCode).headers = false) := by
  obtain ⟨hblank, plain, -, base, hbase, hcodec⟩ := follows.head hphase
  have hheaders : (s.codec.onHeadersComplete .unknown statusCode).headers =
      ParserCallbacks.readHead base ⟨.unknown, statusCode, [], [], by simp⟩ s.answer.head.division := by
    rw [hcodec, ParserCallbacks.readHead, hbase]
  constructor
  · rw [hblank, hheaders]
    exact heardHead_of_keptWhole hbase plain whole statusCode
  · intro hlengths
    rw [hheaders, lengthThrows, find?_readHead hbase whole, if_neg (by decide), if_neg (by decide)]
    cases hfind : (headerMap s.answer.head.fields).find? (ascii "content-length") with
    | none => rfl
    | some value =>
        obtain ⟨field, hfield, hname, rfl⟩ := (find?_headerMap whole.2.2 _ _).mp hfind
        rw [Option.any_some, Option.isNone_eq_false_iff]
        exact hlengths field hfield hname

/-- What is heard when a head is complete. -/
theorem settled_headersComplete {s : HttpExchange} (hsettled : s.answer.settled = none) (statusCode : UInt16)
    (needsEof : Bool) :
    (s.report (.headersComplete statusCode needsEof)).1.answer.settled =
      if s.stops ⟨statusCode, s.answer.head.start.flatten, s.answer.head.fields, s.answer.body⟩ then
        some ⟨statusCode, s.answer.head.start.flatten, s.answer.head.fields, s.answer.body⟩
      else none := by
  rw [answer_report]
  exact @ResponseReader.settled_settle_of_none
    { s.answer with phase := .body, statusCode := statusCode, needsEof := needsEof } hsettled _

/-- What the context makes of a head, unless its length is an exception. -/
theorem context_headersComplete (s : HttpExchange) (statusCode : UInt16) (needsEof : Bool) :
    (s.report (.headersComplete statusCode needsEof)).1.context =
      if lengthThrows (s.codec.onHeadersComplete .unknown statusCode).headers then s.context
      else s.context.onHeaders (s.codec.onHeadersComplete .unknown statusCode).headers := by
  unfold report onParserEvent
  dsimp only
  split <;> rfl

theorem answers_headersComplete {s : HttpExchange} (h : Sound s) (takes : s.Takes) (hopen : s.context.completed = false)
    (hphase : s.answer.phase = .head) {statusCode : UInt16} {needsEof : Bool}
    (meets : s.EventMeets (.headersComplete statusCode needsEof)) :
    s.Answers (s.report (.headersComplete statusCode needsEof)).1 := by
  have hheard := settled_headersComplete (h.unsettled hopen).2 statusCode needsEof
  have hcontext := context_headersComplete s statusCode needsEof
  rw [RequestContext.onHeaders_of_open hopen] at hcontext
  dsimp only at hcontext
  cases hcallback : s.context.onHeadersCallback with
  | none =>
      -- nobody is asked, neither by the client nor by whoever reads along
      have hasks (r : HttpResponse) : ({ s.context with response := r } : RequestContext).wantsNoMore = false := by
        unfold RequestContext.wantsNoMore
        rw [hcallback]
        rfl
      have hstops (m : ResponseMessage) : s.stops m = false := by
        unfold stops
        rw [hcallback]
        rfl
      rw [hasks, if_neg Bool.false_ne_true] at hcontext
      rw [hstops, if_neg Bool.false_ne_true] at hheard
      left
      rw [hcontext]
      split_ifs <;> exact ⟨hopen, rfl, hheard⟩
  | some onHeaders =>
      obtain ⟨hwhole, hlengths⟩ := meets hopen (by rw [hcallback]; rfl)
      obtain ⟨hshown, hthrows⟩ := shown_of_keptWhole (h.follows hopen takes.2) hphase hwhole statusCode
      obtain ⟨-, -, hbody, -⟩ := (h.follows hopen takes.2).head hphase
      rw [hthrows hlengths, if_neg Bool.false_ne_true] at hcontext
      generalize RequestContext.withStatusText _ = shown at hcontext hshown
      have hsame : ({ s.context with response := shown } : RequestContext).wantsNoMore =
          s.stops ⟨statusCode, s.answer.head.start.flatten, s.answer.head.fields, s.answer.body⟩ := by
        unfold RequestContext.wantsNoMore stops
        rw [hcallback, hshown]
      rw [hsame] at hcontext
      cases hstops : s.stops ⟨statusCode, s.answer.head.start.flatten, s.answer.head.fields, s.answer.body⟩ with
      | true =>
          rw [hstops, if_pos rfl] at hcontext hheard
          right
          refine ⟨shown, _, ?_, ?_, hheard, ?_⟩
          · rw [hcontext]
            exact RequestContext.completed_complete _
          · rw [hcontext]
            exact @RequestContext.calls_complete { s.context with response := shown } hopen
          · rw [hshown]
            exact ⟨rfl, rfl, find?_headerMap hwhole.2.2, hbody.symm⟩
      | false =>
          rw [hstops, if_neg Bool.false_ne_true] at hcontext hheard
          left
          rw [hcontext]
          exact ⟨hopen, rfl, hheard⟩

theorem answers_messageComplete {s : HttpExchange} (h : Sound s) (takes : s.Takes) (hopen : s.context.completed = false)
    (hphase : s.answer.phase = .body) (meets : s.EventMeets .messageComplete) :
    s.Answers (s.report .messageComplete).1 := by
  obtain ⟨hfinal, hwhole⟩ := meets hopen
  obtain ⟨plain, base, hbase, hresponse⟩ := (h.follows hopen takes.2).body hphase
  rw [heardHead_of_keptWhole hbase plain hwhole] at hresponse
  right
  refine ⟨s.context.response, s.answer.message, ?_, ?_, ?_, ?_⟩
  · rw [context_messageComplete h.streamBody]
    exact RequestContext.completed_complete _
  · rw [context_messageComplete h.streamBody]
    exact RequestContext.calls_complete hopen
  · rw [answer_report]
    refine (ResponseReader.settled_settle_of_none (h.unsettled hopen).2 _).trans ?_
    rw [hfinal]
    rfl
  · rw [hresponse]
    exact ⟨rfl, rfl, find?_headerMap hwhole.2.2, rfl⟩

/-- **One callback.** -/
theorem answers_report {s : HttpExchange} (h : Sound s) (takes : s.Takes) (hopen : s.context.completed = false)
    {event : ParserEvent} (reports : s.answer.Reports event) (meets : s.EventMeets event) :
    s.Answers (s.report event).1 := by
  have hnone := (h.unsettled hopen).2
  cases event with
  | messageBegin => exact .inl ⟨hopen, rfl, hnone⟩
  | status data => exact .inl ⟨hopen, rfl, hnone⟩
  | headerField data =>
      refine .inl ⟨hopen, rfl, ?_⟩
      show (if s.answer.phase = .head then _ else s.answer).settled = none
      split <;> exact hnone
  | headerValue data =>
      refine .inl ⟨hopen, rfl, ?_⟩
      show (if s.answer.phase = .head then _ else s.answer).settled = none
      split <;> exact hnone
  | headersComplete statusCode needsEof => exact answers_headersComplete h takes hopen reports meets
  | body data =>
      have hanswer := answer_report s (.body data)
      refine .inl ⟨?_, ?_, by rw [hanswer]; exact hnone⟩
      all_goals
        unfold report onParserEvent
        dsimp only
        split_ifs
      · exact hopen
      · exact hopen
      · exact hopen
      · rfl
      · rfl
      · rfl
  | messageComplete => exact answers_messageComplete h takes hopen reports.1 meets

theorem Follows.of_head {s : HttpExchange} (hphase : s.answer.phase = .head) (hblank : s.context.response = blank)
    (plain : s.answer.head.Plain) (hbody : s.answer.body = []) {base : ParserCallbacks}
    (hbase : base.isServer = false)
    (hcodec : s.codec = Runs.run ParserCallbacks.step base.onMessageBegin (spans false s.answer.head.division)) :
    s.Follows :=
  ⟨fun hother => absurd (hphase.symm.trans hother) (by decide), fun _ => ⟨hblank, plain, hbody, base, hbase, hcodec⟩,
    fun hother => absurd (hphase.symm.trans hother) (by decide)⟩

theorem Follows.of_body {s : HttpExchange} (hphase : s.answer.phase = .body) (plain : s.answer.head.Plain)
    {base : ParserCallbacks} (hbase : base.isServer = false)
    (hresponse : s.context.response =
      { heardHead base s.answer.head s.answer.statusCode with body := s.answer.body }) : s.Follows :=
  ⟨fun hother => absurd (hphase.symm.trans hother) (by decide),
    fun hother => absurd (hphase.symm.trans hother) (by decide), fun _ => ⟨plain, base, hbase, hresponse⟩⟩

/-- A span of the head. -/
theorem Follows.span {s t : HttpExchange} (follows : s.Follows) (hphase : s.answer.phase = .head) {head : HeadSoFar}
    {span : HeadSpan} (hanswer : t.answer = { s.answer with head := head }) (hcontext : t.context = s.context)
    (hcodec : t.codec = s.codec.step span) (plain : s.answer.head.Plain → head.Plain)
    (hspans : spans false head.division = spans false s.answer.head.division ++ [span]) : t.Follows := by
  obtain ⟨hblank, hplain, hbody, base, hbase, hrun⟩ := follows.head hphase
  refine .of_head (by rw [hanswer]; exact hphase) (by rw [hcontext]; exact hblank) ?_ (by rw [hanswer]; exact hbody)
    hbase ?_
  · rw [hanswer]
    exact plain hplain
  · rw [hcodec, hrun, hanswer, hspans, Runs.run_append]
    rfl

/-- A field behind the body, which the context does not hear of. -/
theorem Follows.behind {s t : HttpExchange} (follows : s.Follows) (hphase : s.answer.phase = .body)
    (hanswer : t.answer = s.answer) (hcontext : t.context = s.context) : t.Follows := by
  obtain ⟨plain, base, hbase, hresponse⟩ := follows.body hphase
  refine .of_body (by rw [hanswer]; exact hphase) (by rw [hanswer]; exact plain) hbase ?_
  rw [hanswer, hcontext]
  exact hresponse

theorem follows_headerField {s : HttpExchange} (follows : s.Follows) {data : Bytes}
    (reports : s.answer.Reports (.headerField data)) : (s.report (.headerField data)).1.Follows := by
  obtain ⟨hbetween, hcolon⟩ := reports
  have hanswer := answer_report s (.headerField data)
  cases hphase : s.answer.phase with
  | between => exact absurd hphase hbetween
  | head =>
      rw [ResponseReader.hear_headerField hphase] at hanswer
      exact follows.span hphase hanswer rfl rfl (fun plain => plain.addName hcolon) (HeadSoFar.spans_addName _ data)
  | body =>
      rw [ResponseReader.hear_headerField_of_ne (by rw [hphase]; decide)] at hanswer
      exact follows.behind hphase hanswer rfl

theorem follows_headerValue {s : HttpExchange} (follows : s.Follows) {data : Bytes}
    (reports : s.answer.Reports (.headerValue data)) : (s.report (.headerValue data)).1.Follows := by
  have hanswer := answer_report s (.headerValue data)
  obtain hphase | ⟨hphase, hpending⟩ := reports
  · rw [ResponseReader.hear_headerValue_of_ne (by rw [hphase]; decide)] at hanswer
    exact follows.behind hphase hanswer rfl
  · rw [ResponseReader.hear_headerValue hphase] at hanswer
    exact follows.span hphase hanswer rfl rfl (fun plain => plain.addValue data)
      (HeadSoFar.spans_addValue hpending data)

theorem follows_headersComplete {s : HttpExchange} (follows : s.Follows) (hopen : s.context.completed = false)
    (hphase : s.answer.phase = .head) {statusCode : UInt16} {needsEof : Bool}
    (hsuccess : (s.report (.headersComplete statusCode needsEof)).2 = .success)
    (hstill : (s.report (.headersComplete statusCode needsEof)).1.context.completed = false) :
    (s.report (.headersComplete statusCode needsEof)).1.Follows := by
  obtain ⟨hblank, plain, hbody, -⟩ := follows.head hphase
  obtain ⟨base, hbase, hshown⟩ := response_onHeadersComplete follows hphase statusCode
  have hanswer := answer_report s (.headersComplete statusCode needsEof)
  have hcontext := context_headersComplete s statusCode needsEof
  unfold ResponseReader.hear at hanswer
  dsimp only at hanswer
  have hthrows : lengthThrows (s.codec.onHeadersComplete .unknown statusCode).headers = false := by
    refine eq_false_of_ne_true fun hthrows => ?_
    unfold report onParserEvent at hsuccess
    dsimp only at hsuccess
    rw [if_pos hthrows] at hsuccess
    cases hsuccess
  rw [hthrows, if_neg Bool.false_ne_true, RequestContext.onHeaders_of_open hopen, hshown] at hcontext
  dsimp only at hcontext
  split_ifs at hcontext
  · rw [hcontext, RequestContext.completed_complete] at hstill
    cases hstill
  · refine .of_body (by rw [hanswer, ResponseReader.phase_settle]) ?_ hbase ?_
    · rw [hanswer, ResponseReader.head_settle]
      exact plain
    · rw [hcontext, hanswer, ResponseReader.head_settle, ResponseReader.statusCode_settle, ResponseReader.body_settle]
      dsimp only
      rw [hbody, ← body_heardHead base s.answer.head statusCode]

theorem follows_body {s : HttpExchange} (follows : s.Follows) {data : Bytes} (hphase : s.answer.phase = .body)
    (hsuccess : (s.report (.body data)).2 = .success) : (s.report (.body data)).1.Follows := by
  obtain ⟨plain, base, hbase, hresponse⟩ := follows.body hphase
  have hanswer := answer_report s (.body data)
  refine .of_body (by rw [hanswer]; exact hphase) (by rw [hanswer]; exact plain) hbase ?_
  rw [hanswer]
  show _ = { heardHead base s.answer.head s.answer.statusCode with body := s.answer.body ++ data }
  unfold report onParserEvent at hsuccess ⊢
  dsimp only at hsuccess ⊢
  split_ifs at hsuccess ⊢ with hempty
  · rw [hempty, List.append_nil]
    exact hresponse
  · show { s.context.response with body := s.context.response.body ++ data } = _
    rw [hresponse]

/-- What a callback leaves to be followed, if the request is still not settled. -/
theorem follows_report {s : HttpExchange} (follows : s.Follows) (hopen : s.context.completed = false)
    (isServer : s.codec.isServer = false) (streamBody : s.streamBody = []) {event : ParserEvent}
    (reports : s.answer.Reports event) (hsuccess : (s.report event).2 = .success)
    (hstill : (s.report event).1.context.completed = false) : (s.report event).1.Follows := by
  cases event with
  | messageBegin =>
      exact .of_head rfl (follows.between reports) HeadSoFar.plain_empty rfl isServer rfl
  | status data =>
      obtain ⟨hphase, hfields⟩ := reports
      exact follows.span hphase rfl rfl rfl (fun plain => plain.addReason data) (HeadSoFar.spans_addReason hfields data)
  | headerField data => exact follows_headerField follows reports
  | headerValue data => exact follows_headerValue follows reports
  | headersComplete statusCode needsEof => exact follows_headersComplete follows hopen reports hsuccess hstill
  | body data => exact follows_body follows reports hsuccess
  | messageComplete =>
      rw [context_messageComplete streamBody, RequestContext.completed_complete] at hstill
      cases hstill

/-! ### The callbacks of a read -/

theorem reports_cons (s : HttpExchange) (event : ParserEvent) (events : List ParserEvent) :
    s.reports (event :: events) =
      if (s.report event).2 = .success then (s.report event).1.reports events else s.report event := by
  rw [reports]
  obtain ⟨t, result⟩ := s.report event
  cases result with
  | success => rfl
  | error => rfl
  | thrown => rfl

/-- **The callbacks of a read.** They leave the request sound, unless one of them stops the parser. -/
theorem counted_reports {s : HttpExchange} (h : Sound s) (takes : s.Takes) {events : List ParserEvent}
    (reports : Runs.Guarded (fun s event => (s.report event).1) (fun s event => s.answer.Reports event) s events)
    (meets : Runs.Guarded (fun s event => (s.report event).1) EventMeets s events) :
    Counted (s.reports events).1 ∧ (s.reports events).1.Takes ∧
      ((s.reports events).2 = .success → Sound (s.reports events).1) := by
  induction events generalizing s with
  | nil => exact ⟨h.toCounted, takes, fun _ => h⟩
  | cons event events ih =>
      have hcounted := counted_report h.toCounted takes fun hopen => answers_report h takes hopen reports.1 meets.1
      obtain ⟨hconnection, hparser, -⟩ := report_apart s event
      have htakes : (s.report event).1.Takes := ⟨hconnection.trans takes.1, hparser.trans takes.2⟩
      rw [reports_cons]
      split_ifs with hsuccess
      · refine ih ⟨hcounted, fun hstill _ => ?_⟩ htakes reports.2 meets.2
        have hopen : s.context.completed = false := by
          refine eq_false_of_ne_true fun hdone => ?_
          rw [(same_report hdone h.streamBody event).completed, hdone] at hstill
          cases hstill
        exact follows_report (h.follows hopen takes.2) hopen h.isServer h.streamBody reports.1 hsuccess hstill
      · exact ⟨hcounted, htakes, fun hother => absurd hother hsuccess⟩

end HttpExchange

end GopherMcp
