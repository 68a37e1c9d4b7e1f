import GopherMcp.Filter.CodecWrites

/-!
# When the HTTP codec frames what it writes

Every payload leaves as one whole message with its length, as long as nothing was written in a state where
the codec lets payloads pass, and no data came in for a closed machine. The first of these states that a
server reaches, `closed` or `error`, it never leaves: everything that is written afterwards is bare.
-/

namespace GopherMcp

open WireWriter (Headers Head framings lowercase SingleLine)

/-- A payload that is a message with its framing already. -/
def IsHttpMessage (payload : Bytes) : Prop := ∃ (head : Head) (body : Bytes), payload = head.render ++ body

/-- One whole response that carries a payload. -/
def IsResponse (out payload : Bytes) : Prop :=
  ∃ head : Head, framings head.headers = [(ascii "Content-Length", toDecimal payload.length)] ∧
    out = head.render ++ payload

/-- One whole request that carries a payload. -/
def IsRequest (out payload : Bytes) : Prop :=
  ∃ (method path : Bytes) (headers : Headers),
    framings headers = [(ascii "Content-Length", toDecimal payload.length)] ∧
      out = HttpCodecFilter.renderRequest method path headers ++ payload

/-- A payload that is no message yet leaves as one, or nothing leaves and an error is reported; and data
brings a closed server back. -/
def CodecAct.Framed (isServer : Bool) : CodecAct → Prop
  | .wrote payload out reported =>
      payload ≠ [] → (isServer = true ∧ IsHttpMessage payload) ∨
        (if isServer = true then IsResponse out payload else IsRequest out payload) ∨
        (out = [] ∧ reported = true)
  | .received before after =>
      isServer = true → before = .closed → after ≠ .closed ∧ after ≠ .error

namespace HttpCodecFilter

def AllFramed (s : HttpCodecFilter) : Prop := ∀ act ∈ s.acts, act.Framed s.isServer

/-- What may happen in a state: writes where the codec frames, and no data for a closed server. -/
def Frames (s : HttpCodecFilter) : CodecOp → Prop
  | .write payload _ =>
      payload = [] ∨
        if s.isServer = true then
          IsHttpMessage payload ∨ (s.serverCanWrite ∧ httpFormatted payload = false)
        else s.clientCanWrite ∧ s.bodylessMethod = []
  | .data => s.isServer = true → s.machine.currentState ≠ .closed
  | _ => True

/-! ### The messages -/

def responseHead (s : HttpCodecFilter) (payload : Bytes) : Head :=
  WireWriter.unaryHead ⟨s.http11, s.keepAlive, false, .chunked⟩ 200 s.answerHeaders payload

theorem response_eq (s : HttpCodecFilter) (payload : Bytes) :
    s.response payload = (s.responseHead payload).render ++ payload := by
  unfold response
  rw [WireWriter.startUnary_eq rfl]
  rfl

theorem framings_responseHead (s : HttpCodecFilter) (payload : Bytes) :
    framings (s.responseHead payload).headers = [(ascii "Content-Length", toDecimal payload.length)] :=
  WireWriter.framings_unaryHead _ _ _ _

theorem isResponse_response (s : HttpCodecFilter) (payload : Bytes) :
    IsResponse (s.response payload) payload :=
  ⟨s.responseHead payload, s.framings_responseHead payload, s.response_eq payload⟩

/-- What a server framed is read back, where the headers it was given are single lines. -/
theorem readResponse_response {s : HttpCodecFilter} (h : ∀ header ∈ s.responseHeaders, SingleLine header)
    (payload : Bytes) :
    WireWriter.readResponse (s.response payload) =
      some (WireWriter.statusLine s.http11 200, (s.responseHead payload).headers, payload) := by
  rw [response_eq]
  refine WireWriter.readResponse_render (WireWriter.singleLine_unaryHead fun header hheader => ?_) payload
  unfold answerHeaders at hheader
  simp only [List.cons_append, List.nil_append, List.mem_cons] at hheader
  obtain rfl | rfl | hgiven := hheader
  · exact ⟨⟨by decide, by decide⟩, by decide⟩
  · exact ⟨⟨by decide, by decide⟩, by decide⟩
  · exact h header hgiven

/-- The client's own headers say nothing of how the body is framed. -/
theorem framings_sentClientHeaders (headers : OrdMap Bytes Bytes) :
    framings (sentClientHeaders headers) = [] := by
  refine List.filter_eq_nil_iff.mpr fun header hheader hframing => ?_
  have hkept := (List.mem_filter.mp hheader).2
  unfold isGeneratedClientHeader at hkept
  simp only [Bool.or_eq_true, decide_eq_true_eq] at hframing
  obtain hlength | htransfer := hframing
  · simp [hlength] at hkept
  · simp [htransfer] at hkept

theorem isRequest_postRequest (s : HttpCodecFilter) (payload : Bytes) :
    IsRequest (s.postRequest payload) payload := by
  refine ⟨ascii "POST", s.postPath, s.postHeaders payload, ?_, rfl⟩
  unfold postHeaders
  rw [WireWriter.framings_append, framings_sentClientHeaders]
  rfl

theorem render_ne_nil (head : Head) : head.render ≠ [] := by
  unfold Head.render
  simp [Chunking.crlf]

/-- A bare payload is no response. -/
theorem not_isResponse_self (payload : Bytes) : ¬ IsResponse payload payload := by
  rintro ⟨head, _, hout⟩
  exact render_ne_nil head (List.self_eq_append_left.mp hout)

/-! ### One write -/

theorem onWrite_of_ne_nil {s : HttpCodecFilter} {payload : Bytes} (h : payload ≠ []) (endStream : Bool) :
    s.onWrite payload endStream =
      if s.isServer then s.writeResponse payload endStream else s.writeRequest payload := by
  have hempty : payload.isEmpty = false := by simpa using h
  unfold onWrite
  rw [hempty]
  rfl

/-- Where the codec frames, it frames. -/
theorem framed_onWrite {s : HttpCodecFilter} {payload : Bytes} {endStream : Bool}
    (ok : s.Frames (.write payload endStream)) (reported : Bool) :
    (CodecAct.wrote payload (s.onWrite payload endStream).2 reported).Framed s.isServer := by
  intro hne
  have hok := ok.resolve_left hne
  rw [onWrite_of_ne_nil hne]
  cases hserver : s.isServer with
  | true =>
      rw [hserver, if_pos rfl] at hok
      rcases hok with hmessage | ⟨hcan, hformatted⟩
      · exact .inl ⟨rfl, hmessage⟩
      · refine .inr (.inl ?_)
        rw [if_pos rfl, if_pos rfl]
        unfold writeResponse
        rw [if_pos hcan, hformatted]
        exact s.isResponse_response payload
  | false =>
      rw [hserver, if_neg Bool.false_ne_true] at hok
      obtain ⟨hcan, hmethod⟩ := hok
      have hempty : payload.isEmpty = false := by simpa using hne
      refine .inr (.inl ?_)
      rw [if_neg Bool.false_ne_true, if_neg Bool.false_ne_true]
      unfold writeRequest
      rw [if_pos hcan, hempty, hmethod, Bool.and_false]
      exact s.isRequest_postRequest payload

/-- Where a server does not frame, the payload leaves bare. -/
theorem not_framed_onWrite {s : HttpCodecFilter} (server : s.isServer = true) {payload : Bytes}
    {endStream : Bool} (hnot : ¬ s.Frames (.write payload endStream)) (reported : Bool) :
    ¬ (CodecAct.wrote payload (s.onWrite payload endStream).2 reported).Framed s.isServer := by
  intro hframed
  unfold Frames at hnot
  rw [not_or, if_pos server, not_or] at hnot
  obtain ⟨hne, hmessage, hcan⟩ := hnot
  have hbare : (s.onWrite payload endStream).2 = payload := by
    rw [onWrite_of_ne_nil hne, if_pos server]
    unfold writeResponse
    by_cases hstate : s.serverCanWrite
    · rw [if_pos hstate, if_pos (by simpa using fun hformatted => hcan ⟨hstate, hformatted⟩)]
    · rw [if_neg hstate]
  rw [hbare] at hframed
  rcases hframed hne with ⟨_, hyes⟩ | hresponse | ⟨hnil, _⟩
  · exact hmessage hyes
  · rw [if_pos server] at hresponse
    exact not_isResponse_self payload hresponse
  · exact hne hnil

/-! ### One step -/

@[simp] theorem config_handleEvent (s : HttpCodecFilter) (event : HttpCodecEvent) :
    (s.handleEvent event).machine.config = s.machine.config :=
  HttpCodecStateMachine.config_handleEvent s.machine event []

@[simp] theorem isServer_handleEvent (s : HttpCodecFilter) (event : HttpCodecEvent) :
    (s.handleEvent event).isServer = s.isServer :=
  congrArg HttpCodecStateMachineConfig.isServer (s.config_handleEvent event)

theorem encoded_frame (s : HttpCodecFilter) (endStream : Bool) :
    (s.encoded endStream).isServer = s.isServer ∧ (s.encoded endStream).acts = s.acts := by
  unfold encoded
  split
  · exact ⟨isServer_handleEvent s _, rfl⟩
  · exact ⟨rfl, rfl⟩

theorem timerFires_frame (s : HttpCodecFilter) (timer : CodecTimer) :
    (s.timerFires timer).isServer = s.isServer ∧ (s.timerFires timer).acts = s.acts := by
  have hconfig := HttpCodecStateMachine.config_step s.machine (.fires [] timer)
  unfold timerFires
  split
  · exact ⟨congrArg HttpCodecStateMachineConfig.isServer hconfig, rfl⟩
  · exact ⟨congrArg HttpCodecStateMachineConfig.isServer hconfig, rfl⟩

theorem onHeadersComplete_frame (s : HttpCodecFilter) (http11 keepAlive hasBody : Bool) :
    (s.onHeadersComplete http11 keepAlive hasBody).isServer = s.isServer ∧
      (s.onHeadersComplete http11 keepAlive hasBody).acts = s.acts := by
  unfold onHeadersComplete
  dsimp only
  split
  · exact ⟨isServer_handleEvent _ _, rfl⟩
  · exact ⟨isServer_handleEvent _ _, rfl⟩

theorem onWrite_frame (s : HttpCodecFilter) (payload : Bytes) (endStream : Bool) :
    (s.onWrite payload endStream).1.isServer = s.isServer ∧
      (s.onWrite payload endStream).1.acts = s.acts := by
  unfold onWrite writeResponse writeRequest
  dsimp only
  split_ifs <;> exact ⟨by simp [isServer], rfl⟩

/-- What a step adds to what the codec did. -/
def actsOf (s : HttpCodecFilter) : CodecOp → List CodecAct
  | .data => [.received s.machine.currentState s.onData.machine.currentState]
  | .write payload endStream =>
      [.wrote payload (s.onWrite payload endStream).2
        (decide (s.errors < (s.onWrite payload endStream).1.errors))]
  | _ => []

theorem step_frame (s : HttpCodecFilter) (op : CodecOp) :
    (s.step op).isServer = s.isServer ∧ (s.step op).acts = s.acts ++ s.actsOf op := by
  cases op with
  | data =>
      show s.onData.isServer = s.isServer ∧ s.onData.acts = s.acts ++ [.received _ s.onData.machine.currentState]
      unfold onData
      split
      · refine ⟨congrArg HttpCodecStateMachineConfig.isServer ?_, rfl⟩
        exact HttpCodecStateMachine.config_step s.machine (.resetForNextRequest [])
      · exact ⟨rfl, rfl⟩
  | messageBegin => exact ⟨isServer_handleEvent s _, (List.append_nil _).symm⟩
  | headersComplete http11 keepAlive hasBody =>
      obtain ⟨hserver, hacts⟩ := s.onHeadersComplete_frame http11 keepAlive hasBody
      exact ⟨hserver, hacts.trans (List.append_nil _).symm⟩
  | bodyData => exact ⟨isServer_handleEvent s _, (List.append_nil _).symm⟩
  | messageComplete => exact ⟨isServer_handleEvent s _, (List.append_nil _).symm⟩
  | parseError => exact ⟨isServer_handleEvent s _, (List.append_nil _).symm⟩
  | fires timer =>
      obtain ⟨hserver, hacts⟩ := s.timerFires_frame timer
      exact ⟨hserver, hacts.trans (List.append_nil _).symm⟩
  | encodeHeaders endStream =>
      obtain ⟨hserver, hacts⟩ := encoded_frame (s.handleEvent _) endStream
      exact ⟨hserver.trans (isServer_handleEvent s _), hacts.trans (List.append_nil _).symm⟩
  | encodeData endStream =>
      obtain ⟨hserver, hacts⟩ := s.encoded_frame endStream
      exact ⟨hserver, hacts.trans (List.append_nil _).symm⟩
  | write payload endStream =>
      obtain ⟨hserver, hacts⟩ := s.onWrite_frame payload endStream
      exact ⟨hserver, congrArg (· ++ _) hacts⟩
  | _ => exact ⟨rfl, (List.append_nil _).symm⟩

/-- What a step does is framed exactly when the step may happen. -/
theorem framed_actsOf {s : HttpCodecFilter} {op : CodecOp} (ok : s.Frames op) :
    ∀ act ∈ s.actsOf op, act.Framed s.isServer := by
  cases op with
  | data =>
      intro act hact
      rw [List.mem_singleton.mp hact]
      exact fun hserver hclosed => absurd hclosed (ok hserver)
  | write payload endStream =>
      intro act hact
      rw [List.mem_singleton.mp hact]
      exact framed_onWrite ok _
  | _ => exact fun act hact => absurd hact List.not_mem_nil

/-- What the reset of a closed server comes to: nothing. -/
theorem currentState_reset_of_closed {m : HttpCodecStateMachine} (server : m.config.isServer = true)
    (closed : m.currentState = .closed) : (m.resetForNextRequest []).currentState = .closed := by
  have hnone : m.wanted .close = none := by
    simp [HttpCodecStateMachine.wanted, HttpCodecStateMachine.newState, server,
      HttpCodecStateMachine.serverState, closed]
  unfold HttpCodecStateMachine.resetForNextRequest
  rw [closed, if_neg (by decide), HttpCodecStateMachine.handleEvent_eq, hnone]
  exact closed

theorem not_framed_actsOf {s : HttpCodecFilter} (server : s.isServer = true) {op : CodecOp}
    (hnot : ¬ s.Frames op) : ∃ act ∈ s.actsOf op, ¬ act.Framed s.isServer := by
  cases op with
  | data =>
      refine ⟨_, List.mem_singleton_self _, fun hframed => ?_⟩
      have hclosed : s.machine.currentState = .closed := by
        by_contra hother
        exact hnot fun _ => hother
      refine (hframed server hclosed).1 ?_
      unfold onData
      rw [if_pos hclosed]
      exact currentState_reset_of_closed server hclosed
  | write payload endStream =>
      exact ⟨_, List.mem_singleton_self _, not_framed_onWrite server hnot _⟩
  | _ => exact absurd trivial hnot

theorem allFramed_step_iff {s : HttpCodecFilter} (h : s.AllFramed) (op : CodecOp) :
    (s.step op).AllFramed ↔ ∀ act ∈ s.actsOf op, act.Framed s.isServer := by
  obtain ⟨hserver, hacts⟩ := s.step_frame op
  unfold AllFramed
  rw [hserver, hacts]
  constructor
  · intro hall act hact
    exact hall act (List.mem_append_right _ hact)
  · intro hnew act hact
    rcases List.mem_append.mp hact with hold | hin
    · exact h act hold
    · exact hnew act hin

/-! ### Runs -/

/-- **When everything written is framed.** Along every run whose writes come in the states where the codec
frames and whose data does not come for a closed server, every payload leaves as one message; and for a
server along no other. -/
theorem allFramed_of_guarded (isServer : Bool) (ops : List CodecOp) :
    (Runs.Guarded step Frames (new isServer) ops →
        ∀ before after, ops = before ++ after → (Runs.run step (new isServer) before).AllFramed) ∧
      (isServer = true →
        (∀ before after, ops = before ++ after → (Runs.run step (new isServer) before).AllFramed) →
        Runs.Guarded step Frames (new isServer) ops) := by
  have hstart : (new isServer).AllFramed := fun act hact => absurd hact List.not_mem_nil
  constructor
  · rintro hguarded before after rfl
    refine Runs.invariant step (fun s op hok hs => ?_) hstart (Runs.guarded_append step |>.mp hguarded).1
    exact (allFramed_step_iff hs op).mpr (framed_actsOf hok)
  · intro hserver
    have hproper : Runs.Guarded step (fun _ _ => True) (new isServer) ops :=
      Runs.guarded_of_forall _ (fun _ _ => trivial) _
    have hinv : (new isServer).AllFramed ∧ (new isServer).isServer = true := ⟨hstart, hserver⟩
    refine (@Runs.everywhere_iff_of_inv _ _ step (fun _ _ => True) Frames
      (fun s => s.AllFramed ∧ s.isServer = true) AllFramed ?_ ?_ ?_ _ hinv ops hproper).mp
    · rintro s op _ hok ⟨hs, hside⟩
      exact ⟨(allFramed_step_iff hs op).mpr (framed_actsOf hok), (s.step_frame op).1.trans hside⟩
    · rintro s ⟨hs, _⟩
      exact hs
    · rintro s op _ ⟨hs, hside⟩ hnot hall
      obtain ⟨act, hact, hbad⟩ := not_framed_actsOf hside hnot
      exact hbad ((allFramed_step_iff hs op).mp hall act hact)

/-- A server that answers one request. -/
theorem allFramed_of_guarded_answer :
    Runs.Guarded step Frames (new true)
        [.data, .messageBegin, .headersComplete true true false, .messageComplete, .write (ascii "{}") true] ∧
      ∀ before after, [CodecOp.data, .messageBegin, .headersComplete true true false, .messageComplete,
        .write (ascii "{}") true] = before ++ after → (Runs.run step (new true) before).AllFramed := by
  have hguarded : Runs.Guarded step Frames (new true)
      [.data, .messageBegin, .headersComplete true true false, .messageComplete,
        .write (ascii "{}") true] :=
    ⟨fun _ => by decide, trivial, trivial, trivial, .inr (.inr ⟨by decide, by decide⟩), trivial⟩
  exact ⟨hguarded, (allFramed_of_guarded true _).1 hguarded⟩

theorem httpFormatted_of_isHttpMessage {payload : Bytes} (h : IsHttpMessage payload) :
    httpFormatted payload = true := by
  obtain ⟨head, body, rfl⟩ := h
  unfold Head.render Head.lines WireWriter.statusLine httpFormatted
  cases head.http11 <;> simp [ascii]

/-- The idle timer closes the machine, a request comes in, and its answer goes out bare. -/
theorem not_always_framed :
    ¬ ∀ (isServer : Bool) (ops : List CodecOp), (Runs.run step (new isServer) ops).AllFramed := by
  intro h
  have hframed := h true
    [.fires .idle, .data, .messageBegin, .headersComplete true true false, .messageComplete,
      .write (ascii "{}") true] (.wrote (ascii "{}") (ascii "{}") false) (by decide)
  rcases hframed (by decide) with ⟨_, hmessage⟩ | hresponse | ⟨hnil, _⟩
  · exact absurd (httpFormatted_of_isHttpMessage hmessage) (by decide)
  · exact not_isResponse_self _ hresponse
  · exact absurd hnil (by decide)

/-! ### A server that cannot write any more -/

/-- A server in a state in which it does not frame. -/
def Stuck (s : HttpCodecFilter) : Prop :=
  s.isServer = true ∧ (s.machine.currentState = .closed ∨ s.machine.currentState = .error)

theorem stuck_handleEvent {s : HttpCodecFilter} (h : s.Stuck) {event : HttpCodecEvent}
    (hreset : event ≠ .reset) (hclose : event ≠ .close) : (s.handleEvent event).Stuck := by
  obtain ⟨hserver, hstuck⟩ := h
  have hsame : s.machine.newState event = s.machine.currentState := by
    have hconfig : s.machine.config.isServer = true := hserver
    unfold HttpCodecStateMachine.newState HttpCodecStateMachine.serverState
    rw [if_pos hconfig]
    rcases hstuck with hstate | hstate <;> rw [hstate] <;> cases event <;> first | rfl | contradiction
  have hmachine : s.machine.handleEvent event [] = s.machine := by
    unfold HttpCodecStateMachine.handleEvent
    rw [if_neg (not_not.mpr hsame)]
  refine ⟨(isServer_handleEvent s event).trans hserver, ?_⟩
  show (s.machine.handleEvent event []).currentState = _ ∨ (s.machine.handleEvent event []).currentState = _
  rw [hmachine]
  exact hstuck

theorem stuck_timerFires {s : HttpCodecFilter} (h : s.Stuck) (timer : CodecTimer) :
    (s.timerFires timer).Stuck := by
  obtain ⟨hserver, hstuck⟩ := h
  have hasks : s.machine.asks (.fires [] timer) = none := by
    cases timer <;> rcases hstuck with hstate | hstate <;>
      simp [HttpCodecOp.fires, HttpCodecStateMachine.asks, hstate]
  refine ⟨(s.timerFires_frame timer).1.trans hserver, ?_⟩
  unfold timerFires
  rw [if_neg fun hreport => hreport.2 hasks]
  show (s.machine.step _).currentState = _ ∨ (s.machine.step _).currentState = _
  rw [HttpCodecStateMachine.currentState_step, hasks]
  exact hstuck

theorem stuck_onData {s : HttpCodecFilter} (h : s.Stuck) : s.onData.Stuck := by
  unfold onData
  by_cases hclosed : s.machine.currentState = .closed
  · rw [if_pos hclosed]
    have hserver := HttpCodecStateMachine.config_step s.machine (.resetForNextRequest [])
    refine ⟨(congrArg HttpCodecStateMachineConfig.isServer hserver).trans h.1, .inl ?_⟩
    exact currentState_reset_of_closed h.1 hclosed
  · rw [if_neg hclosed]
    exact h

theorem stuck_encoded {s : HttpCodecFilter} (h : s.Stuck) (endStream : Bool) :
    (s.encoded endStream).Stuck := by
  unfold encoded
  split
  · split
    · exact stuck_handleEvent h (by decide) (by decide)
    · exact stuck_handleEvent h (by decide) (by decide)
  · exact h

theorem onWrite_of_stuck {s : HttpCodecFilter} (h : s.Stuck) (payload : Bytes) (endStream : Bool) :
    s.onWrite payload endStream = (s, payload) := by
  have hcan : ¬ s.serverCanWrite := fun hcan => h.2.elim hcan.1 hcan.2
  unfold onWrite writeResponse
  rw [if_pos h.1, if_neg hcan, ite_self]

theorem stuck_step {s : HttpCodecFilter} (h : s.Stuck) (op : CodecOp) : (s.step op).Stuck := by
  cases op with
  | data => exact stuck_onData h
  | messageBegin =>
      refine stuck_handleEvent h ?_ ?_ <;> split <;> decide
  | headersComplete http11 keepAlive hasBody =>
      show (s.onHeadersComplete http11 keepAlive hasBody).Stuck
      unfold onHeadersComplete
      dsimp only
      split
      · exact stuck_handleEvent (s := { s with
          machine := { s.machine with expectRequestBody := hasBody }, http11 := http11,
          keepAlive := keepAlive }) h (by decide) (by decide)
      · exact stuck_handleEvent (s := { s with
          machine := { s.machine with expectResponseBody := hasBody }, http11 := http11,
          keepAlive := keepAlive }) h (by decide) (by decide)
  | bodyData => refine stuck_handleEvent h ?_ ?_ <;> split <;> decide
  | messageComplete => refine stuck_handleEvent h ?_ ?_ <;> split <;> decide
  | parseError => exact stuck_handleEvent h (by decide) (by decide)
  | fires timer => exact stuck_timerFires h timer
  | encodeHeaders endStream =>
      refine stuck_encoded (stuck_handleEvent h ?_ ?_) endStream <;> split <;> decide
  | encodeData endStream => exact stuck_encoded h endStream
  | write payload endStream =>
      show ((s.onWrite payload endStream).1.note _).Stuck
      rw [onWrite_of_stuck h]
      exact h
  | _ => exact h

/-- **A server that was closed or met an error writes everything bare from then on**, whatever comes in. -/
theorem onWrite_bare_of_stuck {s : HttpCodecFilter} (h : s.Stuck) (ops : List CodecOp) (payload : Bytes)
    (endStream : Bool) : ((Runs.run step s ops).onWrite payload endStream).2 = payload := by
  have hstuck := Runs.invariant_of_every_step step (fun s op => fun (hs : s.Stuck) => stuck_step hs op) h ops
  rw [onWrite_of_stuck hstuck]

end HttpCodecFilter

end GopherMcp
