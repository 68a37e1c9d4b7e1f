import GopherMcp.Http.WireWriter

/-!
# What a response writer writes

At most one response, whatever is called in whatever order. Its head names one way to tell where the body
ends: the length, the chunked coding, or neither where the body runs to the end of the connection.
-/

namespace GopherMcp

namespace WireWriter

variable {s : WireWriter}

/-! ### Heads -/

structure Head where
  http11 : Bool
  statusCode : Int32
  headers : Headers

namespace Head

/-- The lines of a head, before the empty one. -/
def lines (head : Head) : List Bytes :=
  statusLine head.http11 head.statusCode :: head.headers.map fun header => headerLine header.1 header.2

def render (head : Head) : Bytes := head.lines.flatMap (· ++ Chunking.crlf) ++ Chunking.crlf

end Head

/-- The headers that say how the body is framed. -/
def framings (headers : Headers) : Headers :=
  headers.filter fun header =>
    lowercase header.1 = ascii "content-length" || lowercase header.1 = ascii "transfer-encoding"

def headerOf (line : Bytes) : Bytes × Bytes :=
  (line.takeWhile (· ≠ kColon), (line.dropWhile (· ≠ kColon)).drop 2)

/-- The status line, the headers and what follows them. -/
def readResponse (bytes : Bytes) : Option (Bytes × Headers × Bytes) :=
  (Chunking.readLines bytes).map fun read => (read.1.headD [], read.1.tail.map headerOf, read.2)

/-- A header on one line, whose name ends where it says. -/
structure SingleLine (header : Bytes × Bytes) : Prop where
  name : kCR ∉ header.1 ∧ kColon ∉ header.1
  value : kCR ∉ header.2

/-! ### Reading a head back -/

theorem headerOf_headerLine {header : Bytes × Bytes} (h : SingleLine header) :
    headerOf (headerLine header.1 header.2) = header := by
  have hname (byte : UInt8) (hbyte : byte ∈ header.1) : decide (byte ≠ kColon) = true :=
    decide_eq_true fun hcolon => h.name.2 (hcolon ▸ hbyte)
  have hcolon : ascii ": " = [kColon, kSpace] := rfl
  rw [headerOf, headerLine, List.append_assoc, hcolon, List.takeWhile_append_of_pos hname,
    List.dropWhile_append_of_pos hname]
  simp

theorem not_mem_toDecimalSigned (n : Int64) : kCR ∉ toDecimalSigned n := by
  have hdigits (m : Nat) : kCR ∉ toDecimal m := fun h => by
    have hle : 48 ≤ kCR.toNat := (toNat_of_mem_toDecimal h).1
    exact absurd hle (by decide)
  rw [toDecimalSigned]
  split_ifs
  · rw [List.mem_append, not_or]
    exact ⟨by decide, hdigits _⟩
  · exact hdigits _

theorem not_mem_httpStatusCodeToString (code : UInt16) : kCR ∉ httpStatusCodeToString code := by
  rw [httpStatusCodeToString]
  split <;> decide

theorem not_mem_statusLine (http11 : Bool) (statusCode : Int32) : kCR ∉ statusLine http11 statusCode := by
  rw [statusLine, List.mem_append, List.mem_append, List.mem_append, not_or, not_or, not_or]
  refine ⟨⟨⟨?_, not_mem_toDecimalSigned _⟩, by decide⟩, not_mem_httpStatusCodeToString _⟩
  cases http11 <;> decide

theorem statusLine_ne_nil (http11 : Bool) (statusCode : Int32) : statusLine http11 statusCode ≠ [] := by
  cases http11 <;> exact List.cons_ne_nil _ _

/-- A head of single lines is read back, and what follows is the body. -/
theorem readResponse_render {head : Head} (h : ∀ header ∈ head.headers, SingleLine header)
    (body : Bytes) :
    readResponse (head.render ++ body) =
      some (statusLine head.http11 head.statusCode, head.headers, body) := by
  have hlines : ∀ line ∈ head.lines, line ≠ [] ∧ 13 ∉ line := by
    intro line hline
    obtain hline | hline := List.mem_cons.mp hline
    · rw [hline]
      exact ⟨statusLine_ne_nil _ _, not_mem_statusLine _ _⟩
    · obtain ⟨header, hheader, hline⟩ := List.mem_map.mp hline
      have hsingle := h header hheader
      rw [← hline, headerLine]
      refine ⟨by simp [ascii], ?_⟩
      rw [List.mem_append, List.mem_append, not_or, not_or]
      exact ⟨⟨hsingle.name.1, by decide⟩, hsingle.value⟩
  have hread := Chunking.readLines_lines hlines body
  rw [← List.append_assoc] at hread
  have hheaders : (head.headers.map fun header => headerLine header.1 header.2).map headerOf =
      head.headers := by
    rw [List.map_map]
    exact (List.map_congr_left fun header hheader => headerOf_headerLine (h header hheader)).trans
      (List.map_id _)
  rw [readResponse, Head.render, hread, Option.map_some, Head.lines, List.tail_cons, hheaders]
  rfl

/-! ### What the source adds to a head -/

def keepsHeader (sse : Bool) (header : Bytes × Bytes) : Bool :=
  !isFramingHeader header.1 && !(sse && isStreamHeader header.1)

/-- The headers of the caller that are kept. -/
def callerHeaders (sse : Bool) (headers : Headers) : Headers := headers.filter (keepsHeader sse)

theorem appendCallerHeaders_eq (s : WireWriter) (headers : Headers) :
    s.appendCallerHeaders headers =
      s.add ((callerHeaders (s.mode = .sse) headers).flatMap fun header =>
        headerLine header.1 header.2 ++ Chunking.crlf) := by
  induction headers generalizing s with
  | nil => simp [appendCallerHeaders, callerHeaders, add]
  | cons header headers ih =>
      rw [appendCallerHeaders, List.foldl_cons]
      by_cases hframing : isFramingHeader header.1 = true
      · have hdropped : ¬ keepsHeader (s.mode = .sse) header = true := by simp [keepsHeader, hframing]
        rw [if_pos hframing, callerHeaders, List.filter_cons_of_neg hdropped]
        exact ih s
      · rw [if_neg hframing]
        by_cases hstream : (decide (s.mode = .sse) && isStreamHeader header.1) = true
        · have hdropped : ¬ keepsHeader (s.mode = .sse) header = true := by simp [keepsHeader, hstream]
          rw [if_pos hstream, callerHeaders, List.filter_cons_of_neg hdropped]
          exact ih s
        · have hkept : keepsHeader (s.mode = .sse) header = true := by
            simp only [Bool.not_eq_true] at hframing hstream
            rw [keepsHeader, hframing, hstream]
            rfl
          rw [if_neg hstream, callerHeaders, List.filter_cons_of_pos hkept]
          refine (ih _).trans ?_
          rw [List.flatMap_cons, appendHeader, add, add, add, List.append_assoc]
          rfl

/-- The head of a single body. -/
def unaryHead (options : Options) (statusCode : Int32) (headers : Headers) (body : Bytes) : Head where
  http11 := options.http11
  statusCode := statusCode
  headers := callerHeaders false headers ++
    [(ascii "Content-Length", toDecimal body.length),
      (ascii "Connection", connectionValue options.keepAlive)]

/-- How a stream says where it ends, and what becomes of the connection. -/
def streamFraming (keepAlive : Bool) : Framing → Headers
  | .chunked =>
      [(ascii "Transfer-Encoding", ascii "chunked"), (ascii "Connection", connectionValue keepAlive)]
  | .closeDelimited => [(ascii "Connection", ascii "close")]

/-- The head of a stream. -/
def streamHead (options : Options) (framing : Framing) (statusCode : Int32) (headers : Headers) :
    Head where
  http11 := options.http11
  statusCode := statusCode
  headers := callerHeaders true headers ++
    [(ascii "Content-Type", ascii "text/event-stream"), (ascii "Cache-Control", ascii "no-cache"),
      (ascii "X-Accel-Buffering", ascii "no")] ++ streamFraming options.keepAlive framing

theorem startUnary_eq (h : s.mode = .idle) (statusCode : Int32) (headers : Headers) (body : Bytes) :
    (s.startUnary statusCode headers body).1 =
      { s with
        mode := .finished
        closeAfterFinish := !s.options.keepAlive
        out := s.out ++ (unaryHead s.options statusCode headers body).render ++ body } := by
  have hbody (t : WireWriter) : (if body ≠ [] then t.add body else t) = t.add body := by
    split_ifs with hbody
    · rfl
    · rw [not_not.mp hbody, add, List.append_nil]
  rw [startUnary, if_neg (not_not.mpr h)]
  simp only [hbody, appendCallerHeaders_eq]
  simp [appendStatusLine, appendHeader, add, unaryHead, Head.render, Head.lines, List.flatMap_map]

theorem openStream_eq (s : WireWriter) (statusCode : Int32) (headers : Headers) :
    s.openStream statusCode headers =
      { s with
        mode := .sse
        closeAfterFinish :=
          match s.framing with
          | .chunked => !s.options.keepAlive
          | .closeDelimited => true
        out := s.out ++ (streamHead s.options s.framing statusCode headers).render } := by
  cases hframing : s.framing <;>
    simp [openStream, appendCallerHeaders_eq, appendStatusLine, appendHeader, add, streamHead,
      streamFraming, Head.render, Head.lines, List.flatMap_map, hframing]

/-! ### The framing of a head -/

theorem framings_append (left right : Headers) :
    framings (left ++ right) = framings left ++ framings right := List.filter_append _ _

/-- A caller cannot say how the body is framed. -/
theorem framings_callerHeaders (sse : Bool) (headers : Headers) :
    framings (callerHeaders sse headers) = [] := by
  refine List.filter_eq_nil_iff.mpr fun header hheader hframing => ?_
  have hkept := (List.mem_filter.mp hheader).2
  rw [keepsHeader, isFramingHeader] at hkept
  simp only [Bool.or_eq_true, decide_eq_true_eq] at hframing
  obtain hlength | htransfer := hframing
  · simp [hlength] at hkept
  · simp [htransfer] at hkept

theorem framings_unaryHead (options : Options) (statusCode : Int32) (headers : Headers) (body : Bytes) :
    framings (unaryHead options statusCode headers body).headers =
      [(ascii "Content-Length", toDecimal body.length)] := by
  rw [unaryHead, framings_append, framings_callerHeaders]
  rfl

theorem framings_streamHead (options : Options) (framing : Framing) (statusCode : Int32)
    (headers : Headers) :
    framings (streamHead options framing statusCode headers).headers =
      match framing with
      | .chunked => [(ascii "Transfer-Encoding", ascii "chunked")]
      | .closeDelimited => [] := by
  rw [streamHead, framings_append, framings_append, framings_callerHeaders]
  cases framing <;> rfl

theorem singleLine_of_mem_callerHeaders {sse : Bool} {headers : Headers}
    (h : ∀ header ∈ headers, SingleLine header) : ∀ header ∈ callerHeaders sse headers, SingleLine header :=
  fun header hheader => h header (List.mem_of_mem_filter hheader)

theorem singleLine_connection (keepAlive : Bool) :
    SingleLine (ascii "Connection", connectionValue keepAlive) := by
  have hname : kCR ∉ ascii "Connection" ∧ kColon ∉ ascii "Connection" := by decide
  refine ⟨hname, ?_⟩
  cases keepAlive <;> decide

theorem singleLine_unaryHead {options : Options} {statusCode : Int32} {headers : Headers} {body : Bytes}
    (h : ∀ header ∈ headers, SingleLine header) :
    ∀ header ∈ (unaryHead options statusCode headers body).headers, SingleLine header := by
  intro header hheader
  rw [unaryHead, List.mem_append, List.mem_cons, List.mem_singleton] at hheader
  obtain hcaller | hlength | hconnection := hheader
  · exact singleLine_of_mem_callerHeaders h header hcaller
  · have hname : kCR ∉ ascii "Content-Length" ∧ kColon ∉ ascii "Content-Length" := by decide
    rw [hlength]
    refine ⟨hname, fun hmem => ?_⟩
    have hle : 48 ≤ kCR.toNat := (toNat_of_mem_toDecimal hmem).1
    exact absurd hle (by decide)
  · rw [hconnection]
    exact singleLine_connection _

theorem singleLine_streamHead {options : Options} {framing : Framing} {statusCode : Int32}
    {headers : Headers} (h : ∀ header ∈ headers, SingleLine header) :
    ∀ header ∈ (streamHead options framing statusCode headers).headers, SingleLine header := by
  have hown : ∀ header ∈
      ([(ascii "Content-Type", ascii "text/event-stream"), (ascii "Cache-Control", ascii "no-cache"),
        (ascii "X-Accel-Buffering", ascii "no"), (ascii "Transfer-Encoding", ascii "chunked"),
        (ascii "Connection", ascii "close")] : Headers), SingleLine header := by
    intro header hheader
    simp only [List.mem_cons, List.not_mem_nil, or_false] at hheader
    obtain rfl | rfl | rfl | rfl | rfl := hheader <;>
      exact ⟨⟨by decide, by decide⟩, by decide⟩
  intro header hheader
  rw [streamHead, List.mem_append, List.mem_append] at hheader
  obtain (hcaller | hfixed) | hframing := hheader
  · exact singleLine_of_mem_callerHeaders h header hcaller
  · refine hown header ?_
    simp only [List.mem_cons, List.not_mem_nil, or_false] at hfixed ⊢
    tauto
  · cases framing with
    | chunked =>
        obtain hcoding | hconnection := List.mem_cons.mp hframing
        · rw [hcoding]
          exact hown _ (by simp)
        · rw [List.mem_singleton.mp hconnection]
          exact singleLine_connection _
    | closeDelimited =>
        rw [List.mem_singleton.mp hframing]
        exact hown _ (by simp)

/-! ### What a writer holds to -/

/-- What was written up to now. `plain` says of the headers of the callers that they are single lines. -/
inductive Shape (plain : Prop) (s : WireWriter) : Prop
  | nothing (hmode : s.mode = .idle) (hwritten : s.written = []) (hpayloads : s.payloads = [])
      (hframing : s.framing = s.options.framing)
  | whole (head : Head) (body : Bytes) (hmode : s.mode = .finished)
      (hwritten : s.written = head.render ++ body)
      (hframings : framings head.headers = [(ascii "Content-Length", toDecimal body.length)])
      (hplain : plain → ∀ header ∈ head.headers, SingleLine header) (hpayloads : s.payloads = [])
  | chunks (head : Head) (hmode : s.mode = .sse) (hframing : s.framing = .chunked)
      (hwritten : s.written = head.render ++ s.payloads.flatMap Chunking.encode)
      (hframings : framings head.headers = [(ascii "Transfer-Encoding", ascii "chunked")])
      (hplain : plain → ∀ header ∈ head.headers, SingleLine header)
      (hpayloads : ∀ payload ∈ s.payloads, payload ≠ [])
  | ended (head : Head) (hmode : s.mode = .finished) (hframing : s.framing = .chunked)
      (hwritten :
        s.written = head.render ++ (s.payloads.flatMap Chunking.encode ++ Chunking.lastChunk))
      (hframings : framings head.headers = [(ascii "Transfer-Encoding", ascii "chunked")])
      (hplain : plain → ∀ header ∈ head.headers, SingleLine header)
      (hpayloads : ∀ payload ∈ s.payloads, payload ≠ [])
  | running (head : Head) (hmode : s.mode = .sse ∨ s.mode = .finished)
      (hframing : s.framing = .closeDelimited)
      (hwritten : s.written = head.render ++ s.payloads.flatten)
      (hframings : framings head.headers = [])
      (hclose : (ascii "Connection", ascii "close") ∈ head.headers)
      (hplain : plain → ∀ header ∈ head.headers, SingleLine header)
      (hallowed : s.options.framing = .closeDelimited ∨ s.options.http11 = false)

/-- The headers an operation is given are single lines. -/
def Op.Plain : Op → Prop
  | .startUnary _ headers _ => ∀ header ∈ headers, SingleLine header
  | .startSse _ headers => ∀ header ∈ headers, SingleLine header
  | _ => True

variable {plain : Prop}

theorem shape_new (options : Options) : (new options).Shape plain := .nothing rfl rfl rfl rfl

/-- Nothing was written before a response is started. -/
theorem Shape.of_idle (h : s.Shape plain) (hmode : s.mode = .idle) :
    s.written = [] ∧ s.payloads = [] ∧ s.framing = s.options.framing := by
  cases h with
  | nothing _ hwritten hpayloads hframing => exact ⟨hwritten, hpayloads, hframing⟩
  | whole _ _ hfinished => exact absurd (hmode.symm.trans hfinished) nofun
  | chunks _ hsse => exact absurd (hmode.symm.trans hsse) nofun
  | ended _ hfinished => exact absurd (hmode.symm.trans hfinished) nofun
  | running _ hother =>
      obtain hsse | hfinished := hother
      · exact absurd (hmode.symm.trans hsse) nofun
      · exact absurd (hmode.symm.trans hfinished) nofun

theorem Shape.startUnary (h : s.Shape plain) (statusCode : Int32) {headers : Headers} (body : Bytes)
    (hplain : plain → ∀ header ∈ headers, SingleLine header) :
    (s.startUnary statusCode headers body).1.Shape plain := by
  by_cases hmode : s.mode = .idle
  · obtain ⟨hwritten, hpayloads, -⟩ := h.of_idle hmode
    rw [startUnary_eq hmode]
    refine .whole (unaryHead s.options statusCode headers body) body rfl ?_
      (framings_unaryHead _ _ _ _) (fun hp => singleLine_unaryHead (hplain hp)) hpayloads
    simp only [written, ← List.append_assoc] at hwritten ⊢
    rw [hwritten, List.nil_append]
  · rw [WireWriter.startUnary, if_pos hmode]
    exact h

/-- A stream is opened in the framing that was settled. -/
theorem shape_openStream (hwritten : s.written = []) (hpayloads : s.payloads = [])
    (hallowed : s.framing = .closeDelimited →
      s.options.framing = .closeDelimited ∨ s.options.http11 = false)
    (statusCode : Int32) {headers : Headers} (hplain : plain → ∀ header ∈ headers, SingleLine header) :
    (s.openStream statusCode headers).Shape plain := by
  have hrendered : (s.openStream statusCode headers).written =
      (streamHead s.options s.framing statusCode headers).render := by
    rw [openStream_eq, written, ← List.append_assoc]
    exact congrArg (· ++ _) hwritten
  have hkept : (s.openStream statusCode headers).payloads = [] := by
    rw [openStream_eq]
    exact hpayloads
  have hmode : (s.openStream statusCode headers).mode = .sse := by rw [openStream_eq]
  have hsame : (s.openStream statusCode headers).framing = s.framing := by rw [openStream_eq]
  have hoptions : (s.openStream statusCode headers).options = s.options := by rw [openStream_eq]
  have hsingle (hp : plain) := @singleLine_streamHead s.options s.framing statusCode headers (hplain hp)
  cases hframing : s.framing with
  | chunked =>
      refine .chunks _ hmode (hsame.trans hframing) ?_ ?_ hsingle ?_
      · rw [hrendered, hkept]
        exact (List.append_nil _).symm
      · rw [framings_streamHead, hframing]
      · rw [hkept]
        exact fun _ hmem => absurd hmem List.not_mem_nil
  | closeDelimited =>
      refine .running _ (Or.inl hmode) (hsame.trans hframing) ?_ ?_ ?_ hsingle ?_
      · rw [hrendered, hkept]
        exact (List.append_nil _).symm
      · rw [framings_streamHead, hframing]
      · rw [hframing, streamHead, streamFraming]
        exact List.mem_append_right _ List.mem_cons_self
      · rw [hoptions]
        exact hallowed hframing

theorem Shape.startSse (h : s.Shape plain) (statusCode : Int32) {headers : Headers}
    (hplain : plain → ∀ header ∈ headers, SingleLine header) :
    (s.startSse statusCode headers).1.Shape plain := by
  by_cases hmode : s.mode = .idle
  · obtain ⟨hwritten, hpayloads, hframing⟩ := h.of_idle hmode
    rw [WireWriter.startSse, if_neg (not_not.mpr hmode)]
    split_ifs with hversion hrefused
    · exact shape_openStream hwritten hpayloads (fun hclose => Or.inl (hframing ▸ hclose)) statusCode hplain
    · have hstart : Shape plain { s with options := { s.options with keepAlive := false } } :=
        .nothing hmode hwritten hpayloads hframing
      refine hstart.startUnary 406 _ fun _ header hheader => ?_
      rw [List.mem_singleton.mp hheader]
      exact ⟨⟨by decide, by decide⟩, by decide⟩
    · exact shape_openStream (s := { s with framing := .closeDelimited }) hwritten hpayloads
        (fun _ => Or.inr (Bool.eq_false_of_not_eq_true hversion)) statusCode hplain
  · rw [WireWriter.startSse, if_pos hmode]
    exact h

/-- What one more event, comment or retry directive adds to a stream. -/
theorem appendSsePayload_eq (hmode : s.mode = .sse) {payload : Bytes} (hpayload : payload ≠ []) :
    (s.appendSsePayload payload).1 =
      { s with
        payloads := s.payloads ++ [payload]
        out := s.out ++
          match s.framing with
          | .chunked => Chunking.encode payload
          | .closeDelimited => payload } := by
  have hlength : payload.length ≠ 0 := fun hzero => hpayload (List.length_eq_zero_iff.mp hzero)
  rw [appendSsePayload, if_neg (not_not.mpr hmode)]
  cases hframing : s.framing with
  | chunked => simp only [appendChunk, if_neg hlength, add]
  | closeDelimited => rfl

theorem Shape.appendSsePayload (h : s.Shape plain) {payload : Bytes} (hpayload : payload ≠ []) :
    (s.appendSsePayload payload).1.Shape plain := by
  by_cases hmode : s.mode = .sse
  · rw [appendSsePayload_eq hmode hpayload]
    cases h with
    | nothing hidle => exact absurd (hidle.symm.trans hmode) nofun
    | whole _ _ hfinished => exact absurd (hfinished.symm.trans hmode) nofun
    | ended _ hfinished => exact absurd (hfinished.symm.trans hmode) nofun
    | chunks head _ hframing hwritten hframings hplain hpayloads =>
        refine .chunks head hmode hframing ?_ hframings hplain fun other hother => ?_
        · simp only [written, hframing, List.flatMap_append, ← List.append_assoc] at hwritten ⊢
          rw [hwritten, List.flatMap_singleton]
        · obtain hold | hnew := List.mem_append.mp hother
          · exact hpayloads other hold
          · rw [List.mem_singleton.mp hnew]
            exact hpayload
    | running head _ hframing hwritten hframings hclose hplain hallowed =>
        refine .running head (Or.inl hmode) hframing ?_ hframings hclose hplain hallowed
        simp only [written, hframing, List.flatten_append, ← List.append_assoc] at hwritten ⊢
        rw [hwritten, List.flatten_singleton]
  · rw [WireWriter.appendSsePayload, if_pos hmode]
    exact h

theorem Shape.finish (h : s.Shape plain) : s.finish.1.Shape plain := by
  rw [WireWriter.finish]
  split_ifs with hfinished hmode
  · exact h
  · exact h
  · rw [not_not] at hmode
    cases h with
    | nothing hidle => exact absurd (hidle.symm.trans hmode) nofun
    | whole _ _ hother => exact absurd hother hfinished
    | ended _ hother => exact absurd hother hfinished
    | chunks head _ hframing hwritten hframings hplain hpayloads =>
        simp only [hframing]
        refine .ended head rfl hframing ?_ hframings hplain hpayloads
        simp only [written, add, ← List.append_assoc] at hwritten ⊢
        rw [hwritten]
    | running head _ hframing hwritten hframings hclose hplain hallowed =>
        simp only [hframing]
        exact .running head (Or.inr rfl) rfl hwritten hframings hclose hplain hallowed

theorem Shape.drainTo (h : s.Shape plain) : s.drainTo.Shape plain := by
  have hsame : s.drainTo.written = s.written := List.append_nil _
  cases h with
  | nothing hmode hwritten hpayloads hframing =>
      exact .nothing hmode (hsame.trans hwritten) hpayloads hframing
  | whole head body hmode hwritten hframings hplain hpayloads =>
      exact .whole head body hmode (hsame.trans hwritten) hframings hplain hpayloads
  | chunks head hmode hframing hwritten hframings hplain hpayloads =>
      exact .chunks head hmode hframing (hsame.trans hwritten) hframings hplain hpayloads
  | ended head hmode hframing hwritten hframings hplain hpayloads =>
      exact .ended head hmode hframing (hsame.trans hwritten) hframings hplain hpayloads
  | running head hmode hframing hwritten hframings hclose hplain hallowed =>
      exact .running head hmode hframing (hsame.trans hwritten) hframings hclose hplain hallowed

theorem Shape.step (h : s.Shape plain) (op : Op) (hplain : plain → op.Plain) :
    (s.step op).Shape plain := by
  cases op with
  | startUnary statusCode headers body => exact h.startUnary statusCode body hplain
  | startSse statusCode headers => exact h.startSse statusCode hplain
  | writeEvent event data id => exact h.appendSsePayload (by simp [formatSseEvent])
  | writeComment comment => exact h.appendSsePayload (by simp [formatSseComment])
  | writeRetry retryMs => exact h.appendSsePayload (by simp [formatSseRetry])
  | finish => exact h.finish
  | drainTo => exact h.drainTo

/-! ### Runs -/

/-- How a response says where its body ends. -/
def WellFramed (s : WireWriter) (headers : Headers) (body : Bytes) : Prop :=
  (framings headers = [(ascii "Content-Length", toDecimal body.length)] ∧ s.mode = .finished) ∨
    (framings headers = [(ascii "Transfer-Encoding", ascii "chunked")] ∧
      (s.mode = .sse ∧ Chunking.decode body = none ∧
          Chunking.decode (body ++ Chunking.lastChunk) = some (s.payloads.flatten, []) ∨
        s.mode = .finished ∧ Chunking.decode body = some (s.payloads.flatten, []))) ∨
    (framings headers = [] ∧ (ascii "Connection", ascii "close") ∈ headers ∧
      (s.options.framing = .closeDelimited ∨ s.options.http11 = false) ∧ body = s.payloads.flatten)

/-- What was written is nothing or one response. Where the headers of the callers are single lines, it
reads back as such. Nothing is written once it has ended. -/
structure OneResponse (plain : Prop) (s : WireWriter) : Prop where
  nothing : s.mode = .idle → s.written = []
  response : s.mode ≠ .idle → ∃ (head : Head) (body : Bytes), s.written = head.render ++ body ∧
    s.WellFramed head.headers body ∧
    (plain → readResponse s.written =
      some (statusLine head.http11 head.statusCode, head.headers, body))
  last : s.mode = .finished → ∀ op, (s.step op).written = s.written

theorem written_step_of_finished (h : s.mode = .finished) (op : Op) :
    (s.step op).written = s.written := by
  have hidle : s.mode ≠ .idle := fun hidle => absurd (h.symm.trans hidle) nofun
  have hsse : s.mode ≠ .sse := fun hsse => absurd (h.symm.trans hsse) nofun
  have hpayload (payload : Bytes) : (s.appendSsePayload payload).1 = s := by
    rw [appendSsePayload, if_pos hsse]
  cases op with
  | startUnary statusCode headers body => rw [step, startUnary, if_pos hidle]
  | startSse statusCode headers => rw [step, startSse, if_pos hidle]
  | writeEvent event data id => rw [step, writeEvent, hpayload]
  | writeComment comment => rw [step, writeComment, hpayload]
  | writeRetry retryMs => rw [step, writeRetry, hpayload]
  | finish => rw [step, finish, if_pos h]
  | drainTo => exact List.append_nil _

theorem Shape.oneResponse (h : s.Shape plain) : s.OneResponse plain where
  nothing hmode := (h.of_idle hmode).1
  response hmode := by
    have hread {head : Head} {body : Bytes} (hwritten : s.written = head.render ++ body)
        (hplain : plain → ∀ header ∈ head.headers, SingleLine header) (hp : plain) :
        readResponse s.written = some (statusLine head.http11 head.statusCode, head.headers, body) := by
      rw [hwritten]
      exact readResponse_render (hplain hp) body
    cases h with
    | nothing hidle => exact absurd hidle hmode
    | whole head body hfinished hwritten hframings hplain _ =>
        exact ⟨head, body, hwritten, Or.inl ⟨hframings, hfinished⟩, hread hwritten hplain⟩
    | chunks head hsse _ hwritten hframings hplain hpayloads =>
        have hended := Chunking.decode_chunks hpayloads []
        rw [List.append_nil] at hended
        exact ⟨head, _, hwritten, Or.inr (Or.inl ⟨hframings,
          Or.inl ⟨hsse, Chunking.decode_open hpayloads, hended⟩⟩), hread hwritten hplain⟩
    | ended head hfinished _ hwritten hframings hplain hpayloads =>
        have hended := Chunking.decode_chunks hpayloads []
        rw [List.append_nil] at hended
        exact ⟨head, _, hwritten, Or.inr (Or.inl ⟨hframings, Or.inr ⟨hfinished, hended⟩⟩),
          hread hwritten hplain⟩
    | running head _ _ hwritten hframings hclose hplain hallowed =>
        exact ⟨head, _, hwritten, Or.inr (Or.inr ⟨hframings, hclose, hallowed, rfl⟩),
          hread hwritten hplain⟩
  last hmode := written_step_of_finished hmode

theorem shape_run (options : Options) (ops : List Op) :
    (Runs.run step (new options) ops).Shape (∀ op ∈ ops, op.Plain) := by
  have hguarded : Runs.Guarded step (fun _ op => (∀ other ∈ ops, other.Plain) → op.Plain)
      (new options) ops :=
    Runs.guarded_of_forall step (fun op hop hplain => hplain op hop) _
  exact Runs.invariant step (fun _ op hok hs => hs.step op hok) (shape_new options) hguarded

/-- The bytes are one response, framed by its length or by chunks. -/
def FramedByHeader (bytes : Bytes) : Prop :=
  ∃ status headers body, readResponse bytes = some (status, headers, body) ∧
    (framings headers).length = 1

/-- A stream to a client that has no chunks runs to the end of the connection. -/
def oldClientStream : List Op := [.startSse 200 [], .writeComment [], .finish]

end WireWriter

end GopherMcp
