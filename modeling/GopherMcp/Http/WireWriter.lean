import GopherMcp.Http.SseFormatter
import GopherMcp.Lib.Chunking
import GopherMcp.Lib.Runs

/-!
# The response writer

A writer serializes one response: a body behind its length, or a stream of events, each event in a chunk
of its own. A client too old for chunks is refused a stream, unless the body may run to the end of the
connection. Headers that would contradict the framing are dropped.
-/

namespace GopherMcp

namespace WireWriter

abbrev Headers := List (Bytes × Bytes)

inductive Framing
  | chunked | closeDelimited
  deriving DecidableEq

inductive Mode
  | idle | unary | sse | finished
  deriving DecidableEq

structure Options where
  http11 : Bool
  keepAlive : Bool
  allowSseToHttp10 : Bool
  framing : Framing
  deriving DecidableEq

inductive Start
  | streaming | refusedUnary | rejected
  deriving DecidableEq

def toLower (byte : UInt8) : UInt8 := if 65 ≤ byte && byte ≤ 90 then byte + 32 else byte

def lowercase (value : Bytes) : Bytes := value.map toLower

/-- A byte that is no letter is a lowered byte only of itself. -/
theorem toLower_eq_iff {byte other : UInt8} (hupper : ¬ (65 ≤ other ∧ other ≤ 90))
    (hlower : ¬ (97 ≤ other ∧ other ≤ 122)) : toLower byte = other ↔ byte = other := by
  unfold toLower
  split
  case isTrue hletter =>
    rw [Bool.and_eq_true, decide_eq_true_eq, decide_eq_true_eq] at hletter
    constructor
    · rintro rfl
      refine absurd ?_ hlower
      have hsum : (byte + 32).toNat = byte.toNat + 32 := by
        have := UInt8.le_iff_toNat_le.mp hletter.2
        rw [UInt8.toNat_add, Nat.mod_eq_of_lt]
        · rfl
        · exact Nat.lt_of_le_of_lt (Nat.add_le_add_right this 32) (by decide)
      have hleft := UInt8.le_iff_toNat_le.mp hletter.1
      have hright := UInt8.le_iff_toNat_le.mp hletter.2
      rw [UInt8.le_iff_toNat_le, UInt8.le_iff_toNat_le, hsum]
      exact ⟨Nat.add_le_add_right hleft 32, Nat.add_le_add_right hright 32⟩
    · rintro rfl
      exact absurd hletter hupper
  case isFalse => exact Iff.rfl

theorem mem_lowercase_iff {byte : UInt8} (hupper : ¬ (65 ≤ byte ∧ byte ≤ 90))
    (hlower : ¬ (97 ≤ byte ∧ byte ≤ 122)) (text : Bytes) : byte ∈ lowercase text ↔ byte ∈ text := by
  unfold lowercase
  rw [List.mem_map]
  constructor
  · rintro ⟨other, hin, hlow⟩
    rwa [← (toLower_eq_iff hupper hlower).mp hlow]
  · intro hin
    exact ⟨byte, hin, (toLower_eq_iff hupper hlower).mpr rfl⟩

theorem lowercase_append (left right : Bytes) : lowercase (left ++ right) = lowercase left ++ lowercase right :=
  List.map_append

def isFramingHeader (name : Bytes) : Bool :=
  lowercase name = ascii "content-length" || lowercase name = ascii "transfer-encoding" ||
    lowercase name = ascii "connection"

def isStreamHeader (name : Bytes) : Bool :=
  lowercase name = ascii "content-type" || lowercase name = ascii "cache-control" ||
    lowercase name = ascii "x-accel-buffering"

def httpStatusCodeToString (code : UInt16) : Bytes :=
  ascii <|
    match code.toNat with
    | 100 => "Continue"
    | 101 => "Switching Protocols"
    | 200 => "OK"
    | 201 => "Created"
    | 202 => "Accepted"
    | 204 => "No Content"
    | 301 => "Moved Permanently"
    | 302 => "Found"
    | 304 => "Not Modified"
    | 400 => "Bad Request"
    | 401 => "Unauthorized"
    | 403 => "Forbidden"
    | 404 => "Not Found"
    | 405 => "Method Not Allowed"
    | 406 => "Not Acceptable"
    | 408 => "Request Timeout"
    | 429 => "Too Many Requests"
    | 500 => "Internal Server Error"
    | 501 => "Not Implemented"
    | 502 => "Bad Gateway"
    | 503 => "Service Unavailable"
    | 504 => "Gateway Timeout"
    | _ => "Unknown"

end WireWriter

/-- `ResponseWriter`, down to the bytes. `out` is what the caller did not take yet and `drained` what it
took; `payloads` are the events, comments and retry directives of the stream, which the source does not
keep. -/
structure WireWriter where
  options : WireWriter.Options
  mode : WireWriter.Mode
  framing : WireWriter.Framing
  closeAfterFinish : Bool
  out : Bytes
  drained : Bytes
  payloads : List Bytes

namespace WireWriter

inductive Op
  | startUnary (statusCode : Int32) (headers : Headers) (body : Bytes)
  | startSse (statusCode : Int32) (headers : Headers)
  | writeEvent (event data : Bytes) (id : Option Bytes)
  | writeComment (comment : Bytes)
  | writeRetry (retryMs : UInt32)
  | finish
  | drainTo

def new (options : Options) : WireWriter where
  options := options
  mode := .idle
  framing := options.framing
  closeAfterFinish := false
  out := []
  drained := []
  payloads := []

/-- Everything written so far. -/
def written (s : WireWriter) : Bytes := s.drained ++ s.out

def add (s : WireWriter) (bytes : Bytes) : WireWriter := { s with out := s.out ++ bytes }

/-! ### Heads -/

def statusLine (http11 : Bool) (statusCode : Int32) : Bytes :=
  (if http11 then ascii "HTTP/1.1 " else ascii "HTTP/1.0 ") ++ toDecimalSigned statusCode.toInt64 ++
    ascii " " ++ httpStatusCodeToString statusCode.toUInt32.toUInt16

def headerLine (name value : Bytes) : Bytes := name ++ ascii ": " ++ value

def appendStatusLine (s : WireWriter) (statusCode : Int32) : WireWriter :=
  s.add (statusLine s.options.http11 statusCode ++ Chunking.crlf)

def appendHeader (s : WireWriter) (name value : Bytes) : WireWriter :=
  s.add (headerLine name value ++ Chunking.crlf)

/-- The headers of the caller, without those that would fight the writer's own. -/
def appendCallerHeaders (s : WireWriter) (headers : Headers) : WireWriter :=
  headers.foldl (fun s header =>
    if isFramingHeader header.1 then s
    else if s.mode = .sse && isStreamHeader header.1 then s
    else s.appendHeader header.1 header.2) s

def connectionValue (keepAlive : Bool) : Bytes :=
  if keepAlive then ascii "keep-alive" else ascii "close"

/-! ### Starting -/

def startUnary (s : WireWriter) (statusCode : Int32) (headers : Headers) (body : Bytes) :
    WireWriter × Bool :=
  if s.mode ≠ .idle then (s, false)
  else
    let s := { s with mode := .unary }
    let s := (s.appendStatusLine statusCode).appendCallerHeaders headers
    let s := s.appendHeader (ascii "Content-Length") (toDecimal body.length)
    let s := s.appendHeader (ascii "Connection") (connectionValue s.options.keepAlive)
    let s := s.add Chunking.crlf
    let s := if body ≠ [] then s.add body else s
    ({ s with closeAfterFinish := !s.options.keepAlive, mode := .finished }, true)

/-- The answer to a client that cannot be streamed to. -/
def refuseStream (s : WireWriter) : WireWriter :=
  ({ s with options := { s.options with keepAlive := false } }.startUnary 406
    [(ascii "Content-Type", ascii "application/json")]
    (ascii "\x7b\"error\":\"event_stream_requires_http_1_1\"\x7d")).1

/-- The head of a stream in the framing that was settled. -/
def openStream (s : WireWriter) (statusCode : Int32) (headers : Headers) : WireWriter :=
  let s := { s with mode := .sse }
  let s := (s.appendStatusLine statusCode).appendCallerHeaders headers
  let s := s.appendHeader (ascii "Content-Type") (ascii "text/event-stream")
  let s := s.appendHeader (ascii "Cache-Control") (ascii "no-cache")
  let s := s.appendHeader (ascii "X-Accel-Buffering") (ascii "no")
  let s :=
    match s.framing with
    | .chunked =>
        let s := s.appendHeader (ascii "Transfer-Encoding") (ascii "chunked")
        let s := s.appendHeader (ascii "Connection") (connectionValue s.options.keepAlive)
        { s with closeAfterFinish := !s.options.keepAlive }
    | .closeDelimited =>
        { s.appendHeader (ascii "Connection") (ascii "close") with closeAfterFinish := true }
  s.add Chunking.crlf

def startSse (s : WireWriter) (statusCode : Int32) (headers : Headers) :
    WireWriter × Start :=
  if s.mode ≠ .idle then (s, .rejected)
  else if s.options.http11 then (s.openStream statusCode headers, .streaming)
  else if !s.options.allowSseToHttp10 then (s.refuseStream, .refusedUnary)
  else ({ s with framing := .closeDelimited }.openStream statusCode headers, .streaming)

/-! ### Streaming -/

/-- A chunk of size zero would end the body. -/
def appendChunk (s : WireWriter) (payload : Bytes) : WireWriter :=
  if payload.length = 0 then s else s.add (Chunking.encode payload)

def appendSsePayload (s : WireWriter) (payload : Bytes) : WireWriter × Bool :=
  if s.mode ≠ .sse then (s, false)
  else
    let s := { s with payloads := s.payloads ++ [payload] }
    match s.framing with
    | .chunked => (s.appendChunk payload, true)
    | .closeDelimited => (s.add payload, true)

def writeEvent (s : WireWriter) (event data : Bytes) (id : Option Bytes) : WireWriter × Bool :=
  s.appendSsePayload (formatSseEvent event data id)

def writeComment (s : WireWriter) (comment : Bytes) : WireWriter × Bool :=
  s.appendSsePayload (formatSseComment comment)

def writeRetry (s : WireWriter) (retryMs : UInt32) : WireWriter × Bool :=
  s.appendSsePayload (formatSseRetry retryMs)

def finish (s : WireWriter) : WireWriter × Bool :=
  if s.mode = .finished then (s, true)
  else if s.mode ≠ .sse then (s, false)
  else
    match s.framing with
    | .chunked => ({ s.add Chunking.lastChunk with mode := .finished }, true)
    | .closeDelimited => ({ s with mode := .finished }, true)

/-- The bytes serialized are handed to the caller. -/
def drainTo (s : WireWriter) : WireWriter := { s with out := [], drained := s.drained ++ s.out }

def step (s : WireWriter) : Op → WireWriter
  | .startUnary statusCode headers body => (s.startUnary statusCode headers body).1
  | .startSse statusCode headers => (s.startSse statusCode headers).1
  | .writeEvent event data id => (s.writeEvent event data id).1
  | .writeComment comment => (s.writeComment comment).1
  | .writeRetry retryMs => (s.writeRetry retryMs).1
  | .finish => s.finish.1
  | .drainTo => s.drainTo

end WireWriter

end GopherMcp
