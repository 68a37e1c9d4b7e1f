import GopherMcp.Buffer.OwnedBuffer
import GopherMcp.Filter.FilterManager
import GopherMcp.Http.WireWriter
import GopherMcp.Lib.OrdMap
import Mathlib.Data.List.DropRight

/-!
# Protocol detection

The first bytes of a connection say which protocol it speaks. They are to be held in a buffer of the filter
until they say enough, and to be given back for the filters behind then. A buffer is moved to another by
asking the one that is moved; here the other one is asked.
-/

namespace GopherMcp

open WireWriter (lowercase)

inductive DetectedProtocol
  | unknown | http | jsonRpc | sse | webSocket
  deriving DecidableEq

structure ProtocolDetectionResult where
  protocol : DetectedProtocol
  needsMoreData : Bool
  bytesInspected : Nat
  httpMethod : Bytes
  httpPath : Bytes
  isSseRequest : Bool
  deriving DecidableEq

/-- The filter, and what its handler was told. -/
structure ProtocolDetectionFilter where
  detectionComplete : Bool
  detectedProtocol : DetectedProtocol
  detectionBuffer : SliceDeque
  handled : List ProtocolDetectionResult

/-- The filter on a connection: what was read and not consumed, and what the filters behind were given. -/
structure DetectingConnection where
  filter : ProtocolDetectionFilter
  readBuffer : SliceDeque
  passedOn : Bytes

/-! ### What the bytes say -/

namespace ProtocolDetection

def kMinDetectionBytes : Nat := 16

def kMaxDetectionBytes : Nat := 4096

def kHttpMethods : List Bytes :=
  [ascii "GET", ascii "POST", ascii "PUT", ascii "DELETE", ascii "HEAD", ascii "OPTIONS", ascii "PATCH",
    ascii "CONNECT", ascii "TRACE"]

def kLF : UInt8 := 10

/-- Where the text has the needle first. -/
def find (needle : Bytes) : Bytes → Option Nat
  | [] => if needle.isEmpty then some 0 else none
  | byte :: rest =>
      if (byte :: rest).take needle.length == needle then some 0 else (find needle rest).map (· + 1)

def contains (text needle : Bytes) : Bool := (find needle text).isSome

def isSpace (byte : UInt8) : Bool := byte == 32 || (9 ≤ byte && byte ≤ 13)

/-- A method, a space, and a version on the first line. -/
def isHttpRequest (data : Bytes) : Bool :=
  if data.length < 16 then false
  else
    kHttpMethods.any fun method =>
      decide (method.length + 1 ≤ data.length) && data.take method.length == method &&
        data[method.length]? == some kSpace &&
        match (data.take 128).findIdx? (· == kLF) with
        | none => false
        | some lineEnd => contains (data.take lineEnd) (ascii " HTTP/")

/-- An object that has a field of a request. -/
def isJsonRpcRequest (data : Bytes) : Bool :=
  if data.length < 2 then false
  else
    let pos := ((data.take 256).takeWhile isSpace).length
    if data.length ≤ pos then false
    else if data[pos]? != some 123 then false
    else
      let start := (data.take 256).drop pos
      contains start (ascii "\"jsonrpc\"") || contains start (ascii "'jsonrpc'") ||
        contains start (ascii "\"method\"") || contains start (ascii "'method'")

/-- A line without its carriage return. -/
def withoutReturn (line : Bytes) : Bytes := if line.getLast? = some kCR then line.dropLast else line

def trimmed (value : Bytes) : Bytes := (value.dropWhile isSpace).rdropWhile isSpace

def addHeaderLine (headers : OrdMap Bytes Bytes) (line : Bytes) : OrdMap Bytes Bytes :=
  match line.findIdx? (· == kColon) with
  | none => headers
  | some colon =>
      let value := trimmed (line.drop (colon + 1))
      if value.isEmpty then headers else headers.insert (lowercase (line.take colon)) value

/-- The headers before the empty line, as far as their lines end before it. -/
def extractHttpHeaders (data : Bytes) : OrdMap Bytes Bytes :=
  let bytes := data.take kMaxDetectionBytes
  match (find (ascii "\r\n\r\n") bytes).or (find (ascii "\n\n") bytes) with
  | none => .empty
  | some headersEnd =>
      match bytes.findIdx? (· == kLF) with
      | none => .empty
      | some firstEnd =>
          (((bytes.take headersEnd).drop (firstEnd + 1)).splitOn kLF).dropLast.foldl
            (fun headers line => addHeaderLine headers (withoutReturn line)) .empty

/-- The first line up to its end, if it ends. -/
def firstLine (bytes : Bytes) : Bytes :=
  match bytes.findIdx? (· == kLF) with
  | none => []
  | some lineEnd => withoutReturn (bytes.take lineEnd)

/-- The method and the path of a request line. -/
def requestLine (line : Bytes) : Bytes × Bytes :=
  match line.findIdx? (· == kSpace) with
  | none => ([], [])
  | some space1 =>
      match (line.drop (space1 + 1)).findIdx? (· == kSpace) with
      | none => (line.take space1, [])
      | some length => (line.take space1, (line.drop (space1 + 1)).take length)

/-- What the bytes say of the protocol. -/
def detectProtocol (data : Bytes) : ProtocolDetectionResult :=
  if data.length < kMinDetectionBytes then ⟨.unknown, true, 0, [], [], false⟩
  else
    let bytes := data.take kMaxDetectionBytes
    if isHttpRequest data then
      let line := requestLine (firstLine bytes)
      let sse := ((extractHttpHeaders data).find? (ascii "accept")).any (contains · (ascii "text/event-stream"))
      ⟨if sse then .sse else .http, false, bytes.length, line.1, line.2, sse⟩
    else if isJsonRpcRequest data then ⟨.jsonRpc, false, bytes.length, [], [], false⟩
    else if bytes.head? = some 123 || kHttpMethods.any (fun method => bytes.take method.length == method) then
      ⟨.unknown, true, bytes.length, [], [], false⟩
    else ⟨.jsonRpc, false, bytes.length, [], [], false⟩

end ProtocolDetection

open ProtocolDetection

/-! ### The filter -/

namespace ProtocolDetectionFilter

def onNewConnection (s : ProtocolDetectionFilter) : ProtocolDetectionFilter :=
  { s with detectionComplete := false, detectedProtocol := .unknown, detectionBuffer := .empty }

def completeDetection (s : ProtocolDetectionFilter) (result : ProtocolDetectionResult) :
    ProtocolDetectionFilter :=
  { s with
    detectionComplete := true
    detectedProtocol := result.protocol
    handled := s.handled ++ [result] }

/-- The protocol is known: `data.move(*detection_buffer_)`. -/
def complete (grow : Nat → Nat) (s : ProtocolDetectionFilter) (data : SliceDeque)
    (result : ProtocolDetectionResult) : ProtocolDetectionFilter × SliceDeque :=
  let moved := data.move grow s.detectionBuffer data.length
  ({ s.completeDetection result with detectionBuffer := moved.2 }, moved.1)

def onData (grow : Nat → Nat) (s : ProtocolDetectionFilter) (data : SliceDeque) :
    (ProtocolDetectionFilter × SliceDeque) × FilterStatus :=
  if s.detectionComplete then ((s, data), .continue)
  else
    -- `detection_buffer_->move(data)`
    let moved := s.detectionBuffer.move grow data s.detectionBuffer.length
    let s := { s with detectionBuffer := moved.1 }
    let result := detectProtocol s.detectionBuffer.toString
    if result.protocol ≠ .unknown then (s.complete grow moved.2 result, .continue)
    else if kMaxDetectionBytes ≤ s.detectionBuffer.length then
      (s.complete grow moved.2 { result with protocol := .jsonRpc }, .continue)
    else ((s, moved.2), .stopIteration)

end ProtocolDetectionFilter

namespace DetectingConnection

/-- A connection that has read nothing. -/
def new : DetectingConnection where
  filter := ProtocolDetectionFilter.onNewConnection ⟨false, .unknown, .empty, []⟩
  readBuffer := .empty
  passedOn := []

/-- What is read goes to the read buffer, and the filters behind consume all that they are given. -/
def read (grow : Nat → Nat) (s : DetectingConnection) (bytes : Bytes) : DetectingConnection :=
  let answer := s.filter.onData grow (s.readBuffer.add grow bytes)
  match answer.2 with
  | .stopIteration => { s with filter := answer.1.1, readBuffer := answer.1.2 }
  | .continue =>
      { filter := answer.1.1
        readBuffer := answer.1.2.drain answer.1.2.length
        passedOn := s.passedOn ++ answer.1.2.toString }

/-! ### What detection promises -/

/-- The bytes do not say which protocol it is, and they are few enough to wait for more. -/
def Undecided (bytes : Bytes) : Prop :=
  (detectProtocol bytes).protocol = .unknown ∧ bytes.length < kMaxDetectionBytes

/-- However the bytes were read, there is the same verdict on them, which is one unless they are undecided,
and they are passed on once there is one. -/
def Transparent (grow : Nat → Nat) (bytes : Bytes) : Prop :=
  ∃ verdict, (verdict = .unknown ↔ Undecided bytes) ∧ ∀ reads : List Bytes, reads.flatten = bytes →
    let s := Runs.run (read grow) new reads
    s.filter.detectedProtocol = verdict ∧ (verdict ≠ .unknown → s.passedOn = bytes)

/-! ### Nothing is detected -/

/-- The buffer of the filter is empty, and there is no verdict. -/
structure Waiting (s : DetectingConnection) : Prop where
  incomplete : s.filter.detectionComplete = false
  verdict : s.filter.detectedProtocol = .unknown
  held : s.filter.detectionBuffer = .empty
  passedOn : s.passedOn = []

/-- Of an empty buffer nothing is moved. -/
theorem move_empty (grow : Nat → Nat) (data : SliceDeque) :
    SliceDeque.empty.move grow data SliceDeque.empty.length = (.empty, data) := rfl

theorem onData_of_empty {grow : Nat → Nat} {s : ProtocolDetectionFilter}
    (hincomplete : s.detectionComplete = false) (hheld : s.detectionBuffer = .empty) (data : SliceDeque) :
    s.onData grow data = ((s, data), .stopIteration) := by
  have hnothing : (detectProtocol SliceDeque.empty.toString).protocol = .unknown := rfl
  have hfew : ¬ kMaxDetectionBytes ≤ SliceDeque.empty.length := by decide
  obtain ⟨complete, protocol, buffer, handled⟩ := s
  dsimp only at hincomplete hheld
  subst hincomplete hheld
  unfold ProtocolDetectionFilter.onData
  rw [if_neg Bool.false_ne_true]
  dsimp only
  rw [move_empty]
  dsimp only
  rw [if_neg (not_not.mpr hnothing), if_neg hfew]

theorem waiting_read {grow : Nat → Nat} {s : DetectingConnection} (h : s.Waiting) (bytes : Bytes) :
    (s.read grow bytes).Waiting := by
  have hdata := @onData_of_empty grow _ h.incomplete h.held (s.readBuffer.add grow bytes)
  unfold read
  rw [hdata]
  exact ⟨h.incomplete, h.verdict, h.held, h.passedOn⟩

theorem waiting_run (grow : Nat → Nat) (reads : List Bytes) :
    (Runs.run (read grow) new reads).Waiting := by
  have hstart : Waiting new := ⟨rfl, rfl, rfl, rfl⟩
  exact @Runs.invariant_of_every_step _ _ (read grow) Waiting (fun _ bytes h => waiting_read h bytes) _ hstart
    reads

/-- **Detection.** A byte stream is detected and passed on as it should be exactly as long as there is nothing
to detect and nothing to pass on. -/
theorem transparent_iff (grow : Nat → Nat) (bytes : Bytes) : Transparent grow bytes ↔ Undecided bytes := by
  constructor
  · rintro ⟨verdict, hverdict, hall⟩
    have hone := (hall [bytes] List.flatten_singleton).1
    rw [(waiting_run grow [bytes]).verdict] at hone
    exact hverdict.mp hone.symm
  · intro h
    refine ⟨.unknown, iff_of_true rfl h, fun reads _ => ⟨(waiting_run grow reads).verdict, ?_⟩⟩
    intro hknown
    exact absurd rfl hknown

/-- A request is not detected. -/
theorem not_transparent_request :
    ¬ Transparent (fun capacity => 2 * capacity) (ascii "GET / HTTP/1.1\r\n\r\n") := by
  rintro ⟨verdict, hverdict, hall⟩
  have hone := (hall [ascii "GET / HTTP/1.1\r\n\r\n"] List.flatten_singleton).1
  rw [(waiting_run _ _).verdict] at hone
  have hundecided := (hverdict.mp hone.symm).1
  revert hundecided
  decide

end DetectingConnection

end GopherMcp
