import GopherMcp.Filter.CodecHeads

/-!
# Responses as they are read

An HTTP parser reports responses callback by callback: a token in as many spans as reads it lies across, a body in
as many pieces, and of a body that only the end of the input ends no end at all before that. What a request is to be
settled with can be read off the reports: the first response that is not an interim one, once it is whole, or the head
at which whoever asked says that it has seen enough.
-/

namespace GopherMcp

open WireWriter (lowercase mem_lowercase_iff)

/-- What the parser calls back with. Of a head it also says whether only the end of the input ends its body. -/
inductive ParserEvent
  | messageBegin
  | status (data : Bytes)
  | headerField (data : Bytes)
  | headerValue (data : Bytes)
  | headersComplete (statusCode : UInt16) (needsEof : Bool)
  | body (data : Bytes)
  | messageComplete

/-- A response. -/
structure ResponseMessage where
  statusCode : UInt16
  reason : Bytes
  fields : List (Bytes × Bytes)
  body : Bytes

/-- A 1xx response comes before another. -/
def ResponseMessage.isInterim (m : ResponseMessage) : Bool := 100 ≤ m.statusCode && m.statusCode < 200

/-- A field under each name, of several under one name the last. -/
def headerMap (fields : List (Bytes × Bytes)) : OrdMap Bytes Bytes :=
  fields.foldl (fun m field => m.insert (lowercase field.1) field.2) .empty

/-- The spans a head has come in so far, the field that is being read apart. -/
structure HeadSoFar where
  start : List Bytes
  done : List (List Bytes × List Bytes)
  pending : Option (List Bytes × List Bytes)

namespace HeadSoFar

def empty : HeadSoFar := ⟨[], [], none⟩

def division (h : HeadSoFar) : HeadDivision := ⟨h.start, h.done ++ h.pending.toList⟩

/-- A span of a name: of the field that is being read, if it has no value yet, else of the next. -/
def addName (h : HeadSoFar) (data : Bytes) : HeadSoFar :=
  match h.pending with
  | none => { h with pending := some ([data], []) }
  | some (names, []) => { h with pending := some (names ++ [data], []) }
  | some (names, value :: values) =>
      { h with done := h.done ++ [(names, value :: values)], pending := some ([data], []) }

def addValue (h : HeadSoFar) (data : Bytes) : HeadSoFar :=
  { h with pending := h.pending.map fun field => (field.1, field.2 ++ [data]) }

def addReason (h : HeadSoFar) (data : Bytes) : HeadSoFar := { h with start := h.start ++ [data] }

/-- The fields, put together again. -/
def fields (h : HeadSoFar) : List (Bytes × Bytes) :=
  h.division.fields.map fun field => (field.1.flatten, field.2.flatten)

end HeadSoFar

inductive ReadPhase
  | between | head | body
  deriving DecidableEq

/-- What has been read, and what the request is to be settled with. -/
structure ResponseReader where
  phase : ReadPhase
  head : HeadSoFar
  statusCode : UInt16
  needsEof : Bool
  body : Bytes
  settled : Option ResponseMessage

namespace ResponseReader

def new : ResponseReader := ⟨.between, .empty, 0, false, [], none⟩

/-- The response that is being read. -/
def message (r : ResponseReader) : ResponseMessage := ⟨r.statusCode, r.head.start.flatten, r.head.fields, r.body⟩

/-- The first answer counts. -/
def settle (r : ResponseReader) (enough : Bool) : ResponseReader :=
  if enough && r.settled.isNone then { r with settled := some r.message } else r

/-- What is heard of the parser. Fields behind a body are not fields of the head. -/
def hear (stops : ResponseMessage → Bool) (r : ResponseReader) : ParserEvent → ResponseReader
  | .messageBegin =>
      { r with phase := .head, head := .empty, statusCode := 0, needsEof := false, body := [] }
  | .status data => { r with head := r.head.addReason data }
  | .headerField data => if r.phase = .head then { r with head := r.head.addName data } else r
  | .headerValue data => if r.phase = .head then { r with head := r.head.addValue data } else r
  | .headersComplete statusCode needsEof =>
      let r := { r with phase := .body, statusCode := statusCode, needsEof := needsEof }
      r.settle (stops r.message)
  | .body data => { r with body := r.body ++ data }
  | .messageComplete => { r.settle (!r.message.isInterim) with phase := .between }

/-- Whether the end of the input is the end of a response that is not an interim one. -/
def awaitsEnd (r : ResponseReader) : Bool := r.phase = .body && r.needsEof && !r.message.isInterim

/-- The end of the input. -/
def ended (r : ResponseReader) : ResponseReader := r.settle r.awaitsEnd

/-- What the parser reports when: a message from its beginning on, no name with a colon in it, and of a body that
only the end of the input ends no end. -/
def Reports (r : ResponseReader) : ParserEvent → Prop
  | .messageBegin => r.phase = .between
  | .status _ => r.phase = .head ∧ r.head.division.fields = []
  | .headerField data => r.phase ≠ .between ∧ kColon ∉ data
  | .headerValue _ => r.phase = .body ∨ r.phase = .head ∧ r.head.pending.isSome
  | .headersComplete _ _ => r.phase = .head
  | .body _ => r.phase = .body
  | .messageComplete => r.phase = .body ∧ r.needsEof = false

instance decidableReports (r : ResponseReader) : (event : ParserEvent) → Decidable (r.Reports event)
  | .messageBegin | .headersComplete _ _ | .body _ => inferInstanceAs (Decidable (_ = _))
  | .status _ | .headerField _ | .messageComplete => inferInstanceAs (Decidable (_ ∧ _))
  | .headerValue _ => inferInstanceAs (Decidable (_ ∨ _))

end ResponseReader

end GopherMcp
