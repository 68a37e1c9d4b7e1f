import GopherMcp.Core.Bytes

/-!
# The event stream parser

`SseParser` accumulates bytes into a line and acts on each line as it ends. A carriage return ends a
line, and so does a line feed; a carriage return followed by a line feed is one ending, which the
parser sees only by looking one byte ahead in the bytes it was given. A byte order mark is skipped at
the front of the first three or more bytes it is given at once.
-/

namespace GopherMcp

/-! ### Events -/

structure SseEvent where
  id : Option Bytes
  event : Option Bytes
  data : Bytes
  retry : Option UInt64
  hasDataField : Bool
  deriving DecidableEq

namespace SseEvent

def clear : SseEvent := ⟨none, none, [], none, false⟩

def hasContent (event : SseEvent) : Bool :=
  event.hasDataField || event.id.isSome || event.event.isSome || event.retry.isSome

end SseEvent

/-- What the parser tells its callbacks. -/
inductive SseCallback where
  | onSseEvent (event : SseEvent)
  | onSseComment (comment : Bytes)
  | onSseRetry (retryMs : UInt64)
  deriving DecidableEq

/-- The parser's state, with every callback it has made so far, oldest first. -/
structure SseParser where
  lineBuffer : Bytes
  currentEvent : SseEvent
  lastEventId : Bytes
  retryTime : UInt64
  bomChecked : Bool
  callbacks : List SseCallback
  deriving DecidableEq

namespace SseParser

/-- A parser as it is constructed. -/
def fresh : SseParser := ⟨[], SseEvent.clear, [], 3000, false, []⟩

def call (p : SseParser) (callback : SseCallback) : SseParser :=
  { p with callbacks := p.callbacks ++ [callback] }

/-! ### Lines -/

def dispatchEvent (p : SseParser) : SseParser :=
  let event :=
    if p.currentEvent.id.isNone && !p.lastEventId.isEmpty then
      { p.currentEvent with id := some p.lastEventId }
    else p.currentEvent
  let told := if p.currentEvent.hasDataField then p.call (.onSseEvent event) else p
  { told with currentEvent := SseEvent.clear }

def isDigit (byte : UInt8) : Bool := 48 ≤ byte && byte ≤ 57

/-- The value of a retry field, read digit by digit; none when it does not fit 64 bits. -/
def retryValue (value : Bytes) : Option UInt64 :=
  if !value.isEmpty && value.all isDigit then
    value.foldl (fun total byte => total.bind fun retryMs =>
      let digit := (byte - 48).toUInt64
      if retryMs > (0xFFFFFFFFFFFFFFFF - digit) / 10 then none else some (retryMs * 10 + digit))
      (some 0)
  else none

def processField (p : SseParser) (name value : Bytes) : SseParser :=
  if name = ascii "data" then
    let data := if p.currentEvent.data.isEmpty then value else p.currentEvent.data ++ kLF :: value
    { p with currentEvent := { p.currentEvent with hasDataField := true, data := data } }
  else if name = ascii "event" then
    { p with currentEvent := { p.currentEvent with event := some value } }
  else if name = ascii "id" then
    { p with
      currentEvent := { p.currentEvent with id := some value }
      lastEventId := if value.isEmpty then p.lastEventId else value }
  else if name = ascii "retry" then
    match retryValue value with
    | some retryMs =>
        { p with
          currentEvent := { p.currentEvent with retry := some retryMs }
          retryTime := retryMs }.call (.onSseRetry retryMs)
    | none => p
  else p

/-- A field's value starts after its colon, or after the one space behind it. -/
def fieldValue (afterColon : Bytes) : Bytes :=
  match afterColon with
  | byte :: rest => if byte = kSpace then rest else byte :: rest
  | [] => []

def processLine (p : SseParser) (line : Bytes) : SseParser :=
  match line with
  | [] => if p.currentEvent.hasContent then p.dispatchEvent else p
  | first :: rest =>
      if first = kColon then p.call (.onSseComment rest)
      else
        match (first :: rest).dropWhile (· ≠ kColon) with
        | [] => p.processField (first :: rest) []
        | _ :: afterColon =>
            p.processField ((first :: rest).takeWhile (· ≠ kColon)) (fieldValue afterColon)

/-- The end of a line: act on what has accumulated and start the next. -/
def endLine (p : SseParser) : SseParser :=
  { p.processLine p.lineBuffer with lineBuffer := [] }

/-! ### Bytes -/

/-- The loop of `parse`: the byte after a carriage return is looked at only where it was given
together with it. -/
def parseBytes (p : SseParser) : Bytes → SseParser
  | [] => p
  | [ch] =>
      if ch = kCR then p.endLine
      else if ch = kLF then p.endLine
      else { p with lineBuffer := p.lineBuffer ++ [ch] }
  | ch :: next :: rest =>
      if ch = kCR then
        if next = kLF then p.endLine.parseBytes rest
        else p.endLine.parseBytes (next :: rest)
      else if ch = kLF then p.endLine.parseBytes (next :: rest)
      else { p with lineBuffer := p.lineBuffer ++ [ch] }.parseBytes (next :: rest)

def byteOrderMark : Bytes := [0xEF, 0xBB, 0xBF]

def parse (p : SseParser) (data : Bytes) : SseParser :=
  if data.length ≥ 3 && !p.bomChecked then
    { p with bomChecked := true }.parseBytes
      (if byteOrderMark.isPrefixOf data then data.drop 3 else data)
  else p.parseBytes data

/-- One call of `parse` for each chunk, in order. -/
def parseChunks (p : SseParser) (chunks : List Bytes) : SseParser := chunks.foldl parse p

/-- Everything about a parser but whether it has looked for a byte order mark. -/
def outcome (p : SseParser) : List SseCallback × Bytes × SseEvent × Bytes × UInt64 :=
  (p.callbacks, p.lineBuffer, p.currentEvent, p.lastEventId, p.retryTime)

end SseParser

end GopherMcp
