import GopherMcp.Filter.CodecTimers
import GopherMcp.Http.WrittenResponses
import GopherMcp.Lib.OrdMap

/-!
# What the HTTP codec writes

Whatever is written through the codec is framed on the way, as a response of a server or a request of a
client, but only in some states of the machine. In the others the payload passes as it is. What comes in
moves the machine, and so do its timers; a machine that was closed, or met an error, is not brought back by
what comes in afterwards.
-/

namespace GopherMcp

open WireWriter (Headers Head framings lowercase)

/-- What the codec did: a payload went out as some bytes, or bytes came in and the machine was prepared for
them. -/
inductive CodecAct
  | wrote (payload out : Bytes) (reported : Bool)
  | received (before after : HttpCodecState)
  deriving DecidableEq

/-- The codec filter on the side of writing. Of the stream it keeps what a response depends on; `errors`
counts what was reported to the callbacks, and `acts` is what the codec did. -/
structure HttpCodecFilter where
  machine : HttpCodecStateMachine
  http11 : Bool
  keepAlive : Bool
  clientPath : Bytes
  clientHost : Bytes
  clientHeaders : OrdMap Bytes Bytes
  messageEndpoint : Option Bytes
  useSseGet : Bool
  sseGetSent : Bool
  responseHeaders : Headers
  errors : Nat
  acts : List CodecAct

/-- What happens to the codec. A read is `data` followed by what the parser calls, in whatever division it
came; the headers of a message come with whether it is HTTP/1.1, is kept alive and has a body. `encode` is
the encoder, with the headers or the body of a message. -/
inductive CodecOp
  | data
  | messageBegin
  | headersComplete (http11 keepAlive hasBody : Bool)
  | bodyData
  | messageComplete
  | parseError
  | fires (timer : CodecTimer)
  | encodeHeaders (endStream : Bool)
  | encodeData (endStream : Bool)
  | write (payload : Bytes) (endStream : Bool)
  | setClientEndpoint (path host : Bytes)
  | setClientHeaders (headers : OrdMap Bytes Bytes)
  | setMessageEndpoint (endpoint : Bytes)
  | setUseSseGet (use : Bool)
  | markSseGetSent
  | setResponseHeaders (headers : OrdMap Bytes Bytes)

namespace HttpCodecFilter

/-- A client's responses may be streams without an end, so they have no body timeout. -/
def machineConfig (isServer : Bool) : HttpCodecStateMachineConfig where
  isServer := isServer
  headerTimeout := 30000
  bodyTimeout := if isServer then 60000 else 0
  idleTimeout := 120000
  enableKeepAlive := true

def new (isServer : Bool) : HttpCodecFilter where
  machine := HttpCodecStateMachine.new (machineConfig isServer)
  http11 := true
  keepAlive := true
  clientPath := ascii "/rpc"
  clientHost := ascii "localhost"
  clientHeaders := OrdMap.empty
  messageEndpoint := none
  useSseGet := false
  sseGetSent := false
  responseHeaders := []
  errors := 0
  acts := []

def isServer (s : HttpCodecFilter) : Bool := s.machine.config.isServer

def handleEvent (s : HttpCodecFilter) (event : HttpCodecEvent) : HttpCodecFilter :=
  { s with machine := s.machine.handleEvent event [] }

def onError (s : HttpCodecFilter) : HttpCodecFilter := { s with errors := s.errors + 1 }

def resetStream (s : HttpCodecFilter) : HttpCodecFilter := { s with http11 := true, keepAlive := true }

def note (s : HttpCodecFilter) (act : CodecAct) : HttpCodecFilter := { s with acts := s.acts ++ [act] }

/-! ### Reading -/

/-- Before the data is parsed: a closed machine is reset for the next message. -/
def onData (s : HttpCodecFilter) : HttpCodecFilter :=
  if s.machine.currentState = .closed then
    let machine := s.machine.resetForNextRequest []
    ({ s with machine := machine }.resetStream).note (.received s.machine.currentState machine.currentState)
  else s.note (.received s.machine.currentState s.machine.currentState)

def onMessageBegin (s : HttpCodecFilter) : HttpCodecFilter :=
  (s.handleEvent (if s.isServer then .requestBegin else .responseBegin)).resetStream

def onHeadersComplete (s : HttpCodecFilter) (http11 keepAlive hasBody : Bool) : HttpCodecFilter :=
  let s := { s with http11 := http11, keepAlive := keepAlive }
  if s.isServer then
    { s with machine := { s.machine with expectRequestBody := hasBody } }.handleEvent .requestHeadersComplete
  else
    { s with machine := { s.machine with expectResponseBody := hasBody } }.handleEvent
      .responseHeadersComplete

def onBody (s : HttpCodecFilter) : HttpCodecFilter :=
  s.handleEvent (if s.isServer then .requestBodyData else .responseBodyData)

def onMessageComplete (s : HttpCodecFilter) : HttpCodecFilter :=
  s.handleEvent (if s.isServer then .requestComplete else .responseComplete)

def handleParserError (s : HttpCodecFilter) : HttpCodecFilter := (s.handleEvent .parseError).onError

/-- A timer fires; a timeout of headers or body is reported. -/
def timerFires (s : HttpCodecFilter) (timer : CodecTimer) : HttpCodecFilter :=
  let fired := { s with machine := s.machine.step (.fires [] timer) }
  if timer ≠ .idle ∧ s.machine.asks (.fires [] timer) ≠ none then fired.onError else fired

/-- The end of a message that was encoded. -/
def encoded (s : HttpCodecFilter) (endStream : Bool) : HttpCodecFilter :=
  if endStream then s.handleEvent (if s.isServer then .responseComplete else .requestComplete) else s

def encodeHeaders (s : HttpCodecFilter) (endStream : Bool) : HttpCodecFilter :=
  (s.handleEvent (if s.isServer then .responseBegin else .requestBegin)).encoded endStream

/-! ### Writing -/

/-- Whether a payload is taken for a message that has its framing. -/
def httpFormatted (payload : Bytes) : Bool := decide (5 ≤ payload.length) && payload.take 5 == ascii "HTTP/"

def isValidClientHeader (name value : Bytes) : Bool :=
  let invalid (text : Bytes) := text.any fun byte => byte == 13 || byte == 10 || byte == 0
  !name.isEmpty && !value.isEmpty && !invalid name && !invalid value

def isGeneratedClientHeader (name : Bytes) : Bool :=
  name.head? == some kColon ||
    [ascii "host", ascii "content-length", ascii "transfer-encoding", ascii "connection", ascii "accept",
      ascii "content-type", ascii "user-agent", ascii "cache-control"].contains (lowercase name)

/-- The client headers that go out with a request. -/
def sentClientHeaders (headers : OrdMap Bytes Bytes) : Headers :=
  headers.entries.filter fun header =>
    isValidClientHeader header.1 header.2 && !isGeneratedClientHeader header.1

/-- A method other than POST, which comes without a body. -/
def bodylessMethod (s : HttpCodecFilter) : Bytes :=
  if s.isServer then []
  else
    match s.clientHeaders.find? (ascii ":method") with
    | some method => if method ≠ ascii "POST" then method else []
    | none => []

/-- What follows the first occurrence of `://`. -/
def afterScheme : Bytes → Option Bytes
  | [] => none
  | byte :: rest => if (byte :: rest).take 3 = ascii "://" then some ((byte :: rest).drop 3) else afterScheme rest

/-- The path of a request with a body: that of the message endpoint, if there is one. -/
def postPath (s : HttpCodecFilter) : Bytes :=
  match s.messageEndpoint with
  | none => s.clientPath
  | some endpoint =>
      match afterScheme endpoint with
      | none => endpoint
      | some rest =>
          match rest.dropWhile (· ≠ 47) with
          | [] => s.clientPath
          | path => path

def requestLine (method path : Bytes) : Bytes := method ++ ascii " " ++ path ++ ascii " HTTP/1.1"

def renderRequest (method path : Bytes) (headers : Headers) : Bytes :=
  requestLine method path ++ Chunking.crlf ++
    headers.flatMap (fun header => WireWriter.headerLine header.1 header.2 ++ Chunking.crlf) ++ Chunking.crlf

def userAgent : Bytes × Bytes := (ascii "User-Agent", ascii "gopher-mcp/1.0")

def connection : Bytes × Bytes := (ascii "Connection", ascii "keep-alive")

/-- The request that opens an event stream. -/
def sseGetRequest (s : HttpCodecFilter) : Bytes :=
  renderRequest (ascii "GET") s.clientPath <|
    [(ascii "Host", s.clientHost), (ascii "Accept", ascii "text/event-stream"),
      (ascii "Cache-Control", ascii "no-cache"), connection, userAgent] ++ sentClientHeaders s.clientHeaders

/-- What a request without a body accepts. -/
def acceptValue (s : HttpCodecFilter) : Bytes :=
  match s.clientHeaders.find? (ascii ":accept") with
  | some accept => if accept.isEmpty then ascii "application/json, text/event-stream" else accept
  | none => ascii "application/json, text/event-stream"

def bodylessRequest (s : HttpCodecFilter) : Bytes :=
  renderRequest s.bodylessMethod s.clientPath <|
    [(ascii "Host", s.clientHost), (ascii "Accept", s.acceptValue), connection, userAgent] ++
      sentClientHeaders s.clientHeaders

def postHeaders (s : HttpCodecFilter) (payload : Bytes) : Headers :=
  [(ascii "Host", s.clientHost), (ascii "Content-Type", ascii "application/json"),
    (ascii "Content-Length", toDecimal payload.length),
    (ascii "Accept", ascii "application/json, text/event-stream"), connection, userAgent] ++
    sentClientHeaders s.clientHeaders

def postRequest (s : HttpCodecFilter) (payload : Bytes) : Bytes :=
  renderRequest (ascii "POST") s.postPath (s.postHeaders payload) ++ payload

def answerHeaders (s : HttpCodecFilter) : Headers :=
  [(ascii "Content-Type", ascii "application/json"), (ascii "Cache-Control", ascii "no-cache")] ++
    s.responseHeaders

/-- The response a server frames. -/
def response (s : HttpCodecFilter) (payload : Bytes) : Bytes :=
  ((WireWriter.new ⟨s.http11, s.keepAlive, false, .chunked⟩).startUnary 200 s.answerHeaders payload).1.out

def serverCanWrite (s : HttpCodecFilter) : Prop :=
  s.machine.currentState ≠ .closed ∧ s.machine.currentState ≠ .error

instance (s : HttpCodecFilter) : Decidable s.serverCanWrite := inferInstanceAs (Decidable (_ ∧ _))

def clientCanWrite (s : HttpCodecFilter) : Prop :=
  s.machine.currentState = .idle ∨ s.machine.currentState = .waitingForResponse ∨
    s.machine.currentState = .receivingResponseBody

instance (s : HttpCodecFilter) : Decidable s.clientCanWrite := inferInstanceAs (Decidable (_ ∨ _))

def writeResponse (s : HttpCodecFilter) (payload : Bytes) (endStream : Bool) : HttpCodecFilter × Bytes :=
  if s.serverCanWrite then
    if httpFormatted payload then (s, payload)
    else
      let begun := s.handleEvent .responseBegin
      (if endStream then begun.handleEvent .responseComplete else begun, s.response payload)
  else (s, payload)

def writeRequest (s : HttpCodecFilter) (payload : Bytes) : HttpCodecFilter × Bytes :=
  if s.clientCanWrite then
    let isSseGet := s.useSseGet && !s.sseGetSent && payload.isEmpty
    let out :=
      if isSseGet then s.sseGetRequest
      else if !s.bodylessMethod.isEmpty then s.bodylessRequest
      else s.postRequest payload
    let sent := if isSseGet then { s with sseGetSent := true } else s
    (if s.machine.currentState = .idle then (sent.handleEvent .requestBegin).handleEvent .requestComplete
      else sent, out)
  else (s, payload)

/-- The bytes that leave in place of a payload. -/
def onWrite (s : HttpCodecFilter) (payload : Bytes) (endStream : Bool) : HttpCodecFilter × Bytes :=
  if payload.isEmpty && s.bodylessMethod.isEmpty && (s.isServer || !s.useSseGet || s.sseGetSent) then
    (s, payload)
  else if s.isServer then s.writeResponse payload endStream
  else s.writeRequest payload

def step (s : HttpCodecFilter) : CodecOp → HttpCodecFilter
  | .data => s.onData
  | .messageBegin => s.onMessageBegin
  | .headersComplete http11 keepAlive hasBody => s.onHeadersComplete http11 keepAlive hasBody
  | .bodyData => s.onBody
  | .messageComplete => s.onMessageComplete
  | .parseError => s.handleParserError
  | .fires timer => s.timerFires timer
  | .encodeHeaders endStream => s.encodeHeaders endStream
  | .encodeData endStream => s.encoded endStream
  | .write payload endStream =>
      let (after, out) := s.onWrite payload endStream
      after.note (.wrote payload out (decide (s.errors < after.errors)))
  | .setClientEndpoint path host => { s with clientPath := path, clientHost := host }
  | .setClientHeaders headers => { s with clientHeaders := headers }
  | .setMessageEndpoint endpoint => { s with messageEndpoint := some endpoint }
  | .setUseSseGet use => { s with useSseGet := use }
  | .markSseGetSent => { s with sseGetSent := true }
  | .setResponseHeaders headers => { s with responseHeaders := headers.entries }

end HttpCodecFilter

end GopherMcp
