import GopherMcp.Filter.ClientBodies
import GopherMcp.Filter.ProtocolDetection
import GopherMcp.Http.ResponseReader
import GopherMcp.Protocol.MirroredHeaders

/-!
# The HTTP client

A request has a context of its own, with its own connection and its own codec. The context is settled once: a response
that the parser says is complete, or headers with which its caller says that it has seen enough, make it call
`on_response`; an error of the parser, or a connection that closes, `on_error`. Settled, it leaves the client's table
and is deleted later. The reader beside it, which no function of the client looks at, keeps what was read as HTTP means
it.
-/

namespace GopherMcp

open MirroredHeaders (isDigit numberOf kPlus kMinus afterSign)
open ProtocolDetection (find isSpace)

/-! ### URLs -/

/-- `std::stoi`, which throws where there is no number or none that an `int` holds. -/
def stoi (text : Bytes) : Option Int :=
  let text := text.dropWhile isSpace
  let digits := (afterSign text).takeWhile isDigit
  let value : Int := if text.head? = some kMinus then -numberOf digits else numberOf digits
  if digits = [] then none else if -2 ^ 31 ≤ value ∧ value < 2 ^ 31 then some value else none

structure ParsedUrl where
  tls : Bool
  host : Bytes
  port : UInt16
  path : Bytes

/-- What stands behind the scheme. -/
def parseAuthority (rest : Bytes) (tls : Bool) (port : UInt16) : Option ParsedUrl :=
  let pathStart := find (ascii "/") rest
  let hostport := pathStart.elim rest rest.take
  let path := pathStart.elim (ascii "/") rest.drop
  if hostport = [] then none
  else
    match find (ascii ":") hostport with
    | none => some ⟨tls, hostport, port, path⟩
    | some colon =>
        match stoi (hostport.drop (colon + 1)) with
        | none => none
        | some number =>
            if hostport.take colon = [] then none
            else some ⟨tls, hostport.take colon, UInt16.ofNat (number % 65536).toNat, path⟩

def parseUrl (url : Bytes) : Option ParsedUrl :=
  match find (ascii "://") url with
  | none => none
  | some protoEnd =>
      if url.take protoEnd = ascii "http" then parseAuthority (url.drop (protoEnd + 3)) false 80
      else if url.take protoEnd = ascii "https" then parseAuthority (url.drop (protoEnd + 3)) true 443
      else none

/-! ### The context of a request -/

structure HttpResponse where
  statusCode : Int
  statusText : Bytes
  headers : OrdMap Bytes Bytes
  body : Bytes

def statusTextForCode (code : Int) : Bytes :=
  if code = 200 then ascii "OK"
  else if code = 201 then ascii "Created"
  else if code = 202 then ascii "Accepted"
  else if code = 204 then ascii "No Content"
  else if code = 400 then ascii "Bad Request"
  else if code = 401 then ascii "Unauthorized"
  else if code = 403 then ascii "Forbidden"
  else if code = 404 then ascii "Not Found"
  else if code = 500 then ascii "Internal Server Error"
  else []

/-- A call of `on_response` or of `on_error`. -/
inductive HttpCall
  | onResponse (response : HttpResponse)
  | onError (error : Bytes)

/-- Who owns a context: `active_requests_`, the dispatcher that is to delete it, or nobody any more. -/
inductive ContextOwner
  | activeRequests | dispatcher | nobody
  deriving DecidableEq

structure RequestContext where
  onHeadersCallback : Option (Int → OrdMap Bytes Bytes → Bool)
  completed : Bool
  response : HttpResponse
  sawStreamedBody : Bool
  calls : List HttpCall
  owner : ContextOwner

namespace RequestContext

def new (onHeadersCallback : Option (Int → OrdMap Bytes Bytes → Bool)) : RequestContext :=
  ⟨onHeadersCallback, false, ⟨0, [], .empty, []⟩, false, [], .activeRequests⟩

/-- `HttpAsyncClient::finishRequest`. -/
def finishRequest (s : RequestContext) : RequestContext :=
  if s.owner = .activeRequests then { s with owner := .dispatcher } else s

def complete (s : RequestContext) : RequestContext :=
  if s.completed then s
  else finishRequest { s with completed := true, calls := s.calls ++ [.onResponse s.response] }

def fail (s : RequestContext) (message : Bytes) : RequestContext :=
  if s.completed then s else finishRequest { s with completed := true, calls := s.calls ++ [.onError message] }

/-- A header as it is copied from the stream's. -/
def copyHeader (response : HttpResponse) (header : Bytes × Bytes) : HttpResponse :=
  if header.1 = ascii ":status" then { response with statusCode := (stoi header.2).getD 0 }
  else if header.1 = ascii "status" then { response with statusText := header.2 }
  else { response with headers := response.headers.insert header.1 header.2 }

def withStatusText (response : HttpResponse) : HttpResponse :=
  if response.statusText.isEmpty then { response with statusText := statusTextForCode response.statusCode }
  else response

/-- Whether the caller that is shown the headers wants to be answered now. -/
def wantsNoMore (s : RequestContext) : Bool :=
  s.onHeadersCallback.any fun onHeaders => onHeaders s.response.statusCode s.response.headers

def onHeaders (s : RequestContext) (headers : OrdMap Bytes Bytes) : RequestContext :=
  let s := { s with response := withStatusText (headers.entries.foldl copyHeader s.response) }
  if !s.completed && s.wantsNoMore then s.complete else s

def onBody (s : RequestContext) (data : Bytes) (endStream : Bool) : RequestContext :=
  if !endStream then
    { s with response := { s.response with body := s.response.body ++ data }, sawStreamedBody := true }
  else if !s.sawStreamedBody then { s with response := { s.response with body := data } }
  else s

def onMessageComplete (s : RequestContext) : RequestContext := s.complete

def onError (s : RequestContext) (error : Bytes) : RequestContext := s.fail (ascii "codec error: " ++ error)

/-- The events that mean a close, of either end. -/
def onClose (s : RequestContext) : RequestContext :=
  if !s.completed then s.fail (ascii "connection closed before response completed") else s

end RequestContext

/-! ### A request in flight -/

inductive ConnectionPhase
  | unopened | open | closing | closed
  deriving DecidableEq

/-- What the dispatcher is to run: a close that was put off, or an error of the parser. -/
inductive PostedCall
  | closeSocket
  | onError (error : Bytes)
  deriving DecidableEq

/-- How a callback leaves the parser: it may reject what it is given, or let an exception through. -/
inductive CallbackResult
  | success | error | thrown
  deriving DecidableEq

structure HttpExchange where
  context : RequestContext
  codec : ParserCallbacks
  streamBody : Bytes
  parserError : Option Bytes
  connection : ConnectionPhase
  posted : List PostedCall
  answer : ResponseReader

namespace HttpExchange

/-- The codec of a client, before the first response. -/
def clientCodec : ParserCallbacks := ⟨false, [], [], [], [], [], [], .empty⟩

def new (onHeaders : Option (Int → OrdMap Bytes Bytes → Bool)) (connection : ConnectionPhase) : HttpExchange :=
  ⟨.new onHeaders, clientCodec, [], none, connection, [], .new⟩

/-- The caller's own word on a response that is being read. -/
def stops (s : HttpExchange) (m : ResponseMessage) : Bool :=
  s.context.onHeadersCallback.any fun onHeaders => onHeaders m.statusCode.toNat (headerMap m.fields)

/-- The length that is looked up to tell whether there is a body, and that may be none. -/
def lengthThrows (headers : OrdMap Bytes Bytes) : Bool :=
  (headers.find? (ascii "content-length")).any fun value => (stoi value).isNone

/-- The callbacks of the codec, of a client. -/
def onParserEvent (s : HttpExchange) : ParserEvent → HttpExchange × CallbackResult
  | .messageBegin => ({ s with codec := s.codec.onMessageBegin, streamBody := [] }, .success)
  | .status data => ({ s with codec := s.codec.onStatus data }, .success)
  | .headerField data => ({ s with codec := s.codec.onHeaderField data }, .success)
  | .headerValue data => ({ s with codec := s.codec.onHeaderValue data }, .success)
  | .headersComplete statusCode _ =>
      let s := { s with codec := s.codec.onHeadersComplete .unknown statusCode }
      if lengthThrows s.codec.headers then (s, .thrown)
      else ({ s with context := s.context.onHeaders s.codec.headers }, .success)
  | .body data =>
      if data = [] then (s, .success)
      else if data.length > kMaxHttpBodyChunkSize then (s, .error)
      else ({ s with context := s.context.onBody data false }, .success)
  | .messageComplete =>
      let context := if s.streamBody = [] then s.context else s.context.onBody s.streamBody true
      ({ s with context := context.onMessageComplete }, .success)

/-- A callback, and what is heard of it. -/
def report (s : HttpExchange) (event : ParserEvent) : HttpExchange × CallbackResult :=
  { s with answer := s.answer.hear s.stops event }.onParserEvent event

/-- The callbacks of one read, up to the first that stops the parser. -/
def reports (s : HttpExchange) : List ParserEvent → HttpExchange × CallbackResult
  | [] => (s, .success)
  | event :: events =>
      match s.report event with
      | (s', .success) => s'.reports events
      | stopped => stopped

/-- `ConnectionImpl::closeSocket`. -/
def closeSocket (s : HttpExchange) : HttpExchange :=
  if s.connection = .closed then s else { s with connection := .closed, context := s.context.onClose }

/-- `HttpCodecFilter::handleParserError`. -/
def handleParserError (s : HttpExchange) (error : Bytes) : HttpExchange :=
  { s with posted := s.posted ++ [.onError error] }

/-- Bytes that were read, given to the parser. A parser that has stopped takes none, and its error is told again. -/
def dispatch (s : HttpExchange) (events : List ParserEvent) (stopped : Bool) (reason : Bytes) : HttpExchange :=
  match s.parserError with
  | some error => s.handleParserError error
  | none =>
      match s.reports events with
      | (s', .thrown) => s'.closeSocket
      | (s', .error) => { s' with parserError := some reason }.handleParserError reason
      | (s', .success) =>
          if stopped then { s' with parserError := some reason }.handleParserError reason else s'

/-- `ConnectionImpl::closeThroughFilterManager`: no more is read, and the close is posted. -/
def closeThroughFilterManager (s : HttpExchange) : HttpExchange :=
  { s with connection := .closing, posted := s.posted ++ [.closeSocket] }

def runPosted (s : HttpExchange) : PostedCall → HttpExchange
  | .closeSocket => s.closeSocket
  | .onError error => { s with context := s.context.onError error }

/-- What happens to a request in flight. -/
inductive Op
  /-- The connection is there, and the request is written. -/
  | connected
  /-- A read: what the parser reports of it, and whether and why the parser stops by itself. -/
  | read (events : List ParserEvent) (stopped : Bool) (reason : Bytes)
  /-- A read of nothing, at the end of the input. -/
  | endOfInput
  /-- A read that fails. -/
  | readFails
  /-- A close at once, by either end. -/
  | closes
  | runsPosted
  | deletes

def step (s : HttpExchange) : Op → HttpExchange
  | .connected => s
  | .read events stopped reason => if s.connection = .open then s.dispatch events stopped reason else s
  | .endOfInput =>
      if s.connection = .open then
        { s with answer := if s.parserError.isNone then s.answer.ended else s.answer }.closeThroughFilterManager
      else s
  | .readFails => if s.connection = .open then s.closeThroughFilterManager else s
  | .closes => if s.connection = .unopened then s else s.closeSocket
  | .runsPosted =>
      match s.posted with
      | [] => s
      | call :: posted => { s with posted := posted }.runPosted call
  | .deletes =>
      -- the connection closes itself as it goes, and what it had posted is not run any more
      if s.context.owner = .dispatcher then
        { s with context := { s.context with owner := .nobody }, posted := [] }.closeSocket
      else s

end HttpExchange

/-! ### The client -/

/-- How a call of `send` ends. -/
inductive SendResult
  | accepted | refused | thrown
  deriving DecidableEq

/-- A request that `send` was called with, and what has become of it. -/
structure SentRequest where
  outcome : SendResult
  request : HttpExchange

namespace HttpAsyncClient

inductive Op
  /-- `send`, and whether its socket, the handle for it and the transport's factory are to be had. -/
  | send (url : Bytes) (onHeaders : Option (Int → OrdMap Bytes Bytes → Bool)) (resources : Bool)
  | happens (i : Nat) (op : HttpExchange.Op)

variable (inetPton : Bytes → Bool)

/-- `RequestContext::start`. An address that is none is an exception before anything is made. -/
def start (url : ParsedUrl) (resources : Bool) : SendResult :=
  if !inetPton url.host then .thrown else if !resources then .refused else .accepted

/-- What `send` leaves of a request. The context that is in the table while it is started is taken out where the start
is refused; an exception leaves it there. -/
def sent (url : Bytes) (onHeaders : Option (Int → OrdMap Bytes Bytes → Bool)) (resources : Bool) : SentRequest :=
  let unmade := HttpExchange.new onHeaders .unopened
  let erased := { unmade with context := { unmade.context with owner := .nobody } }
  match parseUrl url with
  | none => ⟨.refused, erased⟩
  | some url =>
      match start inetPton url resources with
      | .refused => ⟨.refused, erased⟩
      | .thrown => ⟨.thrown, unmade⟩
      | .accepted => ⟨.accepted, .new onHeaders .open⟩

def step (client : List SentRequest) : Op → List SentRequest
  | .send url onHeaders resources => client ++ [sent inetPton url onHeaders resources]
  | .happens i op => client.modify i fun sent => { sent with request := sent.request.step op }

end HttpAsyncClient

end GopherMcp
