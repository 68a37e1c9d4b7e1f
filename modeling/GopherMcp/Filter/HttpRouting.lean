import GopherMcp.Filter.HttpSecurity
import GopherMcp.Lib.Delimited
import GopherMcp.Protocol.MirroredHeaders

/-!
# Routing of requests

A request is matched with a table by its method and its path, from its headers. It is answered then, or held until its
body is there, or passed on. Three flags say which, and the callbacks of the body and of the end go by them.
-/

namespace GopherMcp

open WireWriter (httpStatusCodeToString headerLine statusLine)

namespace HttpRoutingFilter

structure RequestContext where
  method : Bytes
  path : Bytes
  headers : OrdMap Bytes Bytes
  body : Bytes
  keepAlive : Bool

structure Response where
  statusCode : Int32
  headers : OrdMap Bytes Bytes
  body : Bytes

abbrev HandlerFunc := RequestContext → Response

/-- What the table does with a method and a path. -/
inductive RouteTarget
  | handler (handler : HandlerFunc)
  | passThrough
  | reject (statusCode : Int32) (allowHeader : Bytes)

def RouteTarget.servesRequests : RouteTarget → Bool
  | .handler _ | .passThrough => true
  | .reject _ _ => false

/-- What the filter is set up with. -/
structure Routing where
  routes : OrdMap Bytes RouteTarget
  defaultHandler : HandlerFunc
  isServer : Bool

/-- What becomes of a request: an answer of the filter's own, or a part of it for the next layer. -/
inductive Effect
  | answered (response : Bytes)
  | passed (part : MessagePart)

end HttpRoutingFilter

/-- The filter, and beside it what it did so far. -/
structure HttpRoutingFilter where
  routing : HttpRoutingFilter.Routing
  pendingPostRequest : Bool
  servesPostAlone : Bool
  suppressCurrentRequest : Bool
  pendingContext : HttpRoutingFilter.RequestContext
  pendingHandler : HttpRoutingFilter.HandlerFunc
  accumulatedBody : Bytes
  effects : List HttpRoutingFilter.Effect

namespace HttpRoutingFilter

/-- What comes from the codec, with the headers that the provider gives for an answer at the time. -/
inductive Callback
  | headers (headers : OrdMap Bytes Bytes) (keepAlive : Bool) (provided : OrdMap Bytes Bytes)
  | body (data : Bytes) (endStream : Bool)
  | messageComplete (provided : OrdMap Bytes Bytes)
  | error (message : Bytes)

def kMethodHeader : Bytes := ascii ":method"
def kPathHeader : Bytes := ascii ":path"
def kUrlHeader : Bytes := ascii "url"
def kVersionHeader : Bytes := ascii "mcp-protocol-version"
def kQuestion : UInt8 := 63

def buildRouteKey (method path : Bytes) : Bytes := method ++ ascii " " ++ path

def extractMethod (headers : OrdMap Bytes Bytes) : Bytes := (headers.find? kMethodHeader).getD (ascii "GET")

/-- The path without its query. -/
def extractPath (headers : OrdMap Bytes Bytes) : Bytes :=
  match headers.find? kPathHeader <|> headers.find? kUrlHeader with
  | some fullPath => fullPath.takeWhile (· ≠ kQuestion)
  | none => ascii "/"

/-- The path with its query, for the handlers. -/
def fullUrl (headers : OrdMap Bytes Bytes) : Bytes :=
  (headers.find? kUrlHeader <|> headers.find? kPathHeader).getD (extractPath headers)

def servesPostAloneFor (headers : OrdMap Bytes Bytes) : Bool :=
  ((headers.find? kVersionHeader).map MirroredHeaders.isModernVersion).getD false

def contextOf (headers : OrdMap Bytes Bytes) (keepAlive : Bool) : RequestContext :=
  ⟨extractMethod headers, fullUrl headers, headers, [], keepAlive⟩

/-! ### Answers -/

/-- The methods whose routes serve a path, in the order of the table. -/
def allowedMethodsFor (routes : OrdMap Bytes RouteTarget) (path : Bytes) : Bytes :=
  routes.entries.foldl (fun allow entry =>
    match Delimited.cut entry.1 kSpace with
    | some (method, served) =>
        if served = path ∧ entry.2.servesRequests then (if allow = [] then allow else allow ++ ascii ", ") ++ method
        else allow
    | none => allow) []

def statusSlug (statusCode : Int32) : Bytes :=
  (httpStatusCodeToString statusCode.toUInt32.toUInt16).map fun c =>
    if c = kSpace then 95 else if 65 ≤ c ∧ c ≤ 90 then c + 32 else c

/-- The answer of a route that rejects. A 405 names what the path does serve. -/
def buildRejectResponse (routes : OrdMap Bytes RouteTarget) (servesPostAlone : Bool) (statusCode : Int32)
    (allowHeader path : Bytes) : Response :=
  let allow :=
    if allowHeader = [] ∧ statusCode = 405 then
      if servesPostAlone then ascii "POST" else allowedMethodsFor routes path
    else allowHeader
  let body := ascii "\x7b\"error\":\"" ++ statusSlug statusCode ++ ascii "\"\x7d"
  let headers := if allow = [] then OrdMap.empty else OrdMap.empty.insert (ascii "Allow") allow
  ⟨statusCode, (headers.insert (ascii "content-type") (ascii "application/json")).insert (ascii "content-length")
    (toDecimal body.length), body⟩

/-- The bytes of an answer. A handler's own header wins over one that is provided. -/
def sendResponse (provided : OrdMap Bytes Bytes) (response : Response) : Bytes :=
  let headers := response.headers.entries.foldl (fun headers header => headers.insert header.1 header.2) provided
  statusLine true response.statusCode ++ Chunking.crlf ++
    (headers.entries.map fun header => headerLine header.1 header.2 ++ Chunking.crlf).flatten ++ Chunking.crlf ++
    response.body

/-! ### The callbacks -/

def add (s : HttpRoutingFilter) (effect : Effect) : HttpRoutingFilter := { s with effects := s.effects ++ [effect] }

def pass (s : HttpRoutingFilter) (part : MessagePart) : HttpRoutingFilter := s.add (.passed part)

/-- Answered from the headers; what follows of the request is dropped. -/
def answerNow (s : HttpRoutingFilter) (provided : OrdMap Bytes Bytes) (response : Response) : HttpRoutingFilter :=
  { s with suppressCurrentRequest := true }.add (.answered (sendResponse provided response))

/-- Whether the handler of a method waits for the body. -/
def defers (method : Bytes) : Bool := method = ascii "POST" || method = ascii "PUT" || method = ascii "PATCH"

/-- Nothing in the table answered. -/
def consultDefault (s : HttpRoutingFilter) (headers : OrdMap Bytes Bytes) (keepAlive : Bool)
    (provided : OrdMap Bytes Bytes) : HttpRoutingFilter :=
  let response := s.routing.defaultHandler (contextOf headers keepAlive)
  if response.statusCode ≠ 0 then s.answerNow provided response else s.pass (.headers headers keepAlive)

def onHeaders (s : HttpRoutingFilter) (headers : OrdMap Bytes Bytes) (keepAlive : Bool)
    (provided : OrdMap Bytes Bytes) : HttpRoutingFilter :=
  if !s.routing.isServer then s.pass (.headers headers keepAlive)
  else
    let s := { s with suppressCurrentRequest := false, pendingPostRequest := false, accumulatedBody := [] }
    let s := { s with servesPostAlone := servesPostAloneFor headers }
    let method := extractMethod headers
    let path := extractPath headers
    match s.routing.routes.find? (buildRouteKey method path) with
    | some .passThrough => s.pass (.headers headers keepAlive)
    | some (.reject statusCode allowHeader) =>
        s.answerNow provided
          (buildRejectResponse s.routing.routes s.servesPostAlone statusCode allowHeader path)
    | some (.handler handler) =>
        let context := contextOf headers keepAlive
        if defers method then
          { s with pendingPostRequest := true, pendingContext := context, pendingHandler := handler, accumulatedBody := [] }
        else
          let response := handler context
          if response.statusCode ≠ 0 then s.answerNow provided response
          else s.consultDefault headers keepAlive provided
    | none => s.consultDefault headers keepAlive provided

def onBody (s : HttpRoutingFilter) (data : Bytes) (endStream : Bool) : HttpRoutingFilter :=
  if s.suppressCurrentRequest then s
  else if s.pendingPostRequest then { s with accumulatedBody := s.accumulatedBody ++ data }
  else s.pass (.body data endStream)

def onMessageComplete (s : HttpRoutingFilter) (provided : OrdMap Bytes Bytes) : HttpRoutingFilter :=
  if s.suppressCurrentRequest then { s with suppressCurrentRequest := false }
  else if s.pendingPostRequest then
    let s := { s with pendingContext := { s.pendingContext with body := s.accumulatedBody } }
    let response := s.pendingHandler s.pendingContext
    let s := if response.statusCode ≠ 0 then s.add (.answered (sendResponse provided response)) else s
    { s with pendingPostRequest := false, accumulatedBody := [] }
  else s.pass .messageComplete

/-- An error drops the state of the request, and is passed on whatever became of it. -/
def onError (s : HttpRoutingFilter) (message : Bytes) : HttpRoutingFilter :=
  { s with suppressCurrentRequest := false, pendingPostRequest := false, accumulatedBody := [] }.pass (.error message)

def step (s : HttpRoutingFilter) : Callback → HttpRoutingFilter
  | .headers headers keepAlive provided => s.onHeaders headers keepAlive provided
  | .body data endStream => s.onBody data endStream
  | .messageComplete provided => s.onMessageComplete provided
  | .error message => s.onError message

/-! ### Requests -/

/-- How a request ends. -/
inductive Ending
  | complete
  | failed (message : Bytes)

/-- A request as it comes from the codec, which may fail to parse before its headers are there or at any point after.
`provided` are the headers that go on an answer while it is served. -/
inductive Request
  | unread (message : Bytes)
  | read (headers : OrdMap Bytes Bytes) (keepAlive : Bool) (provided : OrdMap Bytes Bytes)
    (pieces : List (Bytes × Bool)) (ending : Ending)

namespace Ending

def callback (provided : OrdMap Bytes Bytes) : Ending → Callback
  | complete => .messageComplete provided
  | failed message => .error message

def part : Ending → MessagePart
  | complete => .messageComplete
  | failed message => .error message

/-- The error, if that is how it ends. -/
def error : Ending → List MessagePart
  | complete => []
  | failed message => [.error message]

end Ending

namespace Request

def callbacks : Request → List Callback
  | unread message => [.error message]
  | read headers keepAlive provided pieces ending =>
      .headers headers keepAlive provided :: (pieces.map fun piece => .body piece.1 piece.2) ++ [ending.callback provided]

/-- All of a request. -/
def parts : Request → List MessagePart
  | unread message => [.error message]
  | read headers keepAlive _ pieces ending =>
      .headers headers keepAlive :: (pieces.map fun piece => .body piece.1 piece.2) ++ [ending.part]

/-- The error of a request that fails. -/
def errors : Request → List MessagePart
  | unread message => [.error message]
  | read _ _ _ _ ending => ending.error

end Request

/-! ### What becomes of a request -/

/-- What the headers of a request decide. -/
inductive Verdict
  | answers (response : Response)
  | waits (handler : HandlerFunc)
  | passes

/-- What the default handler decides. -/
def defaultVerdict (routing : Routing) (context : RequestContext) : Verdict :=
  let response := routing.defaultHandler context
  if response.statusCode ≠ 0 then .answers response else .passes

def verdict (routing : Routing) (headers : OrdMap Bytes Bytes) (keepAlive : Bool) : Verdict :=
  let context := contextOf headers keepAlive
  match routing.routes.find? (buildRouteKey (extractMethod headers) (extractPath headers)) with
  | some .passThrough => .passes
  | some (.reject statusCode allowHeader) =>
      .answers (buildRejectResponse routing.routes (servesPostAloneFor headers) statusCode allowHeader (extractPath headers))
  | some (.handler handler) =>
      if defers (extractMethod headers) then .waits handler
      else if (handler context).statusCode ≠ 0 then .answers (handler context)
      else defaultVerdict routing context
  | none => defaultVerdict routing context

/-- The answer of a handler that waited for the body; with status 0 there is none. -/
def lateAnswer (provided : OrdMap Bytes Bytes) (response : Response) : List Effect :=
  if response.statusCode ≠ 0 then [.answered (sendResponse provided response)] else []

/-- What becomes of a request, whatever came before it. -/
def treatment (routing : Routing) : Request → List Effect
  | .unread message => [.passed (.error message)]
  | .read headers keepAlive provided pieces ending =>
      match verdict routing headers keepAlive with
      | .answers response => .answered (sendResponse provided response) :: ending.error.map .passed
      | .waits handler =>
          match ending with
          | .complete =>
              lateAnswer provided (handler { contextOf headers keepAlive with body := (pieces.map Prod.fst).flatten })
          | .failed message => [.passed (.error message)]
      | .passes => (Request.read headers keepAlive provided pieces ending).parts.map .passed

/-- The flags after the headers, as the verdict has it. -/
def Follows (routing : Routing) (headers : OrdMap Bytes Bytes) (keepAlive : Bool) (provided : OrdMap Bytes Bytes)
    (before after : HttpRoutingFilter) : Prop :=
  after.routing = routing ∧
    match verdict routing headers keepAlive with
    | .answers response =>
        after.suppressCurrentRequest = true ∧
          after.effects = before.effects ++ [.answered (sendResponse provided response)]
    | .waits handler =>
        after.suppressCurrentRequest = false ∧ after.pendingPostRequest = true ∧ after.pendingHandler = handler ∧
          after.pendingContext = contextOf headers keepAlive ∧ after.accumulatedBody = [] ∧
          after.effects = before.effects
    | .passes =>
        after.suppressCurrentRequest = false ∧ after.pendingPostRequest = false ∧
          after.effects = before.effects ++ [.passed (.headers headers keepAlive)]

variable {s : HttpRoutingFilter} {headers provided : OrdMap Bytes Bytes} {keepAlive : Bool}

/-- The headers set the flags by themselves alone. -/
theorem follows_onHeaders (hserver : s.routing.isServer = true) :
    Follows s.routing headers keepAlive provided s (s.onHeaders headers keepAlive provided) := by
  unfold Follows onHeaders verdict
  rw [if_neg (by simp [hserver])]
  cases hroute : s.routing.routes.find? (buildRouteKey (extractMethod headers) (extractPath headers)) with
  | none =>
      simp only [hroute, consultDefault, defaultVerdict]
      split_ifs with hstatus
      · exact ⟨rfl, rfl, rfl⟩
      · exact ⟨rfl, rfl, rfl, rfl⟩
  | some target =>
      cases target with
      | passThrough =>
          simp only [hroute]
          exact ⟨rfl, rfl, rfl, rfl⟩
      | reject statusCode allowHeader =>
          simp only [hroute]
          exact ⟨rfl, rfl, rfl⟩
      | handler handler =>
          simp only [hroute, consultDefault, defaultVerdict]
          split_ifs with hdefers hstatus hdefault
          · exact ⟨rfl, rfl, rfl, rfl, rfl, rfl, rfl⟩
          · exact ⟨rfl, rfl, rfl⟩
          · exact ⟨rfl, rfl, rfl⟩
          · exact ⟨rfl, rfl, rfl, rfl⟩

/-! ### The body -/

theorem run_suppressed (hsuppress : s.suppressCurrentRequest = true) (pieces : List (Bytes × Bool)) :
    Runs.run step s (pieces.map fun piece => .body piece.1 piece.2) = s := by
  induction pieces with
  | nil => rfl
  | cons piece rest ih =>
      rw [List.map_cons, Runs.run_cons, step, onBody, if_pos hsuppress]
      exact ih

theorem run_waiting (hsuppress : s.suppressCurrentRequest = false) (hpending : s.pendingPostRequest = true)
    (pieces : List (Bytes × Bool)) :
    Runs.run step s (pieces.map fun piece => .body piece.1 piece.2) =
      { s with accumulatedBody := s.accumulatedBody ++ (pieces.map Prod.fst).flatten } := by
  induction pieces generalizing s with
  | nil => simp
  | cons piece rest ih =>
      rw [List.map_cons, Runs.run_cons, step, onBody, if_neg (by simp [hsuppress]), if_pos hpending,
        ih (by exact hsuppress) (by exact hpending)]
      simp only [List.map_cons, List.flatten_cons, List.append_assoc]

theorem run_passing (hsuppress : s.suppressCurrentRequest = false) (hpending : s.pendingPostRequest = false)
    (pieces : List (Bytes × Bool)) :
    Runs.run step s (pieces.map fun piece => .body piece.1 piece.2) =
      { s with effects := s.effects ++ pieces.map fun piece => .passed (.body piece.1 piece.2) } := by
  induction pieces generalizing s with
  | nil => simp
  | cons piece rest ih =>
      rw [List.map_cons, Runs.run_cons, step, onBody, if_neg (by simp [hsuppress]), if_neg (by simp [hpending]), pass,
        add, ih (by exact hsuppress) (by exact hpending)]
      simp only [List.map_cons, List.append_assoc, List.singleton_append]

/-- At the end of a request that waited for its body. -/
theorem onMessageComplete_waiting (hsuppress : s.suppressCurrentRequest = false) (hpending : s.pendingPostRequest = true)
    (provided : OrdMap Bytes Bytes) :
    (s.onMessageComplete provided).routing = s.routing ∧
      (s.onMessageComplete provided).effects =
        s.effects ++ lateAnswer provided (s.pendingHandler { s.pendingContext with body := s.accumulatedBody }) := by
  unfold onMessageComplete lateAnswer
  simp only [hsuppress, hpending, Bool.false_eq_true, if_false, if_true]
  split_ifs with hstatus
  · exact ⟨rfl, rfl⟩
  · exact ⟨rfl, (List.append_nil _).symm⟩

/-! ### Whole requests -/

section Treatment

variable {routing : Routing} {pieces : List (Bytes × Bool)}

theorem treatment_answers {response : Response} (h : verdict routing headers keepAlive = .answers response)
    (ending : Ending) :
    treatment routing (.read headers keepAlive provided pieces ending) =
      .answered (sendResponse provided response) :: ending.error.map .passed := by
  simp only [treatment, h]

theorem treatment_waits_complete {handler : HandlerFunc} (h : verdict routing headers keepAlive = .waits handler) :
    treatment routing (.read headers keepAlive provided pieces .complete) =
      lateAnswer provided (handler { contextOf headers keepAlive with body := (pieces.map Prod.fst).flatten }) := by
  simp only [treatment, h]

theorem treatment_waits_failed {handler : HandlerFunc} (h : verdict routing headers keepAlive = .waits handler)
    (message : Bytes) :
    treatment routing (.read headers keepAlive provided pieces (.failed message)) = [.passed (.error message)] := by
  simp only [treatment, h]

theorem treatment_passes (h : verdict routing headers keepAlive = .passes) (ending : Ending) :
    treatment routing (.read headers keepAlive provided pieces ending) =
      (Request.read headers keepAlive provided pieces ending).parts.map .passed := by
  simp only [treatment, h]

end Treatment

/-- A request is treated by itself, whatever the flags were before it. -/
theorem run_request (hserver : s.routing.isServer = true) (request : Request) :
    (Runs.run step s request.callbacks).routing = s.routing ∧
      (Runs.run step s request.callbacks).effects = s.effects ++ treatment s.routing request := by
  cases request with
  | unread message => exact ⟨rfl, rfl⟩
  | read headers keepAlive provided pieces ending =>
      rw [Request.callbacks, List.cons_append, Runs.run_cons, Runs.run_append, step]
      obtain ⟨hrouting, hflags⟩ := @follows_onHeaders s headers provided keepAlive hserver
      generalize s.onHeaders headers keepAlive provided = after at hrouting hflags
      cases hverdict : verdict s.routing headers keepAlive with
      | answers response =>
          rw [hverdict] at hflags
          obtain ⟨hsuppress, heffects⟩ := hflags
          rw [run_suppressed hsuppress, treatment_answers hverdict]
          cases ending with
          | complete =>
              rw [Ending.callback, Runs.run_cons, Runs.run_nil, step, onMessageComplete, if_pos hsuppress]
              exact ⟨hrouting, heffects⟩
          | failed message =>
              refine ⟨hrouting, ?_⟩
              change after.effects ++ [.passed (.error message)] = _
              rw [heffects, List.append_assoc]
              rfl
      | waits handler =>
          rw [hverdict] at hflags
          obtain ⟨hsuppress, hpending, hhandler, hcontext, haccumulated, heffects⟩ := hflags
          rw [run_waiting hsuppress hpending, haccumulated, List.nil_append]
          cases ending with
          | complete =>
              rw [treatment_waits_complete hverdict, ← hhandler, ← hcontext, ← heffects, ← hrouting]
              exact onMessageComplete_waiting
                (s := { after with accumulatedBody := (pieces.map Prod.fst).flatten }) hsuppress hpending provided
          | failed message =>
              rw [treatment_waits_failed hverdict, ← heffects]
              exact ⟨hrouting, rfl⟩
      | passes =>
          rw [hverdict] at hflags
          obtain ⟨hsuppress, hpending, heffects⟩ := hflags
          rw [run_passing hsuppress hpending, treatment_passes hverdict]
          have hparts : after.effects ++ (pieces.map fun piece => Effect.passed (.body piece.1 piece.2)) ++
              [.passed ending.part] =
                s.effects ++ (Request.read headers keepAlive provided pieces ending).parts.map .passed := by
            rw [heffects]
            simp only [Request.parts, List.map_cons, List.map_append, List.map_map, List.map_nil, List.append_assoc,
              List.cons_append, List.nil_append, Function.comp_def]
          cases ending with
          | complete =>
              rw [Ending.callback, Runs.run_cons, Runs.run_nil, step, onMessageComplete, if_neg (by simp [hsuppress]),
                if_neg (by simp [hpending])]
              exact ⟨hrouting, hparts⟩
          | failed message => exact ⟨hrouting, hparts⟩

theorem run_requests (hserver : s.routing.isServer = true) (requests : List Request) :
    (Runs.run step s (requests.flatMap Request.callbacks)).effects =
      s.effects ++ requests.flatMap (treatment s.routing) := by
  induction requests generalizing s with
  | nil => exact (List.append_nil _).symm
  | cons request rest ih =>
      obtain ⟨hrouting, heffects⟩ := run_request hserver request
      rw [List.flatMap_cons, Runs.run_append, ih (by rw [hrouting]; exact hserver), hrouting, heffects,
        List.flatMap_cons, List.append_assoc]

/-! ### All or nothing -/

/-- Answered once, and nothing but its error passed on. -/
def AnsweredOnly (request : Request) (effects : List Effect) : Prop :=
  ∃ response, effects = .answered response :: request.errors.map .passed

/-- All of it passed on, and no answer. -/
def PassedWhole (request : Request) (effects : List Effect) : Prop := effects = request.parts.map .passed

/-- A request whose handler waits for the body, and whose body is never there. -/
def FailsWaiting (routing : Routing) : Request → Prop
  | .unread _ => False
  | .read _ _ _ _ .complete => False
  | .read headers keepAlive _ _ (.failed _) => ∃ handler, verdict routing headers keepAlive = .waits handler

/-- No handler that waits for the body asks for the request to be passed on. -/
def LateAnswers (routing : Routing) : Prop :=
  ∀ key handler context, routing.routes.find? key = some (.handler handler) → defers context.method = true →
    (handler context).statusCode ≠ 0

theorem verdict_waits {routing : Routing} {handler : HandlerFunc} (h : verdict routing headers keepAlive = .waits handler) :
    routing.routes.find? (buildRouteKey (extractMethod headers) (extractPath headers)) = some (.handler handler) ∧
      defers (extractMethod headers) = true := by
  have hdefault (context : RequestContext) : defaultVerdict routing context ≠ .waits handler := by
    simp only [defaultVerdict]
    split_ifs
    · exact fun h => by cases h
    · exact fun h => by cases h
  unfold verdict at h
  cases hroute : routing.routes.find? (buildRouteKey (extractMethod headers) (extractPath headers)) with
  | none =>
      rw [hroute] at h
      exact absurd h (hdefault _)
  | some target =>
      rw [hroute] at h
      cases target with
      | passThrough => cases h
      | reject statusCode allowHeader => cases h
      | handler other =>
          simp only at h
          split_ifs at h with hdefers hstatus
          · cases h
            exact ⟨rfl, hdefers⟩
          · exact absurd h (hdefault _)

/-- An answer is no part of a request that was passed on. -/
theorem not_both {request : Request} {effects : List Effect} (hanswered : AnsweredOnly request effects)
    (hpassed : PassedWhole request effects) : False := by
  obtain ⟨response, heffects⟩ := hanswered
  rw [hpassed] at heffects
  cases request with
  | unread message => cases heffects
  | read headers keepAlive provided pieces ending => cases heffects

theorem waits_of_failsWaiting {routing : Routing} {headers provided : OrdMap Bytes Bytes} {keepAlive : Bool}
    {pieces : List (Bytes × Bool)} {ending : Ending}
    (h : FailsWaiting routing (.read headers keepAlive provided pieces ending)) :
    ∃ handler, verdict routing headers keepAlive = .waits handler := by
  cases ending with
  | complete => exact h.elim
  | failed message => exact h

/-- What becomes of one request. -/
theorem treatment_spec {routing : Routing} (hlate : LateAnswers routing) (request : Request) :
    (FailsWaiting routing request → treatment routing request = request.errors.map .passed) ∧
    (¬ FailsWaiting routing request →
      Xor (AnsweredOnly request (treatment routing request)) (PassedWhole request (treatment routing request))) := by
  have hanswers (h : AnsweredOnly request (treatment routing request)) :
      Xor (AnsweredOnly request (treatment routing request)) (PassedWhole request (treatment routing request)) :=
    Or.inl ⟨h, fun hpassed => not_both h hpassed⟩
  have hpasses (h : PassedWhole request (treatment routing request)) :
      Xor (AnsweredOnly request (treatment routing request)) (PassedWhole request (treatment routing request)) :=
    Or.inr ⟨h, fun hanswered => not_both hanswered h⟩
  cases request with
  | unread message => exact ⟨fun h => h.elim, fun _ => hpasses rfl⟩
  | read headers keepAlive provided pieces ending =>
      cases hverdict : verdict routing headers keepAlive with
      | answers response =>
          refine ⟨fun hfails => ?_, fun _ => hanswers ⟨sendResponse provided response, ?_⟩⟩
          · obtain ⟨handler, hwaits⟩ := waits_of_failsWaiting hfails
            rw [hverdict] at hwaits
            cases hwaits
          · exact treatment_answers hverdict ending
      | waits handler =>
          cases ending with
          | complete =>
              refine ⟨fun hfails => hfails.elim, fun _ => hanswers ⟨sendResponse provided
                (handler { contextOf headers keepAlive with body := (pieces.map Prod.fst).flatten }), ?_⟩⟩
              obtain ⟨hroute, hdefers⟩ := verdict_waits hverdict
              rw [treatment_waits_complete hverdict]
              exact if_pos (hlate _ handler _ hroute hdefers)
          | failed message =>
              exact ⟨fun _ => treatment_waits_failed hverdict message,
                fun hwaiting => absurd ⟨handler, hverdict⟩ hwaiting⟩
      | passes =>
          refine ⟨fun hfails => ?_, fun _ => hpasses (treatment_passes hverdict ending)⟩
          obtain ⟨handler, hwaits⟩ := waits_of_failsWaiting hfails
          rw [hverdict] at hwaits
          cases hwaits

/-- **Routing is all or nothing.** Over any requests on one connection, each has its own treatment, whatever came
before it: it is answered once and kept, or passed on whole, but for one that fails while a handler waits for its body,
of which the next layer only has the error. -/
theorem routes_all_or_nothing (hserver : s.routing.isServer = true) (hlate : LateAnswers s.routing)
    (requests : List Request) :
    (Runs.run step s (requests.flatMap Request.callbacks)).effects =
      s.effects ++ requests.flatMap (treatment s.routing) ∧
    ∀ request ∈ requests,
      (FailsWaiting s.routing request → treatment s.routing request = request.errors.map .passed) ∧
      (¬ FailsWaiting s.routing request →
        Xor (AnsweredOnly request (treatment s.routing request)) (PassedWhole request (treatment s.routing request))) :=
  ⟨run_requests hserver requests, fun request _ => treatment_spec hlate request⟩

/-! ### Two routes -/

def okHandler : HandlerFunc := fun context => ⟨200, OrdMap.empty, context.body⟩

def forwardHandler : HandlerFunc := fun _ => ⟨0, OrdMap.empty, []⟩

/-- A server that echoes what is posted to one path and passes everything else on. -/
def echoRouting : Routing where
  routes := OrdMap.empty.insert (ascii "POST /echo") (.handler okHandler)
  defaultHandler := forwardHandler
  isServer := true

def echoFilter : HttpRoutingFilter where
  routing := echoRouting
  pendingPostRequest := false
  servesPostAlone := false
  suppressCurrentRequest := false
  pendingContext := contextOf OrdMap.empty true
  pendingHandler := forwardHandler
  accumulatedBody := []
  effects := []

def echoHeaders : OrdMap Bytes Bytes :=
  (OrdMap.empty.insert kMethodHeader (ascii "POST")).insert kUrlHeader (ascii "/echo")

/-- A post that fails to parse in its body. -/
def cutShort : Request :=
  .read echoHeaders true OrdMap.empty [(ascii "he", false)] (.failed (ascii "Invalid chunk size"))

theorem lateAnswers_echo : LateAnswers echoRouting := by
  intro key handler context hroute _
  have hkey : key = ascii "POST /echo" := by
    by_contra hne
    rw [echoRouting, OrdMap.find?_insert_of_ne _ hne, OrdMap.find?_empty] at hroute
    cases hroute
  rw [hkey, echoRouting, OrdMap.find?_insert_self, Option.some.injEq, RouteTarget.handler.injEq] at hroute
  rw [← hroute]
  exact (by decide : (200 : Int32) ≠ 0)

theorem routes_all_or_nothing_echo :
    (Runs.run step echoFilter ([cutShort].flatMap Request.callbacks)).effects =
      echoFilter.effects ++ [cutShort].flatMap (treatment echoFilter.routing) ∧
    ∀ request ∈ [cutShort],
      (FailsWaiting echoFilter.routing request →
        treatment echoFilter.routing request = request.errors.map .passed) ∧
      (¬ FailsWaiting echoFilter.routing request →
        Xor (AnsweredOnly request (treatment echoFilter.routing request))
          (PassedWhole request (treatment echoFilter.routing request))) :=
  routes_all_or_nothing (s := echoFilter) rfl lateAnswers_echo [cutShort]

/-- A post whose body fails is neither answered nor passed on: the next layer is told of the error alone. -/
theorem not_all_or_nothing_waiting :
    LateAnswers echoRouting ∧
      (Runs.run step echoFilter cutShort.callbacks).effects = [.passed (.error (ascii "Invalid chunk size"))] ∧
      ¬ AnsweredOnly cutShort (Runs.run step echoFilter cutShort.callbacks).effects ∧
      ¬ PassedWhole cutShort (Runs.run step echoFilter cutShort.callbacks).effects := by
  have heffects : (Runs.run step echoFilter cutShort.callbacks).effects =
      [.passed (.error (ascii "Invalid chunk size"))] := rfl
  rw [heffects]
  refine ⟨lateAnswers_echo, rfl, ?_, ?_⟩
  · rintro ⟨response, hanswered⟩
    cases hanswered
  · intro hpassed
    cases hpassed

end HttpRoutingFilter

end GopherMcp
