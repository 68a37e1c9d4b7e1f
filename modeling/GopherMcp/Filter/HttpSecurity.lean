import GopherMcp.Filter.OriginPolicy
import GopherMcp.Http.WrittenResponses
import GopherMcp.Lib.OrdMap
import GopherMcp.Lib.Runs
import GopherMcp.Protocol.Subscriptions

/-!
# The security filter

A request is judged on its headers, by its origin first and by a hook then, and one that is refused is
answered here. Its body is still on its way then, and is kept from the layer behind as long as the filter
remembers the refusal: until the next request, or until an error is reported. An error is taken for the end
of the request, which it is when the request could not be parsed, but timeouts are reported the same way.
-/

namespace GopherMcp

open WireWriter (Headers lowercase)

/-- What was decided about the request, for whoever frames its answer. -/
structure RequestSecurity where
  origin : Bytes
  allowed : Bool
  principal : Bytes
  deriving DecidableEq

structure AuthResult where
  allowed : Bool
  principal : Bytes
  statusCode : Int32
  reason : Bytes
  deriving DecidableEq

/-- An answer the filter writes by itself. -/
structure Refusal where
  http11 : Bool
  statusCode : Int32
  headers : Headers
  body : Bytes
  closeConnection : Bool
  deriving DecidableEq

/-- What is passed to the next layer. -/
inductive MessagePart
  | headers (headers : OrdMap Bytes Bytes) (keepAlive : Bool)
  | body (data : Bytes) (endStream : Bool)
  | messageComplete
  | error (message : Bytes)

/-- The headers of a request, and what the hook says of them, if there is one. -/
structure JudgedRequest where
  headers : OrdMap Bytes Bytes
  auth : Option AuthResult

inductive SecurityVerdict
  | accepted | refusedOrigin | refusedAuth
  deriving DecidableEq

/-- The filter, and beside it: the requests that came, which are numbered from 1; whether an error was
reported since the last one came; and what reached the next layer and what was written, each with the number
of the request it belongs to. -/
structure HttpSecurityFilter where
  allowedOrigins : List Bytes
  security : RequestSecurity
  refused : Bool
  requests : List JudgedRequest
  cut : Bool
  reached : List (Nat × MessagePart)
  written : List (Nat × Refusal)

/-- What comes from the codec. -/
inductive SecurityOp
  | headers (request : JudgedRequest) (keepAlive http11 : Bool)
  | body (data : Bytes) (endStream : Bool)
  | messageComplete
  | error (message : Bytes)

namespace Refusal

def options (refusal : Refusal) : WireWriter.Options :=
  ⟨refusal.http11, !refusal.closeConnection, false, .chunked⟩

/-- The bytes of a refusal. -/
def out (refusal : Refusal) : Bytes :=
  ((WireWriter.new refusal.options).startUnary refusal.statusCode refusal.headers refusal.body).1.out

end Refusal

namespace RequestHeadersView

/-- The first header of the name, or nothing. -/
def get (headers : OrdMap Bytes Bytes) (name : Bytes) : Bytes :=
  match headers.entries.find? fun entry => lowercase entry.1 == lowercase name with
  | some entry => entry.2
  | none => []

end RequestHeadersView

/-- CORS headers for an ordinary answer. -/
def corsHeaders (security : RequestSecurity) : Headers :=
  if security.origin.isEmpty then []
  else
    [(ascii "Access-Control-Allow-Origin", security.origin),
      (ascii "Access-Control-Expose-Headers", ascii "Mcp-Session-Id"), (ascii "Vary", ascii "Origin")]

def isCorsHeader (name : Bytes) : Bool := (lowercase name).take 15 == ascii "access-control-"

/-- An error that answers no request that was read. -/
def idLessError (text : JsonText) (code : Int64) (message : Bytes) : Bytes :=
  let error :=
    ((JsonValue.emptyObject.set (ascii "code") (.integer code)).set (ascii "message") (.string message))
  text.print <|
    ((JsonValue.emptyObject.set (ascii "jsonrpc") (.string (ascii "2.0"))).set (ascii "id") .null).set
      (ascii "error") error

namespace HttpSecurityFilter

def new (allowedOrigins : List Bytes) : HttpSecurityFilter where
  allowedOrigins := allowedOrigins
  security := ⟨[], true, []⟩
  refused := false
  requests := []
  cut := false
  reached := []
  written := []

/-- The number of the request that came last. -/
def number (s : HttpSecurityFilter) : Nat := s.requests.length

def next (s : HttpSecurityFilter) (part : MessagePart) : HttpSecurityFilter :=
  { s with reached := s.reached ++ [(s.number, part)] }

def invalidRequest : Int64 := -32600

/-- The answer to a request that is refused. -/
def refusal (s : HttpSecurityFilter) (text : JsonText) (http11 : Bool) (statusCode : Int32) (message : Bytes)
    (closeConnection : Bool) : Refusal where
  http11 := http11
  statusCode := statusCode
  headers := [(ascii "Content-Type", ascii "application/json")] ++ corsHeaders s.security
  body := idLessError text invalidRequest message
  closeConnection := closeConnection

/-- The request is remembered as refused before anything is written. -/
def refuse (s : HttpSecurityFilter) (text : JsonText) (http11 : Bool) (statusCode : Int32) (message : Bytes)
    (closeConnection : Bool) : HttpSecurityFilter :=
  { s with
    refused := true
    written := s.written ++ [(s.number, s.refusal text http11 statusCode message closeConnection)] }

/-- The next request has come. -/
def arrive (s : HttpSecurityFilter) (request : JudgedRequest) : HttpSecurityFilter :=
  { s with refused := false, requests := s.requests ++ [request], cut := false }

def onHeaders (s : HttpSecurityFilter) (text : JsonText) (request : JudgedRequest) (keepAlive http11 : Bool) :
    HttpSecurityFilter :=
  let s := s.arrive request
  let origin := RequestHeadersView.get request.headers (ascii "origin")
  if !OriginPolicy.originAllowed s.allowedOrigins origin then
    { s with security := ⟨[], false, []⟩ }.refuse text http11 403 (ascii "Forbidden: origin not permitted")
      true
  else
    match request.auth with
    | none =>
        { s with security := ⟨origin, true, ascii "anonymous"⟩ }.next (.headers request.headers keepAlive)
    | some decision =>
        if !decision.allowed then
          { s with security := ⟨origin, false, ascii "anonymous"⟩ }.refuse text http11 decision.statusCode
            (if decision.reason.isEmpty then ascii "Unauthorized" else decision.reason) false
        else
          let principal := if decision.principal.isEmpty then ascii "anonymous" else decision.principal
          { s with security := ⟨origin, true, principal⟩ }.next (.headers request.headers keepAlive)

def onBody (s : HttpSecurityFilter) (data : Bytes) (endStream : Bool) : HttpSecurityFilter :=
  if s.refused then s else s.next (.body data endStream)

def onMessageComplete (s : HttpSecurityFilter) : HttpSecurityFilter :=
  if s.refused then s else s.next .messageComplete

/-- An error is taken for the end of the request. -/
def onError (s : HttpSecurityFilter) (message : Bytes) : HttpSecurityFilter :=
  { s with refused := false, cut := true }.next (.error message)

def step (text : JsonText) (s : HttpSecurityFilter) : SecurityOp → HttpSecurityFilter
  | .headers request keepAlive http11 => s.onHeaders text request keepAlive http11
  | .body data endStream => s.onBody data endStream
  | .messageComplete => s.onMessageComplete
  | .error message => s.onError message

/-! ### What is promised of each request -/

/-- What a request deserves by itself. -/
def judge (allowedOrigins : List Bytes) (request : JudgedRequest) : SecurityVerdict :=
  if !OriginPolicy.originAllowed allowedOrigins (RequestHeadersView.get request.headers (ascii "origin")) then
    .refusedOrigin
  else if request.auth.any fun decision => !decision.allowed then .refusedAuth
  else .accepted

/-- The refusals written for a request. -/
def refusals (s : HttpSecurityFilter) (number : Nat) : List Refusal :=
  (s.written.filter fun entry => entry.1 == number).map Prod.snd

/-- Of a request nothing but errors has reached the next layer. -/
def KeptBack (s : HttpSecurityFilter) (number : Nat) : Prop :=
  ∀ part, (number, part) ∈ s.reached → ∃ message, part = .error message

/-- What is written is read as an answer that has no CORS header. -/
def WithoutCors (refusal : Refusal) : Prop :=
  ∃ line headers body, WireWriter.readResponse refusal.out = some (line, headers, body) ∧
    ∀ header ∈ headers, isCorsHeader header.1 = false

/-- A refused request is kept back and answered once, without CORS headers if its origin was refused; one that
is not refused is passed on and not answered here. -/
def Served (s : HttpSecurityFilter) (number : Nat) (request : JudgedRequest) : Prop :=
  match judge s.allowedOrigins request with
  | .accepted =>
      (∃ keepAlive, (number, .headers request.headers keepAlive) ∈ s.reached) ∧ s.refusals number = []
  | .refusedOrigin =>
      KeptBack s number ∧ ∃ refusal, s.refusals number = [refusal] ∧ WithoutCors refusal
  | .refusedAuth => KeptBack s number ∧ ∃ refusal, s.refusals number = [refusal]

def AllServed (s : HttpSecurityFilter) : Prop :=
  ∀ (n : Nat) (request : JudgedRequest), s.requests[n]? = some request → Served s (n + 1) request

/-- The request that came last was to be refused. -/
def LastRefused (s : HttpSecurityFilter) : Prop :=
  ∃ request, s.requests.getLast? = some request ∧ judge s.allowedOrigins request ≠ .accepted

/-- Nothing more of a refused request comes once an error was reported. -/
def EndsWithError (s : HttpSecurityFilter) : SecurityOp → Prop
  | .body _ _ | .messageComplete => s.cut = true → ¬ LastRefused s
  | .headers _ _ _ | .error _ => True

/-! ### One request -/

theorem corsHeaders_nil {security : RequestSecurity} (h : security.origin = []) :
    corsHeaders security = [] := by
  unfold corsHeaders
  rw [h]
  rfl

/-- A refusal with no header but its content type has none for CORS. -/
theorem withoutCors_of_headers {refusal : Refusal}
    (h : refusal.headers = [(ascii "Content-Type", ascii "application/json")]) : WithoutCors refusal := by
  have hsingle : ∀ header ∈ refusal.headers, WireWriter.SingleLine header := by
    intro header hheader
    rw [h, List.mem_singleton] at hheader
    rw [hheader]
    exact ⟨⟨by decide, by decide⟩, by decide⟩
  have hout : refusal.out =
      (WireWriter.unaryHead refusal.options refusal.statusCode refusal.headers refusal.body).render ++
        refusal.body := by
    unfold Refusal.out
    rw [WireWriter.startUnary_eq rfl]
    rfl
  have hread := WireWriter.readResponse_render (@WireWriter.singleLine_unaryHead refusal.options
    refusal.statusCode refusal.headers refusal.body hsingle) refusal.body
  rw [← hout] at hread
  refine ⟨_, _, _, hread, fun header hheader => ?_⟩
  unfold WireWriter.unaryHead at hheader
  rw [h] at hheader
  rcases List.mem_append.mp hheader with hown | hframing
  · have hin := List.mem_of_mem_filter hown
    rw [List.mem_singleton.mp hin]
    rfl
  · rw [List.mem_cons, List.mem_singleton] at hframing
    obtain rfl | rfl := hframing
    · rfl
    · rfl

/-- What comes of the headers of a request. -/
theorem onHeaders_cases (s : HttpSecurityFilter) (text : JsonText) (request : JudgedRequest)
    (keepAlive http11 : Bool) :
    (judge s.allowedOrigins request = .accepted ∧ ∃ security,
      s.onHeaders text request keepAlive http11 =
        { s.arrive request with security := security }.next (.headers request.headers keepAlive)) ∨
    (judge s.allowedOrigins request = .refusedOrigin ∧ ∃ message,
      s.onHeaders text request keepAlive http11 =
        { s.arrive request with security := ⟨[], false, []⟩ }.refuse text http11 403 message true) ∨
    (judge s.allowedOrigins request = .refusedAuth ∧ ∃ security statusCode message,
      s.onHeaders text request keepAlive http11 =
        { s.arrive request with security := security }.refuse text http11 statusCode message false) := by
  unfold judge onHeaders
  dsimp only
  by_cases horigin : (!OriginPolicy.originAllowed s.allowedOrigins
      (RequestHeadersView.get request.headers (ascii "origin"))) = true
  · have horigin' : (!OriginPolicy.originAllowed (s.arrive request).allowedOrigins
        (RequestHeadersView.get request.headers (ascii "origin"))) = true := horigin
    rw [if_pos horigin, if_pos horigin']
    exact .inr (.inl ⟨rfl, _, rfl⟩)
  · have horigin' : ¬ (!OriginPolicy.originAllowed (s.arrive request).allowedOrigins
        (RequestHeadersView.get request.headers (ascii "origin"))) = true := horigin
    rw [if_neg horigin, if_neg horigin']
    cases hauth : request.auth with
    | none => exact .inl ⟨rfl, _, rfl⟩
    | some decision =>
        by_cases hdenied : (!decision.allowed) = true
        · dsimp only [Option.any]
          rw [if_pos hdenied, if_pos hdenied]
          exact .inr (.inr ⟨rfl, _, _, _, rfl⟩)
        · dsimp only [Option.any]
          rw [if_neg hdenied, if_neg hdenied]
          exact .inl ⟨rfl, _, rfl⟩

/-- What is promised of a request depends on what reached the next layer and was written for it. -/
theorem served_congr {s t : HttpSecurityFilter} {number : Nat} {request : JudgedRequest}
    (horigins : t.allowedOrigins = s.allowedOrigins)
    (hreached : ∀ part, (number, part) ∈ t.reached ↔ (number, part) ∈ s.reached)
    (hwritten : t.refusals number = s.refusals number) (h : Served s number request) :
    Served t number request := by
  unfold Served KeptBack at h ⊢
  rw [horigins, hwritten]
  simp only [hreached]
  exact h

/-- Passing on is promised to a request that was accepted, and errors are passed on for all. -/
theorem served_next {s : HttpSecurityFilter} {number : Nat} {request : JudgedRequest} {part : MessagePart}
    (h : Served s number request)
    (hpart : number ≠ s.number ∨ judge s.allowedOrigins request = .accepted ∨
      ∃ message, part = .error message) :
    Served (s.next part) number request := by
  have hreached : ∀ other, (number, other) ∈ (s.next part).reached →
      (number, other) ∈ s.reached ∨ (number = s.number ∧ other = part) := by
    intro other hin
    rcases List.mem_append.mp hin with hold | hnew
    · exact .inl hold
    · exact .inr (Prod.mk.inj (List.mem_singleton.mp hnew))
  have hkept : judge s.allowedOrigins request ≠ .accepted → KeptBack s number →
      KeptBack (s.next part) number := by
    intro hnot hback other hin
    rcases hreached other hin with hold | ⟨hnumber, rfl⟩
    · exact hback other hold
    · rcases hpart with hother | haccepted | herror
      · exact absurd hnumber hother
      · exact absurd haccepted hnot
      · exact herror
  unfold Served at h ⊢
  have hsame : (s.next part).allowedOrigins = s.allowedOrigins := rfl
  have hrefusals : (s.next part).refusals number = s.refusals number := rfl
  rw [hsame, hrefusals]
  cases hjudge : judge s.allowedOrigins request with
  | accepted =>
      rw [hjudge] at h
      obtain ⟨⟨keepAlive, hin⟩, hnone⟩ := h
      exact ⟨⟨keepAlive, List.mem_append_left _ hin⟩, hnone⟩
  | refusedOrigin =>
      rw [hjudge] at h
      exact ⟨hkept (by rw [hjudge]; decide) h.1, h.2⟩
  | refusedAuth =>
      rw [hjudge] at h
      exact ⟨hkept (by rw [hjudge]; decide) h.1, h.2⟩

/-! ### The invariant -/

/-- The filter remembers a refusal until an error; what it passed and wrote belongs to requests that came; and
each of them is served as promised. -/
structure Sound (s : HttpSecurityFilter) : Prop where
  flag : s.refused = true ↔ LastRefused s ∧ s.cut = false
  reached : ∀ entry ∈ s.reached, entry.1 ≤ s.number
  written : ∀ entry ∈ s.written, entry.1 ≤ s.number
  served : AllServed s

/-- The last request, when it was accepted or there is none, leaves the way free. -/
theorem sound_next {s : HttpSecurityFilter} (h : Sound s) {part : MessagePart}
    (hpart : ¬ LastRefused s ∨ ∃ message, part = .error message) : Sound (s.next part) := by
  refine ⟨h.flag, fun entry hin => ?_, h.written, fun n request hrequest => ?_⟩
  · rcases List.mem_append.mp hin with hold | hnew
    · exact h.reached entry hold
    · rw [List.mem_singleton.mp hnew]
      exact Nat.le_refl _
  · refine served_next (h.served n request hrequest) ?_
    rcases hpart with hfree | herror
    · by_cases hlast : n + 1 = s.number
      · refine .inr (.inl ?_)
        by_contra hnot
        refine hfree ⟨request, ?_, hnot⟩
        rw [List.getLast?_eq_getElem?, ← hrequest]
        congr 1
        unfold number at hlast
        omega
      · exact .inl hlast
    · exact .inr (.inr herror)

/-- Nothing belongs to a request that has not come. -/
theorem refusals_fresh {s : HttpSecurityFilter} (h : Sound s) : s.refusals (s.number + 1) = [] := by
  unfold refusals
  rw [List.filter_eq_nil_iff.mpr, List.map_nil]
  intro entry hin hnumber
  have := h.written entry hin
  rw [beq_iff_eq] at hnumber
  omega

theorem lastRefused_arrive {s t : HttpSecurityFilter} {request : JudgedRequest}
    (horigins : t.allowedOrigins = s.allowedOrigins) (hrequests : t.requests = s.requests ++ [request]) :
    LastRefused t ↔ judge s.allowedOrigins request ≠ .accepted := by
  unfold LastRefused
  rw [horigins, hrequests, List.getLast?_concat]
  constructor
  · rintro ⟨other, hlast, hnot⟩
    rwa [Option.some.inj hlast]
  · exact fun hnot => ⟨request, rfl, hnot⟩

theorem refusals_refuse (s : HttpSecurityFilter) (text : JsonText) (http11 : Bool) (statusCode : Int32)
    (message : Bytes) (closeConnection : Bool) (number : Nat) :
    (s.refuse text http11 statusCode message closeConnection).refusals number =
      s.refusals number ++
        if s.number = number then [s.refusal text http11 statusCode message closeConnection] else [] := by
  unfold refusals refuse
  rw [List.filter_append, List.map_append, List.filter_singleton]
  by_cases h : s.number = number
  · rw [if_pos h, show (s.number == number) = true from beq_iff_eq.mpr h]
    rfl
  · rw [if_neg h, show (s.number == number) = false from beq_eq_false_iff_ne.mpr h]
    rfl

/-- The requests before the one that came, and it. -/
theorem getElem?_arrive {requests : List JudgedRequest} {request old : JudgedRequest} {n : Nat}
    (h : (requests ++ [request])[n]? = some old) :
    requests[n]? = some old ∨ n = requests.length ∧ request = old := by
  by_cases hlt : n < requests.length
  · rw [List.getElem?_append_left hlt] at h
    exact .inl h
  · rw [List.getElem?_append_right (by omega)] at h
    obtain ⟨hzero, hsame⟩ := List.getElem?_eq_some_iff.mp h
    simp only [List.length_singleton] at hzero
    exact .inr ⟨by omega, by simpa using hsame⟩

/-- A request that is refused is kept back and answered once. -/
theorem sound_refuse {s : HttpSecurityFilter} (h : Sound s) {request : JudgedRequest}
    {security : RequestSecurity} {text : JsonText} {http11 closeConnection : Bool} {statusCode : Int32}
    {message : Bytes} (hnot : judge s.allowedOrigins request ≠ .accepted)
    (horigin : judge s.allowedOrigins request = .refusedOrigin → security.origin = []) :
    Sound ({ s.arrive request with security := security }.refuse text http11 statusCode message
      closeConnection) := by
  have hnumber : ({ s.arrive request with security := security } : HttpSecurityFilter).number =
      s.number + 1 := List.length_append
  have hrefusals (number : Nat) := refusals_refuse { s.arrive request with security := security } text http11
    statusCode message closeConnection number
  rw [hnumber] at hrefusals
  refine ⟨⟨fun _ => ⟨?_, rfl⟩, fun _ => rfl⟩, fun entry hin => ?_, fun entry hin => ?_,
    fun n old hold => ?_⟩
  · have hlast : LastRefused ({ s.arrive request with security := security }.refuse text http11 statusCode
        message closeConnection) ↔ judge s.allowedOrigins request ≠ .accepted := by
      apply lastRefused_arrive <;> rfl
    exact hlast.mpr hnot
  · show entry.1 ≤ ({ s.arrive request with security := security } : HttpSecurityFilter).number
    rw [hnumber]
    exact Nat.le_succ_of_le (h.reached entry hin)
  · show entry.1 ≤ ({ s.arrive request with security := security } : HttpSecurityFilter).number
    rcases List.mem_append.mp hin with hin | hin
    · rw [hnumber]
      exact Nat.le_succ_of_le (h.written entry hin)
    · rw [List.mem_singleton.mp hin]
  · rcases getElem?_arrive hold with hbefore | ⟨rfl, rfl⟩
    · have hlt : n < s.number := (List.getElem?_eq_some_iff.mp hbefore).1
      refine @served_congr s _ (n + 1) old rfl (fun _ => Iff.rfl) ?_ (h.served n old hbefore)
      rw [hrefusals, if_neg (by omega), List.append_nil]
      rfl
    · have hback : KeptBack ({ s.arrive request with security := security }.refuse text http11 statusCode
          message closeConnection) (s.number + 1) := by
        intro part hin
        have := h.reached _ hin
        simp only at this
        omega
      have hone := hrefusals (s.number + 1)
      rw [if_pos rfl, show ({ s.arrive request with security := security } : HttpSecurityFilter).refusals
        (s.number + 1) = [] from refusals_fresh h, List.nil_append] at hone
      show Served _ (s.number + 1) request
      unfold Served
      show (match judge s.allowedOrigins request with
        | .accepted => _
        | .refusedOrigin => _
        | .refusedAuth => _)
      cases hjudge : judge s.allowedOrigins request with
      | accepted => exact absurd hjudge hnot
      | refusedOrigin =>
          refine ⟨hback, _, hone, withoutCors_of_headers ?_⟩
          unfold refusal
          rw [corsHeaders_nil (horigin hjudge), List.append_nil]
      | refusedAuth => exact ⟨hback, _, hone⟩

/-- One that is accepted is passed on. -/
theorem sound_accept {s : HttpSecurityFilter} (h : Sound s) {request : JudgedRequest}
    {security : RequestSecurity} {keepAlive : Bool}
    (haccepted : judge s.allowedOrigins request = .accepted) :
    Sound ({ s.arrive request with security := security }.next (.headers request.headers keepAlive)) := by
  have hnumber : ({ s.arrive request with security := security } : HttpSecurityFilter).number =
      s.number + 1 := List.length_append
  have hlast : LastRefused ({ s.arrive request with security := security }.next
      (.headers request.headers keepAlive)) ↔ judge s.allowedOrigins request ≠ .accepted := by
    apply lastRefused_arrive <;> rfl
  refine ⟨⟨fun hflag => Bool.noConfusion hflag, fun hflag => absurd haccepted (hlast.mp hflag.1)⟩,
    fun entry hin => ?_, fun entry hin => ?_, fun n old hold => ?_⟩
  · show entry.1 ≤ ({ s.arrive request with security := security } : HttpSecurityFilter).number
    rcases List.mem_append.mp hin with hin | hin
    · rw [hnumber]
      exact Nat.le_succ_of_le (h.reached entry hin)
    · rw [List.mem_singleton.mp hin]
  · show entry.1 ≤ ({ s.arrive request with security := security } : HttpSecurityFilter).number
    rw [hnumber]
    exact Nat.le_succ_of_le (h.written entry hin)
  · rcases getElem?_arrive hold with hbefore | ⟨rfl, rfl⟩
    · have hlt : n < s.number := (List.getElem?_eq_some_iff.mp hbefore).1
      refine served_next (s := { s.arrive request with security := security }) ?_ (.inl (by omega))
      exact served_congr rfl (fun _ => Iff.rfl) rfl (h.served n old hbefore)
    · show Served _ (s.number + 1) request
      unfold Served
      show (match judge s.allowedOrigins request with
        | .accepted => _
        | .refusedOrigin => _
        | .refusedAuth => _)
      rw [haccepted]
      refine ⟨⟨keepAlive, List.mem_append_right _ ?_⟩, refusals_fresh h⟩
      rw [hnumber]
      exact List.mem_singleton_self _

theorem sound_onHeaders {s : HttpSecurityFilter} (h : Sound s) (text : JsonText) (request : JudgedRequest)
    (keepAlive http11 : Bool) : Sound (s.onHeaders text request keepAlive http11) := by
  rcases s.onHeaders_cases text request keepAlive http11 with
    ⟨hjudge, security, heq⟩ | ⟨hjudge, message, heq⟩ | ⟨hjudge, security, statusCode, message, heq⟩
  · rw [heq]
    exact sound_accept h hjudge
  · rw [heq]
    exact sound_refuse h (by rw [hjudge]; decide) fun _ => rfl
  · rw [heq]
    exact sound_refuse h (by rw [hjudge]; decide) fun horigin => by rw [hjudge] at horigin; cases horigin

/-- What belongs to the request that came last. -/
theorem sound_part {s : HttpSecurityFilter} (h : Sound s) (hends : s.cut = true → ¬ LastRefused s)
    (part : MessagePart) : Sound (if s.refused then s else s.next part) := by
  split
  case isTrue => exact h
  case isFalse hflag =>
    refine sound_next h (.inl fun hlast => ?_)
    cases hcut : s.cut with
    | true => exact hends hcut hlast
    | false => exact hflag (h.flag.mpr ⟨hlast, hcut⟩)

theorem sound_step {text : JsonText} {s : HttpSecurityFilter} (h : Sound s) {op : SecurityOp}
    (ok : EndsWithError s op) : Sound (s.step text op) := by
  cases op with
  | headers request keepAlive http11 => exact sound_onHeaders h text request keepAlive http11
  | body data endStream => exact sound_part h ok (.body data endStream)
  | messageComplete => exact sound_part h ok .messageComplete
  | error message =>
      have hsound : Sound { s with refused := false, cut := true } :=
        ⟨⟨fun hflag => Bool.noConfusion hflag, fun hflag => Bool.noConfusion hflag.2⟩, h.reached, h.written,
          h.served⟩
      exact sound_next hsound (.inr ⟨message, rfl⟩)

/-- Once an error was reported, what still comes of a refused request is passed on. -/
theorem not_allServed_step {text : JsonText} {s : HttpSecurityFilter} (h : Sound s) {op : SecurityOp}
    (hnot : ¬ EndsWithError s op) : ¬ AllServed (s.step text op) := by
  intro hserved
  obtain ⟨part, hstep, herror, hcut, hlast⟩ : ∃ part, s.step text op = (if s.refused then s else s.next part) ∧
      (∀ message, part ≠ .error message) ∧ s.cut = true ∧ LastRefused s := by
    cases op with
    | headers request keepAlive http11 => exact absurd trivial hnot
    | error message => exact absurd trivial hnot
    | body data endStream =>
        obtain ⟨hcut, hlast⟩ := Classical.not_imp.mp hnot
        exact ⟨.body data endStream, rfl, fun _ heq => MessagePart.noConfusion heq, hcut,
          not_not.mp hlast⟩
    | messageComplete =>
        obtain ⟨hcut, hlast⟩ := Classical.not_imp.mp hnot
        exact ⟨.messageComplete, rfl, fun _ heq => MessagePart.noConfusion heq, hcut, not_not.mp hlast⟩
  have hflag : ¬ s.refused = true := by
    intro hflag
    rw [(h.flag.mp hflag).2] at hcut
    cases hcut
  rw [hstep, if_neg hflag] at hserved
  obtain ⟨request, hrequest, hjudge⟩ := hlast
  have hpos : 0 < s.requests.length := by
    cases hlength : s.requests with
    | nil => rw [hlength] at hrequest; cases hrequest
    | cons _ _ => exact Nat.succ_pos _
  rw [List.getLast?_eq_getElem?] at hrequest
  have hpromise := hserved (s.requests.length - 1) request hrequest
  rw [Nat.sub_add_cancel hpos] at hpromise
  have hback : KeptBack (s.next part) s.requests.length := by
    unfold Served at hpromise
    cases hcase : judge s.allowedOrigins request with
    | accepted => exact absurd hcase hjudge
    | refusedOrigin =>
        rw [show judge (s.next part).allowedOrigins request = .refusedOrigin from hcase] at hpromise
        exact hpromise.1
    | refusedAuth =>
        rw [show judge (s.next part).allowedOrigins request = .refusedAuth from hcase] at hpromise
        exact hpromise.1
  obtain ⟨message, heq⟩ := hback part (List.mem_append_right _ (List.mem_singleton_self _))
  exact herror message heq

theorem sound_new (allowedOrigins : List Bytes) : Sound (new allowedOrigins) := by
  refine ⟨⟨fun hflag => Bool.noConfusion hflag, ?_⟩, fun _ hin => absurd hin List.not_mem_nil,
    fun _ hin => absurd hin List.not_mem_nil, fun n request hrequest => ?_⟩
  · rintro ⟨⟨request, hlast, _⟩, _⟩
    cases hlast
  · cases hrequest

end HttpSecurityFilter

end GopherMcp
