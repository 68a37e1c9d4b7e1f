import GopherMcp.Filter.CodecWrites
import GopherMcp.Http.RequestReader

/-!
# The requests of a client

Whatever a client writes through the codec, what leaves is to be read as one request: with the fields the codec
generates, each once, then the caller's own fields that are fields, and the payload for a body. It is exactly if the
machine takes a request, what is pasted into the head keeps to its line and its place, and each of the caller's names
that passes the codec's check is a name.
-/

namespace GopherMcp

open WireWriter (Headers lowercase)
open HttpRequest (read render seen named isName isTarget isFieldText isBlank valuesOf)

namespace HttpCodecFilter

/-- The parts a request is put together from; the caller's fields come between the generated ones and the body. -/
structure RequestParts where
  method : Bytes
  target : Bytes
  generated : Headers
  body : Bytes

/-- What a client asks with a payload: for the event stream, for something without a body, or for an answer to the
payload. With nothing to ask there is none. -/
def requestParts (s : HttpCodecFilter) (payload : Bytes) : Option RequestParts :=
  if payload.isEmpty && s.bodylessMethod.isEmpty && (!s.useSseGet || s.sseGetSent) then none
  else if s.useSseGet && !s.sseGetSent && payload.isEmpty then
    some
      { method := ascii "GET"
        target := s.clientPath
        generated :=
          [(ascii "Host", s.clientHost), (ascii "Accept", ascii "text/event-stream"),
            (ascii "Cache-Control", ascii "no-cache"), connection, userAgent]
        body := [] }
  else if !s.bodylessMethod.isEmpty then
    some
      { method := s.bodylessMethod
        target := s.clientPath
        generated := [(ascii "Host", s.clientHost), (ascii "Accept", s.acceptValue), connection, userAgent]
        body := [] }
  else
    some
      { method := ascii "POST"
        target := s.postPath
        generated :=
          [(ascii "Host", s.clientHost), (ascii "Content-Type", ascii "application/json"),
            (ascii "Content-Length", toDecimal payload.length),
            (ascii "Accept", ascii "application/json, text/event-stream"), connection, userAgent]
        body := payload }

/-- The fields of the request as they should be read. -/
def fieldsOf (headers : OrdMap Bytes Bytes) (parts : RequestParts) : Headers :=
  seen (parts.generated ++ named (sentClientHeaders headers))

/-- The bytes are read as the one request that is asked, each generated field once in it. -/
def AsksOnce (headers : OrdMap Bytes Bytes) (parts : RequestParts) (body bytes : Bytes) : Prop :=
  read bytes = some (⟨parts.method, parts.target, fieldsOf headers parts, body⟩, []) ∧
    ∀ header ∈ parts.generated, valuesOf (fieldsOf headers parts) (lowercase header.1) = [Delimited.trim isBlank header.2]

/-- All that is pasted in keeps to its place. -/
structure KeepsPlace (headers : OrdMap Bytes Bytes) (parts : RequestParts) : Prop where
  method : isName parts.method = true
  target : isTarget parts.target = true
  generated : ∀ header ∈ parts.generated, isFieldText header.2 = true
  sent : ∀ header ∈ sentClientHeaders headers, isName header.1 = true

/-- What leaves with a payload is the request that is asked, or nothing. -/
def WritesAsked (s : HttpCodecFilter) (payload out : Bytes) : Prop :=
  match s.requestParts payload with
  | none => out = []
  | some parts => AsksOnce s.clientHeaders parts payload out

/-- The machine takes the request that is asked, none of the payload is left out, and all that is pasted in keeps to its
place. -/
def TakesAsked (s : HttpCodecFilter) (payload : Bytes) : Prop :=
  ∀ parts, s.requestParts payload = some parts →
    s.clientCanWrite ∧ parts.body = payload ∧ KeepsPlace s.clientHeaders parts

/-! ### The caller's fields -/

variable {s : HttpCodecFilter} {payload : Bytes} {parts : RequestParts}

theorem isFieldText_of_not_any {text : Bytes}
    (h : (text.any fun byte => byte == kCR || byte == kLF || byte == 0) = false) : isFieldText text = true := by
  rw [List.any_eq_false] at h
  unfold isFieldText
  rw [List.all_eq_true]
  intro byte hbyte
  have hplain := h byte hbyte
  simp only [Bool.or_eq_true, not_or, beq_iff_eq] at hplain
  simp [hplain.1.1, hplain.1.2, hplain.2]

/-- What passes the check holds neither line ends nor zeros. -/
theorem isFieldText_of_isValidClientHeader {name value : Bytes} (h : isValidClientHeader name value = true) :
    isFieldText name = true ∧ isFieldText value = true := by
  unfold isValidClientHeader at h
  rw [Bool.and_eq_true, Bool.and_eq_true, Bool.not_eq_true', Bool.not_eq_true'] at h
  exact ⟨isFieldText_of_not_any h.1.2, isFieldText_of_not_any h.2⟩

def generatedNames : List Bytes :=
  [ascii "host", ascii "content-length", ascii "transfer-encoding", ascii "connection", ascii "accept",
    ascii "content-type", ascii "user-agent", ascii "cache-control"]

theorem lowercase_ne_of_not_generated {name generated : Bytes} (h : isGeneratedClientHeader name = false)
    (hgenerated : generated ∈ generatedNames) : lowercase name ≠ generated := by
  unfold isGeneratedClientHeader at h
  rw [Bool.or_eq_false_iff] at h
  rintro rfl
  have hcontains : generatedNames.contains (lowercase name) = true := List.contains_iff_mem.mpr hgenerated
  exact Bool.noConfusion (hcontains.symm.trans h.2)

theorem isFieldText_of_sent {headers : OrdMap Bytes Bytes} :
    ∀ header ∈ sentClientHeaders headers, isFieldText header.1 = true ∧ isFieldText header.2 = true := by
  intro header hheader
  have hkept := (List.mem_filter.mp hheader).2
  rw [Bool.and_eq_true] at hkept
  exact isFieldText_of_isValidClientHeader hkept.1

/-- None of the caller's fields has a generated name. -/
theorem valuesOf_sent (headers : OrdMap Bytes Bytes) {name : Bytes} (hname : name ∈ generatedNames) :
    valuesOf (named (sentClientHeaders headers)) name = [] := by
  apply HttpRequest.valuesOf_eq_nil
  intro header hheader
  have hkept := (List.mem_filter.mp (List.mem_of_mem_filter hheader)).2
  rw [Bool.and_eq_true, Bool.not_eq_true'] at hkept
  exact lowercase_ne_of_not_generated hkept.2 hname

theorem valuesOf_fieldsOf (headers : OrdMap Bytes Bytes) (parts : RequestParts) {name : Bytes}
    (hname : name ∈ generatedNames) :
    valuesOf (fieldsOf headers parts) name = (valuesOf parts.generated name).map (Delimited.trim isBlank) := by
  rw [fieldsOf, HttpRequest.valuesOf_seen, HttpRequest.valuesOf_append, valuesOf_sent _ hname, List.append_nil]

/-! ### The generated fields -/

/-- The generated fields are known by their names, and tell how long the body is where there is one. -/
structure Generated (parts : RequestParts) : Prop where
  names : ∀ name ∈ parts.generated.map Prod.fst, isName name = true ∧ lowercase name ∈ generatedNames
  apart : ((parts.generated.map Prod.fst).map lowercase).Nodup
  uncoded : valuesOf parts.generated (ascii "transfer-encoding") = []
  length : valuesOf parts.generated (ascii "content-length") = [toDecimal parts.body.length] ∨
    valuesOf parts.generated (ascii "content-length") = [] ∧ parts.body = []

theorem readBody_fieldsOf (h : Generated parts) (headers : OrdMap Bytes Bytes) :
    HttpRequest.readBody (fieldsOf headers parts) parts.body = some (parts.body, []) := by
  have hcoding : valuesOf (fieldsOf headers parts) (ascii "transfer-encoding") = [] := by
    rw [valuesOf_fieldsOf headers parts (by decide), h.uncoded, List.map_nil]
  have hread := valuesOf_fieldsOf headers parts (show ascii "content-length" ∈ generatedNames by decide)
  obtain hlength | ⟨hnone, hbody⟩ := h.length
  · rw [hlength, List.map_singleton, HttpRequest.trim_toDecimal] at hread
    exact HttpRequest.readBody_of_length hcoding hread
  · rw [hnone, List.map_nil] at hread
    rw [hbody]
    exact HttpRequest.readBody_of_none hcoding hread

/-- Each generated field is there once. -/
theorem valuesOf_generated (h : Generated parts) (headers : OrdMap Bytes Bytes) {header : Bytes × Bytes}
    (hheader : header ∈ parts.generated) :
    valuesOf (fieldsOf headers parts) (lowercase header.1) = [Delimited.trim isBlank header.2] := by
  have happart := h.apart
  rw [List.map_map] at happart
  rw [valuesOf_fieldsOf headers parts (h.names _ (List.mem_map_of_mem hheader)).2,
    HttpRequest.valuesOf_of_mem happart hheader, List.map_singleton]

/-- Put together, the parts are the request exactly if none of its body is left out and each keeps to its place. -/
theorem asksOnce_render_iff (h : Generated parts) (headers : OrdMap Bytes Bytes) (body : Bytes) :
    AsksOnce headers parts body
        (render ⟨parts.method, parts.target, parts.generated ++ sentClientHeaders headers, parts.body⟩) ↔
      parts.body = body ∧ KeepsPlace headers parts := by
  have hiff := @HttpRequest.read_render_iff parts.method parts.target parts.body parts.generated
    (sentClientHeaders headers) body (fun header hheader => (h.names _ (List.mem_map_of_mem hheader)).1)
    isFieldText_of_sent (readBody_fieldsOf h headers)
  constructor
  · rintro ⟨hread, -⟩
    obtain ⟨hbody, hmethod, htarget, hgenerated, hsent⟩ := hiff.mp hread
    exact ⟨hbody, hmethod, htarget, hgenerated, hsent⟩
  · rintro ⟨hbody, hmethod, htarget, hgenerated, hsent⟩
    exact ⟨hiff.mpr ⟨hbody, hmethod, htarget, hgenerated, hsent⟩, fun _ => valuesOf_generated h headers⟩

/-! ### What leaves -/

/-- The names a request may be generated with. -/
theorem names_generated {names : List Bytes}
    (h : names ∈
      [[ascii "Host", ascii "Accept", ascii "Cache-Control", ascii "Connection", ascii "User-Agent"],
        [ascii "Host", ascii "Accept", ascii "Connection", ascii "User-Agent"],
        [ascii "Host", ascii "Content-Type", ascii "Content-Length", ascii "Accept", ascii "Connection",
          ascii "User-Agent"]]) :
    (∀ name ∈ names, isName name = true ∧ lowercase name ∈ generatedNames) ∧ (names.map lowercase).Nodup := by
  simp only [List.mem_cons, List.not_mem_nil, or_false] at h
  obtain rfl | rfl | rfl := h <;> decide

theorem generated_of_requestParts (h : s.requestParts payload = some parts) : Generated parts := by
  unfold requestParts at h
  split_ifs at h with hnothing hstream hbodyless
  · obtain rfl := Option.some.inj h
    obtain ⟨hnames, hapart⟩ := names_generated (List.mem_cons_self)
    exact ⟨hnames, hapart, rfl, Or.inr ⟨rfl, rfl⟩⟩
  · obtain rfl := Option.some.inj h
    obtain ⟨hnames, hapart⟩ := names_generated (List.mem_cons_of_mem _ List.mem_cons_self)
    exact ⟨hnames, hapart, rfl, Or.inr ⟨rfl, rfl⟩⟩
  · obtain rfl := Option.some.inj h
    obtain ⟨hnames, hapart⟩ := names_generated (List.mem_cons_of_mem _ (List.mem_cons_of_mem _ List.mem_cons_self))
    exact ⟨hnames, hapart, rfl, Or.inl rfl⟩

theorem renderRequest_append (method path : Bytes) (headers : Headers) (body : Bytes) :
    renderRequest method path headers ++ body = render ⟨method, path, headers, body⟩ := by
  have hblank : ascii " " = [kSpace] := rfl
  have hversion : ascii " HTTP/1.1" = kSpace :: HttpRequest.version := rfl
  have hline : requestLine method path = HttpRequest.requestLine method path := by
    rw [requestLine, HttpRequest.requestLine, hblank, hversion]
    simp
  simp [renderRequest, render, HttpRequest.lines, hline, List.flatMap_map]

theorem renderRequest_eq (method path : Bytes) (headers : Headers) :
    renderRequest method path headers = render ⟨method, path, headers, []⟩ := by
  rw [← renderRequest_append, List.append_nil]

theorem onWrite_client (hclient : s.isServer = false) (payload : Bytes) (endStream : Bool) :
    (s.onWrite payload endStream).2 =
      if payload.isEmpty && s.bodylessMethod.isEmpty && (!s.useSseGet || s.sseGetSent) then payload
      else (s.writeRequest payload).2 := by
  unfold onWrite
  simp only [hclient, Bool.false_or, Bool.false_eq_true, if_false]
  split_ifs <;> rfl

theorem writeRequest_of_can (hwrites : s.clientCanWrite) (payload : Bytes) :
    (s.writeRequest payload).2 =
      if s.useSseGet && !s.sseGetSent && payload.isEmpty then s.sseGetRequest
      else if !s.bodylessMethod.isEmpty then s.bodylessRequest
      else s.postRequest payload := by
  unfold writeRequest
  rw [if_pos hwrites]

/-- Where the machine takes a request its parts are put together. -/
theorem onWrite_of_parts (hclient : s.isServer = false) (hparts : s.requestParts payload = some parts)
    (hwrites : s.clientCanWrite) (endStream : Bool) :
    (s.onWrite payload endStream).2 =
      render ⟨parts.method, parts.target, parts.generated ++ sentClientHeaders s.clientHeaders, parts.body⟩ := by
  rw [onWrite_client hclient, writeRequest_of_can hwrites]
  unfold requestParts at hparts
  split_ifs at hparts ⊢ with hnothing hstream hbodyless
  · obtain rfl := Option.some.inj hparts
    exact renderRequest_eq _ _ _
  · obtain rfl := Option.some.inj hparts
    exact renderRequest_eq _ _ _
  · obtain rfl := Option.some.inj hparts
    exact renderRequest_append _ _ _ _

theorem onWrite_of_none (hclient : s.isServer = false) (hparts : s.requestParts payload = none) (endStream : Bool) :
    (s.onWrite payload endStream).2 = [] := by
  rw [onWrite_client hclient]
  unfold requestParts at hparts
  split_ifs at hparts ⊢ with hnothing
  rw [Bool.and_eq_true, Bool.and_eq_true] at hnothing
  exact List.isEmpty_iff.mp hnothing.1.1

theorem onWrite_of_not (hclient : s.isServer = false) (hnot : ¬ s.clientCanWrite) (endStream : Bool) :
    (s.onWrite payload endStream).2 = payload := by
  rw [onWrite_client hclient, writeRequest, if_neg hnot, ite_self]

/-- **A client's request.** What leaves is read as the one request that is asked exactly if the machine takes it, none
of the payload is left out, and all that is pasted in keeps to its place. -/
theorem writesAsked_iff (hclient : s.isServer = false) (payload : Bytes) (endStream : Bool) :
    s.WritesAsked payload (s.onWrite payload endStream).2 ↔ s.TakesAsked payload := by
  unfold WritesAsked TakesAsked
  cases hparts : s.requestParts payload with
  | none =>
      refine iff_of_true (onWrite_of_none hclient hparts endStream) ?_
      rintro parts ⟨⟩
  | some parts =>
      simp only [Option.some.injEq, forall_eq']
      by_cases hwrites : s.clientCanWrite
      · rw [onWrite_of_parts hclient hparts hwrites, asksOnce_render_iff (generated_of_requestParts hparts)]
        exact (and_iff_right hwrites).symm
      · refine iff_of_false ?_ fun h => hwrites h.1
        -- the payload leaves as it is, and is no body of a request that is not longer
        rintro ⟨hread, -⟩
        rw [onWrite_of_not hclient hwrites] at hread
        exact absurd (HttpRequest.length_of_read hread) (lt_irrefl _)

/-- A client that posts a message without headers of its own. -/
theorem writesAsked_plain :
    (new false).isServer = false ∧ (new false).WritesAsked (ascii "\x7b\x7d") ((new false).onWrite (ascii "\x7b\x7d") true).2 := by
  refine ⟨rfl, (writesAsked_iff rfl (ascii "\x7b\x7d") true).mpr ?_⟩
  rintro parts ⟨⟩
  exact ⟨Or.inl rfl, rfl, by decide, by decide, by decide, by decide⟩

/-- A client whose caller has a header of the name `Host:`. -/
def secondHost : HttpCodecFilter :=
  { new false with clientHeaders := OrdMap.empty.insert (ascii "Host:") (ascii "other") }

/-- On the wire it is a second host. -/
theorem not_writesAsked_secondHost :
    ¬ secondHost.WritesAsked (ascii "\x7b\x7d") (secondHost.onWrite (ascii "\x7b\x7d") true).2 ∧
      ∃ request, read (secondHost.onWrite (ascii "\x7b\x7d") true).2 = some (request, []) ∧
        valuesOf request.headers (ascii "host") = [ascii "localhost", ascii ": other"] := by
  have hread : read (secondHost.onWrite (ascii "\x7b\x7d") true).2 =
      some (⟨ascii "POST", ascii "/rpc",
        [(ascii "Host", ascii "localhost"), (ascii "Content-Type", ascii "application/json"),
          (ascii "Content-Length", ascii "2"), (ascii "Accept", ascii "application/json, text/event-stream"),
          connection, userAgent, (ascii "Host", ascii ": other")], ascii "\x7b\x7d"⟩, []) := by
    decide +kernel
  refine ⟨fun h => ?_, _, hread, by decide⟩
  have hasked := h.1
  rw [hread] at hasked
  cases hasked

end HttpCodecFilter

end GopherMcp
