import GopherMcp.Client.AnnouncedEndpoints
import GopherMcp.Network.InternetAddresses

/-!
# The requests the HTTP client writes

An address is cut by position and its port read by `std::stoi` and narrowed; the head of a request is pasted together
from the caller's strings, and a length and a connection field are added unless the caller has them in one of two
spellings. What is written is the request that was given exactly if the host is an address, the port plain, and the
strings are what a head can hold, with none of the fields that are written anyway among them in another way.
-/

namespace GopherMcp

open AnnouncedEndpoint (authorityOf pathOf narrowed kSlash)
open AddressInstance (cString makeIpv4 kDot)
open HttpRequest (readNumber isName isTarget isFieldText isBlank render seen valuesOf)
open MirroredHeaders (isDigit)
open ProtocolDetection (find)
open WireWriter (Headers headerLine lowercase)

namespace HttpAsyncClient

/-- A request as the caller gives it. -/
structure HttpRequest where
  method : Bytes
  url : Bytes
  headers : OrdMap Bytes Bytes
  body : Bytes

/-! ### Writing -/

def isContentLength (name : Bytes) : Bool := name == ascii "Content-Length" || name == ascii "content-length"

def isConnection (name : Bytes) : Bool := name == ascii "Connection" || name == ascii "connection"

/-- The head that is written so far. -/
structure RequestHead where
  req : Bytes
  hasContentLength : Bool
  hasConnection : Bool

def RequestHead.add (head : RequestHead) (header : Bytes × Bytes) : RequestHead :=
  let head := { head with req := head.req ++ header.1 ++ ascii ": " ++ header.2 ++ ascii "\r\n" }
  if isContentLength header.1 then { head with hasContentLength := true }
  else if isConnection header.1 then { head with hasConnection := true }
  else head

def writeRequestBytes (request : HttpRequest) (url : ParsedUrl) : Bytes :=
  let req := request.method ++ ascii " " ++ url.path ++ ascii " HTTP/1.1\r\n"
  let req := req ++ ascii "Host: " ++ url.host ++ ascii ":" ++ toDecimal url.port.toNat ++ ascii "\r\n"
  let head := request.headers.entries.foldl RequestHead.add ⟨req, false, false⟩
  let req :=
    if !head.hasContentLength then
      head.req ++ ascii "Content-Length: " ++ toDecimal request.body.length ++ ascii "\r\n"
    else head.req
  let req := if !head.hasConnection then req ++ ascii "Connection: close\r\n" else req
  req ++ ascii "\r\n" ++ request.body

inductive SendOutcome
  | throws
  | refused
  /-- The address that is connected to, and what is written when it is. -/
  | started (address : AddressInstance) (bytes : Bytes)

/-- What `send` returns. -/
def SendOutcome.result : SendOutcome → SendResult
  | .throws => .thrown
  | .refused => .refused
  | .started _ _ => .accepted

/-- `resources` says whether a socket, the handle for it and the transport's factory are to be had. -/
def send (net : InternetText) (resources : Bool) (request : HttpRequest) : SendOutcome :=
  match parseUrl request.url with
  | none => .refused
  | some url =>
      match makeIpv4 net url.host url.port with
      | none => .throws
      | some address => if resources then .started address (writeRequestBytes request url) else .refused

/-! ### What should be written -/

def schemeOf (tls : Bool) : Bytes := if tls then ascii "https://" else ascii "http://"

def defaultPort (tls : Bool) : UInt16 := if tls then 443 else 80

/-- The text of a port, and which it is; without one it is that of the scheme. -/
def PortPart (tls : Bool) (text : Bytes) (port : Nat) : Prop :=
  text = [] ∧ port = (defaultPort tls).toNat ∨
    ∃ digits, text = kColon :: digits ∧ readNumber digits = some port ∧ port ≤ 65535

def PathPart (text path : Bytes) : Prop := text = [] ∧ path = [kSlash] ∨ text = path ∧ path.head? = some kSlash

/-- An address of the web with an IPv4 literal for a host, a decimal port or none, and a path or none. -/
def Addresses (net : InternetText) (url host : Bytes) (port : Nat) (path : Bytes) : Prop :=
  ∃ tls portPart pathPart, url = schemeOf tls ++ (host ++ (portPart ++ pathPart)) ∧ 0 ∉ host ∧
    (net.pton4 host).isSome = true ∧ PortPart tls portPart port ∧ PathPart pathPart path

/-- The fields that are there in any request. -/
def writtenNames : List Bytes := [ascii "host", ascii "content-length", ascii "connection"]

/-- The fields tell the host and its port, how long the body is and what becomes of the connection, each once, and
under every name what was given under it; only of the fields that are there anyway none need be given. -/
structure FieldsGiven (request : HttpRequest) (host : Bytes) (port : Nat) (fields : Headers) : Prop where
  host : valuesOf fields (ascii "host") = [host ++ kColon :: toDecimal port]
  length : ∃ text, valuesOf fields (ascii "content-length") = [text] ∧ readNumber text = some request.body.length
  connection : ∃ value, valuesOf fields (ascii "connection") = [value]
  given : ∀ name, valuesOf fields name = valuesOf (seen request.headers.entries) name ∨
    name ∈ writtenNames ∧ valuesOf (seen request.headers.entries) name = []

/-- The bytes are read as the one request that was given. -/
def AsksGiven (request : HttpRequest) (host : Bytes) (port : Nat) (path bytes : Bytes) : Prop :=
  ∃ fields, HttpRequest.read bytes = some (⟨request.method, path, fields, request.body⟩, []) ∧
    FieldsGiven request host port fields

/-- Sending does not throw, and refuses what has no such address; the bytes for it are those of the request. -/
def SendsGiven (net : InternetText) (request : HttpRequest) : SendOutcome → Prop
  | .throws => False
  | .refused => True
  | .started address bytes =>
      ∃ host port path, Addresses net request.url host port path ∧
        (net.pton4 host).map (AddressInstance.ipv4 · (UInt16.ofNat port)) = some address ∧
        AsksGiven request host port path bytes

/-- A port that is written is a decimal number that a port can be. -/
def DecimalPort (url : Bytes) : Prop :=
  ∀ tls rest, url = schemeOf tls ++ rest → ∀ parts, Delimited.cut (authorityOf rest) kColon = some parts →
    ∃ number, readNumber parts.2 = some number ∧ number ≤ 65535

/-- Of the fields that are written anyway the host is not given, and the length and the connection are given at most
once, in a spelling that is looked for. -/
structure FieldsApart (request : HttpRequest) : Prop where
  host : valuesOf request.headers.entries (ascii "host") = []
  length : valuesOf request.headers.entries (ascii "content-length") = [] ∨
    (request.headers.entries.any fun header => isContentLength header.1) = true ∧
      ∃ text, valuesOf request.headers.entries (ascii "content-length") = [text] ∧
        readNumber (Delimited.trim isBlank text) = some request.body.length
  connection : valuesOf request.headers.entries (ascii "connection") = [] ∨
    (request.headers.entries.any fun header => isConnection header.1) = true ∧
      ∃ value, valuesOf request.headers.entries (ascii "connection") = [value]

/-- The strings a head is pasted together from are what it can hold, and the body is in no coding. -/
structure PlainFields (request : HttpRequest) : Prop where
  method : isName request.method = true
  plain : ∀ header ∈ request.headers.entries, isName header.1 = true ∧ isFieldText header.2 = true
  coding : valuesOf request.headers.entries (ascii "transfer-encoding") = []
  apart : FieldsApart request

/-- Where the url can be cut, its host is an IPv4 address; where the request is started, no zero ends that early, the
port is a decimal one, and path, method and fields are plain. -/
def Sendable (net : InternetText) (resources : Bool) (request : HttpRequest) : Prop :=
  ∀ url, parseUrl request.url = some url →
    (net.pton4 (cString url.host)).isSome = true ∧
      (resources = true → 0 ∉ url.host ∧ DecimalPort request.url ∧ isTarget url.path = true ∧ PlainFields request)

/-- The model of a request's life takes it up where it is sent. -/
theorem outcome_sent (net : InternetText) (resources : Bool) (request : HttpRequest)
    (onHeaders : Option (Int → OrdMap Bytes Bytes → Bool)) :
    (sent (fun host => (net.pton4 (cString host)).isSome) request.url onHeaders resources).outcome =
      (send net resources request).result := by
  unfold sent send
  cases parseUrl request.url with
  | none => rfl
  | some url =>
      dsimp only
      unfold start makeIpv4
      beta_reduce
      cases net.pton4 (cString url.host) with
      | none => rfl
      | some address => cases resources <;> rfl

/-! ### Cutting the address -/

variable {url host path portPart pathPart authority rest text : Bytes} {parsed : ParsedUrl} {tls : Bool} {port : UInt16}

theorem find_byte_of_not_mem {c : UInt8} (h : c ∉ text) : find [c] text = none := by
  induction text with
  | nil => rfl
  | cons first rest ih =>
      rw [List.mem_cons, not_or] at h
      have hfirst : ¬ ([first] == [c]) = true := by simpa using Ne.symm h.1
      unfold find
      show (if ([first] == [c]) = true then some 0 else (find [c] rest).map (· + 1)) = none
      rw [if_neg hfirst, ih h.2, Option.map_none]

theorem find_byte_append {c : UInt8} {before : Bytes} (h : c ∉ before) (after : Bytes) :
    find [c] (before ++ c :: after) = some before.length := by
  induction before with
  | nil => simp [find]
  | cons first rest ih =>
      rw [List.mem_cons, not_or] at h
      have hfirst : ¬ ([first] == [c]) = true := by simpa using Ne.symm h.1
      rw [List.cons_append]
      unfold find
      show (if ([first] == [c]) = true then some 0 else (find [c] (rest ++ c :: after)).map (· + 1)) = _
      rw [if_neg hfirst, ih h.2, Option.map_some, List.length_cons]

/-- What is found is there. -/
theorem take_of_find {needle : Bytes} {i : Nat} (h : find needle text = some i) :
    (text.drop i).take needle.length = needle := by
  induction text generalizing i with
  | nil =>
      unfold find at h
      split_ifs at h with hempty
      rw [List.isEmpty_iff.mp hempty]
      rfl
  | cons first rest ih =>
      unfold find at h
      split_ifs at h with hfirst
      · cases h
        exact beq_iff_eq.mp hfirst
      · obtain ⟨j, hj, rfl⟩ := Option.map_eq_some_iff.mp h
        exact ih hj

theorem parseUrl_scheme (tls : Bool) (rest : Bytes) :
    parseUrl (schemeOf tls ++ rest) = parseAuthority rest tls (defaultPort tls) := by
  cases tls <;> rfl

theorem schemeOf_append_inj {other : Bool} {behind : Bytes} (h : schemeOf tls ++ rest = schemeOf other ++ behind) :
    tls = other ∧ rest = behind := by
  have hplain : schemeOf false = [104, 116, 116, 112, 58, 47, 47] := rfl
  have hsecure : schemeOf true = [104, 116, 116, 112, 115, 58, 47, 47] := rfl
  cases tls <;> cases other <;> simp [hplain, hsecure] at h ⊢ <;> exact h

theorem exists_scheme_of_parseUrl (h : parseUrl url = some parsed) :
    ∃ tls rest, url = schemeOf tls ++ rest ∧ parseAuthority rest tls (defaultPort tls) = some parsed := by
  unfold parseUrl at h
  cases hfind : find (ascii "://") url with
  | none =>
      rw [hfind] at h
      cases h
  | some place =>
      rw [hfind] at h
      have hurl : url = url.take place ++ (ascii "://" ++ url.drop (place + 3)) := by
        have hthere := take_of_find hfind
        have hsplit := List.take_append_drop 3 (url.drop place)
        rw [List.drop_drop] at hsplit
        calc
          url = url.take place ++ url.drop place := (List.take_append_drop place url).symm
          _ = _ := by rw [← hsplit, ← hthere]; rfl
      dsimp only at h
      split_ifs at h with hplain hsecure
      · exact ⟨false, _, by rw [hplain] at hurl; exact hurl, h⟩
      · exact ⟨true, _, by rw [hsecure] at hurl; exact hurl, h⟩

theorem pathPart_head (h : PathPart pathPart path) : pathPart = [] ∨ ∃ behind, pathPart = kSlash :: behind := by
  obtain ⟨rfl, -⟩ | ⟨rfl, hhead⟩ := h
  · exact Or.inl rfl
  · exact Or.inr (List.head?_eq_some_iff.mp hhead)

theorem authorityOf_append (hslash : kSlash ∉ authority) (hpath : PathPart pathPart path) :
    authorityOf (authority ++ pathPart) = authority := by
  have hplain : ∀ c ∈ authority, decide (c ≠ kSlash) = true := by
    intro c hc
    rw [decide_eq_true_eq]
    rintro rfl
    exact hslash hc
  unfold authorityOf
  rw [List.takeWhile_append_of_pos hplain]
  obtain rfl | ⟨behind, rfl⟩ := pathPart_head hpath
  · exact List.append_nil _
  · rw [List.takeWhile_cons_of_neg (by simp), List.append_nil]

theorem exists_authority (rest : Bytes) :
    ∃ pathPart, rest = authorityOf rest ++ pathPart ∧ kSlash ∉ authorityOf rest ∧ PathPart pathPart (pathOf rest) := by
  refine ⟨rest.dropWhile (· ≠ kSlash), List.takeWhile_append_dropWhile.symm, ?_, ?_⟩
  · intro hmem
    simpa using List.mem_takeWhile_imp hmem
  · unfold pathOf PathPart
    cases hdrop : rest.dropWhile (· ≠ kSlash) with
    | nil => exact Or.inl ⟨rfl, rfl⟩
    | cons first behind =>
        have hfirst := List.head?_dropWhile_not (· ≠ kSlash) rest
        rw [hdrop] at hfirst
        exact Or.inr ⟨rfl, by simpa using hfirst⟩

/-- What an authority gives, with the path behind it. -/
def readAuthority (authority path : Bytes) (tls : Bool) (port : UInt16) : Option ParsedUrl :=
  if authority = [] then none
  else
    (find (ascii ":") authority).elim (some ⟨tls, authority, port, path⟩) fun colon =>
      (stoi (authority.drop (colon + 1))).bind fun number =>
        if authority.take colon = [] then none else some ⟨tls, authority.take colon, narrowed number, path⟩

theorem parseAuthority_eq (rest : Bytes) (tls : Bool) (port : UInt16) :
    parseAuthority rest tls port =
      readAuthority ((find (ascii "/") rest).elim rest rest.take) ((find (ascii "/") rest).elim (ascii "/") rest.drop) tls
        port := by
  unfold parseAuthority readAuthority
  dsimp only
  cases find (ascii ":") ((find (ascii "/") rest).elim rest rest.take) with
  | none => rfl
  | some colon =>
      dsimp only [Option.elim_some]
      cases stoi (((find (ascii "/") rest).elim rest rest.take).drop (colon + 1)) with
      | none => rfl
      | some number => rfl

/-- The authority is read up to the path. -/
theorem parseAuthority_append (hslash : kSlash ∉ authority) (hpath : PathPart pathPart path) :
    parseAuthority (authority ++ pathPart) tls port = readAuthority authority path tls port := by
  have hfind : ascii "/" = [kSlash] := rfl
  rw [parseAuthority_eq, hfind]
  obtain ⟨rfl, rfl⟩ | ⟨rfl, hhead⟩ := hpath
  · rw [List.append_nil, find_byte_of_not_mem hslash, Option.elim_none, Option.elim_none]
  · obtain ⟨behind, rfl⟩ := List.head?_eq_some_iff.mp hhead
    rw [find_byte_append hslash, Option.elim_some, Option.elim_some, List.take_left, List.drop_left]

theorem readAuthority_plain (hcolon : kColon ∉ authority) (path : Bytes) (tls : Bool) (port : UInt16) :
    readAuthority authority path tls port = if authority = [] then none else some ⟨tls, authority, port, path⟩ := by
  have hfind : ascii ":" = [kColon] := rfl
  unfold readAuthority
  rw [hfind, find_byte_of_not_mem hcolon, Option.elim_none]

theorem readAuthority_port (hcolon : kColon ∉ host) (digits path : Bytes) (tls : Bool) (port : UInt16) :
    readAuthority (host ++ kColon :: digits) path tls port =
      (stoi digits).bind fun number => if host = [] then none else some ⟨tls, host, narrowed number, path⟩ := by
  have hfind : ascii ":" = [kColon] := rfl
  unfold readAuthority
  rw [if_neg (by simp), hfind, find_byte_append hcolon, Option.elim_some, List.drop_length_add_append, List.drop_one,
    List.tail_cons, List.take_left]

/-- How an address is cut: behind the scheme a host, the text of a port and that of a path. -/
structure CutAs (url : Bytes) (parsed : ParsedUrl) (portPart pathPart : Bytes) : Prop where
  text : url = schemeOf parsed.tls ++ (parsed.host ++ (portPart ++ pathPart))
  host : parsed.host ≠ [] ∧ kColon ∉ parsed.host ∧ kSlash ∉ parsed.host
  slash : kSlash ∉ portPart
  port : portPart = [] ∧ parsed.port = defaultPort parsed.tls ∨
    ∃ digits number, portPart = kColon :: digits ∧ stoi digits = some number ∧ parsed.port = narrowed number
  path : PathPart pathPart parsed.path

theorem parseUrl_of_cutAs (h : CutAs url parsed portPart pathPart) : parseUrl url = some parsed := by
  obtain ⟨htext, ⟨hne, hcolon, hslash⟩, hport, hcut, hpath⟩ := h
  obtain ⟨tls, host, port, path⟩ := parsed
  dsimp only at *
  have hauthority : kSlash ∉ host ++ portPart := by simp [hslash, hport]
  rw [htext, parseUrl_scheme, ← List.append_assoc, parseAuthority_append hauthority hpath]
  obtain ⟨rfl, rfl⟩ | ⟨digits, number, rfl, hnumber, rfl⟩ := hcut
  · rw [List.append_nil, readAuthority_plain hcolon, if_neg hne]
  · rw [readAuthority_port hcolon, hnumber, Option.bind_some, if_neg hne]

theorem exists_cutAs (h : parseUrl url = some parsed) : ∃ portPart pathPart, CutAs url parsed portPart pathPart := by
  obtain ⟨tls, rest, rfl, hread⟩ := exists_scheme_of_parseUrl h
  clear h
  obtain ⟨pathPart, hrest, hslash, hpath⟩ := exists_authority rest
  rw [hrest, parseAuthority_append hslash hpath] at hread
  generalize authorityOf rest = authority at *
  cases hcut : Delimited.cut authority kColon with
  | none =>
      have hcolon := Delimited.cut_eq_none_iff.mp hcut
      rw [readAuthority_plain hcolon] at hread
      split_ifs at hread with hne
      obtain rfl := Option.some.inj hread
      refine ⟨[], pathPart, ⟨by rw [hrest]; rfl, ⟨hne, hcolon, hslash⟩, by simp, Or.inl ⟨rfl, rfl⟩, hpath⟩⟩
  | some parts =>
      obtain ⟨host, digits⟩ := parts
      obtain ⟨rfl, hcolon⟩ := Delimited.cut_eq_some_iff.mp hcut
      rw [List.mem_append, not_or] at hslash
      rw [readAuthority_port hcolon] at hread
      obtain ⟨number, hnumber, hread⟩ := Option.bind_eq_some_iff.mp hread
      split_ifs at hread with hhost
      obtain rfl := Option.some.inj hread
      refine ⟨kColon :: digits, pathPart, ⟨?_, ⟨hhost, hcolon, hslash.1⟩, hslash.2, ?_, hpath⟩⟩
      · rw [hrest, List.append_assoc]
      · exact Or.inr ⟨digits, number, rfl, hnumber, rfl⟩

/-! ### Addresses that are cut -/

variable {net : InternetText} {number : Nat}

/-- An address is written in digits with dots. -/
def DottedText (net : InternetText) : Prop :=
  ∀ text, (net.pton4 text).isSome = true → text ≠ [] ∧ ∀ c ∈ text, isDigit c ∨ c = kDot

theorem decimalPort_iff (h : CutAs url parsed portPart pathPart) :
    DecimalPort url ↔
      ∀ digits, portPart = kColon :: digits → ∃ number, readNumber digits = some number ∧ number ≤ 65535 := by
  obtain ⟨hurl, ⟨-, hcolon, hslash⟩, hport, hcutAs, hpath⟩ := h
  have hauthority : authorityOf (parsed.host ++ (portPart ++ pathPart)) = parsed.host ++ portPart := by
    rw [← List.append_assoc]
    exact authorityOf_append (by simp [hslash, hport]) hpath
  constructor
  · rintro hdecimal digits rfl
    refine hdecimal _ _ hurl (parsed.host, digits) ?_
    rw [hauthority, Delimited.cut_append hcolon]
  · intro hdigits tls rest hrest parts hcut
    obtain ⟨rfl, rfl⟩ := schemeOf_append_inj (hurl.symm.trans hrest)
    rw [hauthority] at hcut
    obtain ⟨rfl, -⟩ | ⟨digits, -, rfl, -, -⟩ := hcutAs
    · rw [List.append_nil, Delimited.cut_of_not_mem hcolon] at hcut
      cases hcut
    · rw [Delimited.cut_append hcolon] at hcut
      obtain rfl := Option.some.inj hcut
      exact hdigits digits rfl

theorem narrowed_toNat (hnumber : number ≤ 65535) : (narrowed (number : Int)).toNat = number := by
  unfold narrowed
  rw [UInt16.toNat_ofNat']
  omega

theorem slash_not_mem_of_readNumber (h : readNumber text = some number) : kSlash ∉ text := by
  unfold HttpRequest.readNumber at h
  split_ifs at h with hdigits
  rw [Bool.and_eq_true, List.all_eq_true] at hdigits
  intro hmem
  exact absurd (hdigits.2 _ hmem) (by decide)

theorem addresses_of_cutAs (h : CutAs url parsed portPart pathPart) (hzero : 0 ∉ parsed.host)
    (hdecimal : DecimalPort url) (hhost : (net.pton4 parsed.host).isSome = true) :
    Addresses net url parsed.host parsed.port.toNat parsed.path := by
  refine ⟨parsed.tls, portPart, pathPart, h.text, hzero, hhost, ?_, h.path⟩
  obtain ⟨hempty, hport⟩ | ⟨digits, read, rfl, hread, hport⟩ := h.port
  · exact Or.inl ⟨hempty, by rw [hport]⟩
  · obtain ⟨number, hnumber, hsmall⟩ := (decimalPort_iff h).mp hdecimal digits rfl
    rw [AddressInstance.stoi_of_readNumber hnumber, if_pos (by omega), Option.some.injEq] at hread
    rw [hport, ← hread, narrowed_toNat hsmall]
    exact Or.inr ⟨digits, rfl, hnumber, hsmall⟩

theorem cutAs_of_addresses (hnet : DottedText net) (h : Addresses net url host number path) :
    ∃ tls port portPart pathPart, CutAs url ⟨tls, host, port, path⟩ portPart pathPart ∧ port.toNat = number ∧
      DecimalPort url := by
  obtain ⟨tls, portPart, pathPart, hurl, -, hliteral, hport, hpath⟩ := h
  obtain ⟨hne, hdotted⟩ := hnet host hliteral
  have hfree (c : UInt8) (hc : ¬ (isDigit c ∨ c = kDot)) : c ∉ host := fun hmem => hc (hdotted c hmem)
  have hhost : host ≠ [] ∧ kColon ∉ host ∧ kSlash ∉ host := ⟨hne, hfree kColon (by decide), hfree kSlash (by decide)⟩
  obtain ⟨rfl, rfl⟩ | ⟨digits, rfl, hdigits, hsmall⟩ := hport
  · have hcut : CutAs url ⟨tls, host, defaultPort tls, path⟩ [] pathPart :=
      ⟨hurl, hhost, List.not_mem_nil, Or.inl ⟨rfl, rfl⟩, hpath⟩
    refine ⟨tls, defaultPort tls, [], pathPart, hcut, rfl, (decimalPort_iff hcut).mpr ?_⟩
    rintro digits ⟨⟩
  · have hread : stoi digits = some (number : Int) := by
      rw [AddressInstance.stoi_of_readNumber hdigits, if_pos (by omega)]
    have hslash : kSlash ∉ kColon :: digits := by
      rw [List.mem_cons, not_or]
      exact ⟨by decide, slash_not_mem_of_readNumber hdigits⟩
    have hcut : CutAs url ⟨tls, host, narrowed number, path⟩ (kColon :: digits) pathPart :=
      ⟨hurl, hhost, hslash, Or.inr ⟨digits, number, rfl, hread, rfl⟩, hpath⟩
    refine ⟨tls, narrowed number, kColon :: digits, pathPart, hcut, narrowed_toNat hsmall,
      (decimalPort_iff hcut).mpr ?_⟩
    rintro _ ⟨⟩
    exact ⟨number, hdigits, hsmall⟩

/-! ### The bytes -/

variable {request : HttpRequest} {fields : Headers}

/-- The fields of the head, in the order they are written in. -/
def sentFields (request : HttpRequest) (host : Bytes) (port : Nat) : Headers :=
  (ascii "Host", host ++ kColon :: toDecimal port) :: (request.headers.entries ++
    ((if request.headers.entries.any fun header => isContentLength header.1 then []
      else [(ascii "Content-Length", toDecimal request.body.length)]) ++
    (if request.headers.entries.any fun header => isConnection header.1 then []
      else [(ascii "Connection", ascii "close")])))

theorem not_isConnection {name : Bytes} (h : isContentLength name = true) : isConnection name = false := by
  unfold isContentLength at h
  rw [Bool.or_eq_true, beq_iff_eq, beq_iff_eq] at h
  obtain rfl | rfl := h <;> decide

theorem add_eq (head : RequestHead) (header : Bytes × Bytes) :
    head.add header = ⟨head.req ++ (headerLine header.1 header.2 ++ Chunking.crlf),
      head.hasContentLength || isContentLength header.1, head.hasConnection || isConnection header.1⟩ := by
  have hcrlf : ascii "\r\n" = Chunking.crlf := rfl
  unfold RequestHead.add headerLine
  rw [hcrlf]
  cases hlength : isContentLength header.1 with
  | true => simp [not_isConnection hlength]
  | false => cases hconnection : isConnection header.1 <;> simp

theorem foldl_add (headers : Headers) (head : RequestHead) :
    headers.foldl RequestHead.add head =
      ⟨head.req ++ headers.flatMap fun header => headerLine header.1 header.2 ++ Chunking.crlf,
        head.hasContentLength || headers.any fun header => isContentLength header.1,
        head.hasConnection || headers.any fun header => isConnection header.1⟩ := by
  induction headers generalizing head with
  | nil => simp
  | cons header rest ih =>
      rw [List.foldl_cons, ih, add_eq]
      simp [Bool.or_assoc]

theorem writeRequestBytes_eq (request : HttpRequest) (url : ParsedUrl) :
    writeRequestBytes request url =
      render ⟨request.method, url.path, sentFields request url.host url.port.toNat, request.body⟩ := by
  have hline : request.method ++ ascii " " ++ url.path ++ ascii " HTTP/1.1\r\n" =
      HttpRequest.requestLine request.method url.path ++ Chunking.crlf := by
    simp [HttpRequest.requestLine]
    rfl
  have hlength : ascii "Content-Length: " = ascii "Content-Length" ++ ascii ": " := rfl
  have hclose : ascii "Connection: close\r\n" = headerLine (ascii "Connection") (ascii "close") ++ Chunking.crlf := rfl
  have hhost : ascii "Host: " = ascii "Host" ++ ascii ": " := rfl
  have hcolon : ascii ":" = [kColon] := rfl
  have hend : ascii "\r\n" = Chunking.crlf := rfl
  unfold writeRequestBytes
  dsimp only
  rw [foldl_add, hline, hlength, hclose, hhost, hcolon, hend]
  cases hgivenLength : request.headers.entries.any fun header => isContentLength header.1 <;>
    cases hgivenConnection : request.headers.entries.any fun header => isConnection header.1 <;>
    simp [render, HttpRequest.lines, sentFields, hgivenLength, hgivenConnection, List.flatMap_map, headerLine]

/-! ### Reading them -/

theorem isTokenChar_toLower (c : UInt8) :
    DesignatedParams.isTokenChar (WireWriter.toLower c) = DesignatedParams.isTokenChar c := by
  unfold WireWriter.toLower
  split_ifs with hletter
  · rw [Bool.and_eq_true, decide_eq_true_eq, decide_eq_true_eq, UInt8.le_iff_toNat_le, UInt8.le_iff_toNat_le] at hletter
    have hlow : 65 ≤ c.toNat := hletter.1
    have hhigh : c.toNat ≤ 90 := hletter.2
    have hupper : DesignatedParams.isAlnum c = true := by
      simp [DesignatedParams.isAlnum, UInt8.le_iff_toNat_le, hlow, hhigh]
    have hlower : DesignatedParams.isAlnum (c + 32) = true := by
      simp [DesignatedParams.isAlnum, UInt8.le_iff_toNat_le, UInt8.toNat_add]
      omega
    rw [DesignatedParams.isTokenChar, DesignatedParams.isTokenChar, hupper, hlower, Bool.true_or, Bool.true_or]
  · rfl

theorem isName_lowercase (name : Bytes) : isName (lowercase name) = isName name := by
  unfold isName lowercase
  rw [List.all_map, List.isEmpty_map]
  congr 2
  funext c
  exact isTokenChar_toLower c

/-- A given name is among the names that are read, so it is one. -/
theorem plain_of_fieldsGiven {header : Bytes × Bytes} (hgiven : FieldsGiven request host number fields)
    (hplain : ∀ field ∈ fields, isName field.1 = true ∧ isFieldText field.2 = true)
    (hheader : header ∈ request.headers.entries) : isName header.1 = true ∧ isFieldText header.2 = true := by
  have hvalue : Delimited.trim isBlank header.2 ∈ valuesOf (seen request.headers.entries) (lowercase header.1) := by
    unfold valuesOf
    rw [List.mem_map]
    refine ⟨(header.1, Delimited.trim isBlank header.2), List.mem_filter.mpr ⟨?_, by simp⟩, rfl⟩
    exact List.mem_map.mpr ⟨header, hheader, rfl⟩
  obtain hsame | ⟨-, hnone⟩ := hgiven.given (lowercase header.1)
  · rw [← hsame] at hvalue
    unfold valuesOf at hvalue
    obtain ⟨field, hfield, hread⟩ := List.mem_map.mp hvalue
    obtain ⟨hmem, hname⟩ := List.mem_filter.mp hfield
    rw [decide_eq_true_eq] at hname
    obtain ⟨hfieldName, hfieldText⟩ := hplain field hmem
    rw [hread, HttpRequest.isFieldText_trim_iff] at hfieldText
    rw [← isName_lowercase, hname, isName_lowercase] at hfieldName
    exact ⟨hfieldName, hfieldText⟩
  · rw [hnone] at hvalue
    cases hvalue

theorem digit_or_dot_plain {c : UInt8} (h : isDigit c = true ∨ c = kDot ∨ c = kColon) :
    isBlank c = false ∧ (c != kCR && c != kLF && c != 0) = true := by
  have hlarge : 46 ≤ c.toNat := by
    obtain hdigit | rfl | rfl := h
    · rw [isDigit, Bool.and_eq_true, decide_eq_true_eq, UInt8.le_iff_toNat_le] at hdigit
      exact le_trans (by decide) hdigit.1
    · decide
    · decide
  have hne (byte : UInt8) (hbyte : byte.toNat < 46) : c ≠ byte := by
    rintro rfl
    omega
  simp [isBlank, hne kSpace (by decide), hne 9 (by decide), hne kCR (by decide), hne kLF (by decide),
    hne 0 (by decide)]

/-- The value of the host field. -/
theorem hostValue_plain (hhost : ∀ c ∈ host, isDigit c ∨ c = kDot) (number : Nat) :
    isFieldText (host ++ kColon :: toDecimal number) = true ∧
      Delimited.trim isBlank (host ++ kColon :: toDecimal number) = host ++ kColon :: toDecimal number := by
  have hplain : ∀ c ∈ host ++ kColon :: toDecimal number,
      isBlank c = false ∧ (c != kCR && c != kLF && c != 0) = true := by
    intro c hc
    apply digit_or_dot_plain
    rw [List.mem_append, List.mem_cons] at hc
    obtain hc | rfl | hc := hc
    · exact (hhost c hc).imp_right Or.inl
    · exact Or.inr (Or.inr rfl)
    · exact Or.inl (MirroredHeaders.isDigit_of_mem_toDecimal hc)
  constructor
  · unfold isFieldText
    rw [List.all_eq_true]
    exact fun c hc => (hplain c hc).2
  · exact Delimited.trim_of_padded (Delimited.bare_of_forall fun c hc => (hplain c hc).1)
      ⟨[], [], by simp, by simp, by simp⟩

theorem isFieldText_toDecimal (number : Nat) : isFieldText (toDecimal number) = true := by
  unfold isFieldText
  rw [List.all_eq_true]
  exact fun c hc => (digit_or_dot_plain (Or.inl (MirroredHeaders.isDigit_of_mem_toDecimal hc))).2

/-- What is added to the caller's fields is in order. -/
theorem plain_sentFields (hhost : ∀ c ∈ host, isDigit c ∨ c = kDot)
    (hplain : ∀ header ∈ request.headers.entries, isName header.1 = true ∧ isFieldText header.2 = true) :
    ∀ header ∈ sentFields request host number, isName header.1 = true ∧ isFieldText header.2 = true := by
  intro header hheader
  unfold sentFields at hheader
  rw [List.mem_cons, List.mem_append, List.mem_append] at hheader
  obtain rfl | hgiven | hlength | hconnection := hheader
  · exact ⟨show isName (ascii "Host") = true by decide, (hostValue_plain hhost number).1⟩
  · exact hplain header hgiven
  · split_ifs at hlength
    · cases hlength
    · obtain rfl := List.mem_singleton.mp hlength
      exact ⟨show isName (ascii "Content-Length") = true by decide, isFieldText_toDecimal _⟩
  · split_ifs at hconnection
    · cases hconnection
    · obtain rfl := List.mem_singleton.mp hconnection
      exact ⟨by decide, by decide⟩

/-- Plain fields are read as they are sent. -/
theorem read_writeRequestBytes (hmethod : isName request.method = true) (htarget : isTarget parsed.path = true)
    (hplain : ∀ header ∈ sentFields request parsed.host parsed.port.toNat,
      isName header.1 = true ∧ isFieldText header.2 = true) :
    HttpRequest.read (writeRequestBytes request parsed) =
      (HttpRequest.readBody (seen (sentFields request parsed.host parsed.port.toNat)) request.body).map fun parts =>
        (⟨request.method, parsed.path, seen (sentFields request parsed.host parsed.port.toNat), parts.1⟩, parts.2) := by
  have hlines : ∀ header ∈ sentFields request parsed.host parsed.port.toNat, kCR ∉ header.1 ∧ kCR ∉ header.2 :=
    fun header hheader => ⟨HttpRequest.not_mem_of_isName (hplain header hheader).1 (by decide),
      HttpRequest.not_mem_of_isFieldText (hplain header hheader).2⟩
  rw [writeRequestBytes_eq, HttpRequest.read_render hmethod htarget hlines, HttpRequest.mapM_headerLines hplain,
    Option.bind_some]

/-! ### The fields that are read -/

theorem valuesOf_cons (header : Bytes × Bytes) (headers : Headers) (name : Bytes) :
    valuesOf (header :: headers) name =
      (if lowercase header.1 = name then [header.2] else []) ++ valuesOf headers name := by
  unfold valuesOf
  rw [List.filter_cons]
  by_cases hname : lowercase header.1 = name <;> simp [hname]

/-- What is read under a name: what is added under it and what was given under it. -/
theorem valuesOf_sentFields (request : HttpRequest) (host : Bytes) (number : Nat) (name : Bytes) :
    valuesOf (sentFields request host number) name =
      (if ascii "host" = name then [host ++ kColon :: toDecimal number] else []) ++
        (valuesOf request.headers.entries name ++
          ((if (request.headers.entries.any fun header => isContentLength header.1) = false ∧
                ascii "content-length" = name then [toDecimal request.body.length] else []) ++
            if (request.headers.entries.any fun header => isConnection header.1) = false ∧
                ascii "connection" = name then [ascii "close"] else [])) := by
  have hhost : lowercase (ascii "Host") = ascii "host" := by decide
  have hlength : lowercase (ascii "Content-Length") = ascii "content-length" := by decide
  have hconnection : lowercase (ascii "Connection") = ascii "connection" := by decide
  have hnil : valuesOf [] name = [] := rfl
  unfold sentFields
  rw [valuesOf_cons, HttpRequest.valuesOf_append, HttpRequest.valuesOf_append, hhost]
  cases request.headers.entries.any fun header => isContentLength header.1 <;>
    cases request.headers.entries.any fun header => isConnection header.1 <;>
    simp [valuesOf_cons, hlength, hconnection, hnil]

/-- A spelling that is looked for is one of the name. -/
theorem valuesOf_ne_nil_of_any {headers : Headers} {looked : Bytes → Bool} {name : Bytes}
    (hlooked : ∀ spelled, looked spelled = true → lowercase spelled = name)
    (h : (headers.any fun header => looked header.1) = true) : valuesOf headers name ≠ [] := by
  obtain ⟨header, hheader, hspelled⟩ := List.any_eq_true.mp h
  have hkept : header ∈ headers.filter fun header => lowercase header.1 = name :=
    List.mem_filter.mpr ⟨hheader, decide_eq_true (hlooked _ hspelled)⟩
  unfold valuesOf
  exact List.ne_nil_of_mem (List.mem_map_of_mem hkept)

theorem lowercase_of_isContentLength (name : Bytes) (h : isContentLength name = true) :
    lowercase name = ascii "content-length" := by
  unfold isContentLength at h
  rw [Bool.or_eq_true, beq_iff_eq, beq_iff_eq] at h
  obtain rfl | rfl := h <;> decide

theorem lowercase_of_isConnection (name : Bytes) (h : isConnection name = true) :
    lowercase name = ascii "connection" := by
  unfold isConnection at h
  rw [Bool.or_eq_true, beq_iff_eq, beq_iff_eq] at h
  obtain rfl | rfl := h <;> decide

/-- A field that is added unless it is looked for and found is there once, with what it should say, exactly if it is not
given, or is found, given once and says that. -/
theorem once_iff {given : List Bytes} {found : Bool} {added : Bytes} {tells : Bytes → Prop}
    (hfound : found = true → given ≠ []) (hadded : tells (Delimited.trim isBlank added)) :
    (∃ text, (given ++ if found = false then [added] else []).map (Delimited.trim isBlank) = [text] ∧ tells text) ↔
      given = [] ∨ found = true ∧ ∃ text, given = [text] ∧ tells (Delimited.trim isBlank text) := by
  cases found with
  | false =>
      simp only [if_true, Bool.false_eq_true, false_and, or_false, List.map_append, List.map_singleton]
      constructor
      · rintro ⟨text, hsame, -⟩
        have hlength := congrArg List.length hsame
        simpa using hlength
      · rintro rfl
        exact ⟨_, rfl, hadded⟩
  | true =>
      simp only [Bool.true_eq_false, if_false, List.append_nil, hfound rfl, false_or, true_and]
      constructor
      · rintro ⟨text, hsame, htells⟩
        obtain ⟨only, rfl, rfl⟩ := List.map_eq_singleton_iff.mp hsame
        exact ⟨only, rfl, htells⟩
      · rintro ⟨text, rfl, htells⟩
        exact ⟨_, rfl, htells⟩

theorem valuesOf_seen_sentFields (request : HttpRequest) (host : Bytes) (number : Nat) (name : Bytes) :
    valuesOf (seen (sentFields request host number)) name =
      (valuesOf (sentFields request host number) name).map (Delimited.trim isBlank) :=
  HttpRequest.valuesOf_seen _ _

theorem host_sent_iff (hhost : ∀ c ∈ host, isDigit c ∨ c = kDot) (request : HttpRequest) (number : Nat) :
    valuesOf (seen (sentFields request host number)) (ascii "host") = [host ++ kColon :: toDecimal number] ↔
      valuesOf request.headers.entries (ascii "host") = [] := by
  have hlength : ¬ ascii "content-length" = ascii "host" := by decide
  have hconnection : ¬ ascii "connection" = ascii "host" := by decide
  rw [valuesOf_seen_sentFields, valuesOf_sentFields, if_pos rfl, if_neg (fun h => hlength h.2),
    if_neg (fun h => hconnection h.2), List.append_nil, List.append_nil, List.map_append, List.map_singleton,
    (hostValue_plain hhost number).2, List.singleton_append, List.cons.injEq, List.map_eq_nil_iff, eq_self, true_and]

theorem length_sent_iff (request : HttpRequest) (host : Bytes) (number : Nat) :
    (∃ text, valuesOf (seen (sentFields request host number)) (ascii "content-length") = [text] ∧
        readNumber text = some request.body.length) ↔
      valuesOf request.headers.entries (ascii "content-length") = [] ∨
        (request.headers.entries.any fun header => isContentLength header.1) = true ∧
          ∃ text, valuesOf request.headers.entries (ascii "content-length") = [text] ∧
            readNumber (Delimited.trim isBlank text) = some request.body.length := by
  have hhost : ¬ ascii "host" = ascii "content-length" := by decide
  have hconnection : ¬ ascii "connection" = ascii "content-length" := by decide
  rw [valuesOf_seen_sentFields, valuesOf_sentFields, if_neg hhost]
  simp only [hconnection, and_true, and_false, if_false, List.nil_append, List.append_nil]
  refine once_iff (valuesOf_ne_nil_of_any lowercase_of_isContentLength) ?_
  rw [HttpRequest.trim_toDecimal]
  exact HttpRequest.readNumber_toDecimal _

theorem connection_sent_iff (request : HttpRequest) (host : Bytes) (number : Nat) :
    (∃ value, valuesOf (seen (sentFields request host number)) (ascii "connection") = [value]) ↔
      valuesOf request.headers.entries (ascii "connection") = [] ∨
        (request.headers.entries.any fun header => isConnection header.1) = true ∧
          ∃ value, valuesOf request.headers.entries (ascii "connection") = [value] := by
  have hhost : ¬ ascii "host" = ascii "connection" := by decide
  have hlength : ¬ ascii "content-length" = ascii "connection" := by decide
  have honce := @once_iff (valuesOf request.headers.entries (ascii "connection"))
    (request.headers.entries.any fun header => isConnection header.1) (ascii "close") (fun _ => True)
    (valuesOf_ne_nil_of_any lowercase_of_isConnection) trivial
  rw [valuesOf_seen_sentFields, valuesOf_sentFields, if_neg hhost]
  simpa only [hlength, and_true, and_false, if_false, List.nil_append] using honce

/-- Where none of them is given in another way, only what is added is read beside what was given. -/
theorem given_sent (apart : FieldsApart request) (host : Bytes) (number : Nat) (name : Bytes) :
    valuesOf (seen (sentFields request host number)) name = valuesOf (seen request.headers.entries) name ∨
      name ∈ writtenNames ∧ valuesOf (seen request.headers.entries) name = [] := by
  have hnone (h : valuesOf request.headers.entries name = []) : valuesOf (seen request.headers.entries) name = [] := by
    rw [HttpRequest.valuesOf_seen, h, List.map_nil]
  by_cases hwritten : name ∈ writtenNames ∧ valuesOf request.headers.entries name = []
  · exact Or.inr ⟨hwritten.1, hnone hwritten.2⟩
  · left
    have hhost : ¬ ascii "host" = name := by
      rintro rfl
      exact hwritten ⟨by decide, apart.host⟩
    have hlength : ¬ ((request.headers.entries.any fun header => isContentLength header.1) = false ∧
        ascii "content-length" = name) := by
      rintro ⟨hnot, rfl⟩
      obtain hempty | ⟨hany, -⟩ := apart.length
      · exact hwritten ⟨by decide, hempty⟩
      · rw [hnot] at hany
        cases hany
    have hconnection : ¬ ((request.headers.entries.any fun header => isConnection header.1) = false ∧
        ascii "connection" = name) := by
      rintro ⟨hnot, rfl⟩
      obtain hempty | ⟨hany, -⟩ := apart.connection
      · exact hwritten ⟨by decide, hempty⟩
      · rw [hnot] at hany
        cases hany
    rw [valuesOf_seen_sentFields, valuesOf_sentFields, if_neg hhost, if_neg hlength, if_neg hconnection,
      List.nil_append, List.append_nil, List.append_nil, HttpRequest.valuesOf_seen]

theorem fieldsGiven_iff (hhost : ∀ c ∈ host, isDigit c ∨ c = kDot) (request : HttpRequest) (number : Nat) :
    FieldsGiven request host number (seen (sentFields request host number)) ↔ FieldsApart request := by
  constructor
  · intro hgiven
    exact ⟨(host_sent_iff hhost request number).mp hgiven.host, (length_sent_iff request host number).mp hgiven.length,
      (connection_sent_iff request host number).mp hgiven.connection⟩
  · intro apart
    exact ⟨(host_sent_iff hhost request number).mpr apart.host, (length_sent_iff request host number).mpr apart.length,
      (connection_sent_iff request host number).mpr apart.connection, given_sent apart host number⟩

theorem coding_sent (request : HttpRequest) (host : Bytes) (number : Nat) :
    valuesOf (seen (sentFields request host number)) (ascii "transfer-encoding") = [] ↔
      valuesOf request.headers.entries (ascii "transfer-encoding") = [] := by
  have hhost : ¬ ascii "host" = ascii "transfer-encoding" := by decide
  have hlength : ¬ ascii "content-length" = ascii "transfer-encoding" := by decide
  have hconnection : ¬ ascii "connection" = ascii "transfer-encoding" := by decide
  rw [valuesOf_seen_sentFields, valuesOf_sentFields, if_neg hhost, if_neg (fun h => hlength h.2),
    if_neg (fun h => hconnection h.2), List.nil_append, List.append_nil, List.append_nil, List.map_eq_nil_iff]

/-- A body whose length the fields tell is read whole. -/
theorem readBody_of_fieldsGiven {body : Bytes} (hcoding : valuesOf fields (ascii "transfer-encoding") = [])
    (hlength : ∃ text, valuesOf fields (ascii "content-length") = [text] ∧ readNumber text = some body.length) :
    HttpRequest.readBody fields body = some (body, []) := by
  obtain ⟨text, htext, hnumber⟩ := hlength
  unfold HttpRequest.readBody
  rw [hcoding, htext]
  simp [hnumber]

theorem coding_of_readBody {body : Bytes} {parts : Bytes × Bytes} (h : HttpRequest.readBody fields body = some parts) :
    valuesOf fields (ascii "transfer-encoding") = [] := by
  by_contra hcoding
  unfold HttpRequest.readBody at h
  rw [if_pos hcoding] at h
  cases h

/-- What is written is read as the request that was given exactly if its path and its fields are plain. -/
theorem asksGiven_iff (hhost : ∀ c ∈ parsed.host, isDigit c ∨ c = kDot) (request : HttpRequest) :
    AsksGiven request parsed.host parsed.port.toNat parsed.path (writeRequestBytes request parsed) ↔
      isTarget parsed.path = true ∧ PlainFields request := by
  constructor
  · rintro ⟨fields, hread, hgiven⟩
    obtain ⟨hmethod, htarget, hfields⟩ := HttpRequest.plain_of_read hread
    have hplain : ∀ header ∈ request.headers.entries, isName header.1 = true ∧ isFieldText header.2 = true :=
      fun _ hheader => plain_of_fieldsGiven hgiven hfields hheader
    rw [read_writeRequestBytes hmethod htarget (plain_sentFields hhost hplain)] at hread
    obtain ⟨parts, hbody, hrequest⟩ := Option.map_eq_some_iff.mp hread
    obtain rfl : seen (sentFields request parsed.host parsed.port.toNat) = fields :=
      congrArg (fun read => read.1.headers) hrequest
    exact ⟨htarget, hmethod, hplain, (coding_sent request _ _).mp (coding_of_readBody hbody),
      (fieldsGiven_iff hhost request _).mp hgiven⟩
  · rintro ⟨htarget, hmethod, hplain, hcoding, hapart⟩
    have hgiven := (fieldsGiven_iff hhost request parsed.port.toNat).mpr hapart
    have hbody := readBody_of_fieldsGiven ((coding_sent request parsed.host parsed.port.toNat).mpr hcoding) hgiven.length
    refine ⟨_, ?_, hgiven⟩
    rw [read_writeRequestBytes hmethod htarget (plain_sentFields hhost hplain), hbody, Option.map_some]

/-! ### Sending -/

theorem send_of_parse (hparse : parseUrl request.url = some parsed) {bytes : Ipv4Address}
    (hbytes : net.pton4 (cString parsed.host) = some bytes) (resources : Bool) :
    send net resources request =
      if resources then .started (.ipv4 bytes parsed.port) (writeRequestBytes request parsed) else .refused := by
  unfold send makeIpv4
  rw [hparse]
  dsimp only
  rw [hbytes]
  rfl

/-- What is started is what was given exactly if its address and its fields are plain. -/
theorem started_iff (hnet : DottedText net) (hparse : parseUrl request.url = some parsed) {bytes : Ipv4Address}
    (hbytes : net.pton4 (cString parsed.host) = some bytes) :
    SendsGiven net request (.started (.ipv4 bytes parsed.port) (writeRequestBytes request parsed)) ↔
      0 ∉ parsed.host ∧ DecimalPort request.url ∧ isTarget parsed.path = true ∧ PlainFields request := by
  constructor
  · rintro ⟨host, number, path, haddresses, -, hasks⟩
    obtain ⟨tls, port, portPart, pathPart, hcut, rfl, hdecimal⟩ := cutAs_of_addresses hnet haddresses
    obtain rfl : parsed = ⟨tls, host, port, path⟩ := Option.some.inj (hparse.symm.trans (parseUrl_of_cutAs hcut))
    obtain ⟨-, -, -, -, hzero, hliteral, -⟩ := haddresses
    exact ⟨hzero, hdecimal, (asksGiven_iff (hnet host hliteral).2 request).mp hasks⟩
  · rintro ⟨hzero, hdecimal, hplain⟩
    obtain ⟨portPart, pathPart, hcut⟩ := exists_cutAs hparse
    rw [AddressInstance.cString_of_not_mem hzero] at hbytes
    have hliteral : (net.pton4 parsed.host).isSome = true := by rw [hbytes]; rfl
    refine ⟨parsed.host, parsed.port.toNat, parsed.path, addresses_of_cutAs hcut hzero hdecimal hliteral, ?_,
      (asksGiven_iff (hnet _ hliteral).2 request).mpr hplain⟩
    rw [hbytes, Option.map_some, UInt16.ofNat_toNat]

/-- **Any request.** Sending does not throw, and what is written is the request that was given, exactly if the host is
an address, and where the request is started the port is a decimal one and the strings are what a head can hold. -/
theorem sendsGiven_iff (hnet : DottedText net) (resources : Bool) (request : HttpRequest) :
    SendsGiven net request (send net resources request) ↔ Sendable net resources request := by
  unfold Sendable
  cases hparse : parseUrl request.url with
  | none =>
      have hrefused : send net resources request = .refused := by
        unfold send
        rw [hparse]
      rw [hrefused]
      refine iff_of_true trivial ?_
      rintro url ⟨⟩
  | some parsed =>
      simp only [Option.some.injEq, forall_eq']
      cases hbytes : net.pton4 (cString parsed.host) with
      | none =>
          have hthrows : send net resources request = .throws := by
            unfold send makeIpv4
            rw [hparse]
            dsimp only
            rw [hbytes]
            rfl
          rw [hthrows]
          exact iff_of_false id fun h => Bool.noConfusion h.1
      | some bytes =>
          rw [send_of_parse hparse hbytes]
          cases resources with
          | false => exact iff_of_true trivial ⟨rfl, fun h => Bool.noConfusion h⟩
          | true => exact (started_iff hnet hparse hbytes).trans ⟨fun h => ⟨rfl, fun _ => h⟩, fun h => h.2 rfl⟩

/-- A request for nothing else than an address. -/
def getOf (url : Bytes) : HttpRequest := ⟨ascii "GET", url, .empty, []⟩

theorem dottedText_loopback : DottedText AddressInstance.loopbackText := by
  intro text h
  unfold AddressInstance.loopbackText at h
  dsimp only at h
  split_ifs at h with hloopback
  · rw [hloopback]
    decide +kernel
  · cases h

theorem sendsGiven_loopback :
    SendsGiven AddressInstance.loopbackText (getOf (ascii "http://127.0.0.1:8080/mcp"))
      (send AddressInstance.loopbackText true (getOf (ascii "http://127.0.0.1:8080/mcp"))) := by
  refine (sendsGiven_iff dottedText_loopback true _).mpr ?_
  have hcut : CutAs (ascii "http://127.0.0.1:8080/mcp") ⟨false, ascii "127.0.0.1", 8080, ascii "/mcp"⟩ (ascii ":8080")
      (ascii "/mcp") :=
    ⟨rfl, by decide, by decide, Or.inr ⟨ascii "8080", 8080, rfl, by decide +kernel, by decide⟩, Or.inr ⟨rfl, rfl⟩⟩
  intro url hparse
  obtain rfl := Option.some.inj (hparse.symm.trans (parseUrl_of_cutAs hcut))
  refine ⟨rfl, fun _ => ⟨by decide, (decimalPort_iff hcut).mpr ?_, by decide, by decide, ?_, rfl, rfl, Or.inl rfl,
    Or.inl rfl⟩⟩
  · rintro digits hdigits
    obtain rfl : ascii "8080" = digits := (List.cons.inj hdigits).2
    exact ⟨8080, by decide +kernel, by decide⟩
  · intro header hheader
    cases hheader

/-- A request whose caller gives the length in capitals. -/
def spelledLength : HttpRequest :=
  { getOf (ascii "http://127.0.0.1/") with headers := OrdMap.empty.insert (ascii "CONTENT-LENGTH") (ascii "0") }

/-- A host that is a name throws, a port past 16 bits becomes another, and a length in capitals is written twice. -/
theorem not_sendsGiven :
    ¬ SendsGiven AddressInstance.loopbackText (getOf (ascii "http://localhost/"))
        (send AddressInstance.loopbackText true (getOf (ascii "http://localhost/"))) ∧
      ¬ SendsGiven AddressInstance.loopbackText (getOf (ascii "http://127.0.0.1:65617/"))
        (send AddressInstance.loopbackText true (getOf (ascii "http://127.0.0.1:65617/"))) ∧
      ¬ SendsGiven AddressInstance.loopbackText spelledLength
        (send AddressInstance.loopbackText true spelledLength) := by
  refine ⟨fun h => h, ?_, ?_⟩
  · rintro ⟨host, number, path, haddresses, -⟩
    obtain ⟨tls, port, portPart, pathPart, -, -, hdecimal⟩ := cutAs_of_addresses dottedText_loopback haddresses
    obtain ⟨number, hnumber, hsmall⟩ :=
      hdecimal false (ascii "127.0.0.1:65617/") rfl (ascii "127.0.0.1", ascii "65617") (by decide +kernel)
    have hlarge : readNumber (ascii "65617") = some 65617 := by decide +kernel
    rw [hlarge, Option.some.injEq] at hnumber
    omega
  · rintro ⟨host, number, path, -, -, fields, hread, -⟩
    have hnone : HttpRequest.read (writeRequestBytes spelledLength ⟨false, ascii "127.0.0.1", 80, ascii "/"⟩) = none := by
      decide +kernel
    exact absurd (hnone.symm.trans hread) (by simp)

end HttpAsyncClient

end GopherMcp
