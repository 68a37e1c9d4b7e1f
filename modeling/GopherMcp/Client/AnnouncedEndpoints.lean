import GopherMcp.Client.HttpPosts
import GopherMcp.Filter.ClientRequests
import GopherMcp.Http.KeptHeads

/-!
# Posting to an announced endpoint

A server says where it wants messages posted, with or without saying on which host. What it says is cut by position,
the port is read by `std::stoi` and narrowed, and host and path are pasted into the head of a request. A message is
posted as it should be exactly if the text behind the first colon is read as a number that narrows to the port that the
address has, and what is pasted in keeps to its place.
-/

namespace GopherMcp

open WireWriter (Headers lowercase)
open HttpRequest (isName isTarget isFieldText render)
open HttpCodecFilter (RequestParts AsksOnce KeepsPlace sentClientHeaders Generated generatedNames)

namespace AnnouncedEndpoint

def kSlash : UInt8 := 47

/-- An endpoint without a host is on the server that announced it. -/
def resolveEndpointUrl (endpoint serverAddress : Bytes) (useSsl : Bool) : Bytes :=
  if (afterScheme endpoint).isSome then endpoint
  else if serverAddress.isEmpty then endpoint
  else
    (if useSsl then ascii "https://" else ascii "http://") ++ serverAddress ++
      if endpoint.head? = some kSlash then endpoint else kSlash :: endpoint

/-! ### Cutting an address -/

/-- The port of the scheme. -/
def schemePort (url : Bytes) : UInt16 := if (ascii "http://").isPrefixOf url then 80 else 443

/-- What stands between the scheme and the path. -/
def authorityOf (rest : Bytes) : Bytes := rest.takeWhile (· ≠ kSlash)

def hostOf (rest : Bytes) : Bytes := (authorityOf rest).takeWhile (· ≠ kColon)

def pathOf (rest : Bytes) : Bytes :=
  let path := rest.dropWhile (· ≠ kSlash)
  if path.isEmpty then ascii "/" else path

/-- `static_cast<uint16_t>`. -/
def narrowed (number : Int) : UInt16 := UInt16.ofNat (number % 65536).toNat

/-- The port that is used; none where reading it throws. -/
def portOf (url rest : Bytes) : Option UInt16 :=
  match Delimited.cut (authorityOf rest) kColon with
  | none => some (schemePort url)
  | some parts => (stoi parts.2).map narrowed

/-! ### Posting -/

inductive PostOutcome
  | throws
  | refused
  | posted (address : Bytes) (port : UInt16) (request : Bytes)

/-- A message is posted. `resolve` is how a host's address is found, and `ready` says whether a socket was made. -/
def sendHttpPost (resolve : Bytes → Option Bytes) (ready : Bool) (messageEndpoint : Bytes)
    (headers : OrdMap Bytes Bytes) (jsonBody : Bytes) : PostOutcome :=
  match afterScheme messageEndpoint with
  | none => .refused
  | some rest =>
      match portOf messageEndpoint rest with
      | none => .throws
      | some port =>
          match resolve (hostOf rest) with
          | none => .refused
          | some address =>
              if ready then .posted address port (postRequest (hostOf rest) (pathOf rest) headers jsonBody)
              else .refused

/-- The headers of the configuration, and those of the message over them. -/
def mergedHeaders (configured : OrdMap Bytes Bytes) (httpHeaders : List (Bytes × Bytes)) : OrdMap Bytes Bytes :=
  httpHeaders.foldl (fun merged header => merged.insert header.1 header.2) configured

/-! ### What should be posted -/

/-- The port an authority has: the decimal number behind its last colon, if it is one that a port can be. -/
def carriedPort (authority : Bytes) : Option Nat :=
  if authority.contains kColon then
    (HttpRequest.readNumber (authority.rtakeWhile (· ≠ kColon))).filter (· ≤ 65535)
  else none

/-- The parts of the request for a message. -/
def postParts (host path jsonBody : Bytes) : RequestParts where
  method := ascii "POST"
  target := path
  generated :=
    [(ascii "Host", host), (ascii "Content-Type", ascii "application/json"),
      (ascii "Content-Length", toDecimal jsonBody.length), (ascii "Connection", ascii "close")]
  body := jsonBody

/-- Posting does not throw, and what is posted is the message on the path of the address, to the port that the address
has or that of the scheme. -/
def PostsAsAnnounced (url : Bytes) (headers : OrdMap Bytes Bytes) (jsonBody : Bytes) : PostOutcome → Prop
  | .throws => False
  | .refused => True
  | .posted _ port request =>
      ∃ rest, afterScheme url = some rest ∧
        port.toNat = (carriedPort (authorityOf rest)).getD (schemePort url).toNat ∧
        AsksOnce headers (postParts (hostOf rest) (pathOf rest) jsonBody) jsonBody request

/-- The text behind the first colon is read as a number, if there is one. Where a message is posted, that narrows to the
port the address should be reached at, and what is pasted in keeps to its place. -/
def Postable (resolve : Bytes → Option Bytes) (ready : Bool) (url : Bytes) (headers : OrdMap Bytes Bytes)
    (jsonBody : Bytes) : Prop :=
  ∀ rest, afterScheme url = some rest →
    (∀ parts, Delimited.cut (authorityOf rest) kColon = some parts → (stoi parts.2).isSome = true) ∧
    ((resolve (hostOf rest)).isSome = true → ready = true →
      (∀ parts number, Delimited.cut (authorityOf rest) kColon = some parts → stoi parts.2 = some number →
        (narrowed number).toNat = (carriedPort (authorityOf rest)).getD (schemePort url).toNat) ∧
      KeepsPlace headers (postParts (hostOf rest) (pathOf rest) jsonBody))

/-! ### The bytes -/

variable {url rest host path jsonBody : Bytes} {headers : OrdMap Bytes Bytes}

theorem generated_postParts (host path jsonBody : Bytes) : Generated (postParts host path jsonBody) := by
  have hnames : ∀ name ∈ [ascii "Host", ascii "Content-Type", ascii "Content-Length", ascii "Connection"],
      isName name = true ∧ lowercase name ∈ generatedNames := by
    decide
  have hapart : ([ascii "Host", ascii "Content-Type", ascii "Content-Length", ascii "Connection"].map lowercase).Nodup := by
    decide
  exact ⟨hnames, hapart, rfl, Or.inl rfl⟩

theorem flatMap_sent (headers : List (Bytes × Bytes)) :
    (headers.flatMap fun header =>
        if !isValidClientHeader header.1 header.2 || isGeneratedClientHeader header.1 then []
        else header.1 ++ ascii ": " ++ header.2 ++ ascii "\r\n") =
      (headers.filter fun header =>
        isValidClientHeader header.1 header.2 && !isGeneratedClientHeader header.1).flatMap fun header =>
          WireWriter.headerLine header.1 header.2 ++ Chunking.crlf := by
  induction headers with
  | nil => rfl
  | cons header rest ih =>
      rw [List.flatMap_cons, ih, List.filter_cons]
      cases isValidClientHeader header.1 header.2 with
      | false => rfl
      | true =>
          cases isGeneratedClientHeader header.1 with
          | false => rfl
          | true => rfl

theorem postRequest_eq (host path : Bytes) (headers : OrdMap Bytes Bytes) (jsonBody : Bytes) :
    postRequest host path headers jsonBody =
      render ⟨ascii "POST", path, (postParts host path jsonBody).generated ++ sentClientHeaders headers, jsonBody⟩ := by
  have hsent : (headers.entries.filter fun header =>
      isValidClientHeader header.1 header.2 && !isGeneratedClientHeader header.1) = sentClientHeaders headers := rfl
  have hline : ascii "POST " ++ path ++ ascii " HTTP/1.1\r\nHost: " =
      HttpRequest.requestLine (ascii "POST") path ++ Chunking.crlf ++ (ascii "Host" ++ ascii ": ") := by
    simp [HttpRequest.requestLine]
    rfl
  have hlength : ascii "\r\nContent-Type: application/json\r\nContent-Length: " =
      Chunking.crlf ++ (ascii "Content-Type" ++ (ascii ": " ++ (ascii "application/json" ++
        (Chunking.crlf ++ (ascii "Content-Length" ++ ascii ": "))))) := rfl
  have hclose : ascii "\r\nConnection: close\r\n" =
      Chunking.crlf ++ (ascii "Connection" ++ (ascii ": " ++ (ascii "close" ++ Chunking.crlf))) := rfl
  have hend : ascii "\r\n" = Chunking.crlf := rfl
  unfold postRequest
  rw [flatMap_sent, hsent, hline, hlength, hclose, hend]
  simp [render, HttpRequest.lines, postParts, List.flatMap_map, WireWriter.headerLine]

/-! ### The port -/

theorem portOf_eq_none_iff : portOf url rest = none ↔
    ∃ parts, Delimited.cut (authorityOf rest) kColon = some parts ∧ stoi parts.2 = none := by
  unfold portOf
  cases Delimited.cut (authorityOf rest) kColon with
  | none => simp
  | some parts => simp

theorem portOf_agrees_iff {port : UInt16} (h : portOf url rest = some port) :
    port.toNat = (carriedPort (authorityOf rest)).getD (schemePort url).toNat ↔
      ∀ parts number, Delimited.cut (authorityOf rest) kColon = some parts → stoi parts.2 = some number →
        (narrowed number).toNat = (carriedPort (authorityOf rest)).getD (schemePort url).toNat := by
  unfold portOf at h
  cases hcut : Delimited.cut (authorityOf rest) kColon with
  | none =>
      rw [hcut] at h
      obtain rfl := Option.some.inj h
      have hcolon : (authorityOf rest).contains kColon = false := by
        rw [Bool.eq_false_iff, ne_eq, List.contains_iff_mem]
        exact Delimited.cut_eq_none_iff.mp hcut
      have hnone : carriedPort (authorityOf rest) = none := by
        unfold carriedPort
        rw [hcolon, if_neg Bool.false_ne_true]
      rw [hnone]
      simp
  | some parts =>
      rw [hcut] at h
      obtain ⟨number, hnumber, rfl⟩ := Option.map_eq_some_iff.mp h
      constructor
      · rintro heq _ other ⟨⟩ hother
        rw [hnumber] at hother
        cases hother
        exact heq
      · intro hall
        exact hall parts number rfl hnumber

/-! ### Posting -/

theorem afterScheme_scheme (useSsl : Bool) (rest : Bytes) :
    afterScheme ((if useSsl then ascii "https://" else ascii "http://") ++ rest) = some rest := by
  cases useSsl <;> rfl

/-- An endpoint without a host is asked for by its own path, where the server's address has none. -/
theorem rest_resolveEndpointUrl {endpoint serverAddress : Bytes} (useSsl : Bool) (hrelative : afterScheme endpoint = none)
    (hne : serverAddress ≠ []) (haddress : kSlash ∉ serverAddress) :
    ∃ rest, afterScheme (resolveEndpointUrl endpoint serverAddress useSsl) = some rest ∧
      authorityOf rest = serverAddress ∧
      pathOf rest = if endpoint.head? = some kSlash then endpoint else kSlash :: endpoint := by
  obtain ⟨path, hpath⟩ : ∃ path, (if endpoint.head? = some kSlash then endpoint else kSlash :: endpoint) =
      kSlash :: path := by
    split_ifs with hslash
    · exact List.head?_eq_some_iff.mp hslash
    · exact ⟨endpoint, rfl⟩
  have hplain : ∀ byte ∈ serverAddress, decide (byte ≠ kSlash) = true := by
    intro byte hbyte
    rw [decide_eq_true_eq]
    rintro rfl
    exact haddress hbyte
  refine ⟨serverAddress ++ kSlash :: path, ?_, ?_, ?_⟩
  · unfold resolveEndpointUrl
    rw [hrelative, if_neg (by simp), if_neg (by simpa using hne), hpath, List.append_assoc]
    exact afterScheme_scheme useSsl _
  · unfold authorityOf
    rw [List.takeWhile_append_of_pos hplain, List.takeWhile_cons_of_neg (by simp), List.append_nil]
  · unfold pathOf
    rw [List.dropWhile_append_of_pos hplain, List.dropWhile_cons_of_neg (by simp), hpath]
    rfl

/-- Posting to an announced endpoint on a server whose address is found. -/
def postTo (endpoint : Bytes) : Bytes × PostOutcome :=
  let url := resolveEndpointUrl endpoint (ascii "h:8080") false
  (url, sendHttpPost (fun _ => some (ascii "127.0.0.1")) true url OrdMap.empty (ascii "1"))

end AnnouncedEndpoint

end GopherMcp
