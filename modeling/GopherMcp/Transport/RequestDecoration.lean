import GopherMcp.Protocol.MirroredHeaders
import GopherMcp.Protocol.Subscriptions

/-!
# What a client puts on a request beside its body

A session puts its id and its revision on every request. In the newest revision a request also says of
itself, in its body, which revision it speaks and what its caller can do, and it carries in headers its
method, the name of what it is about and the arguments its tool designates, as far as they have a header
form.
-/

namespace GopherMcp

open MirroredHeaders

def kMetaProtocolVersion : Bytes := ascii "io.modelcontextprotocol/protocolVersion"
def kMetaClientInfo : Bytes := ascii "io.modelcontextprotocol/clientInfo"
def kMetaClientCapabilities : Bytes := ascii "io.modelcontextprotocol/clientCapabilities"

structure StreamableHttpClientSession where
  sessionId : Bytes
  protocolVersion : Bytes
  clientInfo : JsonValue
  clientCapabilities : JsonValue
  designations : OrdMap Bytes (List DesignatedParam)

namespace StreamableHttpClientSession

/-! ### Parts of a message -/

def kMethod : Bytes := ascii "method"
def kId : Bytes := ascii "id"
def kParams : Bytes := ascii "params"
def kArguments : Bytes := ascii "arguments"
def kName : Bytes := ascii "name"

/-- The params of a message, null when there is no object of them. -/
def paramsOf (message : JsonValue) : JsonValue :=
  if (message.get kParams).isObject then message.get kParams else .null

def argumentsOf (params : JsonValue) : JsonValue :=
  if (params.get kArguments).isObject then params.get kArguments else .emptyObject

/-! ### Headers -/

/-- `decorate(headers)`. -/
def identify (session : StreamableHttpClientSession) (headers : OrdMap Bytes Bytes) : OrdMap Bytes Bytes :=
  let headers :=
    if session.sessionId ≠ [] then headers.insert kSessionIdHeader session.sessionId else headers
  if session.protocolVersion ≠ [] then headers.insert kProtocolVersionHeader session.protocolVersion
  else headers

def mirrorName (method : Bytes) (params : JsonValue) (headers : OrdMap Bytes Bytes) : OrdMap Bytes Bytes :=
  if carriesName method then
    match (params.get? (nameFieldFor method)).bind headerTextForScalar with
    | some text => headers.insert kNameHeader (HeaderSentinel.encodeHeaderValue text)
    | none => headers
  else headers

/-- What the tool of a call was last seen to designate, nothing for any other request. -/
def designatedFor (session : StreamableHttpClientSession) (method : Bytes) (params : JsonValue) :
    List DesignatedParam :=
  if method ≠ kMethodToolsCall then []
  else
    match params.stringAt kName with
    | some tool => (session.designations.find? tool).getD []
    | none => []

/-- One designated argument: it gets no header when the call does not carry it or it has no header form. -/
def mirrorParam (arguments : JsonValue) (headers : OrdMap Bytes Bytes) (param : DesignatedParam) :
    OrdMap Bytes Bytes :=
  match (valueAtPath arguments param.path).bind headerTextForScalar with
  | some text => headers.insert (paramHeader param) (HeaderSentinel.encodeHeaderValue text)
  | none => headers

def decorate (session : StreamableHttpClientSession) (headers : OrdMap Bytes Bytes) (message : JsonValue) :
    OrdMap Bytes Bytes :=
  let headers := session.identify headers
  if !isModernVersion session.protocolVersion then headers
  else
    match message.stringAt kMethod with
    | none => headers
    | some method =>
        let params := paramsOf message
        (session.designatedFor method params).foldl (mirrorParam (argumentsOf params))
          (mirrorName method params (headers.insert kMethodHeader method))

/-! ### The body -/

/-- What a request says about itself and its caller, beside what it was given. -/
def selfDescription (session : StreamableHttpClientSession) (given : JsonValue) : JsonValue :=
  let described := given.set kMetaProtocolVersion (.string session.protocolVersion)
  let described := described.set kMetaClientCapabilities
    (if session.clientCapabilities.isObject then session.clientCapabilities else .emptyObject)
  if session.clientInfo.isObject then described.set kMetaClientInfo session.clientInfo else described

def declareSelf (session : StreamableHttpClientSession) (message : JsonValue) : JsonValue :=
  if !isModernVersion session.protocolVersion then message
  else if !message.isObject || !message.contains kMethod || !message.contains kId || (message.get kId).isNull then
    message
  else
    let params := if (message.get kParams).isObject then message.get kParams else .emptyObject
    let given := if (params.get kMeta).isObject then params.get kMeta else .emptyObject
    message.set kParams (params.set kMeta (session.selfDescription given))

/-! ### A request that describes itself -/

/-- A message that asks for an answer: an object with a method and an id. -/
structure RequestFor (message : JsonValue) (method : Bytes) : Prop where
  object : message.isObject
  method : message.stringAt kMethod = some method
  id : message.contains kId
  idGiven : (message.get kId).isNull = false

theorem get_set {json : JsonValue} (h : json.isObject) (key other : Bytes) (value : JsonValue) :
    (json.set key value).get other = if other = key then value else json.get other := by
  rw [JsonValue.get_eq, JsonValue.get?_set h, JsonValue.get_eq]
  split_ifs <;> rfl

theorem isObject_of_ite (json : JsonValue) :
    (if json.isObject then json else JsonValue.emptyObject).isObject := by
  split_ifs with h
  · exact h
  · rfl

/-- The params of a message, empty when it has none. -/
def givenParams (message : JsonValue) : JsonValue :=
  if (message.get kParams).isObject then message.get kParams else .emptyObject

theorem get?_givenParams (message : JsonValue) (field : Bytes) :
    (givenParams message).get? field = (paramsOf message).get? field := by
  unfold givenParams paramsOf
  split_ifs <;> rfl

variable {session : StreamableHttpClientSession} {message : JsonValue} {method : Bytes}

theorem declareSelf_eq (hmodern : isModernVersion session.protocolVersion = true)
    (hrequest : RequestFor message method) :
    ∃ given, given.isObject ∧ session.declareSelf message =
      message.set kParams ((givenParams message).set kMeta (session.selfDescription given)) := by
  have hcontains : message.contains kMethod = true := by
    have hmethod := hrequest.method
    rw [JsonValue.stringAt, JsonValue.get_eq] at hmethod
    rw [JsonValue.contains_eq]
    cases hfound : message.get? kMethod with
    | none =>
        rw [hfound] at hmethod
        cases hmethod
    | some value => rfl
  refine ⟨_, isObject_of_ite ((givenParams message).get kMeta), ?_⟩
  simp only [declareSelf, hmodern, hrequest.object, hcontains, hrequest.id, hrequest.idGiven]
  rfl

theorem isObject_selfDescription {given : JsonValue} (h : given.isObject) :
    (session.selfDescription given).isObject := by
  have hdescribed (capabilities : JsonValue) :=
    JsonValue.isObject_set (JsonValue.isObject_set h kMetaProtocolVersion (.string session.protocolVersion))
      kMetaClientCapabilities capabilities
  simp only [selfDescription]
  generalize (if session.clientCapabilities.isObject then session.clientCapabilities
    else JsonValue.emptyObject) = capabilities
  split_ifs
  · exact JsonValue.isObject_set (hdescribed capabilities) _ _
  · exact hdescribed capabilities

/-- The description names the revision and has an object of capabilities. -/
theorem get_selfDescription {given : JsonValue} (h : given.isObject) :
    (session.selfDescription given).stringAt kMetaProtocolVersion = some session.protocolVersion ∧
      ((session.selfDescription given).get kMetaClientCapabilities).isObject := by
  have hversion := JsonValue.isObject_set h kMetaProtocolVersion (.string session.protocolVersion)
  have hcapabilities (capabilities : JsonValue) :=
    JsonValue.isObject_set hversion kMetaClientCapabilities capabilities
  have hapart : kMetaProtocolVersion ≠ kMetaClientCapabilities := by decide
  have hinfo : kMetaProtocolVersion ≠ kMetaClientInfo ∧ kMetaClientCapabilities ≠ kMetaClientInfo := by decide
  unfold selfDescription JsonValue.stringAt
  simp only
  generalize hheld : (if session.clientCapabilities.isObject then session.clientCapabilities
    else JsonValue.emptyObject) = capabilities
  have hobject : capabilities.isObject := hheld ▸ isObject_of_ite session.clientCapabilities
  by_cases hsaid : session.clientInfo.isObject = true
  · simp [hsaid, get_set (hcapabilities capabilities), get_set hversion, get_set h, hapart, hinfo, hobject]
  · simp [hsaid, get_set hversion, get_set h, hapart, hobject]

theorem get_params_declareSelf (hmodern : isModernVersion session.protocolVersion = true)
    (hrequest : RequestFor message method) :
    ∃ given, given.isObject ∧ (session.declareSelf message).get kParams =
      (givenParams message).set kMeta (session.selfDescription given) := by
  obtain ⟨given, hgiven, heq⟩ := declareSelf_eq hmodern hrequest
  exact ⟨given, hgiven, by rw [heq, get_set hrequest.object, if_pos rfl]⟩

/-- It is still the same request. -/
theorem requestFor_declareSelf (hmodern : isModernVersion session.protocolVersion = true)
    (hrequest : RequestFor message method) : RequestFor (session.declareSelf message) method := by
  obtain ⟨given, -, heq⟩ := declareSelf_eq hmodern hrequest
  have hmethod : kMethod ≠ kParams := by decide
  have hid : kId ≠ kParams := by decide
  rw [heq]
  constructor
  · exact JsonValue.isObject_set hrequest.object _ _
  · rw [JsonValue.stringAt, get_set hrequest.object, if_neg hmethod]
    exact hrequest.method
  · rw [JsonValue.contains_eq, JsonValue.get?_set hrequest.object, if_neg hid, ← JsonValue.contains_eq]
    exact hrequest.id
  · rw [get_set hrequest.object, if_neg hid]
    exact hrequest.idGiven

/-- Apart from what it says of itself, its params are those it was given. -/
theorem get?_params_declareSelf (hmodern : isModernVersion session.protocolVersion = true)
    (hrequest : RequestFor message method) {field : Bytes} (hfield : field ≠ kMeta) :
    (paramsOf (session.declareSelf message)).get? field = (paramsOf message).get? field := by
  obtain ⟨given, -, hparams⟩ := get_params_declareSelf hmodern hrequest
  have hobject : (givenParams message).isObject := isObject_of_ite (message.get kParams)
  rw [paramsOf, hparams, if_pos (JsonValue.isObject_set hobject _ _), JsonValue.get?_set hobject,
    if_neg hfield, get?_givenParams]

theorem nameFieldFor_ne_kMeta (method : Bytes) : nameFieldFor method ≠ kMeta := by
  unfold nameFieldFor
  split_ifs <;> decide

theorem argumentsOf_declareSelf (hmodern : isModernVersion session.protocolVersion = true)
    (hrequest : RequestFor message method) :
    argumentsOf (paramsOf (session.declareSelf message)) = argumentsOf (paramsOf message) := by
  unfold argumentsOf
  rw [JsonValue.get_eq, get?_params_declareSelf hmodern hrequest (by decide), ← JsonValue.get_eq]

theorem stringAt_declareSelf (hmodern : isModernVersion session.protocolVersion = true)
    (hrequest : RequestFor message method) :
    (paramsOf (session.declareSelf message)).stringAt kName = (paramsOf message).stringAt kName := by
  unfold JsonValue.stringAt
  rw [JsonValue.get_eq, get?_params_declareSelf hmodern hrequest (by decide), ← JsonValue.get_eq]

theorem named_declareSelf (hmodern : isModernVersion session.protocolVersion = true)
    (hrequest : RequestFor message method) :
    (paramsOf (session.declareSelf message)).get (nameFieldFor method) =
      (paramsOf message).get (nameFieldFor method) := by
  rw [JsonValue.get_eq, get?_params_declareSelf hmodern hrequest (nameFieldFor_ne_kMeta method),
    ← JsonValue.get_eq]

end StreamableHttpClientSession

end GopherMcp
