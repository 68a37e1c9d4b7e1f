import GopherMcp.Transport.RequestDecoration

/-!
# What the newest revision requires of a request

The body is the source of truth. A header that says something else than the body, a mirrored value
without its header and a header for a value the body does not carry are all refused, in the order a
caller can act on.
-/

namespace GopherMcp

open MirroredHeaders StreamableHttpClientSession

/-- What the filter keeps of the request at hand until it is judged. -/
structure ModernContext where
  protocolVersion : Bytes
  modern : Bool
  clientInfo : Option JsonValue
  clientCapabilities : Option JsonValue
  bodyProtocolVersion : Bytes
  mirroredHeaders : OrdMap Bytes Bytes

/-- What it knows of the tools of its server, if it was told, and how the library reads a float. -/
structure ModernOptions where
  designatedParams : Option (Bytes → Option (List DesignatedParam))
  stod : Bytes → Option (UInt64 × Nat)

namespace ModernRequests

def kMcpMethod : Bytes := ascii "mcp-method"
def kMcpName : Bytes := ascii "mcp-name"
def kMcpParam : Bytes := ascii "mcp-param-"
def kMcpProtocolVersion : Bytes := ascii "mcp-protocol-version"

/-! ### What is kept -/

def isMirrored (name : Bytes) : Bool :=
  name = kMcpMethod || name = kMcpName || name.take 10 = kMcpParam

/-- The headers as they arrive, their names in lower case. -/
def onHeaders (headers : OrdMap Bytes Bytes) : ModernContext :=
  let protocolVersion := (headers.find? kMcpProtocolVersion).getD []
  { protocolVersion
    modern := isModernVersion protocolVersion
    clientInfo := none
    clientCapabilities := none
    bodyProtocolVersion := []
    mirroredHeaders := headers.filter fun name _ => isMirrored name }

def objectAt (json : JsonValue) (key : Bytes) : Option JsonValue :=
  if (json.get key).isObject then some (json.get key) else none

def readModernContext (message : JsonValue) (context : ModernContext) : ModernContext :=
  if !(message.get kParams).isObject || !((message.get kParams).get kMeta).isObject then context
  else
    let described := (message.get kParams).get kMeta
    let version := described.stringAt kMetaProtocolVersion
    { context with
      bodyProtocolVersion := version.getD context.bodyProtocolVersion
      modern := context.modern || isModernVersion (version.getD [])
      clientInfo := (objectAt described kMetaClientInfo).or context.clientInfo
      clientCapabilities := (objectAt described kMetaClientCapabilities).or context.clientCapabilities }

/-! ### The checks -/

def refuse (why : Bytes) : Except Error Unit := .error ⟨kHeaderMismatch, ascii "Bad Request: " ++ why⟩

/-- One designated argument against the header sent for it. -/
def validateParam (options : ModernOptions) (headers : OrdMap Bytes Bytes) (arguments : JsonValue)
    (param : DesignatedParam) : Except Error Unit :=
  let sent := headers.find? (DesignatedParams.lowered (paramHeader param))
  match valueAtPath arguments param.path with
  | none =>
      if sent.isSome then
        refuse (paramHeader param ++ ascii " was sent for an argument this call does not carry")
      else .ok ()
  | some value =>
      match sent with
      | none => refuse (paramHeader param ++ ascii " is missing for an argument this call carries")
      | some header =>
          if headerMatchesValue options.stod header value then .ok ()
          else refuse (paramHeader param ++ ascii " value '" ++ header ++ ascii "' does not match the body")

/-- The loop: the first refusal ends it. -/
def validateParams (options : ModernOptions) (headers : OrdMap Bytes Bytes) (arguments : JsonValue) :
    List DesignatedParam → Except Error Unit
  | [] => .ok ()
  | param :: rest => do
      validateParam options headers arguments param
      validateParams options headers arguments rest

/-- What the tool of a call designates; nothing for a tool this server does not have, or one without a
name. -/
def designatedHere (options : ModernOptions) (method : Bytes) (params : JsonValue) : List DesignatedParam :=
  match options.designatedParams with
  | none => []
  | some paramsForTool =>
      if method ≠ kMethodToolsCall then []
      else
        let tool := (params.stringAt kName).getD []
        if tool = [] then [] else (paramsForTool tool).getD []

def validateMirroredParams (options : ModernOptions) (context : ModernContext) (message : JsonValue)
    (method : Bytes) : Except Error Unit :=
  validateParams options context.mirroredHeaders (argumentsOf (paramsOf message))
    (designatedHere options method (paramsOf message))

/-- The name of what a request is about, against its header. -/
def validateName (options : ModernOptions) (context : ModernContext) (message : JsonValue) (method : Bytes) :
    Except Error Unit :=
  let field := nameFieldFor method
  let named := (paramsOf message).get field
  if named.isNull then
    refuse (method ++ ascii " names what it is about in params." ++ field ++ ascii ", and this one does not")
  else
    match context.mirroredHeaders.find? kMcpName with
    | none => refuse (method ++ ascii " carries the " ++ kNameHeader ++ ascii " header")
    | some header =>
        if headerMatchesValue options.stod header named then .ok ()
        else refuse (kNameHeader ++ ascii " value '" ++ header ++ ascii "' does not match the body")

def validateModernRequest (options : ModernOptions) (context : ModernContext) (message : JsonValue)
    (method : Bytes) : Except Error Unit :=
  let methodHeader := (context.mirroredHeaders.find? kMcpMethod).getD []
  if method = [] ∧ (message.contains (ascii "result") ∨ message.contains (ascii "error")) then
    refuse (ascii "this endpoint takes requests and notifications, and a response " ++
      ascii "answers a question it never asked")
  -- A notification's headers are not specified by this revision.
  else if !message.contains kId || (message.get kId).isNull then .ok ()
  else if context.bodyProtocolVersion = [] then
    refuse (ascii "every request carries its protocol version in its body")
  else if context.protocolVersion = [] then
    refuse (ascii "every request carries the " ++ kProtocolVersionHeader ++ ascii " header")
  else if context.protocolVersion ≠ context.bodyProtocolVersion then
    refuse (kProtocolVersionHeader ++ ascii " says " ++ context.protocolVersion ++ ascii " and the body says " ++
      context.bodyProtocolVersion)
  else if context.clientCapabilities.isNone then
    refuse (ascii "every request declares what its caller can do, in params._meta[\"" ++
      kMetaClientCapabilities ++ ascii "\"]")
  else if methodHeader = [] then
    refuse (ascii "every request carries the " ++ kMethodHeader ++ ascii " header")
  else if methodHeader ≠ method then
    refuse (kMethodHeader ++ ascii " says " ++ methodHeader ++ ascii " and the body says " ++ method)
  else do
    validateMirroredParams options context message method
    if carriesName method then validateName options context message method

/-- A request as the filter meets it: its headers first, then its body. -/
def judge (options : ModernOptions) (headers : OrdMap Bytes Bytes) (message : JsonValue) : Except Error Unit :=
  validateModernRequest options (readModernContext message (onHeaders headers)) message
    ((message.stringAt kMethod).getD [])

/-! ### What is accepted -/

theorem ite_refuse_eq_ok_iff {refused : Prop} [Decidable refused] {why : Bytes} {next : Except Error Unit} :
    (if refused then refuse why else next) = .ok () ↔ ¬refused ∧ next = .ok () := by
  split_ifs with h
  · simp [refuse, h]
  · simp [h]

theorem validateParam_eq_ok_iff (options : ModernOptions) (headers : OrdMap Bytes Bytes)
    (arguments : JsonValue) (param : DesignatedParam) :
    validateParam options headers arguments param = .ok () ↔
      (Meaning.ofArgument (valueAtPath arguments param.path)).Admits options.stod
        (headers.find? (DesignatedParams.lowered (paramHeader param))) := by
  unfold validateParam
  cases valueAtPath arguments param.path with
  | none =>
      cases headers.find? (DesignatedParams.lowered (paramHeader param)) with
      | none => simp [Meaning.ofArgument, Meaning.Admits]
      | some header => simp [Meaning.ofArgument, Meaning.Admits, refuse]
  | some value =>
      cases headers.find? (DesignatedParams.lowered (paramHeader param)) with
      | none => simp [Meaning.ofArgument, Meaning.Admits, refuse]
      | some header =>
          cases hmatches : headerMatchesValue options.stod header value with
          | true => simp [Meaning.ofArgument, Meaning.Admits, hmatches]
          | false => simp [Meaning.ofArgument, Meaning.Admits, refuse, hmatches]

theorem validateParams_eq_ok_iff (options : ModernOptions) (headers : OrdMap Bytes Bytes)
    (arguments : JsonValue) (params : List DesignatedParam) :
    validateParams options headers arguments params = .ok () ↔
      ∀ param ∈ params, validateParam options headers arguments param = .ok () := by
  induction params with
  | nil => simp [validateParams]
  | cons param rest ih =>
      rw [validateParams, List.forall_mem_cons, ← ih]
      cases validateParam options headers arguments param with
      | error e => simp [bind, Except.bind]
      | ok u => simp [bind, Except.bind]

theorem validateName_eq_ok_iff (options : ModernOptions) (context : ModernContext) (message : JsonValue)
    (method : Bytes) :
    validateName options context message method = .ok () ↔
      (Meaning.scalar ((paramsOf message).get (nameFieldFor method))).Admits options.stod
        (context.mirroredHeaders.find? kMcpName) := by
  unfold validateName
  simp only
  generalize (paramsOf message).get (nameFieldFor method) = named
  cases context.mirroredHeaders.find? kMcpName with
  | none => cases named.isNull <;> simp [Meaning.Admits, refuse]
  | some header =>
      cases hmatches : headerMatchesValue options.stod header named with
      | false => cases named.isNull <;> simp [Meaning.Admits, refuse, hmatches]
      | true =>
          have hnull : named.isNull = false := by
            cases named with
            | null => simp [headerMatchesValue_null] at hmatches
            | _ => rfl
          simp [Meaning.Admits, hmatches, hnull]

/-- What a request has to be for this check to let it through. -/
theorem validateModernRequest_eq_ok_iff (options : ModernOptions) (context : ModernContext)
    {message : JsonValue} {method : Bytes} (hid : message.contains kId = true)
    (hnull : (message.get kId).isNull = false) :
    validateModernRequest options context message method = .ok () ↔
      context.bodyProtocolVersion ≠ [] ∧ context.protocolVersion = context.bodyProtocolVersion ∧
        context.clientCapabilities.isSome ∧ method ≠ [] ∧
        context.mirroredHeaders.find? kMcpMethod = some method ∧
        validateMirroredParams options context message method = .ok () ∧
        (carriesName method = true → validateName options context message method = .ok ()) := by
  have hchecks : (do
      validateMirroredParams options context message method
      if carriesName method then validateName options context message method) = .ok () ↔
      validateMirroredParams options context message method = .ok () ∧
        (carriesName method = true → validateName options context message method = .ok ()) := by
    cases validateMirroredParams options context message method with
    | error e => simp [bind, Except.bind]
    | ok u => cases carriesName method <;> simp [bind, Except.bind, pure, Except.pure]
  have hrequest : ¬(!message.contains kId || (message.get kId).isNull) = true := by
    simp [hid, hnull]
  simp only [validateModernRequest, ite_refuse_eq_ok_iff, if_neg hrequest, hchecks]
  cases hsent : context.mirroredHeaders.find? kMcpMethod with
  | none =>
      simp
  | some sent =>
      simp only [Option.getD_some, Option.some.injEq, not_not, ne_eq, Option.isNone_iff_eq_none,
        ← Option.isSome_iff_ne_none]
      constructor
      · intro h
        obtain ⟨-, hbody, -, hversion, hcapabilities, hnonempty, rfl, hparams⟩ := h
        exact ⟨hbody, hversion, hcapabilities, hnonempty, rfl, hparams⟩
      · intro h
        obtain ⟨hbody, hversion, hcapabilities, hnonempty, rfl, hparams⟩ := h
        exact ⟨fun hanswer => hnonempty hanswer.1, hbody, hversion ▸ hbody, hversion, hcapabilities, hnonempty,
          rfl, hparams⟩

end ModernRequests

end GopherMcp
