import GopherMcp.Filter.ModernRequests

/-!
# Both ends of a mirrored request

Each header of a request has a meaning: a text as it stands, a scalar of the body, or the absence of an
argument. The client sends what the meaning says and the server lets through what it admits, so the two
agree header by header. They fall out over numbers: a float has no header form although it may be the
whole number its schema asks for, and past 63 bits the header names another integer than the body.
-/

namespace GopherMcp

open MirroredHeaders StreamableHttpClientSession ModernRequests
open DesignatedParams (lowered)

namespace MirrorAgreement

/-- Header names do not distinguish case: they arrive in lower case. -/
def received (headers : OrdMap Bytes Bytes) : OrdMap Bytes Bytes :=
  OrdMap.ofEntries (headers.entries.map fun header => (lowered header.1, header.2))

def argumentMeaning (params : JsonValue) (param : DesignatedParam) : Bytes × Meaning :=
  (paramHeader param, Meaning.ofArgument (valueAtPath (argumentsOf params) param.path))

/-- What the headers of a request are to say. -/
def meanings (version method : Bytes) (params : JsonValue) (designated : List DesignatedParam) :
    List (Bytes × Meaning) :=
  [(kProtocolVersionHeader, .exactly version), (kMethodHeader, .exactly method)] ++
    ((if carriesName method then [(kNameHeader, .scalar (params.get (nameFieldFor method)))] else []) ++
      designated.map (argumentMeaning params))

/-- The same is known at both ends of the tool that is called, and its schema is one that can be served. -/
structure KnownAlike (session : StreamableHttpClientSession) (options : ModernOptions) (tool : Bytes) : Prop where
  alike : (options.designatedParams.bind fun paramsForTool => paramsForTool tool) =
    session.designations.find? tool
  served : ∀ params, session.designations.find? tool = some params →
    ∃ definition : Tool, definition.name = tool ∧ DesignatedParams.designatedParams definition = .ok params

variable (session : StreamableHttpClientSession) (options : ModernOptions) (message : JsonValue) (method : Bytes)

/-- The headers of a request as the server gets them. -/
def sentHeaders : OrdMap Bytes Bytes :=
  received (session.decorate .empty (session.declareSelf message))

def Accepts (headers : OrdMap Bytes Bytes) : Prop :=
  judge options headers (session.declareSelf message) = .ok ()

/-- The meanings of the headers of a request. -/
def mirrored : List (Bytes × Meaning) :=
  meanings session.protocolVersion method (paramsOf message) (session.designatedFor method (paramsOf message))

/-- What the client sends is accepted, and nothing else: no header that says something else, none
missing, and none for an argument that is not there. -/
structure MirrorsRight : Prop where
  accepted : Accepts session options message (sentHeaders session message)
  replaced : ∀ name meaning, (name, meaning) ∈ mirrored session message method → ∀ header, ¬meaning.Says header →
    ¬Accepts session options message ((sentHeaders session message).insert (lowered name) header)
  removed : ∀ name meaning, (name, meaning) ∈ mirrored session message method → meaning ≠ .absent →
    ¬Accepts session options message ((sentHeaders session message).erase (lowered name))

/-- The method and the tool have names, and whatever goes into a header mirrors. -/
structure SafelyMirrored (params : JsonValue) : Prop where
  methodGiven : method ≠ []
  toolGiven : session.designatedFor method params ≠ [] → params.stringAt kName ≠ some []
  named : carriesName method = true → Mirrorable (params.get (nameFieldFor method))
  arguments : ∀ param ∈ session.designatedFor method params, ∀ value,
    valueAtPath (argumentsOf params) param.path = some value → Mirrorable value

/-! ### Names of headers -/

theorem lowered_append (left right : Bytes) : lowered (left ++ right) = lowered left ++ lowered right :=
  List.map_append

theorem lowered_paramHeader (param : DesignatedParam) :
    lowered (paramHeader param) = kMcpParam ++ lowered param.headerName :=
  lowered_append kParamHeaderPrefix param.headerName

theorem isMirrored_paramHeader (param : DesignatedParam) : isMirrored (lowered (paramHeader param)) = true := by
  have htake : (lowered (paramHeader param)).take 10 = kMcpParam := by
    rw [lowered_paramHeader]
    exact List.take_left' rfl
  simp [isMirrored, htake]

/-- The fixed names, which are no names of designated arguments. -/
def fixedNames : List Bytes := [kSessionIdHeader, kProtocolVersionHeader, kMethodHeader, kNameHeader]

theorem lowered_fixedNames : (fixedNames.map lowered).Nodup ∧
    ∀ name ∈ fixedNames, (lowered name).take 10 ≠ kMcpParam := by
  decide

variable {session options message method}

theorem names_meanings_sublist (version method : Bytes) (params : JsonValue) (designated : List DesignatedParam) :
    List.Sublist ((meanings version method params designated).map Prod.fst)
      ([kProtocolVersionHeader, kMethodHeader, kNameHeader] ++ designated.map paramHeader) := by
  have hparams : (designated.map (argumentMeaning params)).map Prod.fst = designated.map paramHeader := by
    rw [List.map_map]
    rfl
  rw [meanings, List.map_append, List.map_append, hparams]
  split_ifs <;> simp

/-- No two headers of a request have names that differ in case only. -/
theorem nodup_lowered {designated : List DesignatedParam}
    (h : (designated.map fun param => lowered param.headerName).Nodup) (version method : Bytes)
    (params : JsonValue) :
    ((kSessionIdHeader :: (meanings version method params designated).map Prod.fst).map lowered).Nodup := by
  have hsublist := ((names_meanings_sublist version method params designated).cons_cons kSessionIdHeader).map lowered
  refine List.Nodup.sublist hsublist ?_
  have hparams : ((designated.map paramHeader).map lowered).Nodup := by
    rw [List.map_map, show (lowered ∘ paramHeader) = (kMcpParam ++ ·) ∘ (fun param => lowered param.headerName)
      from funext lowered_paramHeader, ← List.map_map]
    exact h.map (List.append_right_injective _)
  change ((fixedNames ++ designated.map paramHeader).map lowered).Nodup
  rw [List.map_append]
  refine lowered_fixedNames.1.append hparams ?_
  intro low hfixed hparam
  obtain ⟨name, hname, rfl⟩ := List.mem_map.mp hfixed
  obtain ⟨_, hheader, hlow⟩ := List.mem_map.mp hparam
  obtain ⟨param, -, rfl⟩ := List.mem_map.mp hheader
  apply lowered_fixedNames.2 name hname
  rw [← hlow, lowered_paramHeader]
  exact List.take_left' rfl

/-- What holds of each header of a request. -/
theorem forall_meanings_iff {version method : Bytes} {params : JsonValue} {designated : List DesignatedParam}
    {holds : Bytes → Meaning → Prop} :
    (∀ name meaning, (name, meaning) ∈ meanings version method params designated → holds name meaning) ↔
      holds kProtocolVersionHeader (.exactly version) ∧ holds kMethodHeader (.exactly method) ∧
        (carriesName method = true → holds kNameHeader (.scalar (params.get (nameFieldFor method)))) ∧
        ∀ param ∈ designated, holds (argumentMeaning params param).1 (argumentMeaning params param).2 := by
  have hprod : (∀ name meaning, (name, meaning) ∈ meanings version method params designated →
      holds name meaning) ↔ ∀ entry ∈ meanings version method params designated, holds entry.1 entry.2 := by
    rw [Prod.forall]
  rw [hprod, meanings, List.forall_mem_append, List.forall_mem_append, List.forall_mem_cons,
    List.forall_mem_cons, List.forall_mem_map]
  cases carriesName method <;> simp [and_assoc]

/-! ### What the client sends -/

/-- What is sent for a header with a meaning. -/
def sending (entry : Bytes × Meaning) : Bytes × Option Bytes := (entry.1, entry.2.sent)

theorem mirrorName_eq (method : Bytes) (params : JsonValue) (headers : OrdMap Bytes Bytes) :
    mirrorName method params headers =
      ((if carriesName method then [(kNameHeader, Meaning.scalar (params.get (nameFieldFor method)))]
        else []).map sending).foldl OrdMap.insertSome headers := by
  have hget : (params.get? (nameFieldFor method)).bind headerTextForScalar =
      headerTextForScalar (params.get (nameFieldFor method)) := by
    rw [JsonValue.get_eq]
    cases params.get? (nameFieldFor method) <;> rfl
  unfold mirrorName
  split_ifs
  · rw [hget, List.map_cons, List.foldl_cons, List.map_nil, List.foldl_nil, sending, Meaning.sent,
      OrdMap.insertSome]
    cases headerTextForScalar (params.get (nameFieldFor method)) <;> rfl
  · rfl

theorem mirrorParam_eq (params : JsonValue) (headers : OrdMap Bytes Bytes) (param : DesignatedParam) :
    mirrorParam (argumentsOf params) headers param = headers.insertSome (sending (argumentMeaning params param)) := by
  unfold mirrorParam sending argumentMeaning OrdMap.insertSome
  cases valueAtPath (argumentsOf params) param.path with
  | none => rfl
  | some value =>
      simp only [Option.bind_some, Meaning.ofArgument, Meaning.sent]
      cases headerTextForScalar value <;> rfl

/-- The session id comes first, if there is one. -/
def startingHeaders (session : StreamableHttpClientSession) : OrdMap Bytes Bytes :=
  if session.sessionId ≠ [] then OrdMap.empty.insert kSessionIdHeader session.sessionId else .empty

/-- The headers of a request are put in one by one, those that have something to send. -/
theorem decorate_eq (hmodern : isModernVersion session.protocolVersion = true)
    (hmethod : message.stringAt kMethod = some method) :
    session.decorate .empty message =
      ((mirrored session message method).map sending).foldl OrdMap.insertSome (startingHeaders session) := by
  have hversion : session.protocolVersion ≠ [] := by
    intro h
    rw [h] at hmodern
    exact absurd hmodern (by decide)
  have hparams (designated : List DesignatedParam) (headers : OrdMap Bytes Bytes) :
      designated.foldl (mirrorParam (argumentsOf (paramsOf message))) headers =
        ((designated.map (argumentMeaning (paramsOf message))).map sending).foldl OrdMap.insertSome headers := by
    rw [List.map_map, List.foldl_map]
    congr 1
    funext held param
    exact mirrorParam_eq (paramsOf message) held param
  unfold decorate mirrored meanings
  simp only [hmodern, hmethod]
  rw [List.map_append, List.map_append, List.foldl_append, List.foldl_append, ← hparams, ← mirrorName_eq]
  simp only [identify, if_pos hversion]
  rfl

/-- A request means the same with what it says of itself. -/
theorem mirrored_declareSelf (hmodern : isModernVersion session.protocolVersion = true)
    (hrequest : RequestFor message method) :
    mirrored session (session.declareSelf message) method = mirrored session message method := by
  have hdesignated : session.designatedFor method (paramsOf (session.declareSelf message)) =
      session.designatedFor method (paramsOf message) := by
    unfold designatedFor
    rw [stringAt_declareSelf hmodern hrequest]
  have harguments : argumentMeaning (paramsOf (session.declareSelf message)) =
      argumentMeaning (paramsOf message) := by
    funext param
    unfold argumentMeaning
    rw [argumentsOf_declareSelf hmodern hrequest]
  unfold mirrored meanings
  rw [hdesignated, harguments, named_declareSelf hmodern hrequest]

theorem find?_startingHeaders {name : Bytes} (hname : name ≠ kSessionIdHeader) :
    (startingHeaders session).find? name = none := by
  unfold startingHeaders
  split_ifs
  · rw [OrdMap.find?_insert, if_neg hname, OrdMap.find?_empty]
  · rfl

/-- Each header arrives as it was sent. -/
theorem find?_sentHeaders (hmodern : isModernVersion session.protocolVersion = true)
    (hrequest : RequestFor message method)
    (hnodup : ((session.designatedFor method (paramsOf message)).map fun param => lowered param.headerName).Nodup)
    {name : Bytes} {meaning : Meaning} (hmeaning : (name, meaning) ∈ mirrored session message method) :
    (sentHeaders session message).find? (lowered name) = meaning.sent := by
  have hlowered : ((kSessionIdHeader :: (mirrored session message method).map Prod.fst).map lowered).Nodup :=
    nodup_lowered hnodup session.protocolVersion method (paramsOf message)
  have hnames := List.Nodup.of_map lowered hlowered
  have hsent : ((mirrored session message method).map sending).map Prod.fst =
      (mirrored session message method).map Prod.fst := by
    rw [List.map_map]
    rfl
  have hname : name ∈ (mirrored session message method).map Prod.fst :=
    List.mem_map_of_mem hmeaning
  have hsession : name ≠ kSessionIdHeader := by
    intro h
    exact (List.nodup_cons.mp hnames).1 (h ▸ hname)
  unfold sentHeaders received
  rw [decorate_eq hmodern (requestFor_declareSelf hmodern hrequest).method, mirrored_declareSelf hmodern hrequest,
    OrdMap.find?_ofEntries_rename hlowered ?_ (List.mem_cons_of_mem _ hname)]
  · refine OrdMap.find?_foldl_insertSome ?_ (List.mem_map_of_mem hmeaning) (find?_startingHeaders hsession)
    rw [hsent]
    exact (List.nodup_cons.mp hnames).2
  · intro key hkey
    by_contra habsent
    rw [List.mem_cons, not_or, ← hsent] at habsent
    rw [OrdMap.mem_keys_iff, OrdMap.find?_foldl_insertSome_of_not_mem _ habsent.2,
      find?_startingHeaders habsent.1] at hkey
    cases hkey

/-! ### What the server lets through -/

/-- The body of a request says its revision and what its caller can do. -/
theorem readModernContext_declareSelf (hmodern : isModernVersion session.protocolVersion = true)
    (hrequest : RequestFor message method) (context : ModernContext) :
    (readModernContext (session.declareSelf message) context).bodyProtocolVersion = session.protocolVersion ∧
      (readModernContext (session.declareSelf message) context).protocolVersion = context.protocolVersion ∧
      (readModernContext (session.declareSelf message) context).clientCapabilities.isSome ∧
      (readModernContext (session.declareSelf message) context).mirroredHeaders = context.mirroredHeaders := by
  obtain ⟨given, hgiven, hparams⟩ := get_params_declareSelf hmodern hrequest
  have hobject : (givenParams message).isObject := isObject_of_ite (message.get kParams)
  have hset := JsonValue.isObject_set hobject kMeta (session.selfDescription given)
  have hdescribed : ((givenParams message).set kMeta (session.selfDescription given)).get kMeta =
      session.selfDescription given := by
    simp [get_set hobject]
  obtain ⟨hversion, hcapabilities⟩ := @get_selfDescription session given hgiven
  unfold readModernContext
  rw [hparams, hdescribed]
  simp [hset, isObject_selfDescription hgiven, hversion, objectAt, hcapabilities]

theorem designatedHere_declareSelf (hmodern : isModernVersion session.protocolVersion = true)
    (hrequest : RequestFor message method) :
    designatedHere options method (paramsOf (session.declareSelf message)) =
      designatedHere options method (paramsOf message) := by
  unfold designatedHere
  rw [stringAt_declareSelf hmodern hrequest]

/-- A request is accepted when its method has a name and every header the server looks at is admitted. -/
theorem accepts_iff (hmodern : isModernVersion session.protocolVersion = true)
    (hrequest : RequestFor message method) (headers : OrdMap Bytes Bytes) :
    Accepts session options message headers ↔ method ≠ [] ∧
      ∀ name meaning, (name, meaning) ∈ meanings session.protocolVersion method (paramsOf message)
          (designatedHere options method (paramsOf message)) →
        meaning.Admits options.stod (headers.find? (lowered name)) := by
  have hdeclared := requestFor_declareSelf hmodern hrequest
  obtain ⟨hbody, hheader, hcapabilities, hmirrored⟩ :=
    readModernContext_declareSelf hmodern hrequest (onHeaders headers)
  have hversion : session.protocolVersion ≠ [] := by
    intro h
    rw [h] at hmodern
    exact absurd hmodern (by decide)
  have hkept {name : Bytes} (hname : isMirrored name = true) :
      (onHeaders headers).mirroredHeaders.find? name = headers.find? name := by
    rw [onHeaders, OrdMap.find?_filter]
    cases headers.find? name with
    | none => rfl
    | some header => exact Option.filter_some_pos hname
  have hmethodKept := hkept (show isMirrored kMcpMethod = true by decide)
  have hnameKept := hkept (show isMirrored kMcpName = true by decide)
  unfold Accepts judge
  rw [hdeclared.method, Option.getD_some,
    validateModernRequest_eq_ok_iff options _ hdeclared.id hdeclared.idGiven, hbody, hheader, hmirrored,
    hmethodKept, validateName_eq_ok_iff, named_declareSelf hmodern hrequest, hmirrored, hnameKept,
    validateMirroredParams, validateParams_eq_ok_iff, hmirrored, designatedHere_declareSelf hmodern hrequest,
    argumentsOf_declareSelf hmodern hrequest]
  simp only [validateParam_eq_ok_iff, hkept (isMirrored_paramHeader _)]
  rw [forall_meanings_iff]
  have hexactly : (headers.find? kMcpProtocolVersion).getD [] = session.protocolVersion ↔
      headers.find? kMcpProtocolVersion = some session.protocolVersion := by
    cases headers.find? kMcpProtocolVersion with
    | none => simp [hversion.symm]
    | some header => simp
  constructor
  · intro h
    obtain ⟨-, hheaderVersion, -, hmethod, hmethodHeader, hparams, hname⟩ := h
    exact ⟨hmethod, hexactly.mp hheaderVersion, hmethodHeader, hname, hparams⟩
  · intro h
    obtain ⟨hmethod, hheaderVersion, hmethodHeader, hname, hparams⟩ := h
    exact ⟨hversion, hexactly.mpr hheaderVersion, hcapabilities, hmethod, hmethodHeader, hparams, hname⟩

/-! ### Agreement -/

/-- The server looks at what the client was told of the tool, unless the tool has no name. -/
theorem designatedHere_eq
    (hknown : method = kMethodToolsCall → ∀ tool, (paramsOf message).stringAt kName = some tool →
      KnownAlike session options tool) :
    designatedHere options method (paramsOf message) =
      if (paramsOf message).stringAt kName = some [] then []
      else session.designatedFor method (paramsOf message) := by
  unfold designatedHere designatedFor
  by_cases hmethod : method = kMethodToolsCall
  · cases hname : (paramsOf message).stringAt kName with
    | none => cases options.designatedParams <;> simp [hmethod]
    | some tool =>
        have halike := (hknown hmethod tool hname).alike
        cases hoptions : options.designatedParams with
        | none =>
            rw [hoptions] at halike
            simp [hmethod, ← halike]
        | some paramsForTool =>
            rw [hoptions] at halike
            simp [hmethod, ← halike]
  · cases options.designatedParams <;> simp [hmethod]

theorem designatedHere_of_toolGiven
    (hknown : method = kMethodToolsCall → ∀ tool, (paramsOf message).stringAt kName = some tool →
      KnownAlike session options tool)
    (htool : session.designatedFor method (paramsOf message) ≠ [] → (paramsOf message).stringAt kName ≠ some []) :
    designatedHere options method (paramsOf message) = session.designatedFor method (paramsOf message) := by
  rw [designatedHere_eq hknown]
  split_ifs with hname
  · by_contra hsome
    exact htool (Ne.symm hsome) hname
  · rfl

theorem nodup_designatedFor
    (hknown : method = kMethodToolsCall → ∀ tool, (paramsOf message).stringAt kName = some tool →
      KnownAlike session options tool) :
    ((session.designatedFor method (paramsOf message)).map fun param => lowered param.headerName).Nodup := by
  unfold designatedFor
  by_cases hmethod : method = kMethodToolsCall
  · rw [if_neg (not_not.mpr hmethod)]
    cases hname : (paramsOf message).stringAt kName with
    | none => exact List.nodup_nil
    | some tool =>
        simp only
        cases hfound : session.designations.find? tool with
        | none => exact List.nodup_nil
        | some params =>
            obtain ⟨definition, -, hserved⟩ := (hknown hmethod tool hname).served params hfound
            exact DesignatedParams.nodup_designatedParams hserved
  · rw [if_pos hmethod]
    exact List.nodup_nil

/-- A header the server does not look at makes no difference. -/
theorem accepts_of_apart (hmodern : isModernVersion session.protocolVersion = true)
    (hrequest : RequestFor message method) {headers headers' : OrdMap Bytes Bytes}
    (haccepts : Accepts session options message headers)
    (hsame : ∀ name meaning, (name, meaning) ∈ meanings session.protocolVersion method (paramsOf message)
        (designatedHere options method (paramsOf message)) →
      headers'.find? (lowered name) = headers.find? (lowered name)) :
    Accepts session options message headers' := by
  rw [accepts_iff hmodern hrequest] at haccepts ⊢
  refine ⟨haccepts.1, ?_⟩
  intro name meaning hmeaning
  rw [hsame name meaning hmeaning]
  exact haccepts.2 name meaning hmeaning

theorem safelyMirrored_iff (params : JsonValue) :
    SafelyMirrored session method params ↔ method ≠ [] ∧
      (session.designatedFor method params ≠ [] → params.stringAt kName ≠ some []) ∧
      ∀ name meaning, (name, meaning) ∈
        meanings session.protocolVersion method params (session.designatedFor method params) → meaning.Mirrors := by
  have hargument (param : DesignatedParam) :
      (argumentMeaning params param).2.Mirrors ↔
        ∀ value, valueAtPath (argumentsOf params) param.path = some value → Mirrorable value := by
    unfold argumentMeaning
    cases valueAtPath (argumentsOf params) param.path with
    | none => simp [Meaning.ofArgument, Meaning.Mirrors]
    | some value => simp [Meaning.ofArgument, Meaning.Mirrors]
  have hall := @forall_meanings_iff session.protocolVersion method params (session.designatedFor method params)
    fun _ meaning => meaning.Mirrors
  rw [hall]
  simp only [hargument]
  constructor
  · intro h
    exact ⟨h.methodGiven, h.toolGiven, trivial, trivial, h.named, h.arguments⟩
  · intro h
    obtain ⟨hmethod, htool, -, -, hnamed, harguments⟩ := h
    exact ⟨hmethod, htool, hnamed, harguments⟩

/-- No header of a request that designates nothing has the name of an argument. -/
theorem lowered_ne_paramHeader {version method : Bytes} {params : JsonValue} (param : DesignatedParam) :
    ∀ name meaning, (name, meaning) ∈ meanings version method params [] →
      lowered name ≠ lowered (paramHeader param) := by
  have hfixed : ∀ name ∈ fixedNames, lowered name ≠ lowered (paramHeader param) := by
    intro name hname h
    apply lowered_fixedNames.2 name hname
    rw [h, lowered_paramHeader]
    exact List.take_left' rfl
  rw [forall_meanings_iff]
  exact ⟨hfixed _ (by decide), hfixed _ (by decide), fun _ => hfixed _ (by decide), List.forall_mem_nil _⟩

/-- The server does not look at the arguments of a tool without a name, so any header passes for them. -/
theorem toolGiven_of_mirrorsRight (hmodern : isModernVersion session.protocolVersion = true)
    (hrequest : RequestFor message method)
    (hknown : method = kMethodToolsCall → ∀ tool, (paramsOf message).stringAt kName = some tool →
      KnownAlike session options tool)
    (h : MirrorsRight session options message method) :
    session.designatedFor method (paramsOf message) ≠ [] → (paramsOf message).stringAt kName ≠ some [] := by
  intro hsome hname
  obtain ⟨param, hparam⟩ := List.exists_mem_of_ne_nil _ hsome
  have hhere : designatedHere options method (paramsOf message) = [] := by
    rw [designatedHere_eq hknown, if_pos hname]
  have hmeaning : argumentMeaning (paramsOf message) param ∈ mirrored session message method := by
    simp [mirrored, meanings, List.mem_map_of_mem hparam]
  have hapart := @lowered_ne_paramHeader session.protocolVersion method (paramsOf message) param
  by_cases habsent : (argumentMeaning (paramsOf message) param).2 = .absent
  · refine h.replaced _ _ hmeaning [] ?_ ?_
    · change ¬(argumentMeaning (paramsOf message) param).2.Says []
      rw [habsent]
      exact id
    · apply accepts_of_apart hmodern hrequest h.accepted
      intro name meaning hother
      rw [hhere] at hother
      rw [OrdMap.find?_insert, if_neg (hapart name meaning hother)]
  · apply h.removed _ _ hmeaning habsent
    apply accepts_of_apart hmodern hrequest h.accepted
    intro name meaning hother
    rw [hhere] at hother
    rw [OrdMap.find?_erase, if_neg (hapart name meaning hother)]

/-- The client mirrors every request right when, and only when, the method and the tool have names and
what goes into headers mirrors. -/
theorem mirrorsRight_iff (hmodern : isModernVersion session.protocolVersion = true)
    (hrequest : RequestFor message method)
    (hknown : method = kMethodToolsCall → ∀ tool, (paramsOf message).stringAt kName = some tool →
      KnownAlike session options tool) :
    MirrorsRight session options message method ↔ SafelyMirrored session method (paramsOf message) := by
  have hnodup := nodup_designatedFor hknown
  have hsent {name : Bytes} {meaning : Meaning} := @find?_sentHeaders session message method hmodern hrequest
    hnodup name meaning
  have hlowered := List.inj_on_of_nodup_map
    (List.nodup_cons.mp (nodup_lowered hnodup session.protocolVersion method (paramsOf message))).2
  rw [safelyMirrored_iff]
  constructor
  · intro h
    obtain ⟨hmethod, hadmits⟩ := (accepts_iff hmodern hrequest _).mp h.accepted
    have htool := toolGiven_of_mirrorsRight hmodern hrequest hknown h
    have hhere := designatedHere_of_toolGiven hknown htool
    refine ⟨hmethod, htool, ?_⟩
    intro name meaning hmeaning
    by_contra hmirrors
    rw [hhere] at hadmits
    have hadmitted := hadmits name meaning hmeaning
    rw [hsent hmeaning] at hadmitted
    obtain ⟨header, hheader, hsays⟩ := Meaning.exists_not_says options.stod hmirrors hadmitted
    refine h.replaced name meaning hmeaning header hsays ?_
    apply accepts_of_apart hmodern hrequest h.accepted
    intro other _ _
    rw [OrdMap.find?_insert]
    split_ifs with hother
    · rw [hother, hsent hmeaning, hheader]
    · rfl
  · intro h
    obtain ⟨hmethod, htool, hmirrors⟩ := h
    have hhere := designatedHere_of_toolGiven hknown htool
    constructor
    · rw [accepts_iff hmodern hrequest, hhere]
      refine ⟨hmethod, ?_⟩
      intro name meaning hmeaning
      rw [hsent hmeaning]
      exact Meaning.admits_sent options.stod (hmirrors name meaning hmeaning)
    · intro name meaning hmeaning header hsays haccepts
      rw [accepts_iff hmodern hrequest, hhere] at haccepts
      have hadmitted := haccepts.2 name meaning hmeaning
      rw [OrdMap.find?_insert_self] at hadmitted
      exact hsays (Meaning.says_of_admits options.stod (hmirrors name meaning hmeaning) hadmitted)
    · intro name meaning hmeaning habsent haccepts
      rw [accepts_iff hmodern hrequest, hhere] at haccepts
      have hadmitted := haccepts.2 name meaning hmeaning
      rw [OrdMap.find?_erase_self] at hadmitted
      exact habsent (Meaning.eq_absent_of_admits_none options.stod hadmitted)

/-! ### A tool that counts -/

def countParam : DesignatedParam := ⟨ascii "Count", [ascii "count"]⟩

/-- An integer that travels in a header too. -/
def countProperty : JsonValue :=
  .object [(ascii "type", .string (ascii "integer")), (ascii "x-mcp-header", .string (ascii "Count"))]

def countSchema : JsonValue := .object [(ascii "properties", .object [(ascii "count", countProperty)])]

def countTool : Tool := ⟨ascii "count", some countSchema, none⟩

def countCall (count : JsonValue) : JsonValue :=
  .object [(kId, .integer 1), (kMethod, .string kMethodToolsCall), (kParams, .object
    [(kArguments, .object [(ascii "count", count)]), (kName, .string (ascii "count"))])]

def countSession : StreamableHttpClientSession where
  sessionId := []
  protocolVersion := ascii "2026-07-28"
  clientInfo := .null
  clientCapabilities := .null
  designations := OrdMap.empty.insert (ascii "count") [countParam]

def countOptions : ModernOptions where
  designatedParams := some fun tool => if tool = ascii "count" then some [countParam] else none
  stod := fun _ => none

/-- 42.0 -/
def fortyTwo : JsonValue := .float 0x4045000000000000

theorem designatedParams_countTool : DesignatedParams.designatedParams countTool = .ok [countParam] := by
  have hdesignate : DesignatedParams.designate (ascii "count") (ascii "count") countProperty [ascii "count"]
      ⟨[], []⟩ = .ok ⟨[ascii "count"], [countParam]⟩ := rfl
  have hchildless (properties) : countProperty.get (ascii "properties") ≠ .object properties := fun h => by cases h
  exact DesignatedParams.designatedParams_of_one rfl rfl rfl rfl rfl rfl hchildless hdesignate

theorem knownAlike_count (count : JsonValue) : ∀ tool, (paramsOf (countCall count)).stringAt kName = some tool →
    KnownAlike countSession countOptions tool := by
  intro tool htool
  obtain rfl : ascii "count" = tool := Option.some.inj htool
  constructor
  · rfl
  · intro params hparams
    obtain rfl : [countParam] = params := Option.some.inj hparams
    exact ⟨countTool, rfl, designatedParams_countTool⟩

theorem requestFor_countCall (count : JsonValue) : RequestFor (countCall count) kMethodToolsCall :=
  ⟨rfl, rfl, rfl, rfl⟩

/-- Counting to an integer that is written as one. -/
theorem mirrorsRight_countCall :
    isModernVersion countSession.protocolVersion = true ∧
      RequestFor (countCall (.integer 42)) kMethodToolsCall ∧
      (∀ tool, (paramsOf (countCall (.integer 42))).stringAt kName = some tool →
        KnownAlike countSession countOptions tool) ∧
      MirrorsRight countSession countOptions (countCall (.integer 42)) kMethodToolsCall := by
  have hmodern : isModernVersion countSession.protocolVersion = true := by decide
  have hrequest := requestFor_countCall (.integer 42)
  have hknown := knownAlike_count (.integer 42)
  have hsafe : SafelyMirrored countSession kMethodToolsCall (paramsOf (countCall (.integer 42))) := by
    refine ⟨by decide, by decide, fun _ => trivial, ?_⟩
    intro param hparam value hvalue
    obtain rfl : param = countParam := List.mem_singleton.mp hparam
    obtain rfl : JsonValue.integer 42 = value := Option.some.inj hvalue
    trivial
  exact ⟨hmodern, hrequest, hknown, (mirrorsRight_iff hmodern hrequest fun _ => hknown).mpr hsafe⟩

/-- 42.0 is the whole number 42, which its schema asks for; the client has no header for it and the server
refuses the call without one. -/
theorem not_always_mirrorsRight :
    isModernVersion countSession.protocolVersion = true ∧
      HeaderSentinel.isHeaderSafe countSession.protocolVersion = true ∧
      HeaderSentinel.isHeaderSafe kMethodToolsCall = true ∧
      RequestFor (countCall fortyTwo) kMethodToolsCall ∧
      (∀ tool, (paramsOf (countCall fortyTwo)).stringAt kName = some tool →
        KnownAlike countSession countOptions tool) ∧
      countTool.inputSchema = some countSchema ∧
      countProperty.stringAt (ascii "type") = some (ascii "integer") ∧
      valueAtPath (argumentsOf (paramsOf (countCall fortyTwo))) countParam.path = some (.float 0x4045000000000000) ∧
      wholeNumber 0x4045000000000000 = some 42 ∧
      judge countOptions (sentHeaders countSession (countCall fortyTwo))
          (countSession.declareSelf (countCall fortyTwo)) =
        refuse (ascii "Mcp-Param-Count is missing for an argument this call carries") ∧
      ¬MirrorsRight countSession countOptions (countCall fortyTwo) kMethodToolsCall := by
  have hrefused : judge countOptions (sentHeaders countSession (countCall fortyTwo))
      (countSession.declareSelf (countCall fortyTwo)) =
        refuse (ascii "Mcp-Param-Count is missing for an argument this call carries") := rfl
  refine ⟨by decide, by decide, by decide, requestFor_countCall _, knownAlike_count _, rfl, rfl, rfl, by decide,
    hrefused, ?_⟩
  intro h
  have haccepted := h.accepted
  rw [Accepts, hrefused] at haccepted
  cases haccepted

end MirrorAgreement

end GopherMcp
