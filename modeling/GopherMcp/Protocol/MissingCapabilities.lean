import GopherMcp.Protocol.InputRequests

/-!
# Which capabilities a client lacks

A server only asks a client for what the client said it can do. A request that needs more is refused, and the
refusal carries a capabilities object with what was missing.
-/

namespace GopherMcp

def kMethodSampling : Bytes := ascii "sampling/createMessage"
def kMethodElicitation : Bytes := ascii "elicitation/create"
def kMethodListRoots : Bytes := ascii "roots/list"

def kSampling : Bytes := ascii "sampling"
def kElicitation : Bytes := ascii "elicitation"
def kRoots : Bytes := ascii "roots"

def capabilityFor (method : Bytes) : Bytes :=
  if method = kMethodSampling then kSampling
  else if method = kMethodElicitation then kElicitation
  else if method = kMethodListRoots then kRoots
  else []

/-- What is there under the name may still say no. -/
def declares (capabilities : JsonValue) (name : Bytes) : Bool :=
  if !capabilities.isObject || !capabilities.contains name then false
  else
    match capabilities.get name with
    | .object _ => true
    | .boolean value => value
    | _ => false

/-- What the client declared. Unreadable is read as declaring nothing. -/
def capabilitiesIn (parse : Bytes → Option JsonValue) (declared : Bytes) : JsonValue :=
  if declared.isEmpty then .emptyObject
  else
    match parse declared with
    | some parsed => if parsed.isObject then parsed else .emptyObject
    | none => .emptyObject

/-- The user is asked to go to a URL. -/
def asksForUrl (request : InputRequest) : Bool :=
  capabilityFor request.method == kElicitation && request.params.isObject &&
    request.params.contains (ascii "mode") && request.params.stringAt (ascii "mode") == some (ascii "url")

def declaresUrl (capabilities : JsonValue) : Bool :=
  declares capabilities kElicitation && (capabilities.get kElicitation).isObject &&
    declares (capabilities.get kElicitation) (ascii "url")

def kElicitationUrl : Bytes := ascii "elicitation.url"

/-- What is missing for one request. -/
def missingFor (capabilities : JsonValue) (request : InputRequest) : Option Bytes :=
  let needed := capabilityFor request.method
  if needed.isEmpty then some (ascii "(" ++ request.method ++ ascii ")")
  else if asksForUrl request then
    if declaresUrl capabilities then none else some kElicitationUrl
  else if declares capabilities needed then none
  else some needed

def nameOnce (missing : List Bytes) : Option Bytes → List Bytes
  | some name => if missing.contains name then missing else missing ++ [name]
  | none => missing

def capabilitiesMissingFor (parse : Bytes → Option JsonValue) (requests : InputRequests) (declared : Bytes) :
    List Bytes :=
  requests.entries.foldl (fun missing entry => nameOnce missing (missingFor (capabilitiesIn parse declared) entry.2)) []

def kRequiredCapabilitiesField : Bytes := ascii "requiredCapabilities"

/-- What the client would have had to declare. -/
def requiredCapabilities (missing : List Bytes) : JsonValue :=
  missing.foldl (fun required capability => required.set capability .emptyObject) .emptyObject

def requiredCapabilitiesData (missing : List Bytes) : JsonValue :=
  JsonValue.emptyObject.set kRequiredCapabilitiesField (requiredCapabilities missing)

/-! ### Declaring more -/

mutual

/-- `declared` with the members of `required`, those of members that both have one by one. -/
def JsonValue.withMembers (declared : JsonValue) : JsonValue → JsonValue
  | .object fields => JsonValue.withFields (if declared.isObject then declared else .emptyObject) fields
  | required => required

def JsonValue.withFields (declared : JsonValue) : List (Bytes × JsonValue) → JsonValue
  | [] => declared
  | (key, required) :: rest => JsonValue.withFields (declared.set key ((declared.get key).withMembers required)) rest

end

namespace JsonValue

theorem isObject_withFields {declared : JsonValue} (h : declared.isObject) (fields : List (Bytes × JsonValue)) :
    (declared.withFields fields).isObject := by
  induction fields generalizing declared with
  | nil => exact h
  | cons field rest ih => exact ih (isObject_set h field.1 _)

theorem get?_withFields_of_not_mem {declared : JsonValue} (h : declared.isObject) {key : Bytes}
    {fields : List (Bytes × JsonValue)} (hkey : key ∉ fields.map Prod.fst) :
    (declared.withFields fields).get? key = declared.get? key := by
  induction fields generalizing declared with
  | nil => rfl
  | cons field rest ih =>
      rw [List.map_cons, List.mem_cons, not_or] at hkey
      rw [withFields, ih (isObject_set h field.1 _) hkey.2, get?_set h, if_neg hkey.1]

theorem get?_withFields {declared required : JsonValue} (h : declared.isObject) {key : Bytes}
    {fields : List (Bytes × JsonValue)} (hnodup : (fields.map Prod.fst).Nodup) (hfield : (key, required) ∈ fields) :
    (declared.withFields fields).get? key = some ((declared.get key).withMembers required) := by
  induction fields generalizing declared with
  | nil => exact absurd hfield List.not_mem_nil
  | cons field rest ih =>
      obtain ⟨hfresh, hrest⟩ := List.nodup_cons.mp hnodup
      rw [withFields]
      cases List.mem_cons.mp hfield with
      | inl hfirst =>
          subst hfirst
          rw [get?_withFields_of_not_mem (isObject_set h key _) hfresh, get?_set h, if_pos rfl]
      | inr hlater =>
          have hother : key ≠ field.1 := by
            rintro rfl
            exact hfresh (List.mem_map.mpr ⟨_, hlater, rfl⟩)
          rw [ih (isObject_set h field.1 _) hrest hlater, get_eq, get?_set h, if_neg hother, ← get_eq]

end JsonValue

/-! ### What is reported -/

theorem mem_nameOnce {missing : List Bytes} {lack : Option Bytes} {name : Bytes} :
    name ∈ nameOnce missing lack ↔ name ∈ missing ∨ lack = some name := by
  cases lack with
  | none => simp [nameOnce]
  | some other =>
      rw [nameOnce, Option.some.injEq]
      split_ifs with hknown
      · have hmem : other ∈ missing := List.contains_iff_mem.mp hknown
        constructor
        · exact Or.inl
        · rintro (hname | rfl)
          · exact hname
          · exact hmem
      · rw [List.mem_append, List.mem_singleton, eq_comm]

/-- What is reported missing is missing for some request. -/
theorem mem_capabilitiesMissingFor {parse : Bytes → Option JsonValue} {requests : InputRequests}
    {declared name : Bytes} :
    name ∈ capabilitiesMissingFor parse requests declared ↔
      ∃ entry ∈ requests.entries, missingFor (capabilitiesIn parse declared) entry.2 = some name := by
  have hfold (entries : List (Bytes × InputRequest)) (missing : List Bytes) :
      name ∈ entries.foldl
          (fun missing entry => nameOnce missing (missingFor (capabilitiesIn parse declared) entry.2)) missing ↔
        name ∈ missing ∨ ∃ entry ∈ entries, missingFor (capabilitiesIn parse declared) entry.2 = some name := by
    induction entries generalizing missing with
    | nil => simp
    | cons entry rest ih =>
        rw [List.foldl_cons, ih, mem_nameOnce, or_assoc]
        simp only [List.mem_cons, exists_eq_or_imp]
  rw [capabilitiesMissingFor, hfold]
  simp

theorem capabilitiesMissingFor_eq_nil_iff {parse : Bytes → Option JsonValue} {requests : InputRequests}
    {declared : Bytes} :
    capabilitiesMissingFor parse requests declared = [] ↔
      ∀ entry ∈ requests.entries, missingFor (capabilitiesIn parse declared) entry.2 = none := by
  rw [List.eq_nil_iff_forall_not_mem]
  simp only [mem_capabilitiesMissingFor, Option.eq_none_iff_forall_ne_some]
  constructor
  · intro h entry hentry name hmissing
    exact h name ⟨entry, hentry, hmissing⟩
  · rintro h name ⟨entry, hentry, hmissing⟩
    exact h entry hentry name hmissing

theorem isObject_capabilitiesIn (parse : Bytes → Option JsonValue) (declared : Bytes) :
    (capabilitiesIn parse declared).isObject := by
  rw [capabilitiesIn]
  split_ifs
  · rfl
  · split
    · split_ifs with hobject
      · exact hobject
      · rfl
    · rfl

theorem declares_of_get? {left right : JsonValue} {name : Bytes} (hleft : left.isObject) (hright : right.isObject)
    (h : left.get? name = right.get? name) : declares left name = declares right name := by
  rw [declares, declares, hleft, hright, JsonValue.contains_eq, JsonValue.contains_eq, JsonValue.get_eq,
    JsonValue.get_eq, h]

theorem declares_of_isObject {capabilities held : JsonValue} {name : Bytes} (h : capabilities.isObject)
    (hheld : capabilities.get? name = some held) (hobject : held.isObject) : declares capabilities name = true := by
  rw [declares, h, JsonValue.contains_eq, JsonValue.get_eq, hheld]
  cases held with
  | object fields => rfl
  | _ => exact absurd hobject Bool.false_ne_true

theorem declaresUrl_of_get? {left right : JsonValue} (hleft : left.isObject) (hright : right.isObject)
    (h : left.get? kElicitation = right.get? kElicitation) : declaresUrl left = declaresUrl right := by
  rw [declaresUrl, declaresUrl, declares_of_get? hleft hright h, JsonValue.get_eq, JsonValue.get_eq, h]

/-! ### What would suffice -/

theorem requiredCapabilities_eq (missing : List Bytes) :
    requiredCapabilities missing = JsonValue.ofFields (missing.map fun name => (name, some .emptyObject)) := by
  rw [JsonValue.ofFields, List.foldl_map]
  rfl

theorem get?_requiredCapabilities (missing : List Bytes) (name : Bytes) :
    (requiredCapabilities missing).get? name = if name ∈ missing then some .emptyObject else none := by
  rw [requiredCapabilities_eq]
  split_ifs with hmem
  · apply JsonValue.get?_ofFields_of_agree
    · intro other hother
      obtain ⟨_, -, heq⟩ := List.mem_map.mp hother
      exact (congrArg Prod.snd heq).symm
    · exact Or.inr (List.mem_map.mpr ⟨name, hmem, rfl⟩)
  · apply JsonValue.get?_ofFields_of_agree
    · intro other hother
      obtain ⟨held, hheld, heq⟩ := List.mem_map.mp hother
      have hname : held = name := congrArg Prod.fst heq
      exact absurd (hname ▸ hheld) hmem
    · exact Or.inl rfl

/-- A client that declares what was missing too has an object for each of it. -/
theorem get?_withMembers_required {capabilities : JsonValue} (h : capabilities.isObject) (missing : List Bytes)
    (name : Bytes) :
    (capabilities.withMembers (requiredCapabilities missing)).get? name =
      if name ∈ missing then
        some (if (capabilities.get name).isObject then capabilities.get name else .emptyObject)
      else capabilities.get? name := by
  have hget := get?_requiredCapabilities missing name
  rw [requiredCapabilities_eq] at hget ⊢
  obtain ⟨fields, hfields, hsorted⟩ :=
    JsonValue.exists_ofFields_eq (missing.map fun name => (name, some JsonValue.emptyObject))
  rw [hfields] at hget ⊢
  have hnodup : (fields.map Prod.fst).Nodup := List.pairwise_map.mpr (hsorted.imp fun hlt => ne_of_lt hlt)
  rw [JsonValue.withMembers, if_pos h]
  split_ifs at hget ⊢ with hmem hobject
  · rw [JsonValue.get?_withFields h hnodup (OrdMap.mem_of_findEntry hget), JsonValue.emptyObject,
      JsonValue.withMembers, if_pos hobject]
    rfl
  · rw [JsonValue.get?_withFields h hnodup (OrdMap.mem_of_findEntry hget), JsonValue.emptyObject,
      JsonValue.withMembers, if_neg hobject]
    rfl
  · exact JsonValue.get?_withFields_of_not_mem h ((OrdMap.findEntry_eq_none_iff).mp hget)

def kInputMethods : List Bytes := [kMethodSampling, kMethodElicitation, kMethodListRoots]

theorem capabilityFor_ne_nil {method : Bytes} (h : method ∈ kInputMethods) : capabilityFor method ≠ [] := by
  rw [kInputMethods, List.mem_cons, List.mem_cons, List.mem_singleton] at h
  rcases h with rfl | rfl | rfl <;> decide

theorem missingFor_eq {capabilities : JsonValue} {request : InputRequest} (h : request.method ∈ kInputMethods) :
    missingFor capabilities request =
      if asksForUrl request then if declaresUrl capabilities then none else some kElicitationUrl
      else if declares capabilities (capabilityFor request.method) then none
      else some (capabilityFor request.method) := by
  rw [missingFor, if_neg]
  exact fun hempty => capabilityFor_ne_nil h (List.isEmpty_iff.mp hempty)

/-- The name of what a request needs. -/
def neededFor (request : InputRequest) : Bytes :=
  if asksForUrl request then kElicitationUrl else capabilityFor request.method

theorem eq_neededFor {capabilities : JsonValue} {request : InputRequest} {name : Bytes}
    (h : request.method ∈ kInputMethods) (hmissing : missingFor capabilities request = some name) :
    name = neededFor request := by
  rw [missingFor_eq h] at hmissing
  rw [neededFor]
  split_ifs at hmissing ⊢ <;> exact (Option.some.inj hmissing).symm

/-- What every URL needs: it is looked for inside what is declared for elicitation. -/
def UrlsDeclared (requests : InputRequests) (capabilities : JsonValue) : Prop :=
  ∀ entry ∈ requests.entries, asksForUrl entry.2 → declaresUrl capabilities

section Refusal

variable {parse : Bytes → Option JsonValue} {requests : InputRequests} {declared amended : Bytes}

/-- `amended` declares what `declared` does and just what a refusal for `missing` says would have had to be. -/
def Amends (parse : Bytes → Option JsonValue) (declared amended : Bytes) (missing : List Bytes) : Prop :=
  capabilitiesIn parse amended =
    (capabilitiesIn parse declared).withMembers ((requiredCapabilitiesData missing).get kRequiredCapabilitiesField)

/-- A refusal says what would suffice, and nothing that is not needed. -/
def RefusalSuffices (parse : Bytes → Option JsonValue) (requests : InputRequests) (declared amended : Bytes) : Prop :=
  (capabilitiesMissingFor parse requests declared ≠ [] → capabilitiesMissingFor parse requests amended = []) ∧
    ∀ name ∈ capabilitiesMissingFor parse requests declared, ∃ entry ∈ requests.entries, neededFor entry.2 = name

theorem isObject_withMembers_required {capabilities : JsonValue} (h : capabilities.isObject) (missing : List Bytes) :
    (capabilities.withMembers (requiredCapabilities missing)).isObject := by
  obtain ⟨fields, hfields, -⟩ :=
    JsonValue.exists_ofFields_eq (missing.map fun name => (name, some JsonValue.emptyObject))
  rw [requiredCapabilities_eq, hfields, JsonValue.withMembers, if_pos h]
  exact JsonValue.isObject_withFields h fields

/-- A capability named in the refusal is declared once it is added. -/
theorem declares_of_missing {capabilities : JsonValue} (h : capabilities.isObject) {missing : List Bytes}
    {name : Bytes} (hname : declares capabilities name ∨ name ∈ missing) :
    declares (capabilities.withMembers (requiredCapabilities missing)) name = true := by
  have hget := get?_withMembers_required h missing name
  have hobject := isObject_withMembers_required h missing
  by_cases hmem : name ∈ missing
  · rw [if_pos hmem] at hget
    refine declares_of_isObject hobject hget ?_
    split_ifs with hheld
    · exact hheld
    · rfl
  · rw [if_neg hmem] at hget
    rw [declares_of_get? hobject h hget]
    exact hname.resolve_right hmem

/-- Adding the name of elicitation, where it was missing, declares no URL. -/
theorem declaresUrl_of_missing {capabilities : JsonValue} (h : capabilities.isObject) {missing : List Bytes}
    (hmissing : kElicitation ∈ missing → declares capabilities kElicitation = false) :
    declaresUrl (capabilities.withMembers (requiredCapabilities missing)) = declaresUrl capabilities := by
  have hget := get?_withMembers_required h missing kElicitation
  have hobject := isObject_withMembers_required h missing
  by_cases hmem : kElicitation ∈ missing
  · have hnot : (capabilities.get kElicitation).isObject = false := by
      by_contra hheld
      have hdeclares : declares capabilities kElicitation = true := by
        cases hfind : capabilities.get? kElicitation with
        | none =>
            rw [JsonValue.get_eq, hfind] at hheld
            exact absurd rfl hheld
        | some held =>
            rw [JsonValue.get_eq, hfind, Bool.not_eq_false] at hheld
            exact declares_of_isObject h hfind hheld
      rw [hmissing hmem] at hdeclares
      exact Bool.false_ne_true hdeclares
    rw [if_pos hmem, hnot, if_neg Bool.false_ne_true] at hget
    rw [declaresUrl, declaresUrl, hnot, JsonValue.get_eq, hget, Bool.and_false, Bool.false_and]
    exact Bool.and_false _
  · rw [if_neg hmem] at hget
    exact declaresUrl_of_get? hobject h hget

/-- What is still missing once a client declares what the refusal named: the URLs. -/
theorem missingFor_amended (hmethods : ∀ entry ∈ requests.entries, entry.2.method ∈ kInputMethods)
    (hamends : Amends parse declared amended (capabilitiesMissingFor parse requests declared))
    {entry : Bytes × InputRequest} (hentry : entry ∈ requests.entries) :
    missingFor (capabilitiesIn parse amended) entry.2 =
      if asksForUrl entry.2 ∧ ¬declaresUrl (capabilitiesIn parse declared) then some kElicitationUrl else none := by
  have hobject := isObject_capabilitiesIn parse declared
  have hamended : capabilitiesIn parse amended = (capabilitiesIn parse declared).withMembers
      (requiredCapabilities (capabilitiesMissingFor parse requests declared)) := hamends
  rw [missingFor_eq (hmethods entry hentry), hamended]
  by_cases hurl : asksForUrl entry.2
  · have hmissing : kElicitation ∈ capabilitiesMissingFor parse requests declared →
        declares (capabilitiesIn parse declared) kElicitation = false := by
      intro hmem
      obtain ⟨other, hother, hlack⟩ := mem_capabilitiesMissingFor.mp hmem
      have hneeded : kElicitation = neededFor other.2 := eq_neededFor (hmethods other hother) hlack
      rw [missingFor_eq (hmethods other hother)] at hlack
      split_ifs at hlack with hotherUrl hdeclaresUrl hdeclares
      · exact absurd hlack (by decide)
      · rw [neededFor, if_neg hotherUrl] at hneeded
        rw [hneeded]
        exact Bool.eq_false_of_not_eq_true hdeclares
    rw [if_pos hurl, declaresUrl_of_missing hobject hmissing]
    by_cases hdeclares : declaresUrl (capabilitiesIn parse declared)
    · rw [if_pos hdeclares, if_neg (fun h => h.2 hdeclares)]
    · rw [if_neg hdeclares, if_pos ⟨hurl, hdeclares⟩]
  · have hdeclares : declares ((capabilitiesIn parse declared).withMembers
        (requiredCapabilities (capabilitiesMissingFor parse requests declared)))
        (capabilityFor entry.2.method) = true := by
      apply declares_of_missing hobject
      by_cases hheld : declares (capabilitiesIn parse declared) (capabilityFor entry.2.method)
      · exact Or.inl hheld
      · refine Or.inr (mem_capabilitiesMissingFor.mpr ⟨entry, hentry, ?_⟩)
        rw [missingFor_eq (hmethods entry hentry), if_neg hurl, if_neg hheld]
    rw [if_neg hurl, if_pos hdeclares, if_neg (fun h => hurl h.1)]

/-- **A refusal says what would suffice** unless a user is to be sent to a URL the client does not follow: what
that needs is named by a path and put into the refusal as one member. -/
theorem refusalSuffices_iff (hmethods : ∀ entry ∈ requests.entries, entry.2.method ∈ kInputMethods)
    (hamends : Amends parse declared amended (capabilitiesMissingFor parse requests declared)) :
    RefusalSuffices parse requests declared amended ↔ UrlsDeclared requests (capabilitiesIn parse declared) := by
  constructor
  · intro hsuffices entry hentry hurl
    by_contra hdeclares
    have hstill := missingFor_amended hmethods hamends hentry
    rw [if_pos ⟨hurl, hdeclares⟩] at hstill
    have hmissing : capabilitiesMissingFor parse requests declared ≠ [] := by
      intro hnone
      have hentryNone := capabilitiesMissingFor_eq_nil_iff.mp hnone entry hentry
      rw [missingFor_eq (hmethods entry hentry), if_pos hurl, if_neg hdeclares] at hentryNone
      exact absurd hentryNone (by simp)
    have hnone := capabilitiesMissingFor_eq_nil_iff.mp (hsuffices.1 hmissing) entry hentry
    rw [hstill] at hnone
    exact absurd hnone (by simp)
  · intro hurls
    constructor
    · intro _
      rw [capabilitiesMissingFor_eq_nil_iff]
      intro entry hentry
      rw [missingFor_amended hmethods hamends hentry, if_neg]
      exact fun h => h.2 (hurls entry hentry h.1)
    · intro name hname
      obtain ⟨entry, hentry, hlack⟩ := mem_capabilitiesMissingFor.mp hname
      exact ⟨entry, hentry, (eq_neededFor (hmethods entry hentry) hlack).symm⟩

end Refusal

/-! ### A form, and a URL -/

def formRequests : InputRequests :=
  OrdMap.empty.insert (ascii "form") ⟨kMethodElicitation, .emptyObject⟩

def kNothingDeclared : Bytes := ascii "\x7b\x7d"

def kFormsDeclared : Bytes := ascii "\x7b\"elicitation\":\x7b\x7d\x7d"

/-- How the JSON library reads what is declared before and after a form was refused. -/
def parseForms (text : Bytes) : Option JsonValue :=
  if text = kNothingDeclared then some .emptyObject
  else if text = kFormsDeclared then some (.object [(kElicitation, .emptyObject)])
  else none

theorem refusalSuffices_iff_form :
    RefusalSuffices parseForms formRequests kNothingDeclared kFormsDeclared ↔
      UrlsDeclared formRequests (capabilitiesIn parseForms kNothingDeclared) := by
  apply refusalSuffices_iff
  · intro entry hentry
    rw [List.mem_singleton.mp hentry]
    decide
  · rfl

def urlRequests : InputRequests :=
  OrdMap.empty.insert (ascii "sign_in") ⟨kMethodElicitation, .object [(ascii "mode", .string (ascii "url"))]⟩

def kUrlNamed : Bytes := ascii "\x7b\"elicitation.url\":\x7b\x7d\x7d"

def parseUrls (text : Bytes) : Option JsonValue :=
  if text = kNothingDeclared then some .emptyObject
  else if text = kUrlNamed then some (.object [(kElicitationUrl, .emptyObject)])
  else none

/-- A client that declared nothing is told of a member that is looked at nowhere. -/
theorem not_refusalSuffices_url :
    (∀ entry ∈ urlRequests.entries, entry.2.method ∈ kInputMethods) ∧
      Amends parseUrls kNothingDeclared kUrlNamed (capabilitiesMissingFor parseUrls urlRequests kNothingDeclared) ∧
      ¬RefusalSuffices parseUrls urlRequests kNothingDeclared kUrlNamed := by
  refine ⟨?_, rfl, ?_⟩
  · intro entry hentry
    rw [List.mem_singleton.mp hentry]
    decide
  · intro hsuffices
    have hmissing : capabilitiesMissingFor parseUrls urlRequests kNothingDeclared = [kElicitationUrl] := rfl
    have hstill : capabilitiesMissingFor parseUrls urlRequests kUrlNamed = [kElicitationUrl] := rfl
    have hnone := hsuffices.1 (by rw [hmissing]; exact List.cons_ne_nil _ _)
    rw [hstill] at hnone
    exact List.cons_ne_nil _ _ hnone

end GopherMcp
