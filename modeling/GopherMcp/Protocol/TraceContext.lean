import GopherMcp.Protocol.Subscriptions
import GopherMcp.Protocol.TraceFormats

/-!
# Trace context in `_meta`

A context is added beside what the application put in `_meta` itself. What it set wins where it is well
formed, its traceparent bringing its own tracestate; what is not well formed is replaced or taken out.
-/

namespace GopherMcp

namespace Trace

def kTraceParent : Bytes := ascii "traceparent"
def kTraceState : Bytes := ascii "tracestate"
def kBaggage : Bytes := ascii "baggage"

/-- Any of the three, each only when set. -/
structure TraceContext where
  traceparent : Option Bytes
  tracestate : Option Bytes
  baggage : Option Bytes

def TraceContext.isEmpty (context : TraceContext) : Bool :=
  context.traceparent.isNone && context.tracestate.isNone && context.baggage.isNone

/-- Each value in its format, and a tracestate only beside a traceparent. -/
def sanitized (context : TraceContext) : TraceContext :=
  let parent := context.traceparent.filter isValidTraceParent
  { traceparent := parent
    tracestate := if parent.isSome then context.tracestate.filter isValidTraceState else none
    baggage := context.baggage.filter isValidBaggage }

/-- What stands under the reserved keys, checked or not. -/
def found (given : JsonValue) : TraceContext where
  traceparent := given.stringAt kTraceParent
  tracestate := given.stringAt kTraceState
  baggage := given.stringAt kBaggage

/-- The `_meta` of params, where it is an object, and else an empty one. -/
def givenMeta (params : JsonValue) : JsonValue :=
  if params.isObject && params.contains kMeta && (params.get kMeta).isObject then params.get kMeta
  else .emptyObject

def setsAny (given : JsonValue) : Bool :=
  given.contains kTraceParent || given.contains kTraceState || given.contains kBaggage

def isReserved (key : Bytes) : Bool := key = kTraceParent || key = kTraceState || key = kBaggage

/-- The pair is taken from whichever side the traceparent is taken. -/
def sentOf (own ours : TraceContext) : TraceContext where
  traceparent := if own.traceparent.isSome then own.traceparent else ours.traceparent
  tracestate := if own.traceparent.isSome then own.tracestate else ours.tracestate
  baggage := if own.baggage.isSome then own.baggage else ours.baggage

def sentFields (sent : TraceContext) : List (Bytes × Option JsonValue) :=
  [(kTraceParent, sent.traceparent.map .string), (kTraceState, sent.tracestate.map .string),
    (kBaggage, sent.baggage.map .string)]

/-- The other members as they were given, then what is sent. -/
def metaFields (given : JsonValue) (sent : TraceContext) : List (Bytes × Option JsonValue) :=
  ((given.keys.filter fun key => !isReserved key).map fun key => (key, some (given.get key))) ++ sentFields sent

def withContext (params : JsonValue) (context : TraceContext) : JsonValue :=
  let given := givenMeta params
  let ours := sanitized context
  if ours.isEmpty && !setsAny given then params
  else
    let sent := sentOf (sanitized (found given)) ours
    (if params.isObject then params else .emptyObject).set kMeta (.ofFields (metaFields given sent))

/-! ### What is sent -/

variable {params given : JsonValue} {context own ours sent : TraceContext} {key : Bytes}

/-- Nothing of a context would be left out. -/
def Clean (context : TraceContext) : Prop := sanitized context = context

theorem clean_sanitized (context : TraceContext) : Clean (sanitized context) := by
  obtain ⟨parent, state, baggage⟩ := context
  simp only [Clean, sanitized, TraceContext.mk.injEq, Option.filter_filter, Bool.and_self, true_and, and_true]
  split_ifs <;> simp

theorem clean_sentOf (hown : Clean own) (hours : Clean ours) : Clean (sentOf own ours) := by
  obtain ⟨ownParent, ownState, ownBaggage⟩ := own
  obtain ⟨oursParent, oursState, oursBaggage⟩ := ours
  simp only [Clean, sanitized, TraceContext.mk.injEq] at hown hours
  simp only [Clean, sentOf, sanitized, TraceContext.mk.injEq]
  split_ifs <;> simp_all

/-- What is sent wins over the same context again. -/
theorem sentOf_sentOf (hown : Clean own) (hours : Clean ours) : sentOf (sentOf own ours) ours = sentOf own ours := by
  obtain ⟨ownParent, ownState, ownBaggage⟩ := own
  obtain ⟨oursParent, oursState, oursBaggage⟩ := ours
  simp only [Clean, sanitized, TraceContext.mk.injEq] at hown hours
  simp only [sentOf, TraceContext.mk.injEq]
  split_ifs <;> simp_all

/-! ### The `_meta` that is written -/

theorem isReserved_of_mem {value : Option JsonValue} (h : (key, value) ∈ sentFields sent) : isReserved key = true := by
  simp only [sentFields, List.mem_cons, Prod.mk.injEq, List.not_mem_nil, or_false] at h
  obtain ⟨rfl, -⟩ | ⟨rfl, -⟩ | ⟨rfl, -⟩ := h <;> decide

theorem get?_metaFields_of_mem {value : Option JsonValue} (h : (key, value) ∈ sentFields sent) :
    (JsonValue.ofFields (metaFields given sent)).get? key = value := by
  have hreserved := isReserved_of_mem h
  apply JsonValue.get?_ofFields_of_agree
  · intro other hother
    obtain hgiven | hsent := List.mem_append.mp hother
    · obtain ⟨member, hmember, heq⟩ := List.mem_map.mp hgiven
      cases heq
      rw [List.mem_filter, hreserved] at hmember
      exact absurd hmember.2 (by simp)
    · have hnodup : ((sentFields sent).map Prod.fst).Nodup := by
        change [kTraceParent, kTraceState, kBaggage].Nodup
        decide
      have hsame := List.inj_on_of_nodup_map hnodup hsent h rfl
      exact congrArg Prod.snd hsame
  · exact Or.inr (List.mem_append_right _ h)

theorem get?_metaFields_of_not_reserved (h : isReserved key = false) :
    (JsonValue.ofFields (metaFields given sent)).get? key = given.get? key := by
  have hvalue (hkey : key ∈ given.keys) : some (given.get key) = given.get? key := by
    rw [← JsonValue.contains_iff_mem_keys, JsonValue.contains_eq] at hkey
    rw [JsonValue.get_eq]
    cases hget : given.get? key with
    | none => simp [hget] at hkey
    | some value => rfl
  apply JsonValue.get?_ofFields_of_agree
  · intro other hother
    obtain hgiven | hsent := List.mem_append.mp hother
    · obtain ⟨member, hmember, heq⟩ := List.mem_map.mp hgiven
      cases heq
      exact hvalue (List.mem_filter.mp hmember).1
    · rw [isReserved_of_mem hsent] at h
      cases h
  · by_cases hkey : key ∈ given.keys
    · right
      apply List.mem_append_left
      rw [← hvalue hkey]
      exact List.mem_map.mpr ⟨key, List.mem_filter.mpr ⟨hkey, by simp [h]⟩, rfl⟩
    · left
      rw [← JsonValue.contains_iff_mem_keys, JsonValue.contains_eq] at hkey
      simpa using hkey

theorem get?_traceparent :
    (JsonValue.ofFields (metaFields given sent)).get? kTraceParent = sent.traceparent.map .string :=
  get?_metaFields_of_mem (by simp [sentFields])

theorem get?_tracestate :
    (JsonValue.ofFields (metaFields given sent)).get? kTraceState = sent.tracestate.map .string :=
  get?_metaFields_of_mem (by simp [sentFields])

theorem get?_baggage :
    (JsonValue.ofFields (metaFields given sent)).get? kBaggage = sent.baggage.map .string :=
  get?_metaFields_of_mem (by simp [sentFields])

theorem found_metaFields : found (.ofFields (metaFields given sent)) = sent := by
  rw [found, JsonValue.stringAt_of_get? get?_traceparent, JsonValue.stringAt_of_get? get?_tracestate,
    JsonValue.stringAt_of_get? get?_baggage]

/-- Written again from itself, it is the same. -/
theorem metaFields_metaFields :
    JsonValue.ofFields (metaFields (.ofFields (metaFields given sent)) sent) =
      JsonValue.ofFields (metaFields given sent) := by
  apply JsonValue.ofFields_ext
  intro key
  by_cases hkey : isReserved key = true
  · have hcases : key = kTraceParent ∨ key = kTraceState ∨ key = kBaggage := by
      simpa [isReserved, or_assoc] using hkey
    obtain rfl | rfl | rfl := hcases
    · rw [get?_traceparent, get?_traceparent]
    · rw [get?_tracestate, get?_tracestate]
    · rw [get?_baggage, get?_baggage]
  · rw [get?_metaFields_of_not_reserved (by simpa using hkey)]

/-! ### The whole of it -/

/-- What a run of `withContext` gives: the params as they are when nothing is to be added or checked, and
else the object with its `_meta` written anew. -/
theorem withContext_cases (params : JsonValue) (context : TraceContext) :
    ((sanitized context).isEmpty = true ∧ setsAny (givenMeta params) = false ∧
        withContext params context = params) ∨
      withContext params context =
        (if params.isObject then params else .emptyObject).set kMeta
          (.ofFields (metaFields (givenMeta params)
            (sentOf (sanitized (found (givenMeta params))) (sanitized context)))) := by
  simp only [withContext]
  by_cases htaken : (sanitized context).isEmpty = true ∧ setsAny (givenMeta params) = false
  · left
    exact ⟨htaken.1, htaken.2, by rw [htaken.1, htaken.2]; rfl⟩
  · right
    rw [if_neg (by simpa using htaken)]

theorem givenMeta_set {json value : JsonValue} (h : json.isObject = true) (hvalue : value.isObject = true) :
    givenMeta (json.set kMeta value) = value := by
  have hget : (json.set kMeta value).get? kMeta = some value := by rw [JsonValue.get?_set h, if_pos rfl]
  have hread : (json.set kMeta value).get kMeta = value := by
    rw [JsonValue.get_eq, hget]
    rfl
  rw [givenMeta, JsonValue.isObject_set h, JsonValue.contains_eq, hget, hread, hvalue]
  rfl

/-- A second time changes nothing. -/
theorem withContext_withContext (params : JsonValue) (context : TraceContext) :
    withContext (withContext params context) context = withContext params context := by
  obtain ⟨-, -, hsame⟩ | hout := withContext_cases params context
  · rw [hsame, hsame]
  · have hobject : (if params.isObject then params else JsonValue.emptyObject).isObject = true := by
      split_ifs with h
      · exact h
      · rfl
    have hours := clean_sanitized context
    have hown := clean_sanitized (found (givenMeta params))
    have hgiven := givenMeta_set hobject (JsonValue.isObject_ofFields (metaFields (givenMeta params)
      (sentOf (sanitized (found (givenMeta params))) (sanitized context))))
    rw [hout]
    generalize (if params.isObject then params else JsonValue.emptyObject) = json at hobject hgiven
    obtain ⟨-, -, hsame⟩ | hagain := withContext_cases (json.set kMeta (.ofFields (metaFields (givenMeta params)
      (sentOf (sanitized (found (givenMeta params))) (sanitized context))))) context
    · exact hsame
    · rw [hagain, hgiven, found_metaFields, clean_sentOf hown hours, sentOf_sentOf hown hours, metaFields_metaFields,
        JsonValue.isObject_set hobject, if_pos rfl, JsonValue.set_set_self]

/-! ### What a reader of the `_meta` sees -/

theorem get?_givenMeta (params : JsonValue) (key : Bytes) : (givenMeta params).get? key = (params.get kMeta).get? key := by
  rw [givenMeta]
  split_ifs with h
  · rfl
  · rw [JsonValue.contains_eq] at h
    cases hmeta : params.get? kMeta with
    | none =>
        rw [JsonValue.get_eq, hmeta]
        rfl
    | some value =>
        have hget : params.get kMeta = value := by
          rw [JsonValue.get_eq, hmeta]
          rfl
        have hobject : params.isObject = true := by
          cases params with
          | object fields => rfl
          | _ => cases hmeta
        have hvalue : value.isObject = false := by simpa [hobject, hmeta, hget] using h
        rw [hget]
        cases value with
        | object fields => cases hvalue
        | _ => rfl

theorem found_givenMeta (params : JsonValue) : found (givenMeta params) = found (params.get kMeta) := by
  have hsame (key : Bytes) : (givenMeta params).stringAt key = (params.get kMeta).stringAt key := by
    unfold JsonValue.stringAt
    rw [JsonValue.get_eq, JsonValue.get_eq, get?_givenMeta]
  rw [found, hsame, hsame, hsame]
  rfl

/-- Beside nothing, nothing is sent of a context that is empty. -/
theorem sentOf_eq_nothing (h : ours.isEmpty = true) :
    sentOf (sanitized ⟨none, none, none⟩) ours = ⟨none, none, none⟩ := by
  obtain ⟨parent, state, baggage⟩ := ours
  simp only [TraceContext.isEmpty, Bool.and_eq_true, Option.isNone_iff_eq_none] at h
  obtain ⟨⟨rfl, rfl⟩, rfl⟩ := h
  rfl

/-- The `_meta` of the outcome has what is sent under the reserved keys and under the others what it had. -/
theorem get?_withContext (h : params.isObject = true) (context : TraceContext) :
    (∀ field ∈ sentFields (sentOf (sanitized (found (params.get kMeta))) (sanitized context)),
        ((withContext params context).get kMeta).get? field.1 = field.2) ∧
      (∀ key, isReserved key = false →
        ((withContext params context).get kMeta).get? key = (params.get kMeta).get? key) ∧
      ∀ key ≠ kMeta, (withContext params context).get? key = params.get? key := by
  rw [← found_givenMeta]
  obtain ⟨hours, hset, hsame⟩ | hout := withContext_cases params context
  · rw [hsame]
    refine ⟨?_, fun key _ => rfl, fun key _ => rfl⟩
    have hnone (key : Bytes) (hkey : (givenMeta params).contains key = false) :
        (givenMeta params).get? key = none := by
      rw [JsonValue.contains_eq] at hkey
      simpa using hkey
    simp only [setsAny, Bool.or_eq_false_iff] at hset
    have hparent := hnone kTraceParent hset.1.1
    have hstate := hnone kTraceState hset.1.2
    have hbaggage := hnone kBaggage hset.2
    have hfound : found (givenMeta params) = ⟨none, none, none⟩ := by
      rw [found, @JsonValue.stringAt_of_get? _ _ none hparent, @JsonValue.stringAt_of_get? _ _ none hstate,
        @JsonValue.stringAt_of_get? _ _ none hbaggage]
    intro field hfield
    rw [← get?_givenMeta]
    rw [hfound, sentOf_eq_nothing hours] at hfield
    simp only [sentFields, Option.map_none, List.mem_cons, List.not_mem_nil, or_false] at hfield
    obtain rfl | rfl | rfl := hfield
    · exact hparent
    · exact hstate
    · exact hbaggage
  · have hmeta : (withContext params context).get? kMeta = some (.ofFields (metaFields (givenMeta params)
        (sentOf (sanitized (found (givenMeta params))) (sanitized context)))) := by
      rw [hout, if_pos h, JsonValue.get?_set h, if_pos rfl]
    have hget : (withContext params context).get kMeta = .ofFields (metaFields (givenMeta params)
        (sentOf (sanitized (found (givenMeta params))) (sanitized context))) := by
      rw [JsonValue.get_eq, hmeta]
      rfl
    rw [hget]
    refine ⟨fun field hfield => get?_metaFields_of_mem hfield, fun key hkey => ?_, fun key hkey => ?_⟩
    · rw [get?_metaFields_of_not_reserved hkey, get?_givenMeta]
    · rw [hout, if_pos h, JsonValue.get?_set h, if_neg hkey]

/-- The reserved keys and what each is checked with. -/
def formats : List (Bytes × (Bytes → Bool)) :=
  [(kTraceParent, isValidTraceParent), (kTraceState, isValidTraceState), (kBaggage, isValidBaggage)]

/-- A context has gone into params as it should. -/
structure Injected (params : JsonValue) (context : TraceContext) (out : JsonValue) : Prop where
  /-- A reserved key that is there has a value in its format. -/
  formatted : ∀ format ∈ formats, ∀ value, (out.get kMeta).get? format.1 = some value →
    ∃ text, value = .string text ∧ format.2 text = true
  /-- A well-formed traceparent of the application is kept, with its own tracestate or with none. -/
  ownPair : ∀ parent, (params.get kMeta).stringAt kTraceParent = some parent → isValidTraceParent parent = true →
    (out.get kMeta).get? kTraceParent = some (.string parent) ∧
      (out.get kMeta).get? kTraceState =
        (((params.get kMeta).stringAt kTraceState).filter isValidTraceState).map .string
  /-- Else the two are those of the context. -/
  contextPair : (∀ parent, (params.get kMeta).stringAt kTraceParent = some parent → isValidTraceParent parent = false) →
    (out.get kMeta).get? kTraceParent = (sanitized context).traceparent.map .string ∧
      (out.get kMeta).get? kTraceState = (sanitized context).tracestate.map .string
  ownBaggage : ∀ baggage, (params.get kMeta).stringAt kBaggage = some baggage → isValidBaggage baggage = true →
    (out.get kMeta).get? kBaggage = some (.string baggage)
  contextBaggage : (∀ baggage, (params.get kMeta).stringAt kBaggage = some baggage → isValidBaggage baggage = false) →
    (out.get kMeta).get? kBaggage = (sanitized context).baggage.map .string
  otherMeta : ∀ key, isReserved key = false → (out.get kMeta).get? key = (params.get kMeta).get? key
  otherParams : ∀ key, key ≠ kMeta → out.get? key = params.get? key

theorem filter_of_clean (h : Clean sent) :
    sent.traceparent.filter isValidTraceParent = sent.traceparent ∧
      sent.tracestate.filter isValidTraceState = sent.tracestate ∧
      sent.baggage.filter isValidBaggage = sent.baggage := by
  obtain ⟨parent, state, baggage⟩ := sent
  simp only [Clean, sanitized, TraceContext.mk.injEq] at h
  obtain ⟨hparent, hstate, hbaggage⟩ := h
  refine ⟨hparent, ?_, hbaggage⟩
  split_ifs at hstate
  · exact hstate
  · subst hstate
    rfl

theorem valid_of_filter {text : Option Bytes} {valid : Bytes → Bool} (h : text.filter valid = text)
    {value : JsonValue} (hvalue : text.map .string = some value) :
    ∃ written, value = .string written ∧ valid written = true := by
  cases text with
  | none => cases hvalue
  | some written =>
      cases hvalue
      exact ⟨written, rfl, (Option.filter_eq_some_iff.mp h).2⟩

theorem filter_eq_none {text : Option Bytes} {valid : Bytes → Bool}
    (h : ∀ value, text = some value → valid value = false) : text.filter valid = none := by
  cases text with
  | none => rfl
  | some value => rw [Option.filter_some, h value rfl]; rfl

theorem injected_withContext (h : params.isObject = true) (context : TraceContext) :
    Injected params context (withContext params context) := by
  obtain ⟨hsent, hother, hparams⟩ := get?_withContext h context
  have hparent := hsent _ (List.mem_cons_self)
  have hstate := hsent _ (List.mem_cons_of_mem _ List.mem_cons_self)
  have hbaggage := hsent _ (List.mem_cons_of_mem _ (List.mem_cons_of_mem _ List.mem_cons_self))
  have hclean : Clean (sentOf (sanitized (found (params.get kMeta))) (sanitized context)) :=
    clean_sentOf (clean_sanitized _) (clean_sanitized _)
  obtain ⟨hparentValid, hstateValid, hbaggageValid⟩ := filter_of_clean hclean
  have hformatted : ∀ format ∈ formats, ∀ value,
      ((withContext params context).get kMeta).get? format.1 = some value →
        ∃ text, value = .string text ∧ format.2 text = true := by
    intro format hformat value hvalue
    simp only [formats, List.mem_cons, List.not_mem_nil, or_false] at hformat
    obtain rfl | rfl | rfl := hformat
    · exact valid_of_filter hparentValid (hparent.symm.trans hvalue)
    · exact valid_of_filter hstateValid (hstate.symm.trans hvalue)
    · exact valid_of_filter hbaggageValid (hbaggage.symm.trans hvalue)
  dsimp only [sentOf, sanitized, found] at hparent hstate hbaggage
  constructor
  case otherMeta => exact hother
  case otherParams => exact hparams
  case formatted => exact hformatted
  case ownPair =>
      intro parent hgiven hvalid
      rw [hgiven, Option.filter_some, hvalid] at hparent hstate
      exact ⟨hparent, hstate⟩
  case contextPair =>
      intro hgiven
      rw [filter_eq_none hgiven] at hparent hstate
      exact ⟨hparent, hstate⟩
  case ownBaggage =>
      intro baggage hgiven hvalid
      rw [hgiven, Option.filter_some, hvalid] at hbaggage
      exact hbaggage
  case contextBaggage =>
      intro hgiven
      rw [filter_eq_none hgiven] at hbaggage
      exact hbaggage

end Trace

end GopherMcp
