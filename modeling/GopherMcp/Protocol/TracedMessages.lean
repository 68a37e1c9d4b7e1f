import GopherMcp.Json.RequestId
import GopherMcp.Protocol.TraceContext

/-!
# Messages that carry a trace context

A request or a notification with nothing to add and nothing to check goes out as it is, so that params
held only in the flat view are not rewritten. Any other is given the exact params with the context in them.
-/

namespace GopherMcp

structure Request where
  jsonrpc : Bytes
  id : RequestId
  method : Bytes
  params : Option Metadata
  paramsJson : Option JsonValue

namespace Trace

variable (text : JsonText)

/-! ### The flat view -/

/-- Text that could be an object or an array. -/
def looksNested (written : Bytes) : Bool :=
  (written.head? = some '\x7b'.toUInt8 && written.getLast? = some '\x7d'.toUInt8) ||
    (written.head? = some '['.toUInt8 && written.getLast? = some ']'.toUInt8)

/-- Nested values are held as their text, which is read again. -/
def metadataValueToJson : MetadataValue → JsonValue
  | .null => .null
  | .string written =>
      if looksNested written then (text.parse written).getD (.string written) else .string written
  | .integer value => .integer value
  | .float bits => .float bits
  | .boolean value => .boolean value

def metadataToJson (metadata : Metadata) : JsonValue :=
  .ofFields (metadata.entries.map fun entry => (entry.1, some (metadataValueToJson text entry.2)))

def paramsJsonOf (paramsJson : Option JsonValue) (params : Option Metadata) : JsonValue :=
  match paramsJson with
  | some json => json
  | none =>
      match params with
      | some metadata => metadataToJson text metadata
      | none => .emptyObject

/-! ### On the wire -/

/-- The params a message is written with. -/
def paramsField (paramsJson : Option JsonValue) (params : Option Metadata) : Option JsonValue :=
  match paramsJson with
  | some json => some json
  | none => params.map (metadataToJson text)

def serializeRequest (request : Request) : JsonValue :=
  .ofFields
    [(ascii "jsonrpc", some (.string request.jsonrpc)), (ascii "id", some (serializeRequestId request.id)),
      (ascii "method", some (.string request.method)),
      (ascii "params", paramsField text request.paramsJson request.params)]

def serializeNotification (notification : Notification) : JsonValue :=
  .ofFields
    [(ascii "jsonrpc", some (.string notification.jsonrpc)), (ascii "method", some (.string notification.method)),
      (ascii "params", paramsField text notification.paramsJson notification.params)]

/-! ### With a context -/

/-- Whether params set any of the reserved keys, which are checked whether or not a context is added. -/
def setsTraceKeys (params : JsonValue) : Bool :=
  if !params.isObject || !params.contains kMeta || !(params.get kMeta).isObject then false
  else setsAny (params.get kMeta)

/-- Nothing to add and nothing to check. -/
def goesAsItIs (params : JsonValue) (context : TraceContext) : Bool :=
  (sanitized context).isEmpty && !setsTraceKeys params

/-- The request with the context in its params. -/
def carryingRequest (request : Request) (context : TraceContext) : Request :=
  { request with
    paramsJson := some (withContext (paramsJsonOf text request.paramsJson request.params) context) }

def carryingNotification (notification : Notification) (context : TraceContext) : Notification :=
  { notification with
    paramsJson := some (withContext (paramsJsonOf text notification.paramsJson notification.params) context) }

def requestWithContext (request : Request) (context : TraceContext) : Request :=
  if goesAsItIs (paramsJsonOf text request.paramsJson request.params) context then request
  else carryingRequest text request context

def notificationWithContext (notification : Notification) (context : TraceContext) : Notification :=
  if goesAsItIs (paramsJsonOf text notification.paramsJson notification.params) context then notification
  else carryingNotification text notification context

/-! ### A message that goes as it is -/

variable {text}

theorem setsTraceKeys_eq (params : JsonValue) : setsTraceKeys params = setsAny (givenMeta params) := by
  rw [setsTraceKeys, givenMeta]
  cases hobject : params.isObject <;> cases hmeta : params.contains kMeta <;>
    cases hinner : (params.get kMeta).isObject <;> rfl

/-- With nothing to add and nothing to check the params would be the same. -/
theorem withContext_of_goesAsItIs {params : JsonValue} {context : TraceContext}
    (h : goesAsItIs params context = true) : withContext params context = params := by
  rw [goesAsItIs, setsTraceKeys_eq] at h
  simp only [withContext, h, if_true]

/-- Params that are there are written as `paramsJsonOf` has them. -/
theorem paramsField_eq {paramsJson : Option JsonValue} {params : Option Metadata}
    (h : paramsJson.isSome = true ∨ params.isSome = true) :
    paramsField text paramsJson params = some (paramsJsonOf text paramsJson params) := by
  cases paramsJson with
  | some json => rfl
  | none =>
      cases params with
      | some metadata => rfl
      | none => simp at h

theorem serializeRequest_requestWithContext {request : Request}
    (h : request.paramsJson.isSome = true ∨ request.params.isSome = true) (context : TraceContext) :
    serializeRequest text (requestWithContext text request context) =
      serializeRequest text (carryingRequest text request context) := by
  rw [requestWithContext]
  split_ifs with hasIs
  · rw [serializeRequest, serializeRequest, carryingRequest, withContext_of_goesAsItIs hasIs, paramsField_eq h]
    rfl
  · rfl

theorem serializeNotification_notificationWithContext {notification : Notification}
    (h : notification.paramsJson.isSome = true ∨ notification.params.isSome = true) (context : TraceContext) :
    serializeNotification text (notificationWithContext text notification context) =
      serializeNotification text (carryingNotification text notification context) := by
  rw [notificationWithContext]
  split_ifs with hasIs
  · rw [serializeNotification, serializeNotification, carryingNotification, withContext_of_goesAsItIs hasIs,
      paramsField_eq h]
    rfl
  · rfl

/-! ### Safe and conservative -/

/-- A context goes into params as it should, and only once; a request or a notification that goes as it is
and has params has the document it would have been given. -/
theorem withContext_conservative (text : JsonText) {params : JsonValue} (h : params.isObject = true)
    (context : TraceContext) :
    Injected params context (withContext params context) ∧
      withContext (withContext params context) context = withContext params context ∧
      (∀ request : Request,
        goesAsItIs (paramsJsonOf text request.paramsJson request.params) context = true →
          requestWithContext text request context = request ∧
            (request.paramsJson.isSome = true ∨ request.params.isSome = true →
              serializeRequest text (requestWithContext text request context) =
                serializeRequest text (carryingRequest text request context))) ∧
      ∀ notification : Notification,
        goesAsItIs (paramsJsonOf text notification.paramsJson notification.params) context = true →
          notificationWithContext text notification context = notification ∧
            (notification.paramsJson.isSome = true ∨ notification.params.isSome = true →
              serializeNotification text (notificationWithContext text notification context) =
                serializeNotification text (carryingNotification text notification context)) := by
  refine ⟨injected_withContext h context, withContext_withContext params context, ?_, ?_⟩
  · intro request htaken
    have hsame : requestWithContext text request context = request := by
      rw [requestWithContext, htaken]
      rfl
    exact ⟨hsame, fun hparams => serializeRequest_requestWithContext hparams context⟩
  · intro notification htaken
    have hsame : notificationWithContext text notification context = notification := by
      rw [notificationWithContext, htaken]
      rfl
    exact ⟨hsame, fun hparams => serializeNotification_notificationWithContext hparams context⟩

/-- A library that reads nothing and writes nothing, for messages without text in their flat view. -/
def noText : JsonText := ⟨fun _ => [], fun _ => none⟩

/-- A call with a progress token, in a trace with baggage. -/
def tokenParams : JsonValue := .object [(kMeta, .object [(ascii "progressToken", .integer 7)])]

def userBaggage : TraceContext := ⟨none, none, some (ascii "userId=alice")⟩

theorem withContext_conservative_tokenParams :
    Injected tokenParams userBaggage (withContext tokenParams userBaggage) ∧
      withContext (withContext tokenParams userBaggage) userBaggage = withContext tokenParams userBaggage := by
  have hobject : tokenParams.isObject = true := rfl
  obtain ⟨hinjected, hagain, -⟩ := withContext_conservative noText hobject userBaggage
  exact ⟨hinjected, hagain⟩

/-- Params that set a tracestate and no traceparent. -/
def orphanParams : JsonValue := .object [(kMeta, .object [(kTraceState, .string (ascii "a=1"))])]

def noContext : TraceContext := ⟨none, none, none⟩

/-- A request without params. -/
def bareRequest : Request := ⟨ascii "2.0", .number 1, ascii "ping", none, none⟩

/-- A tracestate alone is not kept, well formed as it is; and a request without params goes without them,
where its exact params would have been an empty object. -/
theorem withContext_orphanParams :
    (orphanParams.isObject = true ∧ (orphanParams.get kMeta).stringAt kTraceState = some (ascii "a=1") ∧
        isValidTraceState (ascii "a=1") = true ∧
        ((withContext orphanParams noContext).get kMeta).get? kTraceState = none) ∧
      goesAsItIs (paramsJsonOf noText bareRequest.paramsJson bareRequest.params) noContext = true ∧
      (serializeRequest noText (requestWithContext noText bareRequest noContext)).contains (ascii "params") = false ∧
      (serializeRequest noText (carryingRequest noText bareRequest noContext)).contains (ascii "params") = true := by
  refine ⟨⟨rfl, ?_, ?_, ?_⟩, ?_, ?_, ?_⟩
  · decide
  · decide
  · rfl
  · decide
  · decide
  · decide

end Trace

end GopherMcp
