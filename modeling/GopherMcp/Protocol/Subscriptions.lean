import GopherMcp.Core.RequestId
import GopherMcp.Json.Value

/-!
# What travels on a subscription

The filter of a subscription says which notifications it asked for, and every message on its stream
names it by the id of the request that opened it. The name is carried twice: in the exact JSON of the
params, and in the flat view of them, where nested JSON is carried as its text.
-/

namespace GopherMcp

/-- The text of a JSON value and its reading, which are the JSON library's. -/
structure JsonText where
  print : JsonValue → Bytes
  parse : Bytes → Option JsonValue

/-! ### The filter -/

def kNotificationToolsListChanged : Bytes := ascii "notifications/tools/list_changed"
def kNotificationPromptsListChanged : Bytes := ascii "notifications/prompts/list_changed"
def kNotificationResourcesListChanged : Bytes := ascii "notifications/resources/list_changed"
def kNotificationResourcesUpdated : Bytes := ascii "notifications/resources/updated"
def kNotificationTasks : Bytes := ascii "notifications/tasks"

structure NotificationFilter where
  toolsListChanged : Bool
  promptsListChanged : Bool
  resourcesListChanged : Bool
  resourceUris : List Bytes
  taskIds : List Bytes
  deriving DecidableEq

namespace NotificationFilter

/-- The subset that is honoured, as the acknowledgement echoes it. -/
def render (filter : NotificationFilter) : JsonValue :=
  let asked := JsonValue.emptyObject
  let asked := if filter.toolsListChanged then
    asked.set (ascii "toolsListChanged") (.boolean true) else asked
  let asked := if filter.promptsListChanged then
    asked.set (ascii "promptsListChanged") (.boolean true) else asked
  let asked := if filter.resourcesListChanged then
    asked.set (ascii "resourcesListChanged") (.boolean true) else asked
  let asked := if filter.resourceUris.isEmpty then asked else
    asked.set (ascii "resourceSubscriptions") (.array (filter.resourceUris.map .string))
  if filter.taskIds.isEmpty then asked else
    asked.set (ascii "taskIds") (.array (filter.taskIds.map .string))

def wants (filter : NotificationFilter) (method uri : Bytes) : Bool :=
  if method = kNotificationToolsListChanged then filter.toolsListChanged
  else if method = kNotificationPromptsListChanged then filter.promptsListChanged
  else if method = kNotificationResourcesListChanged then filter.resourcesListChanged
  else if method = kNotificationResourcesUpdated then filter.resourceUris.contains uri
  else if method = kNotificationTasks then filter.taskIds.contains uri
  else false

end NotificationFilter

/-! ### Messages -/

/-- `variant<nullptr_t, std::string, int64_t, double, bool>`, a double as its bits. -/
inductive MetadataValue where
  | null
  | string (text : Bytes)
  | integer (value : Int64)
  | float (bits : UInt64)
  | boolean (value : Bool)

abbrev Metadata := OrdMap Bytes MetadataValue

structure Notification where
  jsonrpc : Bytes
  method : Bytes
  params : Option Metadata
  paramsJson : Option JsonValue

/-- The response that ends a subscription. -/
structure Response where
  jsonrpc : Bytes
  id : RequestId
  result : JsonValue

def kMeta : Bytes := ascii "_meta"
def kMetaSubscriptionId : Bytes := ascii "io.modelcontextprotocol/subscriptionId"
def kFilterField : Bytes := ascii "notifications"

/-- A subscription id as it travels: whichever kind of id it was. -/
def idAsJson : RequestId → JsonValue
  | .string text => .string text
  | .number value => .integer value

variable (text : JsonText)

/-- The metadata of a message, once it names the subscription: what was there if it was the text of an
object, and the id. -/
def tagWithSubscription (params : Metadata) (id : RequestId) : Metadata :=
  let held : JsonValue :=
    match params.find? kMeta with
    | some (.string written) =>
        match text.parse written with
        | some (.object fields) => .object fields
        | _ => .emptyObject
    | _ => .emptyObject
  params.insert kMeta (.string (text.print (held.set kMetaSubscriptionId (idAsJson id))))

/-- A param in the flat view. -/
def metadataOf : JsonValue → MetadataValue
  | .string written => .string written
  | .boolean value => .boolean value
  | .integer value => .integer value
  | .unsignedInteger value => .integer value.toInt64
  | .float bits => .float bits
  | other => .string (text.print other)

def acknowledgement (id : RequestId) (filter : NotificationFilter) : Notification :=
  let params := (tagWithSubscription text .empty id).insert kFilterField
    (.string (text.print filter.render))
  { jsonrpc := ascii "2.0"
    method := ascii "notifications/subscriptions/acknowledged"
    params := some params
    paramsJson := none }

/-- A change as it goes down one subscription, built for that subscription: metadata the change came
with is replaced. -/
def changeFor (method : Bytes) (params : JsonValue) (id : RequestId) : Notification :=
  let carried := (params.keys.filter (· ≠ kMeta)).foldl
    (fun carried key => carried.insert key (metadataOf text (params.get key))) OrdMap.empty
  let exact := if params.isObject then params else .emptyObject
  let named := JsonValue.emptyObject.set kMetaSubscriptionId (idAsJson id)
  { jsonrpc := ascii "2.0"
    method := method
    params := some (tagWithSubscription text carried id)
    paramsJson := some (exact.set kMeta named) }

def closingResponse (id : RequestId) : Response :=
  { jsonrpc := ascii "2.0"
    id := id
    result := (JsonValue.emptyObject.set (ascii "resultType") (.string (ascii "complete"))).set kMeta
      (JsonValue.emptyObject.set kMetaSubscriptionId (idAsJson id)) }

/-! ### The tag -/

/-- The subscription a notification names, in the exact JSON and in the flat view. -/
def NamesSubscription (notification : Notification) (id : RequestId) : Prop :=
  (∃ params, notification.paramsJson = some params ∧
      (params.get kMeta).get kMetaSubscriptionId = idAsJson id) ∧
    ∃ params, notification.params = some params ∧
      params.find? kMeta =
        some (.string (text.print (JsonValue.emptyObject.set kMetaSubscriptionId (idAsJson id))))

theorem find?_foldl_insert {κ ν : Type} [LinearOrder κ] (value : κ → ν) {key : κ} (keys : List κ)
    (hkey : key ∉ keys) (carried : OrdMap κ ν) :
    (keys.foldl (fun carried key => carried.insert key (value key)) carried).find? key =
      carried.find? key := by
  induction keys generalizing carried with
  | nil => rfl
  | cons head keys ih =>
      rw [List.mem_cons, not_or] at hkey
      rw [List.foldl_cons, ih hkey.2, OrdMap.find?_insert_of_ne carried hkey.1]

theorem get_set {json : JsonValue} (h : json.isObject) (key : Bytes) (value : JsonValue) :
    (json.set key value).get key = value := by
  cases json with
  | object fields =>
      exact congrArg (Option.getD · JsonValue.null) (OrdMap.findEntry_insertEntry_self key value fields)
  | _ => simp [JsonValue.isObject] at h

/-- **A change names the subscription it goes down**, whatever metadata it came with. -/
theorem changeFor_names (method : Bytes) (params : JsonValue) (id : RequestId) :
    NamesSubscription text (changeFor text method params id) id := by
  refine ⟨⟨_, rfl, ?_⟩, ⟨_, rfl, ?_⟩⟩
  · have hexact : (if params.isObject then params else .emptyObject).isObject := by
      split_ifs with h
      · exact h
      · rfl
    rw [get_set hexact, get_set rfl]
  · have hcarried : ((params.keys.filter (· ≠ kMeta)).foldl
        (fun carried key => carried.insert key (metadataOf text (params.get key)))
        (OrdMap.empty : Metadata)).find? kMeta = none := by
      rw [find?_foldl_insert _ _ (by simp)]
      rfl
    simp only [tagWithSubscription, hcarried, OrdMap.find?_insert_self]

end GopherMcp
