import GopherMcp.Json.ErrorData
import GopherMcp.Server.TaskStore

/-!
# Task documents

A task is written with what every task has and with what its status carries. Reading it back asks for just
that: a completed task without its result is no task.
-/

namespace GopherMcp

/-- A task as it is written; its error has its data. -/
structure TaskDocument where
  taskId : Bytes
  status : Status
  statusMessage : Option Bytes
  createdAt : Bytes
  lastUpdatedAt : Bytes
  ttlMs : Option Int64
  pollIntervalMs : Option Int64
  inputRequests : JsonValue
  result : Option JsonValue
  error : Option WireError

namespace TaskDocument

open WireError (kCode kMessage kData)

def statusName : Status → Bytes
  | .working => ascii "working"
  | .inputRequired => ascii "input_required"
  | .completed => ascii "completed"
  | .failed => ascii "failed"
  | .cancelled => ascii "cancelled"

def statusNamed (name : Bytes) : Option Status :=
  [Status.working, .inputRequired, .completed, .failed, .cancelled].find? fun status =>
    name = statusName status

def kTaskId : Bytes := ascii "taskId"
def kStatus : Bytes := ascii "status"
def kStatusMessage : Bytes := ascii "statusMessage"
def kCreatedAt : Bytes := ascii "createdAt"
def kLastUpdatedAt : Bytes := ascii "lastUpdatedAt"
def kTtlMs : Bytes := ascii "ttlMs"
def kPollIntervalMs : Bytes := ascii "pollIntervalMs"
def kInputRequestsField : Bytes := ascii "inputRequests"
def kResult : Bytes := ascii "result"
def kError : Bytes := ascii "error"

/-! ### Writing -/

/-- The fields in the order they are set. A time to live is written even when there is none. -/
def fields (task : TaskDocument) : List (Bytes × Option JsonValue) :=
  [(kTaskId, some (.string task.taskId)),
    (kStatus, some (.string (statusName task.status))),
    (kStatusMessage, task.statusMessage.map .string),
    (kCreatedAt, some (.string task.createdAt)),
    (kLastUpdatedAt, some (.string task.lastUpdatedAt)),
    (kTtlMs, some ((task.ttlMs.map .integer).getD .null)),
    (kPollIntervalMs, task.pollIntervalMs.map .integer),
    (kInputRequestsField,
      if task.status = .inputRequired then
        some (if task.inputRequests.isObject then task.inputRequests else JsonValue.emptyObject)
      else none),
    (kResult,
      if task.status = .completed then
        some ((task.result.filter JsonValue.isObject).getD JsonValue.emptyObject)
      else none),
    (kError,
      if task.status = .failed then
        some (task.error.getD ⟨-32603, ascii "the task failed", none⟩).serialize
      else none)]

def toJson (task : TaskDocument) : JsonValue := JsonValue.ofFields task.fields

/-! ### Reading -/

def integerAt (json : JsonValue) (key : Bytes) : Option Int64 :=
  if h : (json.get key).isInteger then some ((json.get key).getInt64 h) else none

def isNull : JsonValue → Bool
  | .null => true
  | _ => false

/-- The error of a failed task, which has to have a code and a message. -/
def readError (json : JsonValue) : Option WireError :=
  if h : (json.get kCode).isInteger then
    (json.stringAt kMessage).map fun message =>
      { code := (json.get kCode).getInt h
        message
        data := if json.contains kData then some (ErrorData.deserialize (json.get kData)) else none }
  else none

/-- What the status has to carry. -/
def readCarried (json : JsonValue) (task : TaskDocument) : Option TaskDocument :=
  match task.status with
  | .inputRequired =>
      let requests := json.get kInputRequestsField
      if requests.isObject then some { task with inputRequests := requests } else none
  | .completed =>
      let result := json.get kResult
      if result.isObject then some { task with result := some result } else none
  | .failed =>
      let error := json.get kError
      if error.isObject then (readError error).map fun read => { task with error := some read } else none
  | .working | .cancelled => some task

def fromJson (json : JsonValue) : Option TaskDocument := do
  if !json.isObject then none
  let id ← json.stringAt kTaskId
  let status ← (json.stringAt kStatus).bind statusNamed
  if id = [] then none
  let created ← json.stringAt kCreatedAt
  let updated ← json.stringAt kLastUpdatedAt
  if !json.contains kTtlMs || !(isNull (json.get kTtlMs) || (json.get kTtlMs).isInteger) then none
  readCarried json
    { taskId := id
      status
      statusMessage := json.stringAt kStatusMessage
      createdAt := created
      lastUpdatedAt := updated
      ttlMs := integerAt json kTtlMs
      pollIntervalMs := integerAt json kPollIntervalMs
      inputRequests := .null
      result := none
      error := none }

/-! ### Field by field -/

variable {task : TaskDocument} {json : JsonValue} {key : Bytes}

/-- What a task of a status may be written with. -/
def carried (status : Status) : List Bytes :=
  [kTaskId, kStatus, kStatusMessage, kCreatedAt, kLastUpdatedAt, kTtlMs, kPollIntervalMs] ++
    match status with
    | .inputRequired => [kInputRequestsField]
    | .completed => [kResult]
    | .failed => [kError]
    | .working | .cancelled => []

/-- The task has an id and what its status carries, and nothing of another status. -/
structure Carries (task : TaskDocument) : Prop where
  named : task.taskId ≠ []
  asks : task.status = .inputRequired → task.inputRequests.isObject
  asksNot : task.status ≠ .inputRequired → task.inputRequests = .null
  answers : task.status = .completed → ∃ result, task.result = some result ∧ result.isObject
  answersNot : task.status ≠ .completed → task.result = none
  fails : task.status = .failed → ∃ error, task.error = some error
  failsNot : task.status ≠ .failed → task.error = none

/-- The data of its error is in an alternative that is the only one for it. -/
def DataSettled (task : TaskDocument) : Prop :=
  ∀ error, task.error = some error → ∀ data, error.data = some data → data.Settled

theorem get?_toJson {value : Option JsonValue} (h : (key, value) ∈ task.fields) :
    task.toJson.get? key = value := by
  apply JsonValue.get?_ofFields _ h
  change [kTaskId, kStatus, kStatusMessage, kCreatedAt, kLastUpdatedAt, kTtlMs, kPollIntervalMs,
    kInputRequestsField, kResult, kError].Nodup
  decide

theorem get?_serialize {error : WireError} {value : Option JsonValue} (h : (key, value) ∈ error.fields) :
    error.serialize.get? key = value := by
  apply JsonValue.get?_ofFields _ h
  change [kCode, kMessage, kData].Nodup
  decide

theorem integerAt_of_get {value : Option Int64} (h : json.get key = (value.map JsonValue.integer).getD .null) :
    integerAt json key = value := by
  rw [integerAt, h]
  cases value <;> rfl

theorem statusNamed_statusName (status : Status) : statusNamed (statusName status) = some status := by
  cases status <;> decide

theorem getInt_of_get {code : Int32} (h : json.get key = JsonValue.ofInt code)
    (hinteger : (json.get key).isInteger) : (json.get key).getInt hinteger = code := by
  have hvalue (value : JsonValue) (hvalue : value = JsonValue.ofInt code) (hinteger : value.isInteger) :
      value.getInt hinteger = code := by
    subst hvalue
    exact Int32.toInt32_toInt64 code
  exact hvalue _ h hinteger

theorem readError_serialize {error : WireError} (h : ∀ data, error.data = some data → data.Settled) :
    readError error.serialize = some error := by
  have hfield : error.serialize.get? kCode = some (JsonValue.ofInt error.code) :=
    get?_serialize (by simp [WireError.fields])
  have hcode : error.serialize.get kCode = JsonValue.ofInt error.code := by
    rw [JsonValue.get_eq, hfield]
    rfl
  have hmessage : error.serialize.stringAt kMessage = some error.message :=
    JsonValue.stringAt_of_get? (get?_serialize (by simp [WireError.fields]))
  have hdata : error.serialize.get? kData = error.data.map ErrorData.serialize :=
    get?_serialize (by simp [WireError.fields])
  have hinteger : (error.serialize.get kCode).isInteger := by
    rw [hcode]
    rfl
  rw [readError, dif_pos hinteger, hmessage, getInt_of_get hcode, JsonValue.contains_eq, JsonValue.get_eq, hdata]
  obtain ⟨code, message, _ | data⟩ := error
  · rfl
  · have hread : ErrorData.deserialize data.serialize = data := ErrorData.deserialize_serialize (h data rfl)
    change some (WireError.mk code message (some (ErrorData.deserialize data.serialize))) = _
    rw [hread]

/-! ### There and back -/

/-- Every field is read back as the task has it; what the status carries is still to be read. -/
theorem fromJson_toJson_eq (h : task.Carries) :
    fromJson task.toJson =
      readCarried task.toJson { task with inputRequests := .null, result := none, error := none } := by
  have hobject : task.toJson.isObject = true := JsonValue.isObject_ofFields task.fields
  have hid : task.toJson.stringAt kTaskId = some task.taskId :=
    JsonValue.stringAt_of_get? (get?_toJson (by simp [fields]))
  have hstatus : task.toJson.stringAt kStatus = some (statusName task.status) :=
    JsonValue.stringAt_of_get? (get?_toJson (by simp [fields]))
  have hmessage : task.toJson.stringAt kStatusMessage = task.statusMessage :=
    JsonValue.stringAt_of_get? (get?_toJson (by simp [fields]))
  have hcreated : task.toJson.stringAt kCreatedAt = some task.createdAt :=
    JsonValue.stringAt_of_get? (get?_toJson (by simp [fields]))
  have hupdated : task.toJson.stringAt kLastUpdatedAt = some task.lastUpdatedAt :=
    JsonValue.stringAt_of_get? (get?_toJson (by simp [fields]))
  have httlField : task.toJson.get? kTtlMs = some ((task.ttlMs.map JsonValue.integer).getD .null) :=
    get?_toJson (by simp [fields])
  have httlValue : task.toJson.get kTtlMs = (task.ttlMs.map JsonValue.integer).getD .null := by
    rw [JsonValue.get_eq, httlField]
    rfl
  have hinterval : integerAt task.toJson kPollIntervalMs = task.pollIntervalMs := by
    have hfield : task.toJson.get? kPollIntervalMs = task.pollIntervalMs.map .integer :=
      get?_toJson (by simp [fields])
    apply integerAt_of_get
    rw [JsonValue.get_eq, hfield]
  have hkept : (!task.toJson.contains kTtlMs ||
      !(isNull (task.toJson.get kTtlMs) || (task.toJson.get kTtlMs).isInteger)) = false := by
    rw [JsonValue.contains_eq, httlField, httlValue]
    cases task.ttlMs <;> rfl
  simp only [fromJson, hobject, hid, hstatus, hmessage, hcreated, hupdated, hkept, hinterval,
    integerAt_of_get httlValue, statusNamed_statusName, h.named, Option.bind_eq_bind, Option.bind_some,
    Bool.not_true, Bool.false_eq_true, if_false]

/-- What the status carries is read back. -/
theorem readCarried_toJson (h : task.Carries) (hdata : task.DataSettled) :
    readCarried task.toJson { task with inputRequests := .null, result := none, error := none } = some task := by
  have hrequests : task.toJson.get? kInputRequestsField =
      if task.status = .inputRequired then
        some (if task.inputRequests.isObject then task.inputRequests else JsonValue.emptyObject)
      else none := get?_toJson (by simp [fields])
  have hresult : task.toJson.get? kResult =
      if task.status = .completed then
        some ((task.result.filter JsonValue.isObject).getD JsonValue.emptyObject)
      else none := get?_toJson (by simp [fields])
  have herror : task.toJson.get? kError =
      if task.status = .failed then
        some (task.error.getD ⟨-32603, ascii "the task failed", none⟩).serialize
      else none := get?_toJson (by simp [fields])
  obtain ⟨-, hasks, hasksNot, hanswers, hanswersNot, hfails, hfailsNot⟩ := h
  generalize task.toJson = json at hrequests hresult herror ⊢
  obtain ⟨id, status, message, created, updated, ttl, interval, requests, result, error⟩ := task
  cases status with
  | working | cancelled =>
      cases hasksNot (by simp)
      cases hanswersNot (by simp)
      cases hfailsNot (by simp)
      rfl
  | inputRequired =>
      have hobject : requests.isObject = true := hasks rfl
      have hread : json.get kInputRequestsField = requests := by
        rw [JsonValue.get_eq, hrequests, if_pos rfl, if_pos hobject, Option.getD_some]
      cases hanswersNot (by simp)
      cases hfailsNot (by simp)
      simp only [readCarried, hread, hobject, if_true]
  | completed =>
      obtain ⟨value, hvalue, hobject⟩ := hanswers rfl
      cases hvalue
      have hread : json.get kResult = value := by
        rw [JsonValue.get_eq, hresult, if_pos rfl, Option.filter_some, if_pos hobject]
        rfl
      cases hasksNot (by simp)
      cases hfailsNot (by simp)
      simp only [readCarried, hread, hobject, if_true]
  | failed =>
      obtain ⟨value, hvalue⟩ := hfails rfl
      cases hvalue
      have hread : json.get kError = value.serialize := by
        rw [JsonValue.get_eq, herror, if_pos rfl]
        rfl
      have hobject : value.serialize.isObject = true := JsonValue.isObject_ofFields value.fields
      have hback : readError value.serialize = some value := readError_serialize (hdata value rfl)
      cases hasksNot (by simp)
      cases hanswersNot (by simp)
      simp only [readCarried, hread, hobject, hback, if_true, Option.map_some]

/-- No task is written with a field of another status. -/
theorem mem_carried_of_contains {key : Bytes} (h : task.toJson.contains key = true) : key ∈ carried task.status := by
  obtain ⟨value, hvalue⟩ := JsonValue.contains_ofFields h
  obtain ⟨id, status, message, created, updated, ttl, interval, requests, result, error⟩ := task
  simp only [fields, List.mem_cons, Prod.mk.injEq, List.not_mem_nil, or_false] at hvalue
  cases status <;> simp [carried] <;> grind

/-- A failed task whose error carries nested JSON. -/
def nestedFailure : TaskDocument where
  taskId := ascii "t1"
  status := .failed
  statusMessage := none
  createdAt := ascii "c"
  lastUpdatedAt := ascii "u"
  ttlMs := none
  pollIntervalMs := some 5
  inputRequests := .null
  result := none
  error := some ⟨-32000, ascii "no", some (.json (.array [.null]))⟩

/-- A truth value kept as JSON comes back as a truth value. -/
def wrappedFailure : TaskDocument where
  taskId := ascii "t1"
  status := .failed
  statusMessage := none
  createdAt := ascii "c"
  lastUpdatedAt := ascii "u"
  ttlMs := none
  pollIntervalMs := none
  inputRequests := .null
  result := none
  error := some ⟨-32000, ascii "no", some (.json (.boolean true))⟩

end TaskDocument

end GopherMcp
