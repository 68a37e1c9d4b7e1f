import GopherMcp.Server.TaskRuns

/-!
# Requests about tasks

A task is made for an owner, which is the caller the transport names, written so that no caller can be taken for
none. A request that has no owner asks about tasks under a name that no owner has. The handler of a tool works
on its task before the call is answered, and may throw then; what it does later is done through the handle.
-/

namespace GopherMcp

def INVALID_REQUEST : Int := -32600
def METHOD_NOT_FOUND : Int := -32601
def kMissingRequiredClientCapability : Int := -32021

namespace TaskRequests

open TaskStore (Now)

def kMethodGet : Bytes := ascii "tasks/get"
def kMethodUpdate : Bytes := ascii "tasks/update"
def kMethodCancel : Bytes := ascii "tasks/cancel"
def kMethodSubscriptionsListen : Bytes := ascii "subscriptions/listen"
def kTaskId : Bytes := ascii "taskId"
def kInputResponsesField : Bytes := ascii "inputResponses"

/-- What is done to tasks through their handles, and by the clock. -/
inductive Work
  | sweep
  | onCancelled (id : Bytes)
  | setStatusMessage (id message : Bytes)
  | complete (id : Bytes) (result : JsonValue)
  | fail (id : Bytes) (error : Error)
  | askForInput (id : Bytes) (requests : InputRequests) (callback : Bool)

def Work.operation : Work → TaskStore.Operation
  | .sweep => .sweep
  | .onCancelled id => .onCancelled id
  | .setStatusMessage id message => .setStatusMessage id message
  | .complete id result => .complete id result
  | .fail id error => .fail id error
  | .askForInput id requests callback => .askForInput id requests callback

def Work.step (s : TaskStore.State) (work : Work × Now) : TaskStore.State :=
  TaskStore.step s (work.1.operation, work.2)

/-- The call of a tool that runs as a task: the id that `newTaskId` gives, what the handler does before it
returns, and what it throws. -/
structure TaskCall where
  id : Bytes
  created : Now
  work : List (Work × Now)
  thrown : Option (Bytes × Now)
  answered : Now

inductive TaskRequest
  | toolCall (call : TaskCall)
  | method (method : Bytes) (params : JsonValue) (now : Now)
  | listen (taskIds : List Bytes) (now : Now)

/-- A request, with whether its `_meta` declares the newest revision. -/
structure IncomingRequest where
  modern : Bool
  request : TaskRequest

/-- What a session says of the request being handled: its caller, and whether its client takes tasks. -/
structure SessionContext where
  principal : Bytes
  tasks : Bool

/-- What is answered: an error, the task made, a task asked for, nothing to say, or that the changes of some
tasks are listened to. -/
inductive TaskAnswer
  | error (error : Error)
  | created (task : Task)
  | task (task : Task)
  | complete
  | listening (taskIds : List Bytes)

/-! ### The handlers -/

def callerPrefix : Bytes := ascii "caller:"

def taskOwnerOf (allowTasksWithoutCaller : Bool) (session : SessionContext) : Option Bytes :=
  if !session.principal.isEmpty then some (callerPrefix ++ session.principal)
  else if allowTasksWithoutCaller then some [] else none

/-- The owner of no task. -/
def noOwner : Bytes := ascii "\x01none"

def tasksExtensionRequired : Error :=
  ⟨kMissingRequiredClientCapability, ascii "Missing required client capability"⟩

def methodNotFound (method : Bytes) : Error := ⟨METHOD_NOT_FOUND, ascii "Method not found: " ++ method⟩

/-- The handler runs, and a task it leaves by throwing has failed. -/
def runHandler (s : TaskStore.State) (call : TaskCall) (id : Bytes) : TaskStore.State :=
  let worked := Runs.run Work.step s call.work
  match call.thrown with
  | none => worked
  | some (what, now) => Work.step worked (.fail id ⟨INTERNAL_ERROR, what⟩, now)

def handleTaskToolCall (allowTasksWithoutCaller : Bool) (s : TaskStore.State) (session : SessionContext)
    (modern : Bool) (call : TaskCall) : TaskStore.State × TaskAnswer :=
  if !modern || !session.tasks then (s, .error tasksExtensionRequired)
  else
    match taskOwnerOf allowTasksWithoutCaller session with
    | none =>
        (s, .error
          ⟨INVALID_REQUEST, ascii "this tool runs as a task, which needs an authenticated caller"⟩)
    | some owner =>
        match TaskStore.create s owner call.id call.created with
        | (s, none) => (s, .error ⟨INTERNAL_ERROR, ascii "too many tasks are held for this caller"⟩)
        | (s, some id) =>
            let s := runHandler s call id
            match TaskStore.get s owner id call.answered with
            | none => (s, .error ⟨INTERNAL_ERROR, ascii "the task could not be kept"⟩)
            | some task => (s, .created task)

def unknownTask : Error := ⟨INVALID_PARAMS, ascii "Failed to retrieve task: Task not found"⟩

/-- The answer to what was done to a task, or was not. -/
def acknowledge (done : TaskStore.State × Bool) : TaskStore.State × TaskAnswer :=
  (done.1, if done.2 then .complete else .error unknownTask)

/-- What is asked of one task, by the owner who asks. -/
def askTask (s : TaskStore.State) (owner id method : Bytes) (params : JsonValue) (now : Now) :
    TaskStore.State × TaskAnswer :=
  if method = kMethodGet then
    match TaskStore.get s owner id now with
    | none => (s, .error unknownTask)
    | some task => (s, .task task)
  else if method = kMethodUpdate then
    let responses :=
      if params.contains kInputResponsesField then params.get kInputResponsesField else .emptyObject
    acknowledge (TaskStore.update s owner id responses now)
  else acknowledge (TaskStore.cancel s owner id now)

def handleTaskMethod (allowTasksWithoutCaller : Bool) (s : TaskStore.State) (session : SessionContext)
    (modern : Bool) (method : Bytes) (params : JsonValue) (now : Now) : TaskStore.State × TaskAnswer :=
  if !modern then (s, .error (methodNotFound method))
  else if !session.tasks then (s, .error tasksExtensionRequired)
  else
    match params.stringAt kTaskId with
    | none => (s, .error ⟨INVALID_PARAMS, ascii "taskId is required"⟩)
    | some id =>
        askTask s ((taskOwnerOf allowTasksWithoutCaller session).getD noOwner) id method params now

/-- The part of `subscriptions/listen` that is about tasks: it names those it listens to. -/
def handleListen (allowTasksWithoutCaller : Bool) (s : TaskStore.State) (session : SessionContext)
    (modern : Bool) (taskIds : List Bytes) (now : Now) : TaskAnswer :=
  if !modern then .error (methodNotFound kMethodSubscriptionsListen)
  else if taskIds.isEmpty then .listening []
  else if !session.tasks then .error tasksExtensionRequired
  else
    .listening <| taskIds.filter fun id =>
      (taskOwnerOf allowTasksWithoutCaller session).any fun owner => TaskStore.owns s owner id now

def handle (allowTasksWithoutCaller : Bool) (s : TaskStore.State) (session : SessionContext)
    (incoming : IncomingRequest) : TaskStore.State × TaskAnswer :=
  match incoming.request with
  | .toolCall call => handleTaskToolCall allowTasksWithoutCaller s session incoming.modern call
  | .method method params now =>
      handleTaskMethod allowTasksWithoutCaller s session incoming.modern method params now
  | .listen taskIds now =>
      (s, handleListen allowTasksWithoutCaller s session incoming.modern taskIds now)

/-! ### Owners -/

/-- An owner that stands for a caller. -/
def CallerBound (owner : Bytes) : Prop := ∃ caller, owner = callerPrefix ++ caller

/-- The answer gives no task and does nothing to one. -/
def Denied : TaskAnswer → Prop
  | .error _ => True
  | .listening taskIds => taskIds = []
  | .created _ | .task _ | .complete => False

theorem not_callerBound_nil : ¬ CallerBound [] := by
  intro h
  obtain ⟨caller, hnil⟩ := h
  cases hnil

/-- No request has the name that asks about no task. -/
theorem taskOwnerOf_ne_noOwner {allow : Bool} {session : SessionContext} {owner : Bytes}
    (h : taskOwnerOf allow session = some owner) : owner ≠ noOwner := by
  unfold taskOwnerOf at h
  split_ifs at h with hprincipal hallow
  · rw [← Option.some.inj h]
    intro hsame
    have hhead : (99 : UInt8) = 1 := (List.cons.inj hsame).1
    exact absurd hhead (by decide)
  · rw [← Option.some.inj h]
    decide

/-- A request of no one has no owner, or the one that stands for none. -/
theorem taskOwnerOf_of_nil {allow : Bool} {session : SessionContext} (h : session.principal = []) :
    taskOwnerOf allow session = if allow then some [] else none := by
  unfold taskOwnerOf
  rw [h]
  rfl

/-- A stranger to a task gets nothing of it. -/
theorem askTask_strange {s : TaskStore.State} {owner id : Bytes} {now : Now}
    (h : TaskStore.Strange s owner id now) (method : Bytes) (params : JsonValue) :
    askTask s owner id method params now = (s, .error unknownTask) := by
  unfold askTask
  simp only [h.get, h.update, h.cancel]
  split_ifs
  · rfl
  · rfl
  · rfl

/-- Without an owner nothing is done, whatever is asked. -/
theorem handle_of_no_owner {s : TaskStore.State} {session : SessionContext} {allow : Bool}
    (howner : taskOwnerOf allow session = none)
    (hstore : ∀ id entry, s.entries.find? id = some entry → entry.owner ≠ noOwner)
    (incoming : IncomingRequest) :
    (handle allow s session incoming).1 = s ∧ Denied (handle allow s session incoming).2 := by
  obtain ⟨modern, request⟩ := incoming
  cases request with
  | toolCall call =>
      simp only [handle, handleTaskToolCall, howner]
      split_ifs
      · exact ⟨rfl, trivial⟩
      · exact ⟨rfl, trivial⟩
  | method method params now =>
      have hstrange (id : Bytes) : TaskStore.Strange s noOwner id now :=
        TaskStore.strange_of_find (TaskStore.find_eq_none (fun entry => hstore id entry) now)
      have hask (id : Bytes) := askTask_strange (hstrange id) method params
      simp only [handle, handleTaskMethod, howner, Option.getD_none, hask]
      split_ifs
      · exact ⟨rfl, trivial⟩
      · exact ⟨rfl, trivial⟩
      · cases params.stringAt kTaskId with
        | none => exact ⟨rfl, trivial⟩
        | some id => exact ⟨rfl, trivial⟩
  | listen taskIds now =>
      simp only [handle, handleListen, howner, Option.any_none]
      split_ifs
      · exact ⟨trivial, trivial⟩
      · exact ⟨trivial, rfl⟩
      · exact ⟨trivial, trivial⟩
      · exact ⟨trivial, List.filter_false taskIds⟩

/-! ### What handling keeps -/

variable {s s' : TaskStore.State} {id : Bytes} {entry entry' : TaskStore.Entry}

/-- The limits are the same, and every task has the owner it had. -/
structure KeepsOwners (s s' : TaskStore.State) : Prop where
  config : s'.config = s.config
  owners : ∀ id entry', s'.entries.find? id = some entry' →
    ∃ entry, s.entries.find? id = some entry ∧ entry'.owner = entry.owner

theorem KeepsOwners.trans {s'' : TaskStore.State} (h : KeepsOwners s s') (h' : KeepsOwners s' s'') :
    KeepsOwners s s'' := by
  refine ⟨h'.config.trans h.config, fun id entry'' hfind'' => ?_⟩
  obtain ⟨entry', hfind', howner'⟩ := h'.owners id entry'' hfind''
  obtain ⟨entry, hfind, howner⟩ := h.owners id entry' hfind'
  exact ⟨entry, hfind, howner'.trans howner⟩

theorem keepsOwners_of_entries (hconfig : s'.config = s.config) (hentries : s'.entries = s.entries) :
    KeepsOwners s s' :=
  ⟨hconfig, fun _ entry hfind => ⟨entry, hentries ▸ hfind, rfl⟩⟩

theorem keepsOwners_of_keeps (h : TaskStore.Keeps s s') : KeepsOwners s s' := by
  refine ⟨h.config, fun id entry' hfind' => ?_⟩
  obtain ⟨entry, hfind, howner, -⟩ := h.entries id entry' hfind'
  exact ⟨entry, hfind, howner⟩

theorem keepsOwners_work (work : Work × Now) : KeepsOwners s (Work.step s work) := by
  obtain ⟨work, now⟩ := work
  cases work with
  | sweep => exact keepsOwners_of_keeps (TaskStore.keeps_sweep now)
  | onCancelled id => exact keepsOwners_of_keeps TaskStore.keeps_onCancelled
  | setStatusMessage id message => exact keepsOwners_of_keeps (TaskStore.keeps_setStatusMessage message now)
  | complete id result => exact keepsOwners_of_keeps (TaskStore.keeps_finish _ _ _ now)
  | fail id error => exact keepsOwners_of_keeps (TaskStore.keeps_finish _ _ _ now)
  | askForInput id requests callback => exact keepsOwners_of_keeps (TaskStore.keeps_askForInput requests callback now)

theorem keepsOwners_runHandler (call : TaskCall) (id : Bytes) : KeepsOwners s (runHandler s call id) := by
  have hwork : KeepsOwners s (Runs.run Work.step s call.work) :=
    Runs.related Work.step (fun _ => keepsOwners_of_entries rfl rfl) (fun _ _ _ => KeepsOwners.trans)
      (fun _ work => keepsOwners_work work) s call.work
  unfold runHandler
  cases call.thrown with
  | none => exact hwork
  | some thrown => exact hwork.trans (keepsOwners_work _)

theorem keepsOwners_askTask (owner id method : Bytes) (params : JsonValue) (now : Now) :
    KeepsOwners s (askTask s owner id method params now).1 := by
  unfold askTask
  split_ifs with hget hupdate
  · cases TaskStore.get s owner id now with
    | none => exact keepsOwners_of_entries rfl rfl
    | some task => exact keepsOwners_of_entries rfl rfl
  · exact keepsOwners_of_keeps (TaskStore.keeps_update _ _ now)
  · exact keepsOwners_of_keeps (TaskStore.keeps_update _ _ now)
  · exact keepsOwners_of_keeps (TaskStore.keeps_cancel owner now)

/-- The limits are the same, and every task has the owner it had or is one of those of this owner. -/
structure MakesFor (owner : Option Bytes) (s s' : TaskStore.State) : Prop where
  config : s'.config = s.config
  owners : ∀ id entry', s'.entries.find? id = some entry' →
    (∃ entry, s.entries.find? id = some entry ∧ entry'.owner = entry.owner) ∨ owner = some entry'.owner

theorem KeepsOwners.makesFor (h : KeepsOwners s s') (owner : Option Bytes) : MakesFor owner s s' :=
  ⟨h.config, fun id entry' hfind => .inl (h.owners id entry' hfind)⟩

theorem MakesFor.trans {owner : Option Bytes} {s'' : TaskStore.State} (h : MakesFor owner s s')
    (h' : KeepsOwners s' s'') : MakesFor owner s s'' := by
  refine ⟨h'.config.trans h.config, fun id entry'' hfind'' => ?_⟩
  obtain ⟨entry', hfind', howner'⟩ := h'.owners id entry'' hfind''
  rcases h.owners id entry' hfind' with ⟨entry, hfind, howner⟩ | hnew
  · exact .inl ⟨entry, hfind, howner'.trans howner⟩
  · exact .inr (howner' ▸ hnew)

theorem makesFor_create (owner : Bytes) (now : Now) :
    MakesFor (some owner) s (TaskStore.create s owner id now).1 := by
  have hswept := (keepsOwners_of_keeps (@TaskStore.keeps_sweep s now)).makesFor (some owner)
  unfold TaskStore.create
  by_cases hheld : (TaskStore.sweep s now).entries.values.countP (·.owner = owner) ≥ s.config.maxPerCaller
  · simpa only [if_pos hheld] using hswept
  · simp only [if_neg hheld]
    refine ⟨hswept.config, fun other found hfound => ?_⟩
    rw [TaskStore.entries_put, OrdMap.find?_insert] at hfound
    by_cases hother : other = id
    · rw [if_pos hother] at hfound
      cases hfound
      exact .inr rfl
    · rw [if_neg hother] at hfound
      exact hswept.owners other found hfound

/-- **Whoever asks**, every task keeps its owner, and one that is made has the owner the request has. -/
theorem makesFor_handle (allow : Bool) (s : TaskStore.State) (session : SessionContext)
    (incoming : IncomingRequest) :
    MakesFor (taskOwnerOf allow session) s (handle allow s session incoming).1 := by
  have hsame (owner : Option Bytes) : MakesFor owner s s := (keepsOwners_of_entries rfl rfl).makesFor owner
  obtain ⟨modern, request⟩ := incoming
  cases request with
  | toolCall call =>
      simp only [handle, handleTaskToolCall]
      split_ifs
      · exact hsame _
      · cases taskOwnerOf allow session with
        | none => exact hsame none
        | some owner =>
            have hcreate := @makesFor_create s call.id owner call.created
            dsimp only
            rcases hmade : TaskStore.create s owner call.id call.created with ⟨made, _ | id⟩
            · rw [hmade] at hcreate
              exact hcreate
            · rw [hmade] at hcreate
              have hworked := hcreate.trans (keepsOwners_runHandler call id)
              dsimp only
              cases TaskStore.get (runHandler made call id) owner id call.answered with
              | none => exact hworked
              | some task => exact hworked
  | method method params now =>
      simp only [handle, handleTaskMethod]
      split_ifs
      · exact hsame _
      · exact hsame _
      · cases params.stringAt kTaskId with
        | none => exact hsame _
        | some id => exact (keepsOwners_askTask _ id method params now).makesFor _
  | listen taskIds now => exact hsame _

/-! ### What an owner gets -/

/-- A request that reads one task. -/
def readRequest (id : Bytes) (now : Now) : IncomingRequest :=
  ⟨true, .method kMethodGet (JsonValue.emptyObject.set kTaskId (.string id)) now⟩

/-- The call of a tool whose handler leaves its task as it is. -/
def callRequest (id : Bytes) (now : Now) : IncomingRequest := ⟨true, .toolCall ⟨id, now, [], none, now⟩⟩

variable {allow : Bool} {session : SessionContext} {owner : Bytes}

/-- A task is read by its owner. -/
theorem handle_readRequest (howner : taskOwnerOf allow session = some owner) (htasks : session.tasks = true)
    {now : Now} (hfind : TaskStore.find s owner id now = some entry) :
    handle allow s session (readRequest id now) = (s, .task entry.task) := by
  have hid : (JsonValue.emptyObject.set kTaskId (.string id)).stringAt kTaskId = some id :=
    @JsonValue.stringAt_of_get? _ _ (some id) (by rw [JsonValue.get?_set rfl, if_pos rfl]; rfl)
  have hget : TaskStore.get s owner id now = some entry.task := by
    rw [TaskStore.get, hfind, Option.map_some]
  simp only [handle, readRequest, handleTaskMethod, htasks, hid, howner, Option.getD_some, askTask, hget]
  rfl

/-- A task is made for an owner who has fewer than the limit. -/
theorem handle_callRequest (howner : taskOwnerOf allow session = some owner) (htasks : session.tasks = true)
    {now : Now} (hroom : ¬ (TaskStore.sweep s now).entries.values.countP (·.owner = owner) ≥
      s.config.maxPerCaller) :
    (handle allow s session (callRequest id now)).1.nextNumber = s.nextNumber + 1 := by
  have hmade : (TaskStore.create s owner id now).2 = some id ∧
      (TaskStore.create s owner id now).1.nextNumber = s.nextNumber + 1 := by
    unfold TaskStore.create
    constructor
    · simp only [if_neg hroom]
    · simp only [if_neg hroom]
  simp only [handle, callRequest, handleTaskToolCall, htasks, howner]
  rcases hcreate : TaskStore.create s owner id now with ⟨made, answer⟩
  rw [hcreate] at hmade
  obtain ⟨rfl, hnext⟩ := hmade
  dsimp only
  cases TaskStore.get (runHandler made ⟨id, now, [], none, now⟩ id) owner id now with
  | none => exact hnext
  | some task => exact hnext

end TaskRequests

end GopherMcp
