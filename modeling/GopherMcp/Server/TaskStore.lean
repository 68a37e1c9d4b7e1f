import GopherMcp.Core.Error
import GopherMcp.Lib.Runs
import GopherMcp.Protocol.InputRequests

/-!
# The tasks a server is running

The store holds its tasks under one lock, and each operation does its work with the lock held and makes
its calls out once the lock is released. The calls an operation is going to make are listed here when it
takes them, in `calls`: the thread that took a call makes it once, whatever other operations run
in between. Tasks, questions and observers carry the number of the operation that made them, and
`history` keeps what was asked, watched and cancelled; neither is looked at by the code.
-/

namespace GopherMcp

/-! ### Tasks -/

inductive Status where
  | working
  | inputRequired
  | completed
  | failed
  | cancelled
  deriving DecidableEq

def isTerminal (status : Status) : Bool :=
  status = .completed || status = .failed || status = .cancelled

structure Task where
  taskId : Bytes
  status : Status
  statusMessage : Option Bytes
  createdAt : Bytes
  lastUpdatedAt : Bytes
  ttlMs : Option Int
  pollIntervalMs : Option Int
  inputRequests : JsonValue
  result : Option JsonValue
  error : Option Error

namespace TaskStore

/-- `std::set<std::string>`. -/
abbrev KeySet := OrdMap Bytes Unit

abbrev Answers := OrdMap Bytes JsonValue

structure Entry where
  owner : Bytes
  task : Task
  expires : Option Int
  cancelRequested : Bool
  onCancelled : List Nat
  usedKeys : KeySet
  outstanding : KeySet
  onAnswered : Option Nat
  born : Nat

structure Config where
  ttl : Int
  pollInterval : Int
  maxPerCaller : Nat
  /-- Whether there is a callback for changes. -/
  changed : Bool

/-- A call made once the lock is released. -/
inductive Call where
  | changed (task : Task)
  | answered (born question : Nat) (answers : Answers)
  | observed (born observer : Nat)

inductive Event where
  | asked (born question : Nat) (keys : List Bytes)
  | watched (born observer : Nat)
  | cancelled (born : Nat)

structure State where
  config : Config
  entries : OrdMap Bytes Entry
  nextNumber : Nat
  calls : List Call
  history : List Event

/-- Both clocks, as an operation reads them; the wall clock as it is written. -/
structure Now where
  steady : Int
  wall : Bytes

namespace State

def empty (config : Config) : State := ⟨config, .empty, 0, [], []⟩

def put (s : State) (id : Bytes) (entry : Entry) : State :=
  { s with entries := s.entries.insert id entry }

def call (s : State) (calls : List Call) : State := { s with calls := s.calls ++ calls }

def note (s : State) (event : Event) : State := { s with history := s.history ++ [event] }

def tell (s : State) (task : Task) : State := if s.config.changed then s.call [.changed task] else s

end State

/-! ### The store -/

def Entry.expired (entry : Entry) (now : Now) : Bool :=
  match entry.expires with
  | some expires => expires ≤ now.steady
  | none => false

def touch (entry : Entry) (now : Now) : Entry :=
  { entry with task := { entry.task with lastUpdatedAt := now.wall } }

def sweep (s : State) (now : Now) : State :=
  { s with entries := s.entries.filter fun _ entry => !entry.expired now }

/-- `create`; the id is what `newTaskId` gives. -/
def create (s : State) (owner id : Bytes) (now : Now) : State × Option Bytes :=
  let task : Task :=
    { taskId := id
      status := .working
      statusMessage := none
      createdAt := now.wall
      lastUpdatedAt := now.wall
      ttlMs := if 0 < s.config.ttl then some s.config.ttl else none
      pollIntervalMs := some s.config.pollInterval
      inputRequests := .null
      result := none
      error := none }
  let entry : Entry :=
    { owner := owner
      task := task
      expires := if 0 < s.config.ttl then some (now.steady + s.config.ttl) else none
      cancelRequested := false
      onCancelled := []
      usedKeys := .empty
      outstanding := .empty
      onAnswered := none
      born := s.nextNumber }
  let swept := sweep s now
  if swept.entries.values.countP (·.owner = owner) ≥ s.config.maxPerCaller then (swept, none)
  else ({ swept.put id entry with nextNumber := s.nextNumber + 1 }, some id)

def find (s : State) (owner id : Bytes) (now : Now) : Option Entry :=
  match s.entries.find? id with
  | none => none
  | some entry =>
      if entry.expired now then none else if entry.owner = owner then some entry else none

def get (s : State) (owner id : Bytes) (now : Now) : Option Task := (find s owner id now).map (·.task)

def owns (s : State) (owner id : Bytes) (now : Now) : Bool := (find s owner id now).isSome

/-- One key of the answers: only what is still being waited for is taken. -/
def takeAnswer (responses : JsonValue) (taken : KeySet × Answers) (key : Bytes) : KeySet × Answers :=
  if taken.1.contains key then (taken.1.erase key, taken.2.insert key (responses.get key)) else taken

def takeAnswers (responses : JsonValue) (outstanding : KeySet) : KeySet × Answers :=
  if responses.isObject then responses.keys.foldl (takeAnswer responses) (outstanding, .empty)
  else (outstanding, .empty)

/-- One key that is left outstanding, with its request. -/
def leftRequest (requests left : JsonValue) (key : Bytes) : JsonValue :=
  if requests.isObject && requests.contains key then left.set key (requests.get key) else left

def leftRequests (requests : JsonValue) (outstanding : KeySet) : JsonValue :=
  outstanding.keys.foldl (leftRequest requests) .emptyObject

/-- The call of the callback waiting, if there is one. -/
def answerCall (entry : Entry) (answers : Answers) : List Call :=
  entry.onAnswered.toList.map fun question => .answered entry.born question answers

def update (s : State) (owner id : Bytes) (responses : JsonValue) (now : Now) : State × Bool :=
  match find s owner id now with
  | none => (s, false)
  | some entry =>
      let (outstanding, answers) := takeAnswers responses entry.outstanding
      if answers.entries.isEmpty then (s, true)
      else if outstanding.entries.isEmpty then
        let answered := { entry with outstanding := outstanding, onAnswered := none }
        if entry.task.status = .inputRequired then
          let task := { entry.task with status := .working, inputRequests := .null }
          let back := touch { answered with task := task } now
          (((s.put id back).tell back.task).call (answerCall entry answers), true)
        else ((s.put id answered).call (answerCall entry answers), true)
      else
        let task :=
          { entry.task with inputRequests := leftRequests entry.task.inputRequests outstanding }
        let waiting := touch { entry with outstanding := outstanding, task := task } now
        (((s.put id waiting).tell waiting.task).call (answerCall entry answers), true)

def cancel (s : State) (owner id : Bytes) (now : Now) : State × Bool :=
  match find s owner id now with
  | none => (s, false)
  | some entry =>
      if entry.cancelRequested || isTerminal entry.task.status then (s, true)
      else
        let task := { entry.task with status := .cancelled, inputRequests := .null }
        let ended := touch
          { entry with
            cancelRequested := true
            task := task
            outstanding := .empty
            onAnswered := none
            onCancelled := [] } now
        (((((s.put id ended).note (.cancelled entry.born)).tell ended.task).call
          (entry.onCancelled.map fun observer => .observed entry.born observer)), true)

/-! ### The handle -/

def isCancelled (s : State) (id : Bytes) : Bool :=
  (s.entries.find? id).any (·.cancelRequested)

/-- `onCancelled`; the number stands for the observer given. -/
def onCancelled (s : State) (id : Bytes) : State :=
  match s.entries.find? id with
  | none => s
  | some entry =>
      let watched :=
        { s with nextNumber := s.nextNumber + 1 }.note (.watched entry.born s.nextNumber)
      if entry.cancelRequested then watched.call [.observed entry.born s.nextNumber]
      else watched.put id { entry with onCancelled := entry.onCancelled ++ [s.nextNumber] }

def setStatusMessage (s : State) (id message : Bytes) (now : Now) : State :=
  match s.entries.find? id with
  | none => s
  | some entry =>
      if isTerminal entry.task.status then s
      else
        let told := touch { entry with task := { entry.task with statusMessage := some message } } now
        (s.put id told).tell told.task

def finish (s : State) (id : Bytes) (status : Status) (result : Option JsonValue)
    (error : Option Error) (now : Now) : State :=
  match s.entries.find? id with
  | none => s
  | some entry =>
      if isTerminal entry.task.status then s
      else
        let task :=
          { entry.task with status := status, result := result, error := error, inputRequests := .null }
        let finished :=
          touch { entry with task := task, outstanding := .empty, onAnswered := none } now
        (s.put id finished).tell finished.task

/-- The keys of a question, marked as used and as outstanding. -/
def askKeys (requests : InputRequests) (keys : KeySet) : KeySet :=
  requests.keys.foldl (fun keys key => keys.insert key ()) keys

/-- The requests as they are published, beside those there are. -/
def askRequests (requests : InputRequests) (published : JsonValue) : JsonValue :=
  let rendered := renderInputRequired ⟨requests, none⟩
  let fresh := rendered.get kInputRequestsField
  requests.keys.foldl (fun asked key => asked.set key (fresh.get key))
    (if published.isObject then published else .emptyObject)

/-- `askForInput`; `callback` says whether there is one, and the number stands for it. -/
def askForInput (s : State) (id : Bytes) (requests : InputRequests) (callback : Bool) (now : Now) :
    State × Bool :=
  if requests.entries.isEmpty then (s, false)
  else
    match s.entries.find? id with
    | none => (s, false)
    | some entry =>
        if isTerminal entry.task.status then (s, false)
        else if !entry.outstanding.entries.isEmpty then (s, false)
        else if requests.keys.any fun key => entry.usedKeys.contains key then (s, false)
        else
          let task :=
            { entry.task with
              status := .inputRequired
              inputRequests := askRequests requests entry.task.inputRequests }
          let asking := touch
            { entry with
              task := task
              usedKeys := askKeys requests entry.usedKeys
              outstanding := askKeys requests entry.outstanding
              onAnswered := if callback then some s.nextNumber else none } now
          ((({ s with nextNumber := s.nextNumber + 1 }.note
            (.asked entry.born s.nextNumber requests.keys)).put id asking).tell asking.task, true)

/-! ### Runs -/

inductive Operation where
  | create (owner id : Bytes)
  | get (owner id : Bytes)
  | owns (owner id : Bytes)
  | update (owner id : Bytes) (responses : JsonValue)
  | cancel (owner id : Bytes)
  | sweep
  | isCancelled (id : Bytes)
  | onCancelled (id : Bytes)
  | setStatusMessage (id message : Bytes)
  | complete (id : Bytes) (result : JsonValue)
  | fail (id : Bytes) (error : Error)
  | askForInput (id : Bytes) (requests : InputRequests) (callback : Bool)

def step (s : State) (operation : Operation × Now) : State :=
  let now := operation.2
  match operation.1 with
  | .create owner id => (create s owner id now).1
  | .get _ _ | .owns _ _ | .isCancelled _ => s
  | .update owner id responses => (update s owner id responses now).1
  | .cancel owner id => (cancel s owner id now).1
  | .sweep => sweep s now
  | .onCancelled id => onCancelled s id
  | .setStatusMessage id message => setStatusMessage s id message now
  | .complete id result => finish s id .completed (some result) none now
  | .fail id error => finish s id .failed none (some error) now
  | .askForInput id requests callback => (askForInput s id requests callback now).1

/-- The state after a run of operations on a new store. -/
def run (config : Config) (operations : List (Operation × Now)) : State :=
  Runs.run step (State.empty config) operations

end TaskStore

end GopherMcp
