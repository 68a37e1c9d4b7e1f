import GopherMcp.Lib.Runs
import GopherMcp.Protocol.DesignatedParams
import GopherMcp.Server.PageWalk

/-!
# Tools and the calls to them

A server keeps its tools in a registry, by name: what is listed, what is called and what is carried in
headers are tables of their own. A tool whose calls run as tasks is registered like any other, with a
handler that is not meant to be reached, and its task handler is kept outside of the registry.
-/

namespace GopherMcp

/-- What stands in the registry as the handler of a tool. A function may be empty; for a task tool there is
one that says the tool runs only as a task. -/
inductive ToolHandler (α : Type) where
  | function (handler : Option α)
  | onlyAsTask

/-- `tools_`, `tool_handlers_` and `designated_`, and the number of tools. -/
structure ToolRegistry (α : Type) where
  tools : Paging.Listing Tool.name
  toolHandlers : OrdMap Bytes (ToolHandler α)
  designated : OrdMap Bytes (List DesignatedParam)
  count : Nat

structure ToolServer (α β : Type) where
  registry : ToolRegistry α
  taskTools : OrdMap Bytes β
  hasTaskTools : Bool

/-- Registering and removing. -/
inductive ToolOp (α β : Type) where
  | registerTool (tool : Tool) (handler : Option α)
  | registerTaskTool (tool : Tool) (handler : Option β)
  | unregisterTool (name : Bytes)

/-- What becomes of a call: it is refused, or a handler runs, and where that is a plain one, its success
owes structured content if an output schema is declared. -/
inductive CallOutcome (α β : Type) where
  | refused (error : Error)
  | task (handler : β)
  | plain (handler : ToolHandler α) (owesContent : Bool)

/-- Why a tool cannot be registered, or its designated parameters. -/
def Tool.usable (tool : Tool) : Except Bytes (List DesignatedParam) :=
  if tool.outputSchema.any fun schema => !schema.isObject then
    .error (ascii "Tool " ++ tool.name ++ ascii " refused: its outputSchema must be a JSON Schema object")
  else (DesignatedParams.designatedParams tool).mapError Error.message

namespace ToolRegistry

variable {α : Type}

def new : ToolRegistry α where
  tools := ⟨.empty, fun _ hentry => absurd hentry List.not_mem_nil⟩
  toolHandlers := .empty
  designated := .empty
  count := 0

def registerTool (registry : ToolRegistry α) (tool : Tool) (handler : ToolHandler α) :
    ToolRegistry α × Bool :=
  match tool.usable with
  | .error _ => (registry, false)
  | .ok designated =>
      let tools := registry.tools.register tool
      ({ tools
         toolHandlers := registry.toolHandlers.insert tool.name handler
         designated := registry.designated.insert tool.name designated
         count := tools.items.entries.length }, true)

def unregisterTool (registry : ToolRegistry α) (name : Bytes) : ToolRegistry α × Bool :=
  let tools := registry.tools.unregister name
  ({ tools
     toolHandlers := registry.toolHandlers.erase name
     designated := registry.designated.erase name
     count := tools.items.entries.length }, registry.tools.items.contains name)

def declaresOutputSchema (registry : ToolRegistry α) (name : Bytes) : Bool :=
  (registry.tools.items.find? name).any fun tool => tool.outputSchema.isSome

def paramsForTool (registry : ToolRegistry α) (name : Bytes) : Option (List DesignatedParam) :=
  registry.designated.find? name

/-- `callTool`, as far as the handler it calls. -/
def callTool (registry : ToolRegistry α) (name : Bytes) : Except Error (ToolHandler α) :=
  match registry.toolHandlers.find? name with
  | some handler => .ok handler
  | none => .error ⟨INVALID_PARAMS, ascii "Unknown tool: " ++ name⟩

end ToolRegistry

namespace ToolServer

variable {α β : Type}

def new : ToolServer α β := ⟨.new, .empty, false⟩

def registerTool (s : ToolServer α β) (tool : Tool) (handler : ToolHandler α) : ToolServer α β × Bool :=
  let (registry, registered) := s.registry.registerTool tool handler
  ({ s with registry }, registered)

def registerTaskTool (s : ToolServer α β) (tool : Tool) (handler : Option β) : ToolServer α β × Bool :=
  match handler with
  | none => (s, false)
  | some handler =>
      let (listed, registered) := s.registerTool tool .onlyAsTask
      if registered then
        ({ listed with taskTools := listed.taskTools.insert tool.name handler, hasTaskTools := true }, true)
      else (listed, false)

def unregisterTool (s : ToolServer α β) (name : Bytes) : ToolServer α β × Bool :=
  let (registry, removed) := s.registry.unregisterTool name
  ({ s with registry }, removed)

/-- The server after an operation, and what the operation returns. -/
def perform (s : ToolServer α β) : ToolOp α β → ToolServer α β × Bool
  | .registerTool tool handler => s.registerTool tool (.function handler)
  | .registerTaskTool tool handler => s.registerTaskTool tool handler
  | .unregisterTool name => s.unregisterTool name

def step (s : ToolServer α β) (op : ToolOp α β) : ToolServer α β := (s.perform op).1

/-- A tool whose calls run as tasks is answered with one. -/
def callNamed (s : ToolServer α β) (name : Bytes) : CallOutcome α β :=
  match s.taskTools.find? name with
  | some handler => .task handler
  | none =>
      match s.registry.callTool name with
      | .ok handler => .plain handler (s.registry.declaresOutputSchema name)
      | .error error => .refused error

/-- `handleCallTool`, as far as the handler that runs. -/
def handleCallTool (s : ToolServer α β) (params : Option (OrdMap Bytes JsonValue)) : CallOutcome α β :=
  match params with
  | none => .refused ⟨INVALID_PARAMS, ascii "Missing parameters"⟩
  | some params =>
      match params.find? (ascii "name") with
      | some (.string name) => s.callNamed name
      | _ => .refused ⟨INVALID_PARAMS, ascii "Invalid name parameter"⟩

/-- A client that follows the cursors of `tools/list` to the end sees a tool of this name. -/
def Shows (s : ToolServer α β) (signer : CursorSigner) (pageSize : Nat) (name : Bytes) : Prop :=
  ∃ rounds w, Paging.walk signer (ascii "tools") pageSize s.registry.tools none
      (List.replicate rounds []) = .ok w ∧
    w.next = none ∧ name ∈ w.pages.flatten.map Tool.name

end ToolServer

/-! ### What registering is for -/

/-- A successful registration. -/
structure Registration (α β : Type) where
  tool : Tool
  handler : Option α ⊕ β
  designated : List DesignatedParam

namespace Registration

variable {α β : Type}

def taskHandler (registration : Registration α β) : Option β := registration.handler.getRight?

/-- What stands in the registry for it. -/
def toolHandler (registration : Registration α β) : ToolHandler α :=
  match registration.handler with
  | .inl handler => .function handler
  | .inr _ => .onlyAsTask

/-- What a call is to do. -/
def outcome (registration : Registration α β) : CallOutcome α β :=
  match registration.handler with
  | .inl handler => .plain (.function handler) registration.tool.outputSchema.isSome
  | .inr handler => .task handler

end Registration

/-- The latest registration under each name. -/
abbrev Catalog (α β : Type) := OrdMap Bytes (Registration α β)

namespace Catalog

variable {α β : Type}

/-- A registration counts when its tool is usable and its handler may be registered. -/
def register (catalog : Catalog α β) (tool : Tool) (handler : Option (Option α ⊕ β)) : Catalog α β :=
  match handler, tool.usable with
  | some handler, .ok designated => catalog.insert tool.name ⟨tool, handler, designated⟩
  | _, _ => catalog

def step (catalog : Catalog α β) : ToolOp α β → Catalog α β
  | .registerTool tool handler => catalog.register tool (some (.inl handler))
  | .registerTaskTool tool handler => catalog.register tool (handler.map .inr)
  | .unregisterTool name => catalog.erase name

end Catalog

end GopherMcp
