import GopherMcp.Json.Value
import GopherMcp.Lib.TopologicalOrder
import GopherMcp.Transport.EventId

/-!
# The filter order validator

What is registered of a type of filter is its stage, the filters it requires and those it must come before or after.
A chain is reordered by a topological sort along the dependencies, in whatever order a hash table gives those filters
that depend on none, and then by a stable sort along stage and priority. Where the dependencies are cyclic the
topological sort has no result, and the chain as it was is sorted.
-/

namespace GopherMcp

inductive FilterStage
  | security | qoS | observability | protocol | application
  deriving DecidableEq

namespace FilterStage

/-- The value of the enumerator. -/
def toNat : FilterStage → Nat
  | security => 0
  | qoS => 1
  | observability => 2
  | protocol => 3
  | application => 4

end FilterStage

def stageToString : FilterStage → Bytes
  | .security => ascii "Security"
  | .qoS => ascii "QoS"
  | .observability => ascii "Observability"
  | .protocol => ascii "Protocol"
  | .application => ascii "Application"

inductive TransportType
  | generic | http | httpWithSse | webSocket | tcp | stdio
  deriving DecidableEq

/-- A filter of a chain, as the validator reads it. -/
structure FilterConfig where
  name : Bytes
  config : JsonValue
  enabled : Bool
  dependencies : List Bytes
  conditions : JsonValue
  priority : Int

structure FilterOrderMetadata where
  filterType : Bytes
  stage : FilterStage
  requires : List Bytes
  before : List Bytes
  after : List Bytes

/-- The constructor of two arguments. -/
def FilterOrderMetadata.ofStage (filterType : Bytes) (stage : FilterStage) : FilterOrderMetadata :=
  ⟨filterType, stage, [], [], []⟩

structure ValidationResult where
  valid : Bool
  errors : List Bytes
  warnings : List Bytes

namespace ValidationResult

def empty : ValidationResult := ⟨true, [], []⟩

def addError (result : ValidationResult) (error : Bytes) : ValidationResult :=
  { result with valid := false, errors := result.errors ++ [error] }

def addWarning (result : ValidationResult) (warning : Bytes) : ValidationResult :=
  { result with warnings := result.warnings ++ [warning] }

def ofErrors (errors : List Bytes) : ValidationResult := errors.foldl addError empty

def ofWarnings (warnings : List Bytes) : ValidationResult := warnings.foldl addWarning empty

def merge (result other : ValidationResult) : ValidationResult where
  valid := result.valid && other.valid
  errors := result.errors ++ other.errors
  warnings := result.warnings ++ other.warnings

end ValidationResult

structure FilterOrderValidator where
  filterMetadata : OrdMap Bytes FilterOrderMetadata
  transportType : TransportType
  lastErrors : List Bytes

namespace FilterOrderValidator

/-! ### What is registered -/

def registerFilter (v : FilterOrderValidator) (metadata : FilterOrderMetadata) : FilterOrderValidator :=
  { v with filterMetadata := v.filterMetadata.insert metadata.filterType metadata }

def setTransportType (v : FilterOrderValidator) (transport : TransportType) : FilterOrderValidator :=
  { v with transportType := transport }

/-- Everything that is registered from the start. -/
def defaults : List FilterOrderMetadata :=
  [.ofStage (ascii "rate_limit") .security,
    .ofStage (ascii "auth") .security,
    .ofStage (ascii "authorization") .security,
    .ofStage (ascii "circuit_breaker") .qoS,
    .ofStage (ascii "backpressure") .qoS,
    .ofStage (ascii "flow_control") .qoS,
    .ofStage (ascii "metrics") .observability,
    .ofStage (ascii "tracing") .observability,
    .ofStage (ascii "logging") .observability,
    .ofStage (ascii "access_log") .observability,
    { FilterOrderMetadata.ofStage (ascii "http_codec") .protocol with before := [ascii "sse_codec"] },
    { FilterOrderMetadata.ofStage (ascii "sse_codec") .protocol with requires := [ascii "http_codec"] },
    .ofStage (ascii "websocket") .protocol,
    .ofStage (ascii "grpc") .protocol,
    .ofStage (ascii "json_rpc") .application,
    .ofStage (ascii "router") .application,
    .ofStage (ascii "custom") .application]

def initializeDefaults (v : FilterOrderValidator) : FilterOrderValidator := defaults.foldl registerFilter v

def new : FilterOrderValidator := initializeDefaults ⟨.empty, .generic, []⟩

def getFilterStage (v : FilterOrderValidator) (filterType : Bytes) : FilterStage :=
  match v.filterMetadata.find? filterType with
  | some metadata => metadata.stage
  | none => .application

/-- What is registered under the name of a filter, or nothing that matters. -/
def metadataOf (v : FilterOrderValidator) (filter : FilterConfig) : FilterOrderMetadata :=
  (v.filterMetadata.find? filter.name).getD (.ofStage filter.name .application)

/-! ### Reordering -/

/-- A hash table gives its keys in some order, each once. -/
structure Iteration where
  visit : List Bytes → List Bytes
  visit_perm : ∀ keys, (visit keys).Perm keys

/-- What a filter depends on: what it names itself, and what is registered as required. -/
def dependsOn (v : FilterOrderValidator) (filter : FilterConfig) : List Bytes :=
  filter.dependencies ++ (v.metadataOf filter).requires

/-- The filters that are enabled, by name. -/
def filterMap (filters : List FilterConfig) : OrdMap Bytes FilterConfig :=
  .ofEntries ((filters.filter (·.enabled)).map fun filter => (filter.name, filter))

/-- From each filter that is there to those that depend on it. -/
def dependencyEdges (v : FilterOrderValidator) (filters : List FilterConfig) : List (Bytes × Bytes) :=
  (filters.filter (·.enabled)).flatMap fun filter =>
    ((v.dependsOn filter).filter fun name => ((filterMap filters).find? name).isSome).map fun name =>
      (name, filter.name)

/-- The filters that are enabled, or none where not all of them could be sorted. -/
def topologicalSort (v : FilterOrderValidator) (iteration : Iteration) (filters : List FilterConfig) :
    List FilterConfig :=
  let names := TopologicalOrder.sort (iteration.visit (filterMap filters).keys) (v.dependencyEdges filters)
  let result := names.filterMap (filterMap filters).find?
  if result.length ≠ (filterMap filters).size then [] else result

/-- The comparison of the stable sort. -/
def comesBefore (v : FilterOrderValidator) (a b : FilterConfig) : Prop :=
  if v.getFilterStage a.name ≠ v.getFilterStage b.name then
    (v.getFilterStage a.name).toNat < (v.getFilterStage b.name).toNat
  else a.priority < b.priority

instance (v : FilterOrderValidator) : DecidableRel v.comesBefore := fun _ _ => inferInstanceAs (Decidable (ite _ _ _))

/-- What may stand before another. -/
def inOrder (v : FilterOrderValidator) (a b : FilterConfig) : Prop := ¬v.comesBefore b a

instance (v : FilterOrderValidator) : DecidableRel v.inOrder := fun _ _ => inferInstanceAs (Decidable (¬_))

/-- `std::stable_sort`: where neither comes before the other, both stay as they stand. -/
def stableSort (v : FilterOrderValidator) (filters : List FilterConfig) : List FilterConfig :=
  filters.insertionSort v.inOrder

def reorder (v : FilterOrderValidator) (iteration : Iteration) (filters : List FilterConfig) : List FilterConfig :=
  if filters.isEmpty then filters
  else
    let sorted := v.topologicalSort iteration filters
    if !sorted.isEmpty then v.stableSort sorted else v.stableSort filters

/-! ### Validating -/

def formatError (chainName : Bytes) (filterIndex : Nat) (filterName message : Bytes) : Bytes :=
  (if chainName ≠ [] then ascii "Chain '" ++ chainName ++ ascii "': " else []) ++
    ascii "Filter[" ++ toDecimal filterIndex ++ ascii "] '" ++ filterName ++ ascii "': " ++ message

/-- The violations of the stage ordering from some filter on, after the stage and the name of the one before. -/
def stageErrors (v : FilterOrderValidator) (chainName : Bytes) :
    Nat → FilterStage → Bytes → List FilterConfig → List Bytes
  | _, _, _, [] => []
  | i, prevStage, prevFilter, filter :: rest =>
      if !filter.enabled then v.stageErrors chainName (i + 1) prevStage prevFilter rest
      else
        let currentStage := v.getFilterStage filter.name
        let later := v.stageErrors chainName (i + 1) currentStage filter.name rest
        if 0 < i ∧ currentStage.toNat < prevStage.toNat then
          formatError chainName i filter.name
            (ascii "Stage violation: " ++ stageToString currentStage ++ ascii " filter cannot come before " ++
              stageToString prevStage ++ ascii " filter '" ++ prevFilter ++ ascii "'") :: later
        else later

def validateStageOrdering (v : FilterOrderValidator) (filters : List FilterConfig) (chainName : Bytes) :
    ValidationResult :=
  .ofErrors (v.stageErrors chainName 0 .security [] filters)

/-- The errors of each filter that is enabled, with its index. -/
def errorsOfEach (filters : List FilterConfig) (errors : FilterConfig → Nat → List Bytes) : List Bytes :=
  filters.zipIdx.flatMap fun entry => if entry.1.enabled then errors entry.1 entry.2 else []

/-- The names of the filters that are enabled. -/
def available (filters : List FilterConfig) : List Bytes := (filters.filter (·.enabled)).map (·.name)

def validateDependencies (v : FilterOrderValidator) (filters : List FilterConfig) (chainName : Bytes) :
    ValidationResult :=
  .ofErrors <| errorsOfEach filters fun filter i =>
    ((filter.dependencies.filter fun dep => !(available filters).contains dep).map fun dep =>
        formatError chainName i filter.name (ascii "Missing required dependency: '" ++ dep ++ ascii "'")) ++
      ((v.metadataOf filter).requires.filter fun req => !(available filters).contains req).map fun req =>
        formatError chainName i filter.name (ascii "Missing required filter: '" ++ req ++ ascii "'")

/-- Where each filter that is enabled stands. -/
def positions (filters : List FilterConfig) : OrdMap Bytes Nat :=
  .ofEntries ((filters.zipIdx.filter fun entry => entry.1.enabled).map fun entry => (entry.1.name, entry.2))

def validateConstraints (v : FilterOrderValidator) (filters : List FilterConfig) (chainName : Bytes) :
    ValidationResult :=
  .ofErrors <| errorsOfEach filters fun filter i =>
    (((v.metadataOf filter).before.filter fun before => ((positions filters).find? before).any (· < i)).map
        fun before =>
          formatError chainName i filter.name
            (ascii "Constraint violation: must come before '" ++ before ++ ascii "'")) ++
      ((v.metadataOf filter).after.filter fun after => ((positions filters).find? after).any (i < ·)).map
        fun after =>
          formatError chainName i filter.name
            (ascii "Constraint violation: must come after '" ++ after ++ ascii "'")

/-- A text unless a filter is there. -/
def unlessThere (filters : List FilterConfig) (name text : Bytes) : List Bytes :=
  if (available filters).contains name then [] else [text]

def validateTransportSpecific (v : FilterOrderValidator) (filters : List FilterConfig) : ValidationResult :=
  match v.transportType with
  | .http =>
      .ofWarnings
        (unlessThere filters (ascii "http_codec") (ascii "HTTP transport should include 'http_codec' filter"))
  | .httpWithSse =>
      .ofErrors
        (unlessThere filters (ascii "http_codec") (ascii "HTTP+SSE transport requires 'http_codec' filter") ++
          unlessThere filters (ascii "sse_codec") (ascii "HTTP+SSE transport requires 'sse_codec' filter") ++
          match (positions filters).find? (ascii "http_codec"), (positions filters).find? (ascii "sse_codec") with
          | some httpPos, some ssePos =>
              if ssePos < httpPos then
                [ascii "Transport-specific violation: 'http_codec' must come before 'sse_codec'"]
              else []
          | _, _ => [])
  | .stdio =>
      .ofWarnings
        (unlessThere filters (ascii "json_rpc") (ascii "Stdio transport typically includes 'json_rpc' filter") ++
          if (available filters).contains (ascii "http_codec") then
            [ascii "Stdio transport should not include 'http_codec' filter"]
          else [])
  | .webSocket =>
      .ofWarnings
        (unlessThere filters (ascii "websocket") (ascii "WebSocket transport should include 'websocket' filter"))
  | .tcp | .generic => .empty

/-- Whether a chain is valid; its errors are kept for `getErrors`. -/
def validate (v : FilterOrderValidator) (filters : List FilterConfig) : Bool × FilterOrderValidator :=
  if filters.isEmpty then (true, { v with lastErrors := [] })
  else
    let result :=
      (((ValidationResult.empty.merge (v.validateStageOrdering filters [])).merge
        (v.validateDependencies filters [])).merge (v.validateConstraints filters [])).merge
        (v.validateTransportSpecific filters)
    (result.valid, { v with lastErrors := result.errors })

end FilterOrderValidator

end GopherMcp
