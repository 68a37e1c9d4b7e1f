import GopherMcp.Json.Value
import GopherMcp.Lib.CivilTime
import GopherMcp.Lib.Runs
import GopherMcp.Transport.EventId

/-!
# Versions of the configuration

Every configuration that is loaded goes under an id made of the second it was loaded in and a number that
starts at nought with every new second. The last of them are kept to go back to. The thread that loads one remembers
its id, and is told that one where it asks for the current version.
-/

namespace GopherMcp

/-! ### Version ids -/

/-- The last digits of a number, filled up with zeros. -/
def padded : Nat → Nat → Bytes
  | 0, _ => []
  | width + 1, n => padded width (n / 10) ++ [UInt8.ofNat (48 + n % 10)]

def yearText (year : Int) : Bytes :=
  if year < 0 then ascii "-" ++ toDecimal year.natAbs else toDecimal year.natAbs

/-- `put_time` with "%Y%m%d-%H%M%S". -/
def timeText (time : CivilTime) : Bytes :=
  yearText time.year ++ (padded 2 time.month ++ padded 2 time.day ++ ascii "-" ++ padded 2 time.hour ++
    padded 2 time.minute ++ padded 2 time.second)

/-- The version id of a second and a number. -/
def versionIdOf (second : Int) (count : Nat) : Bytes :=
  timeText (CivilTime.ofSeconds second) ++ (ascii "-" ++ padded 4 (count % 10000))

/-! ### The manager -/

/-- What a source of configuration answers when it is asked; none where loading throws. -/
structure SourceReading where
  hasConfiguration : Bool
  loaded : Option JsonValue
  hasChanged : Bool

/-- The fields `second`, `number` and `made` are a record only: what the id was made of, and how many snapshots there
were, which tells a snapshot from every other. -/
structure ConfigSnapshot (Config : Type) where
  config : Option Config
  versionId : Bytes
  second : Int
  number : Nat
  made : Nat

inductive ConfigChangeType
  | initialLoad
  | reload
  | rollback
  deriving DecidableEq

structure ConfigChangeEvent where
  type : ConfigChangeType
  previousVersion : Bytes
  newVersion : Bytes
  deriving DecidableEq

/-- How a call ends. -/
inductive ConfigOutcome
  | done
  | returned (value : Bool)
  | threw
  deriving DecidableEq

/-- The manager, with the version id that the thread last loaded and the counters of the version ids. The field
`announced` is a record only. -/
structure ConfigurationManager (Config : Type) where
  initialized : Bool
  current : ConfigSnapshot Config
  versionHistory : List (ConfigSnapshot Config)
  maxVersionHistory : Nat
  reloadCount : Nat
  lastVersionId : Bytes
  lastSec : Int
  perSecCounter : Nat
  notified : List ConfigChangeEvent
  announced : List (ConfigSnapshot Config)

namespace ConfigurationManager

variable {Config : Type}

/-- A manager that has loaded nothing. -/
def new (initialized : Bool) : ConfigurationManager Config where
  initialized
  current := ⟨none, [], 0, 0, 0⟩
  versionHistory := []
  maxVersionHistory := 10
  reloadCount := 0
  lastVersionId := []
  lastSec := 0
  perSecCounter := 0
  notified := []
  announced := []

def getCurrentVersion (m : ConfigurationManager Config) : Bytes :=
  if m.lastVersionId ≠ [] then m.lastVersionId else m.current.versionId

def getVersionHistory (m : ConfigurationManager Config) : List Bytes :=
  m.versionHistory.map ConfigSnapshot.versionId

/-- The number that a version of a second gets. -/
def numberAt (m : ConfigurationManager Config) (second : Int) : Nat :=
  if m.lastSec ≠ second then 0 else m.perSecCounter

/-- The counters after a version id was generated. The counter is one of 32 bits. -/
def generateVersionId (m : ConfigurationManager Config) (second : Int) : ConfigurationManager Config × Bytes :=
  ({ m with lastSec := second, perSecCounter := (m.numberAt second + 1) % 2 ^ 32 },
    versionIdOf second (m.numberAt second))

/-- Later sources replace the fields of earlier ones. A source that throws is passed over. -/
def mergeConfigurations (sources : List SourceReading) : JsonValue :=
  sources.foldl (fun merged source =>
    if source.hasConfiguration then
      match source.loaded with
      | some config =>
          if config.isObject then config.keys.foldl (fun merged key => merged.set key (config.get key)) merged
          else merged
      | none => merged
    else merged) JsonValue.emptyObject

/-- The version id is generated first; what is parsed and validated after it may throw. -/
def parseConfiguration (parse : JsonValue → Option Config) (m : ConfigurationManager Config) (config : JsonValue)
    (second : Int) : ConfigurationManager Config × Option (ConfigSnapshot Config) :=
  let (generated, versionId) := m.generateVersionId second
  (generated, (parse config).map fun parsed =>
    ⟨some parsed, versionId, second, m.numberAt second, m.announced.length + 1⟩)

def trimVersionHistory (m : ConfigurationManager Config) : ConfigurationManager Config :=
  { m with versionHistory := m.versionHistory.drop (m.versionHistory.length - m.maxVersionHistory) }

def storeVersion (m : ConfigurationManager Config) (snapshot : ConfigSnapshot Config) : ConfigurationManager Config :=
  { m with versionHistory := m.versionHistory ++ [snapshot] }.trimVersionHistory

/-- Listeners are told last, and what they throw is caught unless it is no `std::exception`. -/
def notifyListeners (m : ConfigurationManager Config) (event : ConfigChangeEvent) : ConfigurationManager Config :=
  { m with notified := m.notified ++ [event] }

/-- A listener that throws something else ends the call. -/
def ended (escapes : Bool) (outcome : ConfigOutcome) : ConfigOutcome := if escapes then .threw else outcome

def loadConfiguration (parse : JsonValue → Option Config) (m : ConfigurationManager Config)
    (sources : List SourceReading) (second : Int) (escapes : Bool) : ConfigurationManager Config × ConfigOutcome :=
  if !m.initialized then (m, .threw)
  else
    match m.parseConfiguration parse (mergeConfigurations sources) second with
    | (m, none) => (m, .threw)
    | (m, some snapshot) =>
        let loaded := { m with
          current := snapshot
          lastVersionId := snapshot.versionId
          announced := m.announced ++ [snapshot] }.storeVersion snapshot
        (loaded.notifyListeners ⟨.initialLoad, m.current.versionId, snapshot.versionId⟩, ended escapes .done)

def reload (parse : JsonValue → Option Config) (m : ConfigurationManager Config) (sources : List SourceReading)
    (second : Int) (escapes : Bool) : ConfigurationManager Config × ConfigOutcome :=
  if !m.initialized then (m, .returned false)
  else if !sources.any SourceReading.hasChanged then (m, .returned false)
  else
    match m.parseConfiguration parse (mergeConfigurations sources) second with
    | (m, none) => (m, .threw)
    | (m, some snapshot) =>
        let reloaded := { m with
          current := snapshot
          announced := m.announced ++ [snapshot] }.storeVersion snapshot
        ({ reloaded with reloadCount := reloaded.reloadCount + 1 }.notifyListeners
          ⟨.reload, m.current.versionId, snapshot.versionId⟩, ended escapes (.returned true))

def rollback (m : ConfigurationManager Config) (versionId : Bytes) (escapes : Bool) :
    ConfigurationManager Config × ConfigOutcome :=
  match m.versionHistory.find? fun snapshot => snapshot.versionId = versionId with
  | none => (m, .returned false)
  | some snapshot =>
      ({ m with current := snapshot }.notifyListeners ⟨.rollback, m.current.versionId, versionId⟩,
        ended escapes (.returned true))

end ConfigurationManager

/-! ### Guards -/

/-- The field `found` is a record only: what was current when the guard was made. -/
structure ConfigUpdateGuard (Config : Type) where
  savedVersion : Bytes
  committed : Bool
  found : ConfigSnapshot Config

/-- A thread with the guards it has. -/
structure ConfigThread (Config : Type) where
  manager : ConfigurationManager Config
  guards : List (ConfigUpdateGuard Config)

/-- What is done with the manager and the guards, with what the sources and the clock say and whether a listener throws
something that is not caught. No listener does where a guard is destroyed: that would end the program. -/
inductive ConfigOp
  | loadConfiguration (sources : List SourceReading) (second : Int) (escapes : Bool)
  | reload (sources : List SourceReading) (second : Int) (escapes : Bool)
  | rollback (versionId : Bytes) (escapes : Bool)
  | makeGuard
  | commitGuard (place : Nat)
  | destroyGuard (place : Nat)

namespace ConfigThread

variable {Config : Type}

def new (initialized : Bool) : ConfigThread Config := ⟨.new initialized, []⟩

def makeGuard (s : ConfigThread Config) : ConfigThread Config :=
  { s with guards := s.guards ++ [⟨s.manager.getCurrentVersion, false, s.manager.current⟩] }

def commitGuard (s : ConfigThread Config) (place : Nat) : ConfigThread Config :=
  { s with guards := s.guards.modify place fun guard => { guard with committed := true } }

/-- A guard that was not committed goes back to the version it saved. -/
def destroyGuard (s : ConfigThread Config) (place : Nat) : ConfigThread Config :=
  match s.guards[place]? with
  | none => s
  | some guard =>
      { manager := if guard.committed then s.manager else (s.manager.rollback guard.savedVersion false).1
        guards := s.guards.eraseIdx place }

def perform (parse : JsonValue → Option Config) (s : ConfigThread Config) : ConfigOp → ConfigThread Config × ConfigOutcome
  | .loadConfiguration sources second escapes =>
      let (manager, outcome) := s.manager.loadConfiguration parse sources second escapes
      ({ s with manager }, outcome)
  | .reload sources second escapes =>
      let (manager, outcome) := s.manager.reload parse sources second escapes
      ({ s with manager }, outcome)
  | .rollback versionId escapes =>
      let (manager, outcome) := s.manager.rollback versionId escapes
      ({ s with manager }, outcome)
  | .makeGuard => (s.makeGuard, .done)
  | .commitGuard place => (s.commitGuard place, .done)
  | .destroyGuard place => (s.destroyGuard place, .done)

def step (parse : JsonValue → Option Config) (s : ConfigThread Config) (op : ConfigOp) : ConfigThread Config :=
  (s.perform parse op).1

end ConfigThread

end GopherMcp
