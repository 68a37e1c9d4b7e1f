import Mathlib
import GopherMcp.Core.Bytes
import GopherMcp.Lib.Runs

/-!
# The registry of loggers

A logger gets its level when it is made, from the first pattern that matches its name, else from the component its
name begins with, else from the global level. What is set afterwards is written into the loggers there are, by each
setter in its own way. Whether a message is to be logged is asked by name, and a Bloom filter answers for the names
that it does not hold.
-/

namespace GopherMcp

inductive LogLevel
  | debug
  | info
  | notice
  | warning
  | error
  | critical
  | alert
  | emergency
  | off
  deriving DecidableEq

/-- The value of the enumeration. -/
def LogLevel.toNat : LogLevel → Nat
  | debug => 0
  | info => 1
  | notice => 2
  | warning => 3
  | error => 4
  | critical => 5
  | alert => 6
  | emergency => 7
  | off => 8

instance : LE LogLevel := ⟨fun level other => level.toNat ≤ other.toNat⟩

instance (level other : LogLevel) : Decidable (level ≤ other) := inferInstanceAs (Decidable (_ ≤ _))

inductive Component
  | root
  | server
  | client
  | network
  | filter
  | transport
  | protocol
  | event
  | http
  | json
  deriving DecidableEq

namespace Component

/-- The components in the order of the enumeration. -/
def all : List Component := [root, server, client, network, filter, transport, protocol, event, http, json]

end Component

def componentToString : Component → Bytes
  | .root => ascii "Root"
  | .server => ascii "Server"
  | .client => ascii "Client"
  | .network => ascii "Network"
  | .filter => ascii "Filter"
  | .transport => ascii "Transport"
  | .protocol => ascii "Protocol"
  | .event => ascii "Event"
  | .http => ascii "Http"
  | .json => ascii "Json"

/-! ### The Bloom filter -/

structure BloomFilter where
  bits : List Bool
  numHashes : Nat
  deriving DecidableEq

namespace BloomFilter

/-- The mixing of a hash with a seed, on 64 bits. -/
def hashFunction (hash : Bytes → UInt64) (item : Bytes) (seed : Nat) : Nat :=
  let h := hash item
  let h := h ^^^ (UInt64.ofNat seed * 0x9e3779b9)
  let h := h ^^^ (h >>> 16)
  let h := h * 0x85ebca6b
  let h := h ^^^ (h >>> 13)
  let h := h * 0xc2b2ae35
  (h ^^^ (h >>> 16)).toNat

def ofSize (size numHashes : Nat) : BloomFilter := ⟨List.replicate size false, numHashes⟩

/-- The bit of an item under a seed. -/
def bitOf (hash : Bytes → UInt64) (filter : BloomFilter) (item : Bytes) (seed : Nat) : Nat :=
  hashFunction hash item seed % filter.bits.length

def add (hash : Bytes → UInt64) (filter : BloomFilter) (item : Bytes) : BloomFilter :=
  { filter with
    bits := (List.range filter.numHashes).foldl (fun bits seed => bits.set (filter.bitOf hash item seed) true) filter.bits }

def mayContain (hash : Bytes → UInt64) (filter : BloomFilter) (item : Bytes) : Bool :=
  (List.range filter.numHashes).all fun seed => filter.bits.getD (filter.bitOf hash item seed) false

def clear (filter : BloomFilter) : BloomFilter := { filter with bits := filter.bits.map fun _ => false }

end BloomFilter

/-! ### The registry -/

/-- What a logger is asked for; `hinted` says that it has the registry's filter as its hint. -/
structure Logger where
  level : LogLevel
  hinted : Bool
  deriving DecidableEq

/-- A pattern by its text as a regular expression. -/
structure LogPattern where
  pattern : Bytes
  level : LogLevel
  deriving DecidableEq

/-- What the standard library does: whether a text is a regular expression, whether that matches a name as a whole,
and the hash of a string. -/
structure LoggingLibrary where
  valid : Bytes → Bool
  regexMatch : Bytes → Bytes → Bool
  hash : Bytes → UInt64

/-- A glob as a regular expression. -/
def globToRegex (glob : Bytes) : Bytes :=
  glob.flatMap fun c =>
    if c = 42 then ascii ".*"
    else if c = 63 then ascii "."
    else if c = 46 then ascii "\\."
    else [c]

structure LoggerRegistry where
  loggers : List (Bytes × Logger)
  componentLevels : Component → Option LogLevel
  bloomFilter : BloomFilter
  patterns : List LogPattern
  globalLevel : LogLevel

namespace LoggerRegistry

variable (library : LoggingLibrary)

/-- The level of the first pattern that matches. -/
def patternLevel (r : LoggerRegistry) (name : Bytes) : Option LogLevel :=
  (r.patterns.find? fun pattern => library.regexMatch pattern.pattern name).map LogPattern.level

/-- The component that stands before the first dot of a name. -/
def componentOf (name : Bytes) : Option Component :=
  if name.contains 46 then Component.all.find? fun component => componentToString component = name.takeWhile (· ≠ 46) else none

def componentLevel (r : LoggerRegistry) (name : Bytes) : Option LogLevel := (componentOf name).bind r.componentLevels

def getEffectiveLevel (r : LoggerRegistry) (name : Bytes) : LogLevel :=
  match r.patternLevel library name with
  | some level => level
  | none => (r.componentLevel name).getD r.globalLevel

def find (r : LoggerRegistry) (name : Bytes) : Option Logger :=
  (r.loggers.find? fun entry => entry.1 = name).map Prod.snd

/-- The level of every logger that is chosen by its name. -/
def setLevels (r : LoggerRegistry) (chosen : Bytes → Bool) (level : LogLevel) : LoggerRegistry :=
  { r with loggers := r.loggers.map fun entry =>
      if chosen entry.1 then (entry.1, { entry.2 with level }) else entry }

def getOrCreateLogger (r : LoggerRegistry) (name : Bytes) : LoggerRegistry :=
  if (r.find name).isSome then r
  else
    { r with
      loggers := r.loggers ++ [(name, ⟨r.getEffectiveLevel library name, true⟩)]
      bloomFilter := r.bloomFilter.add library.hash name }

/-- Every logger that no pattern matches gets the level. -/
def setGlobalLevel (r : LoggerRegistry) (level : LogLevel) : LoggerRegistry :=
  { r with globalLevel := level }.setLevels
    (fun name => !r.patterns.any fun pattern => library.regexMatch pattern.pattern name) level

/-- Every logger under the component gets the level. -/
def setComponentLevel (r : LoggerRegistry) (component : Component) (level : LogLevel) : LoggerRegistry :=
  { r with componentLevels := Function.update r.componentLevels component (some level) }.setLevels
    (fun name => (componentToString component ++ ascii ".").isPrefixOf name) level

/-- Every logger that the pattern matches gets the level. A glob that makes no regular expression throws. -/
def setPattern (r : LoggerRegistry) (glob : Bytes) (level : LogLevel) : LoggerRegistry :=
  if library.valid (globToRegex glob) then
    let stored : LoggerRegistry := { r with patterns := r.patterns ++ [⟨globToRegex glob, level⟩] }
    stored.setLevels (fun name => library.regexMatch (globToRegex glob) name) level
  else r

def setHints (r : LoggerRegistry) (hinted : Bool) : LoggerRegistry :=
  { r with loggers := r.loggers.map fun entry => (entry.1, { entry.2 with hinted }) }

def setBloomFilter (r : LoggerRegistry) (enabled : Bool) (size numHashes : Nat) : LoggerRegistry :=
  if enabled then
    let named := r.loggers.foldl (fun filter entry => filter.add library.hash entry.1) (.ofSize size numHashes)
    { r with bloomFilter := named }.setHints true
  else { r with bloomFilter := r.bloomFilter.clear }.setHints false

/-- `Logger::shouldLog`. -/
def loggerShouldLog (r : LoggerRegistry) (name : Bytes) (logger : Logger) (level : LogLevel) : Bool :=
  if logger.hinted && !r.bloomFilter.mayContain library.hash name then false else logger.level ≤ level

def checkActualLevel (r : LoggerRegistry) (name : Bytes) (level : LogLevel) : Bool :=
  match r.find name with
  | some logger => r.loggerShouldLog library name logger level
  | none => r.globalLevel ≤ level

def shouldLog (r : LoggerRegistry) (name : Bytes) (level : LogLevel) : Bool :=
  if !r.bloomFilter.mayContain library.hash name then r.globalLevel ≤ level else r.checkActualLevel library name level

/-- A registry with the default logger alone. -/
def initializeDefaults (globalLevel : LogLevel) : LoggerRegistry where
  loggers := [(ascii "default", ⟨globalLevel, false⟩)]
  componentLevels := fun _ => none
  bloomFilter := (BloomFilter.ofSize 4096 3).add library.hash (ascii "default")
  patterns := []
  globalLevel

/-- The level and the switch for the flow of messages come from the environment. -/
def new (initialLevel : LogLevel) (flowEnabled : Bool) : LoggerRegistry :=
  let defaults := initializeDefaults library initialLevel
  if flowEnabled then (defaults.setPattern library (ascii "mcp.flow") .debug).getOrCreateLogger library (ascii "mcp.flow")
  else defaults

/-- What is called. A filter of no bits divides by zero where anything is hashed. -/
inductive RegistryOp
  | getOrCreateLogger (name : Bytes)
  | setGlobalLevel (level : LogLevel)
  | setComponentLevel (component : Component) (level : LogLevel)
  | setPattern (glob : Bytes) (level : LogLevel)
  | setBloomFilter (enabled : Bool) (size numHashes : Nat) (defined : numHashes ≠ 0 → size ≠ 0)

def step (r : LoggerRegistry) : RegistryOp → LoggerRegistry
  | .getOrCreateLogger name => r.getOrCreateLogger library name
  | .setGlobalLevel level => r.setGlobalLevel library level
  | .setComponentLevel component level => r.setComponentLevel component level
  | .setPattern glob level => r.setPattern library glob level
  | .setBloomFilter enabled size numHashes _ => r.setBloomFilter library enabled size numHashes

end LoggerRegistry

end GopherMcp
