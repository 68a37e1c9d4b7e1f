import GopherMcp.Json.ErrorData
import GopherMcp.Json.Paths
import GopherMcp.Lib.Delimited
import GopherMcp.Lib.Logged
import GopherMcp.Transport.EventId

/-!
# Files that include one another

A configuration file may name other files, and a directory of files, that are merged into it. The files that are being
loaded are known by their real paths, so that none is loaded again from within, and there are only so many. How deep the
inclusions go is counted for files that are named, not for those that are found in a directory; an absolute path is held
against the allowed roots by its text, before it is resolved.
-/

namespace GopherMcp

open Logged (ret fail emit andThen relabel recover forEach Meets Refines)

namespace FileConfigSource

/-- The files there are. `canonical` is `realpath`, or the path itself where nothing is there, and `entries` are the names
in a directory; whatever can be read is one of finitely many files. -/
structure FileSystem where
  canonical : Bytes → Bytes
  size : Bytes → Option Nat
  content : Bytes → Option Bytes
  isDirectory : Bytes → Bool
  entries : Bytes → List Bytes
  files : List Bytes
  canonical_canonical : ∀ path, canonical (canonical path) = canonical path
  canonical_mem_files : ∀ path, (content path).isSome = true → canonical path ∈ files

structure Options where
  allowedIncludeRoots : List Bytes
  maxFileSize : Nat
  maxIncludeDepth : Int32

/-! ### Paths -/

def kSlash : UInt8 := 47
def kDot : UInt8 := 46

def isAbsolute (path : Bytes) : Bool := path.head? == some kSlash

def parentPath (path : Bytes) : Bytes := (Delimited.cutLast path kSlash).elim (ascii ".") Prod.fst

/-- `operator/`. -/
def join (path other : Bytes) : Bytes :=
  if path.isEmpty then other
  else if path.getLast? == some kSlash then path ++ other
  else path ++ kSlash :: other

/-- By what stands behind the last dot of the whole path. -/
def isConfigFile (path : Bytes) : Bool :=
  (Delimited.cutLast path kDot).any fun parts => [ascii "yaml", ascii "yml", ascii "json"].contains parts.2

/-! ### Merging -/

mutual

/-- Objects are merged member by member; whatever else there is, the source's is taken. -/
def mergeConfigs (target : JsonValue) : JsonValue → JsonValue
  | .object fields => mergeFields target fields
  | _ => target

def mergeFields (target : JsonValue) : List (Bytes × JsonValue) → JsonValue
  | [] => target
  | (key, value) :: rest =>
      mergeFields
        (target.set key
          (if value.isObject && target.contains key && (target.get key).isObject then mergeConfigs (target.get key) value
          else value))
        rest

end

/-! ### Loading -/

inductive InclusionKind
  | file | directory
  deriving DecidableEq

/-- A file that is included: by which of the two ways, what the including file says, and the path that is loaded. -/
structure Inclusion where
  kind : InclusionKind
  named : Bytes
  path : Bytes

structure ParseContext where
  baseDir : Bytes
  processedFiles : List Bytes
  includeDepth : Nat

/-- A computation whose log is the files that are loaded, each as the chain of inclusions that leads to it. -/
abbrev Loading (α : Type) := Option (Logged (List Inclusion) Bytes α)

variable (fs : FileSystem) (options : Options) (parse : Bytes → Bytes → Except Bytes JsonValue)

def resolveIncludePath (filepath baseDir : Bytes) : Except Bytes Bytes :=
  if isAbsolute filepath then
    if !options.allowedIncludeRoots.isEmpty && !options.allowedIncludeRoots.any (List.isPrefixOf · filepath) then
      .error (ascii "Include path not allowed: " ++ filepath)
    else .ok (fs.canonical filepath)
  else .ok (fs.canonical (join baseDir filepath))

def readContent (filepath : Bytes) : Except Bytes Bytes :=
  match fs.size filepath with
  | none => .error (ascii "Cannot stat file: " ++ filepath)
  | some size =>
      if options.maxFileSize < size then
        .error (ascii "File too large: " ++ filepath ++ ascii " (" ++ toDecimal size ++ ascii " bytes)")
      else
        match fs.content filepath with
        | none => .error (ascii "Cannot open config file: " ++ filepath)
        | some content => .ok content

/-- The configuration files of a directory, in order. -/
def configFiles (dir : Bytes) : List Bytes :=
  if fs.isDirectory dir then
    ((((fs.entries dir).filter fun name => name != ascii "." && name != ascii "..").map fun name =>
      dir ++ kSlash :: name).filter isConfigFile).insertionSort (· ≤ ·)
  else []

/-- What a file names under `include`: a text, or the texts of an array. -/
def includesOf (config : JsonValue) : List Bytes :=
  match config.get (ascii "include") with
  | .string text => [text]
  | .array items => items.filterMap ErrorData.stringOf
  | _ => []

section Walkers

variable (load : Bytes → ParseContext → Loading (JsonValue × ParseContext))

/-- A file that is not being loaded is loaded, known by `key`, in a context of its own, and merged into the result. -/
def includeFile (context : ParseContext) (inclusion : Inclusion) (key : Bytes) (progress : JsonValue × List Bytes) :
    Loading (JsonValue × List Bytes) :=
  if progress.2.contains key then ret progress
  else
    let includeContext :=
      { context with baseDir := parentPath inclusion.path, processedFiles := key :: progress.2 }
    andThen (relabel (inclusion :: ·) (load inclusion.path includeContext)) fun loaded =>
      ret (mergeConfigs progress.1 loaded.1, key :: progress.2)

/-- A named file is known by its resolved path. -/
def includeNamed (context : ParseContext) (named : Bytes) (progress : JsonValue × List Bytes) :
    Loading (JsonValue × List Bytes) :=
  match resolveIncludePath fs options named context.baseDir with
  | .error error => fail error
  | .ok path => includeFile load context ⟨.file, named, path⟩ path progress

def processIncludes (config : JsonValue) (context : ParseContext) : Loading (JsonValue × ParseContext) :=
  if options.maxIncludeDepth.toInt < context.includeDepth + 1 then
    fail (ascii "Maximum include depth (" ++ toDecimalSigned options.maxIncludeDepth.toInt64 ++ ascii ") exceeded")
  else
    let inner := { context with includeDepth := context.includeDepth + 1 }
    andThen (forEach (includeNamed fs options load inner) (includesOf config) (config, context.processedFiles))
      fun progress => ret (progress.1.erase (ascii "include"), { context with processedFiles := progress.2 })

def processIncludeDirectory (config : JsonValue) (context : ParseContext) : Loading (JsonValue × ParseContext) :=
  match config.stringAt (ascii "include_dir") with
  | none => fail (ascii "Value is not a string")
  | some named =>
      match resolveIncludePath fs options named context.baseDir with
      | .error error => fail error
      | .ok dir =>
          andThen
            (forEach (fun path => includeFile load context ⟨.directory, named, path⟩ (fs.canonical path))
              (configFiles fs dir) (config, context.processedFiles))
            fun progress => ret (progress.1.erase (ascii "include_dir"), { context with processedFiles := progress.2 })

/-- What a file that was parsed includes, the files first and then the directory. -/
def processConfig (config : JsonValue) (context : ParseContext) : Loading (JsonValue × ParseContext) :=
  andThen (if config.contains (ascii "include") then processIncludes fs options load config context
      else ret (config, context)) fun included =>
    if included.1.contains (ascii "include_dir") then processIncludeDirectory fs options load included.1 included.2
    else ret included

/-- A file is loaded when it was read, whether or not it can be parsed. -/
def loadStep (filepath : Bytes) (context : ParseContext) : Loading (JsonValue × ParseContext) :=
  match readContent fs options filepath with
  | .error error => fail error
  | .ok content =>
      emit []
        (match parse filepath content with
        | .error error => fail error
        | .ok config => processConfig fs options load config context)

end Walkers

/-- With so many levels of files in files. -/
def loadFile : Nat → Bytes → ParseContext → Loading (JsonValue × ParseContext)
  | 0 => fun _ _ => none
  | fuel + 1 => loadStep fs options parse (loadFile fuel)

/-- A file that is loaded: which one it all began with, and the inclusions from there. -/
structure Load where
  start : Bytes
  chain : List Inclusion

/-- An overlay that fails is left out. -/
def applyOverlay (fuel : Nat) (context : ParseContext) (path : Bytes) (progress : JsonValue × List Bytes) :
    Option (Logged Load Bytes (JsonValue × List Bytes)) :=
  if progress.2.contains (fs.canonical path) then ret progress
  else
    let processed := fs.canonical path :: progress.2
    recover
      (andThen
        (relabel (Load.mk path)
          (loadFile fs options parse fuel path
            { context with baseDir := parentPath path, processedFiles := processed }))
        fun loaded => ret (mergeConfigs progress.1 loaded.1, processed))
      (progress.1, processed)

/-- `loadConfiguration` of the file that was chosen, with the overlays beside it. -/
def loadConfiguration (fuel : Nat) (configPath : Bytes) : Option (Logged Load Bytes JsonValue) :=
  if configPath.isEmpty then ret .emptyObject
  else
    andThen
      (relabel (Load.mk configPath)
        (loadFile fs options parse fuel configPath ⟨parentPath configPath, [fs.canonical configPath], 0⟩))
      fun loaded =>
        andThen
          (forEach (applyOverlay fs options parse fuel loaded.2)
            (configFiles fs (parentPath configPath ++ ascii "/config.d")) (loaded.1, loaded.2.processedFiles))
          fun progress => ret progress.1

end FileConfigSource

end GopherMcp
