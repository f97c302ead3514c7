import CanTransport.Config.Value
import CanTransport.Env.Variables
import CanTransport.Error
import CanTransport.Json.Reader
import CanTransport.Toml.Reader
import CanTransport.Yaml.Reader
/-!
# Loading configurations

A configuration comes in layers: the defaults, a file, the environment. Each layer is a tree of
settings; a later one replaces the settings it holds and leaves the others. The result is read with
types and validated.
-/

namespace CanTransport

namespace Value

mutual

/-- Two trees, the second one over the first: maps are merged key by key. -/
def covered (lower : Value) : Value → Value
  | .map upper =>
    match lower with
    | .map entries => .map (coveredAll entries upper)
    | _ => .map upper
  | upper => upper

/-- Entries over a list of entries. -/
def coveredAll (entries : List (String × Value)) : List (String × Value) → List (String × Value)
  | [] => entries
  | (key, v) :: rest =>
    let merged := match find? key entries with
      | some old => covered old v
      | none => v
    coveredAll (put key merged entries) rest

end

end Value

/-- Notations of configuration files. -/
inductive FileFormat where
  | yaml
  | toml
  | json
deriving DecidableEq, Repr

namespace FileFormat

/-- What stands behind the last point of a name, if anything stands before it. -/
def extension? (name : List Char) : Option (List Char) :=
  let reversed := name.reverse
  let ending := reversed.takeWhile (· != '.')
  match reversed.dropWhile (· != '.') with
  | _ :: _ :: _ => some ending.reverse
  | _ => none

/-- The last part of a path. -/
def fileName (path : List Char) : List Char :=
  let trimmed := path.reverse.dropWhile (· == '/')
  (trimmed.takeWhile (· != '/')).reverse

/-- The notation of a file by its name. -/
def ofPath? (path : String) : Option FileFormat :=
  match (extension? (fileName path.toList)).map String.ofList with
  | some "yaml" | some "yml" => some yaml
  | some "toml" => some toml
  | some "json" => some json
  | _ => none

/-- Reads the text of a file into a map. -/
def read? (format : FileFormat) (content : String) : Option Value :=
  match format with
  | yaml => Yaml.read? content
  | toml => Toml.read? content
  | json =>
    match Json.read? content with
    | some (.map entries) => some (.map entries)
    | _ => none

end FileFormat

/-- A file by its path, with its content if it exists. -/
structure SourceFile where
  path : String
  content : Option String
deriving Repr

/-- Why no configuration could be loaded. -/
inductive LoadFault where
  | notFound (path : String)
  | unsupported (path : String)
  /-- The file is no map in its notation, or a setting has the wrong type. -/
  | unreadable
  | invalid (fault : ConfigFault)
deriving DecidableEq, Repr

namespace LoadFault

def text : LoadFault → String
  | notFound path => "config file not found: " ++ path
  | unsupported path => "unsupported config format: " ++ path
  | unreadable => "settings cannot be read"
  | invalid fault => fault.text

def toError (fault : LoadFault) : Error := .config fault.text

end LoadFault

namespace BusConfig

/-- What the names of variables that hold settings begin with. -/
def variablePrefix : String := "CANBUS_"

/-- The tree of a file. -/
def fileLayer (file : SourceFile) : Except LoadFault Value :=
  match file.content with
  | none => .error (.notFound file.path)
  | some content =>
    match FileFormat.ofPath? file.path with
    | none => .error (.unsupported file.path)
    | some format =>
      match format.read? content with
      | none => .error .unreadable
      | some v => .ok v

/-- A variable's setting over a tree. -/
def addVariable (tree : Value) (entry : String × String) : Value :=
  match Env.path? (String.ofList (variablePrefix.toList.map Env.lower)) entry.1 with
  | none => tree
  | some path => tree.covered (Env.nest path (Env.read entry.2))

/-- The tree of the environment; variables count in the order of their names. -/
def environmentLayer (environment : List (String × String)) : Value :=
  (environment.mergeSort fun a b => a.1 ≤ b.1).foldl addVariable (.map [])

/-- The tree of all layers. -/
def layers (file : Option SourceFile) (environment : List (String × String)) :
    Except LoadFault Value := do
  let base := ({} : BusConfig).toValue
  let settings ← match file with
    | none => .ok base
    | some file => (fileLayer file).map base.covered
  return settings.covered (environmentLayer environment)

/-- Loads a configuration from a file and from environment variables. -/
def load (file : Option SourceFile) (environment : List (String × String)) :
    Except LoadFault BusConfig := do
  let tree ← layers file environment
  match ofValue? false tree with
  | none => .error .unreadable
  | some c =>
    match c.validate with
    | .error fault => .error (.invalid fault)
    | .ok () => return c

end BusConfig

end CanTransport
