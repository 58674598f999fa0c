import Typewright.Files.Tree
import Typewright.Json.Table
import Typewright.Text.Case

/-!
# Settings

The settings of a generator as they were given: JSON values that are checked where they are used.

- `Settings.ofTable`: settings by name; names that are no settings of all languages are collected in
  the custom table.
- `ConfigError`: the faults of a configuration that are reported as such.
-/

namespace Typewright

/-- The settings of a generator. -/
structure Settings where
  /-- The namespace that takes the place of the schema's, if it counts as set. -/
  space : Json
  indentSize : Json
  useTabs : Json
  addComments : Json
  /-- The settings of one language. -/
  custom : Json

namespace Settings

/-- The names of the settings that all languages share. -/
def names : List String :=
  ["namespace", "indent_size", "use_tabs", "add_comments", "custom"]

/-- The settings that a table gives; what is not given has its default. -/
def ofTable (t : Json.Table) : Except Defect Settings := do
  let members := t.members
  let others := t.filter fun e => !names.contains e.name
  let given := (Json.lookup "custom" members).getD (.obj [])
  let custom ←
    if others.isEmpty then pure given
    else do
      let table ← given.tableOrEmpty
      pure (.obj (table.putAll others).members)
  return {
    space := (Json.lookup "namespace" members).getD .null
    indentSize := (Json.lookup "indent_size" members).getD (.int 4)
    useTabs := (Json.lookup "use_tabs" members).getD (.bool false)
    addComments := (Json.lookup "add_comments" members).getD (.bool true)
    custom }

/-- The settings with the given members. -/
def ofMembers (members : List (String × Json)) : Except Defect Settings :=
  ofTable (.ofMembers members)

/-- The settings that a value gives; a value that does not count as set gives the defaults. -/
def ofJson (j : Json) : Except Defect Settings :=
  if !j.isTruthy then ofMembers []
  else match j with
    | .obj members => ofMembers members
    | j => .error (.noMember j "items")

/-- The count that a value is; a truth value is one or none. -/
def countOf : Json → Except Defect Int
  | .int n => .ok n
  | .bool b => .ok b.toNat
  | j => .error (.notCount j)

/-- The text of one level of indentation. -/
def indent (m : Text.Memory) (s : Settings) : Except Defect String :=
  if s.useTabs.isTruthy then .ok "\t"
  else do
    let n ← countOf s.indentSize
    (Text.repeated m " " n).mapError .repetition

/-- The namespace of a schema under the settings. -/
def spaceFor (s : Settings) (schemaSpace : String) : Json :=
  if s.space.isTruthy then s.space else .str schemaSpace

def showsComments (s : Settings) : Bool :=
  s.addComments.isTruthy

end Settings

/-- A fault of a configuration. -/
inductive ConfigError where
  | fileMissing (path : Path)
  | fileNotNamedJson (path : Path)
  | fileMalformed (path : Path) (error : Json.ReadError)
  | fileUnreadable (path : Path) (error : SystemError)
  | fileNotObject (path : Path)
  | badContainer (setting : String) (value : Json)

def ConfigError.message : ConfigError → String
  | .fileMissing path => s!"Configuration file not found: {path.text}"
  | .fileNotNamedJson path => s!"Configuration file must be JSON: {path.text}"
  | .fileMalformed path e => s!"Invalid JSON in configuration file {path.text}: {e.message}"
  | .fileUnreadable path e => s!"Failed to load configuration file {path.text}: {e.message}"
  | .fileNotObject path => s!"Configuration file must contain a JSON object: {path.text}"
  | .badContainer setting value => s!"Invalid {setting}: {value.inspect}"

/-- Why settings could not be had: a fault that is reported as one, or a defect. -/
inductive ConfigFailure where
  | config (error : ConfigError)
  | defect (defect : Defect)

def ConfigFailure.message : ConfigFailure → String
  | .config e => e.message
  | .defect d => d.message

end Typewright
