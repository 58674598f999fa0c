import Typewright.Settings.Basic

/-!
# Layers of settings

The settings for a language are laid over each other: its defaults, then a configuration file, then
explicit overrides. A later layer wins name by name, and the custom tables are merged key by key.

- `Settings.overlay`: one layer over another.
- `Settings.layered`: all three layers.
-/

namespace Typewright.Settings

/-- The settings that a language starts from. -/
def defaultsFor (language : String) : List (String × Json) :=
  if Text.lower language = "java" then
    [("indent_size", .int 4), ("use_tabs", .bool false), ("add_comments", .bool true),
     ("custom", .obj
       [("lazy_type", .str "java.util.function.Supplier"),
        ("optional_type", .str "java.util.Optional"),
        ("serializable_type", .str "java.io.Serializable")])]
  else [("custom", .obj [])]

/-- The layer below after one setting of the layer above. -/
def overlayOne (below : List (String × Json)) (name : String) (value : Json) :
    Except Defect (List (String × Json)) :=
  match name, value with
  | "custom", .obj entries =>
    match Json.lookup "custom" below with
    | none => .ok (Json.setMember "custom" (.obj entries) below)
    | some (.obj table) =>
      .ok (Json.setMember "custom" (.obj (Json.setMembers table entries)) below)
    | some other => .error (.noMember other "update")
  | _, _ => .ok (Json.setMember name value below)

/-- One layer laid over another. -/
def overlay (below : List (String × Json)) :
    (above : List (String × Json)) → Except Defect (List (String × Json))
  | [] => .ok below
  | (name, value) :: r => do
    let next ← overlayOne below name value
    overlay next r

def readFile (m : Machine) (t : FileTree) (path : Path) :
    Except ConfigFailure (List (String × Json)) := do
  let present ← (t.pathExists path).mapError fun e => .defect (.system e.message)
  if !present then throw (.config (.fileMissing path))
  if Text.lower path.suffix ≠ ".json" then throw (.config (.fileNotNamedJson path))
  let bytes ← (t.read path).mapError fun e => .config (.fileUnreadable path e)
  match fileText? bytes with
  | none => throw (.defect .undecodable)
  | some text =>
    match Json.parse m.settingsDepth text with
    | .error (.integerTooLong digits) => throw (.defect (.integerTooLong digits))
    | .error .tooDeep => throw (.defect .tooDeep)
    | .error e => throw (.config (.fileMalformed path e))
    | .ok (.obj members) => return members
    | .ok _ => throw (.config (.fileNotObject path))

/-- The settings of the file that a value names, if it counts as set. -/
def fileLayer (m : Machine) (t : FileTree) (file : Json) :
    Except ConfigFailure (List (String × Json)) :=
  if !file.isTruthy then .ok []
  else match file with
    | .str path => readFile m t (.ofText path)
    | j => .error (.defect (.notText j))

/-- The overrides that a value gives, if it counts as set. -/
def overrideLayer (overrides : Json) : Except ConfigFailure (List (String × Json)) :=
  if !overrides.isTruthy then .ok []
  else match overrides with
    | .obj members => .ok members
    | j => .error (.defect (.noMember j "items"))

/-- The settings for a language: its defaults, a file over them and overrides over both. -/
def layered (m : Machine) (t : FileTree) (language : String) (overrides file : Json) :
    Except ConfigFailure Settings := do
  let fromFile ← fileLayer m t file
  let below ← (overlay (defaultsFor language) fromFile).mapError .defect
  let above ← overrideLayer overrides
  let members ← (overlay below above).mapError .defect
  (ofMembers members).mapError .defect

end Typewright.Settings
