import Typewright.Identifier
import Typewright.Java.TypeName
import Typewright.Settings.Basic

/-!
# Container settings

The containers that the generated code is written against, read from the custom table of the
settings. Each has to be a qualified name.

- `Containers.ofMembers`: containers by name; the first that is no qualified name is reported.
- `Containers.ofSettings`: the containers that the settings ask for.
-/

namespace Typewright.Java.Containers

def names : List String :=
  ["lazy_type", "optional_type", "serializable_type"]

/-- The qualified name that a setting gives, or the standard one if it is not given. -/
def nameFor (members : List (String × Json)) (setting standard : String) :
    Except ConfigError String :=
  match Json.lookup setting members with
  | none => .ok standard
  | some (.str s) =>
    if isQualifiedName s then .ok s else .error (.badContainer setting (.str s))
  | some j => .error (.badContainer setting j)

/-- The containers with the given names. -/
def ofMembers (members : List (String × Json)) : Except ConfigError Containers := do
  let lazyType ← nameFor members "lazy_type" standard.lazyType
  let optionalType ← nameFor members "optional_type" standard.optionalType
  let serializableType ← nameFor members "serializable_type" standard.serializableType
  return { lazyType, optionalType, serializableType }

/-- The containers with the given names, none of which may be the name of something else. -/
def ofOptions (members : List (String × Json)) : Except ConfigFailure Containers :=
  match members.find? fun m => !names.contains m.1 with
  | some (name, _) => .error (.defect (.unknownOption name))
  | none => (ofMembers members).mapError .config

/-- The container settings of a custom table; those that are null do not count. -/
def chosen (custom : List (String × Json)) : List (String × Json) :=
  custom.filter fun
    | (_, .null) => false
    | (name, _) => names.contains name

def ofCustom (custom : Json) : Except ConfigFailure Containers :=
  if !custom.isTruthy then .ok standard
  else match custom with
    | .obj table => (ofMembers (chosen table)).mapError .config
    | j => .error (.defect (.noMember j "get"))

def ofSettings (s : Settings) : Except ConfigFailure Containers :=
  ofCustom s.custom

end Typewright.Java.Containers
