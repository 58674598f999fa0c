import Typewright.Generator.Basic
import Typewright.Settings.Layers
import Typewright.Text.Sorted

/-!
# Registry of languages

A registry knows targets under a primary name and under aliases, in any letter case. No name leads
to two targets.

- `Registry.register`: the registry with one more target, unless one of its names is taken.
- `Registry.resolve`: the primary name behind a name.
- `Registry.create`: the generator of a language with settings.
-/

namespace Typewright

/-- A registered target. -/
structure RegistryEntry where
  /-- The primary name. -/
  name : String
  target : Target
  aliases : List String
  deriving DecidableEq

/-- The registered targets, and all their names with the primary name that each leads to. -/
structure Registry where
  entries : List RegistryEntry
  names : List (String × String)
  deriving DecidableEq

/-- Why a registry refuses. -/
inductive RegistryError where
  /-- Something that is no target is to be registered. -/
  | notGenerator
  | nameTaken (name owner : String)
  | unknownLanguage (language : String) (available : List String)
  | badConfigKind (kind : String)
  | creationFailed (language : String) (cause : ConfigFailure)

def RegistryError.message : RegistryError → String
  | .notGenerator => "Generator class must inherit from CodeGenerator"
  | .nameTaken name owner => s!"Name '{name}' conflicts with registered language '{owner}'"
  | .unknownLanguage language available =>
    s!"No generator registered for language: {language}. " ++
      "Available: " ++ Text.join ", " available
  | .badConfigKind kind => s!"Invalid config type: <class '{kind}'>"
  | .creationFailed language cause => s!"Failed to create {language} generator: {cause.message}"

/-- Where the settings of a new generator come from, besides the defaults of its language. -/
inductive ConfigSource where
  | defaults
  | overrides (members : List (String × Json))
  | file (path : String)

/-- The source that a value stands for. -/
def ConfigSource.ofJson : Json → Except RegistryError ConfigSource
  | .null => .ok .defaults
  | .obj members => .ok (.overrides members)
  | .str path => .ok (.file path)
  | j => .error (.badConfigKind j.kindName)

/-- The settings for a language from a source. -/
def ConfigSource.settings (m : Machine) (t : FileTree) (language : String) :
    ConfigSource → Except ConfigFailure Settings
  | .defaults => Settings.layered m t language .null .null
  | .overrides members => Settings.layered m t language (.obj members) .null
  | .file path => Settings.layered m t language .null (.str path)

/-- What a listing says about a language. -/
structure LanguageInfo where
  name : String
  generatorName : String
  extension : String
  aliases : List String

namespace Registry

def empty : Registry :=
  ⟨[], []⟩

/-- The first of several keys that is taken. -/
def conflict? (r : Registry) (keys : List String) : Option RegistryError :=
  keys.findSome? fun key => (r.names.lookup key).map (.nameTaken key)

/-- The aliases that come with a primary name: in lower case, sorted, and without the name. -/
def aliasKeys (name : String) (aliases : List String) : List String :=
  (Text.sortedSet (aliases.map Text.lower)).filter (· ≠ name)

/-- The registry with one more target. -/
def register (r : Registry) (language : String) (target : Target) (aliases : List String) :
    Except RegistryError Registry :=
  let name := Text.lower language
  let keys := name :: aliasKeys name aliases
  match r.conflict? keys with
  | some e => .error e
  | none =>
    .ok ⟨r.entries ++ [⟨name, target, aliasKeys name aliases⟩],
      r.names ++ keys.map fun key => (key, name)⟩

/-- The primary names, sorted. -/
def languages (r : Registry) : List String :=
  Text.sortedSet (r.entries.map (·.name))

def isSupported (r : Registry) (language : String) : Bool :=
  (r.names.lookup (Text.lower language)).isSome

def unknown (r : Registry) (language : String) : RegistryError :=
  .unknownLanguage language r.languages

/-- The primary name behind a name. -/
def resolve (r : Registry) (language : String) : Except RegistryError String :=
  match r.names.lookup (Text.lower language) with
  | some name => .ok name
  | none => .error (r.unknown language)

/-- The target behind a name. -/
def entryOf (r : Registry) (language : String) : Except RegistryError RegistryEntry := do
  let name ← r.resolve language
  match r.entries.find? (·.name == name) with
  | some e => return e
  | none => throw (r.unknown language)

/-- The generator of an entry, with settings that may have been refused. -/
def createWith (m : Machine) (e : RegistryEntry) (language : String)
    (s : Except ConfigFailure Settings) : Except RegistryError Generator :=
  (do Generator.ofSettings m.memory e.target (← s)).mapError (.creationFailed language)

/-- The generator of a language with settings from a source. -/
def create (m : Machine) (r : Registry) (t : FileTree) (language : String) (config : Json) :
    Except RegistryError Generator := do
  let e ← r.entryOf language
  let source ← ConfigSource.ofJson config
  createWith m e language (source.settings m t e.name)

/-- The generator of a language with settings that are there already. -/
def createFrom (m : Machine) (r : Registry) (language : String) (s : Settings) :
    Except RegistryError Generator := do
  let e ← r.entryOf language
  createWith m e language (.ok s)

/-- What a listing says about a language. -/
def info (r : Registry) (language : String) : Except RegistryError LanguageInfo := do
  let e ← r.entryOf language
  return ⟨e.target.language, e.target.generatorName, e.target.extension, e.aliases⟩

/-- What a listing says about every language, by primary name. -/
def allInfo (r : Registry) : Except RegistryError (List (String × LanguageInfo)) :=
  r.languages.mapM fun name => do
    let i ← r.info name
    return (name, i)

/-- The registry that a run starts with. -/
def builtin : Registry :=
  ⟨[⟨"java", .java, ["jvm"]⟩], [("java", "java"), ("jvm", "java")]⟩

end Registry

end Typewright
