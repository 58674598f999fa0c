import Typewright.Java.Containers
import Typewright.Java.Fragment

/-!
# Generators

A generator is a target with settings, and with the memory that it has for indentations. Its
containers are read from the settings when it is made; the rest of the settings is looked at when it
is needed.

- `Generator.ofSettings`: the generator of a target, unless its settings are refused.
- `Generator.unitText`: the text of a unit, laid out as the settings ask for.
-/

namespace Typewright

/-- The defect for which something cannot be appended. -/
def Defect.ofRefusal : Layout.Refusal → Defect
  | .notLine value => .notIterable value
  | .indentation fault => .repetition fault

/-- What a generator is for. -/
structure Target where
  /-- The name under which the generator itself is listed. -/
  generatorName : String
  language : String
  /-- What the names of units end in. -/
  extension : String
  deriving DecidableEq

/-- The generator of Java source. -/
def Target.java : Target :=
  ⟨"JavaGenerator", "java", ".java"⟩

/-- A target with settings. -/
structure Generator where
  memory : Text.Memory
  target : Target
  settings : Settings
  containers : Java.Containers

namespace Generator

/-- The generator of a target with settings. -/
def ofSettings (m : Text.Memory) (target : Target) (s : Settings) :
    Except ConfigFailure Generator := do
  let containers ← Java.Containers.ofSettings s
  return ⟨m, target, s, containers⟩

def ofJson (m : Text.Memory) (target : Target) (config : Json) :
    Except ConfigFailure Generator := do
  let s ← (Settings.ofJson config).mapError .defect
  ofSettings m target s

/-- The settings of a generator for which none are given. -/
def presets : List (String × Json) :=
  [("indent_size", .int 4), ("add_comments", .bool true)]

/-- The generator of a target with the settings that a value gives over the presets. -/
def ofPresets (m : Text.Memory) (target : Target) (config : Json) :
    Except ConfigFailure Generator := do
  let given ← config.tableOrEmpty.mapError .defect
  let s ← (Settings.ofTable (.putAll (.ofMembers presets) given)).mapError .defect
  ofSettings m target s

/-- The generator of a target that uses the deferred and optional values of a library. -/
def ofLibrary (m : Text.Memory) (target : Target) (lazyType optionalType : Json) :
    Except ConfigFailure Generator :=
  ofPresets m target
    (.obj [("custom", .obj [("lazy_type", lazyType), ("optional_type", optionalType)])])

def layout (g : Generator) : Except Defect Layout := do
  let indent ← g.settings.indent g.memory
  return Java.layout g.memory indent

/-- The text of lines in the layout of a generator. -/
def laidOut (g : Generator) (lines : List String) : Except Defect String := do
  let l ← g.layout
  (l.text lines).mapError .ofRefusal

/-- The fragments that are written: comments may be turned off. -/
def shown (g : Generator) (fragments : List Java.Fragment) : List Java.Fragment :=
  if g.settings.showsComments then fragments else fragments.filter fun f => !f.isComment

/-- The lines of a unit before they are laid out. -/
def unitLines (g : Generator) (fragments : List Java.Fragment) : List String :=
  (g.shown fragments).flatMap (·.lines)

/-- The text of a unit. -/
def unitText (g : Generator) (fragments : List Java.Fragment) : Except Defect String :=
  g.laidOut (g.unitLines fragments)

def unitName (g : Generator) (definition : String) : String :=
  definition ++ g.target.extension

end Generator

end Typewright
