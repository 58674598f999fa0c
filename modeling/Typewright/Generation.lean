import Typewright.Generator.Basic
import Typewright.Java.Unit
import Typewright.Units

/-!
# Generation

Every definition of a schema becomes a unit, a protocol before what it holds. Each unit then gets
the line of its package. Generation fails as a whole: at a default that a constructor lacks, or at
a second unit of one name.

- `Generator.unitsOf`: the units of a definition and all below it.
- `Generator.generate`: the units of a schema, each in its package.
-/

namespace Typewright

/-- Why a schema has no units. -/
inductive GenerationError where
  | missingDefault (missing : MissingDefault)
  | collision (unit : String)
  /-- A value that is no definition. -/
  | notDefinition (value : Json)

def GenerationError.message : GenerationError → String
  | .missingDefault m => m.message
  | .collision unit => s!"Generated unit name collision: {unit}"
  | .notDefinition value => s!"Unsupported definition: {value.inspect}"

/-- How generation can fail: with an error that is reported as one, or at a defect. -/
inductive GenerationFailure where
  | error (error : GenerationError)
  | defect (defect : Defect)

namespace Generator

/-- The source text of a definition, for which the fields it inherits are given. -/
def fragmentsOf (g : Generator) (superclass : Option String) (inherited : List Field) :
    Definition → Except MissingDefault (List Java.Fragment)
  | .enumeration h vs => .ok (Java.enumFragments h vs)
  | .record h fs => (·.fragments) <$> Java.ClassUnit.ofRecord g.containers superclass inherited h fs
  | .protocol h fs ms _ =>
    (·.fragments) <$> Java.ClassUnit.ofProtocol g.containers superclass inherited h fs ms

/-- The unit of a definition itself. -/
def unitOf (g : Generator) (superclass : Option String) (inherited : List Field)
    (d : Definition) : Except GenerationFailure (Units String) := do
  let fragments ← (g.fragmentsOf superclass inherited d).mapError fun m =>
    .error (.missingDefault m)
  let text ← (g.unitText fragments).mapError .defect
  return [(g.unitName d.name, text)]

/-- Units after merging others into them. -/
def merged (target units : Units String) : Except GenerationFailure (Units String) :=
  match target.merge units with
  | (all, none) => .ok all
  | (_, some name) => .error (.error (.collision name))

mutual

/-- The units of a definition and of all below it. -/
def unitsOf (g : Generator) (superclass : Option String) (inherited : List Field) :
    Definition → Except GenerationFailure (Units String)
  | .enumeration h vs => g.unitOf superclass inherited (.enumeration h vs)
  | .record h fs => g.unitOf superclass inherited (.record h fs)
  | .protocol h fs ms ds => do
    let own ← g.unitOf superclass inherited (.protocol h fs ms ds)
    g.unitsOfAll (some h.name) (inherited ++ fs) own ds

/-- The units so far, with those of several definitions and of all below them. -/
def unitsOfAll (g : Generator) (superclass : Option String) (inherited : List Field)
    (sofar : Units String) : List Definition → Except GenerationFailure (Units String)
  | [] => .ok sofar
  | d :: r => do
    let units ← g.unitsOf superclass inherited d
    let all ← merged sofar units
    g.unitsOfAll superclass inherited all r

end

/-- The line that puts a unit into the package of a schema. -/
def packageLine (g : Generator) (schemaSpace : String) : String :=
  "package " ++ (g.settings.spaceFor schemaSpace).text ++ ";"

/-- A unit with the line of its package before it, laid out anew. -/
def inPackage (g : Generator) (packageLine : String) (unit : String × String) :
    Except GenerationFailure (String × String) := do
  let text ← (g.laidOut (packageLine :: Text.splitLines unit.2)).mapError .defect
  return (unit.1, text)

/-- The units of a schema. -/
def generate (g : Generator) (s : Schema) : Except GenerationFailure (Units String) := do
  let units ← g.unitsOfAll none [] [] s.definitions
  units.mapM (g.inPackage (g.packageLine s.space))

end Generator

end Typewright
