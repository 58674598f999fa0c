import Typewright.Schema.Basic

/-!
# Constructor plans

A class gets one constructor for the base version and one for every version that introduced one of
its fields, so that code written against an older version of the schema still finds the constructor
it calls. The constructor of a version, its era, takes the fields known by then and passes their
defaults for the rest.

- `eras`: the versions that get a constructor, in ascending order.
- `planConstructors`: the plans of a class, or the first field that lacks a default it needs.
-/

namespace Typewright

/-- What a constructor passes for a field. -/
inductive FieldValue where
  /-- The caller's argument. -/
  | given (field : Field)
  /-- The field's default expression. -/
  | defaulted (field : Field) (expression : String)

namespace FieldValue

/-- The field that a value is for. -/
def field : FieldValue → Field
  | .given f => f
  | .defaulted f _ => f

/-- The default expression of a value that the caller does not give. -/
def default? : FieldValue → Option String
  | .given _ => none
  | .defaulted _ e => some e

end FieldValue

/-- The shape of one constructor. -/
structure ConstructorPlan where
  /-- The version that the constructor serves; a class without fields has none. -/
  era : Option Version
  parameters : List Field
  superValues : List FieldValue
  ownValues : List FieldValue

/-- A field that is newer than an era and has no default to fill in there. -/
structure MissingDefault where
  field : Field
  owner : String
  era : Version

def MissingDefault.message (m : MissingDefault) : String :=
  s!"Need a default value for field {m.owner}.{m.field.name} (since {m.field.since.text}) " ++
    s!"to generate the constructor for version {m.era.text}"

/-- The fields known at an era. -/
def providedAt (era : Version) (fs : List Field) : List Field :=
  fs.filter fun f => f.since ≤ era

/-- The fields introduced after an era. -/
def newerThan (era : Version) (fs : List Field) : List Field :=
  fs.filter fun f => era < f.since

/-- The base version and the versions that introduced the fields, ascending and each once. -/
def eras (fs : List Field) : List Version :=
  Version.distinct (.zero :: fs.map (·.since))

/-- The value that the constructor of an era passes for a field. -/
def valueAt (owner : String) (era : Version) (f : Field) : Except MissingDefault FieldValue :=
  if f.since ≤ era then .ok (.given f)
  else match f.default with
    | some e => .ok (.defaulted f e)
    | none => .error ⟨f, owner, era⟩

/-- The constructor of an era. -/
def planAt (owner : String) (inherited own : List Field) (era : Version) :
    Except MissingDefault ConstructorPlan := do
  let superValues ← inherited.mapM (valueAt owner era)
  let ownValues ← own.mapM (valueAt owner era)
  return ⟨some era, providedAt era (inherited ++ own), superValues, ownValues⟩

/-- The constructors of a class, the oldest era first; without fields there is one all the same. -/
def planConstructors (owner : String) (inherited own : List Field) :
    Except MissingDefault (List ConstructorPlan) :=
  if (inherited ++ own).isEmpty then .ok [⟨none, [], [], []⟩]
  else (eras (inherited ++ own)).mapM (planAt owner inherited own)

end Typewright
