import Typewright.TypeRef
import Typewright.Version

/-!
# Schemas

A schema is a namespace with a forest of definitions. Enumerations and records are its leaves; a
protocol is an abstract class with messages and with definitions of its own below it, which inherit
its fields.

- `Schema.walk`: every definition with the fields it inherits, protocols before what they hold.
-/

namespace Typewright

/-- A field of a record or protocol. -/
structure Field where
  name : String
  type : TypeRef
  /-- The version that introduced the field. -/
  since : Version
  /-- The expression that stands for the field in constructors of older versions. -/
  default : Option String
  doc : Option String
  deriving DecidableEq

/-- An argument of a message. -/
structure Parameter where
  name : String
  type : TypeRef
  doc : Option String
  deriving DecidableEq

/-- An abstract operation of a protocol. -/
structure Message where
  name : String
  response : TypeRef
  parameters : List Parameter
  doc : Option String
  deriving DecidableEq

/-- A named value of an enumeration. -/
structure EnumValue where
  name : String
  doc : Option String
  deriving DecidableEq

/-- What every definition has: its name, its documentation and lines of code to copy. -/
structure Heading where
  name : String
  doc : Option String
  extra : List String
  deriving DecidableEq

/-- A definition of a schema. -/
inductive Definition where
  | enumeration (heading : Heading) (values : List EnumValue)
  | record (heading : Heading) (fields : List Field)
  | protocol (heading : Heading) (fields : List Field) (messages : List Message)
      (children : List Definition)

namespace Definition

def heading : Definition → Heading
  | .enumeration h _ => h
  | .record h _ => h
  | .protocol h _ _ _ => h

def name (d : Definition) : String :=
  d.heading.name

/-- The fields that a definition declares itself. -/
def fields : Definition → List Field
  | .enumeration _ _ => []
  | .record _ fs => fs
  | .protocol _ fs _ _ => fs

mutual

/-- A definition and all below it, each with the fields it inherits. -/
def walk (inherited : List Field) : Definition → List (Definition × List Field)
  | .protocol h fs ms ds => (.protocol h fs ms ds, inherited) :: walkAll (inherited ++ fs) ds
  | .record h fs => [(.record h fs, inherited)]
  | .enumeration h vs => [(.enumeration h vs, inherited)]

/-- Several definitions and all below them, each with the fields it inherits. -/
def walkAll (inherited : List Field) : List Definition → List (Definition × List Field)
  | [] => []
  | d :: ds => walk inherited d ++ walkAll inherited ds

end

end Definition

/-- A namespace and its definitions. -/
structure Schema where
  space : String
  definitions : List Definition

/-- Every definition of a schema with the fields it inherits, in the order of generation. -/
def Schema.walk (s : Schema) : List (Definition × List Field) :=
  Definition.walkAll [] s.definitions

/-- Whether some field holds a deferred value. -/
def hasLazyField (fs : List Field) : Bool :=
  fs.any (·.type.isLazy)

end Typewright
