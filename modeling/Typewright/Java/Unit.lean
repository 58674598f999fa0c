import Typewright.Java.Constructor
import Typewright.Java.Structural
import Typewright.Text.Case

/-!
# Units of Java

An enumeration becomes a Java enumeration: its values, each after its own documentation, with a
comma after all but the last, and then its extra lines. A record becomes a final class with one copy
method for each of its fields, a protocol an abstract class with its messages as abstract methods.
Both have their fields, a constructor for each era, an accessor for each field of their own, and the
structural methods.

- `enumFragments`: the source text of an enumeration.
- `ClassUnit.ofRecord`, `ClassUnit.ofProtocol`: the classes of definitions.
- `ClassUnit.fragments`: the source text of a class.
-/

namespace Typewright.Java

/-! ## Enumerations -/

def valueFragments : List EnumValue → List Fragment
  | [] => []
  | [v] => Fragment.ofDoc v.doc ++ [.code (v.name ++ ";")]
  | v :: w :: r => Fragment.ofDoc v.doc ++ .code (v.name ++ ",") :: valueFragments (w :: r)

/-- The source text of the values of an enumeration; a semicolon stands where there are none. -/
def valueSection (vs : List EnumValue) : List Fragment :=
  if vs.isEmpty then [.code ";"] else valueFragments vs

def enumFragments (h : Heading) (vs : List EnumValue) : List Fragment :=
  Fragment.ofDoc h.doc ++ .code ("public enum " ++ h.name ++ " \x7b") :: valueSection vs ++
    h.extra.map .code ++ [.code "\x7d"]

/-! ## Classes -/

/-- The declaration of a field. -/
structure FieldDeclaration where
  visibility : String
  type : String
  name : String
  doc : Option String
  deriving DecidableEq

/-- The method that gives the value of a field. -/
structure Accessor where
  type : String
  name : String
  expression : Expression
  deriving DecidableEq

/-- A method without a body. -/
structure AbstractMethod where
  response : String
  name : String
  parameters : List Binding
  doc : Option String
  deriving DecidableEq

/-- The method that copies an object with one field changed. -/
structure CopyMethod where
  field : String
  type : String
  arguments : List Expression
  deriving DecidableEq

/-- A class. -/
structure ClassUnit where
  heading : Heading
  modifier : String
  superclass : Option String
  /-- The interface of a class without superclass. -/
  serializableType : String
  fields : List FieldDeclaration
  constructors : List Constructor
  accessors : List Accessor
  messages : List AbstractMethod
  copyMethods : List CopyMethod
  equalsBody : List String
  hashCodeBody : List String
  toStringBody : List String

/-! ## The members of a class -/

/-- The accessor of a field; it forces a deferred value. -/
def Accessor.ofField (c : Containers) (f : Field) : Accessor :=
  ⟨f.type.accessorType c, f.name, if f.type.isLazy then .forced f.name else .own f.name⟩

/-- The declaration of a field. -/
def FieldDeclaration.ofField (c : Containers) (visibility : String) (f : Field) :
    FieldDeclaration :=
  ⟨visibility, f.type.storageType c, f.name, f.doc⟩

/-- The copy method that changes one of the fields of a class. -/
def CopyMethod.ofField (c : Containers) (all : List Field) (target : Field) : CopyMethod where
  field := target.name
  type := target.type.storageType c
  arguments := all.map fun f => if f.name = target.name then .name f.name else .own f.name

/-- The lines of a text, none if there is no text. -/
def docLines (doc : Option String) : List String :=
  match doc with
  | none => []
  | some s => if s = "" then [] else Text.splitAt '\n' s

/-- The lines that document a parameter. -/
def parameterDocLines (p : Parameter) : List String :=
  match docLines p.doc with
  | [] => []
  | first :: rest => ("@param " ++ p.name ++ " " ++ first) :: rest

/-- The documentation of a message, with that of its parameters. -/
def messageDoc (m : Message) : Option String :=
  match docLines m.doc ++ m.parameters.flatMap parameterDocLines with
  | [] => none
  | lines => some (Text.join "\n" lines)

def AbstractMethod.ofMessage (c : Containers) (m : Message) : AbstractMethod where
  response := m.response.storageType c
  name := m.name
  parameters := m.parameters.map fun p => ⟨p.type.storageType c, p.name⟩
  doc := messageDoc m

namespace ClassUnit

/-- What the classes of records and protocols have in common. -/
def shared (c : Containers) (h : Heading) (superclass : Option String) (visibility : String)
    (inherited own : List Field) (plans : List ConstructorPlan) : ClassUnit where
  heading := h
  modifier := "final"
  superclass := superclass
  serializableType := c.serializableType
  fields := own.map (.ofField c visibility)
  constructors := plans.map (.ofPlan c)
  accessors := own.map (.ofField c)
  messages := []
  copyMethods := []
  equalsBody := Java.equalsBody h.name (inherited ++ own)
  hashCodeBody := Java.hashCodeBody (inherited ++ own)
  toStringBody := Java.toStringBody h.name (inherited ++ own)

def ofRecord (c : Containers) (superclass : Option String) (inherited : List Field) (h : Heading)
    (own : List Field) : Except MissingDefault ClassUnit := do
  let plans ← planConstructors h.name inherited own
  return { shared c h superclass "private" inherited own plans with
    copyMethods := (inherited ++ own).map (.ofField c (inherited ++ own)) }

def ofProtocol (c : Containers) (superclass : Option String) (inherited : List Field)
    (h : Heading) (own : List Field) (messages : List Message) :
    Except MissingDefault ClassUnit := do
  let plans ← planConstructors h.name inherited own
  return { shared c h superclass "protected" inherited own plans with
    modifier := "abstract"
    messages := messages.map (.ofMessage c) }

end ClassUnit

/-! ## Source text -/

def FieldDeclaration.fragments (f : FieldDeclaration) : List Fragment :=
  Fragment.ofDoc f.doc ++ [.code (f.visibility ++ " " ++ f.type ++ " " ++ f.name ++ ";")]

def Accessor.fragments (a : Accessor) : List Fragment :=
  [.code ("public " ++ a.type ++ " " ++ a.name ++ "() \x7b"),
   .code ("return " ++ a.expression.text ++ ";"),
   .code "\x7d"]

def AbstractMethod.fragments (m : AbstractMethod) : List Fragment :=
  Fragment.ofDoc m.doc ++
    [.code ("public abstract " ++ m.response ++ " " ++ m.name ++ "(" ++ bindingText m.parameters ++
      ");")]

def CopyMethod.fragments (className : String) (m : CopyMethod) : List Fragment :=
  [.code ("public " ++ className ++ " with" ++ Text.upperFirst m.field ++ "(" ++ m.type ++ " " ++
      m.field ++ ") \x7b"),
   .code ("return new " ++ className ++ "(" ++ argumentText m.arguments ++ ");"),
   .code "\x7d"]

/-- The source text of a method with the given header and body. -/
def methodFragments (header : String) (body : List String) : List Fragment :=
  .code (header ++ " \x7b") :: body.map .code ++ [.code "\x7d"]

namespace ClassUnit

/-- How a class continues another, or the interface that it implements if it continues none. -/
def ancestry (u : ClassUnit) : String :=
  match u.superclass with
  | none | some "" => " implements " ++ u.serializableType
  | some p => " extends " ++ p

def header (u : ClassUnit) : String :=
  "public " ++ u.modifier ++ " class " ++ u.heading.name ++ u.ancestry ++ " \x7b"

/-- The source text of the members of a class. -/
def memberFragments (u : ClassUnit) : List Fragment :=
  u.fields.flatMap (·.fragments) ++
    u.constructors.flatMap (·.fragments u.heading.name) ++
    u.accessors.flatMap (·.fragments) ++
    u.messages.flatMap (·.fragments) ++
    u.copyMethods.flatMap (·.fragments u.heading.name) ++
    methodFragments "public boolean equals(Object obj)" u.equalsBody ++
    methodFragments "public int hashCode()" u.hashCodeBody ++
    methodFragments "public String toString()" u.toStringBody

def fragments (u : ClassUnit) : List Fragment :=
  Fragment.ofDoc u.heading.doc ++ .code u.header :: u.heading.extra.map .code ++
    u.memberFragments ++ [.code "\x7d"]

end ClassUnit

end Typewright.Java
