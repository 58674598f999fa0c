import Typewright.Constructor
import Typewright.Java.Fragment
import Typewright.Java.TypeName

/-!
# Constructors in Java

A constructor passes the values of the inherited fields to the constructor of its superclass and
assigns its own fields. Its parameters bear the names of the fields with an underscore before them.

- `Constructor.ofPlan`: the constructor of a plan.
- `Constructor.fragments`: its source text.
-/

namespace Typewright.Java

/-- A parameter with its type. -/
structure Binding where
  type : String
  name : String
  deriving DecidableEq

def Binding.text (b : Binding) : String :=
  b.type ++ " " ++ b.name

/-- An expression of a generated method. -/
inductive Expression where
  /-- A name without qualification. -/
  | name (name : String)
  /-- A field of the object. -/
  | own (field : String)
  /-- The deferred value of a field of the object. -/
  | forced (field : String)
  /-- An expression copied as it is. -/
  | copied (text : String)
  deriving DecidableEq

def Expression.text : Expression → String
  | .name n => n
  | .own f => "this." ++ f
  | .forced f => "this." ++ f ++ ".get()"
  | .copied s => s

def argumentText (es : List Expression) : String :=
  Text.join ", " (es.map Expression.text)

def bindingText (bs : List Binding) : String :=
  Text.join ", " (bs.map Binding.text)

/-- An assignment to a variable named without qualification. -/
structure Assignment where
  target : String
  value : Expression
  deriving DecidableEq

def Assignment.text (a : Assignment) : String :=
  a.target ++ " = " ++ a.value.text ++ ";"

/-- A constructor. -/
structure Constructor where
  parameters : List Binding
  superArguments : List Expression
  assignments : List Assignment
  deriving DecidableEq

/-- The name of the constructor parameter for a field. -/
def parameterName (field : String) : String :=
  "_" ++ field

def parameterOf (c : Containers) (f : Field) : Binding :=
  ⟨f.type.storageType c, parameterName f.name⟩

/-- The expression for a value that a constructor passes on. -/
def valueExpression : FieldValue → Expression
  | .given f => .name (parameterName f.name)
  | .defaulted _ e => .copied e

namespace Constructor

/-- The constructor of a plan. -/
def ofPlan (c : Containers) (p : ConstructorPlan) : Constructor where
  parameters := p.parameters.map (parameterOf c)
  superArguments := p.superValues.map valueExpression
  assignments := p.ownValues.map fun v => ⟨v.field.name, valueExpression v⟩

def fragments (className : String) (k : Constructor) : List Fragment :=
  .code ("public " ++ className ++ "(" ++ bindingText k.parameters ++ ") \x7b") ::
    .code ("super(" ++ argumentText k.superArguments ++ ");") ::
    k.assignments.map (fun a => .code a.text) ++ [.code "\x7d"]

end Constructor

end Typewright.Java
