import Typewright.Java.TypeName
import Typewright.Text.Lines

/-!
# Structural methods

The bodies of `equals`, `hashCode` and `toString`, line by line. They range over all fields of a
class, the inherited ones first. Forcing a deferred value could diverge, so a class with a lazy
field falls back on object identity in all three.

- `Call`, `Test`, `HashTerm`: the terms that the bodies are written in.
- `fieldEquality`, `fieldHash`: the terms that one field contributes.
- `equalsBody`, `hashCodeBody`, `toStringBody`: the bodies.
-/

namespace Typewright.Java

/-! ## Terms -/

/-- The objects that `equals` compares: the one it is called on, and the one it is given. -/
inductive Side where
  | this
  | other
  deriving DecidableEq

/-- The call of an accessor. -/
structure Call where
  side : Side
  accessor : String
  deriving DecidableEq

def Call.text (c : Call) : String :=
  match c.side with
  | .this => c.accessor ++ "()"
  | .other => "o." ++ c.accessor ++ "()"

/-- A test that the values of two calls are the same. -/
inductive Test where
  /-- By the operator `==`. -/
  | same (a b : Call)
  /-- By the method `equals` of the first value. -/
  | equal (a b : Call)
  /-- By the elements of two arrays of primitive values. -/
  | equalArrays (a b : Call)
  /-- By the elements of two arrays of objects, arrays among them. -/
  | deepEqualArrays (a b : Call)
  deriving DecidableEq

/-- The name of a method that looks at the elements of arrays. -/
def arraysMethod (name : String) : String :=
  "java.util.Arrays." ++ name

def Test.text : Test → String
  | .same a b => "(" ++ a.text ++ " == " ++ b.text ++ ")"
  | .equal a b => a.text ++ ".equals(" ++ b.text ++ ")"
  | .equalArrays a b => arraysMethod "equals" ++ "(" ++ a.text ++ ", " ++ b.text ++ ")"
  | .deepEqualArrays a b => arraysMethod "deepEquals" ++ "(" ++ a.text ++ ", " ++ b.text ++ ")"

/-- The source text of several tests, all of which have to succeed. -/
def testText : List Test → String
  | [] => "true"
  | tests => Text.join " && " (tests.map Test.text)

/-- A term for a hash code of `this`. -/
inductive HashTerm where
  | seed
  /-- The hash code of the primitive value of an accessor, boxed by the given class. -/
  | boxed (box accessor : String)
  /-- The method `hashCode` of the value of an accessor. -/
  | own (accessor : String)
  /-- From the elements of an array of primitive values. -/
  | ofArray (accessor : String)
  /-- From the elements of an array of objects, arrays among them. -/
  | ofDeepArray (accessor : String)
  /-- The sum of two terms, multiplied by 37. -/
  | mixed (sum next : HashTerm)
  deriving DecidableEq

def HashTerm.text : HashTerm → String
  | .seed => "17"
  | .boxed box a => box ++ ".valueOf(" ++ a ++ "()).hashCode()"
  | .own a => a ++ "().hashCode()"
  | .ofArray a => arraysMethod "hashCode" ++ "(" ++ a ++ "())"
  | .ofDeepArray a => arraysMethod "deepHashCode" ++ "(" ++ a ++ "())"
  | .mixed sum next => "37 * (" ++ sum.text ++ " + " ++ next.text ++ ")"

/-! ## Bodies -/

/-- The test that one field is the same in `this` and in `o`. -/
def fieldEquality (f : Field) : Test :=
  match f.type.shape with
  | .primitive => .same ⟨.this, f.name⟩ ⟨.other, f.name⟩
  | .primitiveArray => .equalArrays ⟨.this, f.name⟩ ⟨.other, f.name⟩
  | .objectArray => .deepEqualArrays ⟨.this, f.name⟩ ⟨.other, f.name⟩
  | .object => .equal ⟨.this, f.name⟩ ⟨.other, f.name⟩

/-- The tests that all fields are the same in `this` and in `o`. -/
def comparison (fs : List Field) : List Test :=
  fs.map fieldEquality

def equalsBody (className : String) (fs : List Field) : List String :=
  if hasLazyField fs then
    ["return this == obj; // We have lazy members, so use object identity to avoid circularity."]
  else
    ["if (this == obj) \x7b",
     "return true;",
     "\x7d else if (!(obj instanceof " ++ className ++ ")) \x7b",
     "return false;",
     "\x7d else \x7b",
     className ++ " o = (" ++ className ++ ")obj;",
     "return " ++ testText (comparison fs) ++ ";",
     "\x7d"]

/-- The hash of one field. -/
def fieldHash (f : Field) : HashTerm :=
  match f.type.shape with
  | .primitive => .boxed (box f.type.name) f.name
  | .primitiveArray => .ofArray f.name
  | .objectArray => .ofDeepArray f.name
  | .object => .own f.name

/-- The hash of all fields: from 17 on, each adds its own and multiplies by 37. -/
def hashExpression (fs : List Field) : HashTerm :=
  fs.foldl (fun sum f => .mixed sum (fieldHash f)) .seed

def hashCodeBody (fs : List Field) : List String :=
  if hasLazyField fs then
    ["return super.hashCode(); " ++
      "// Avoid evaluating lazy members in hashCode to avoid circularity."]
  else ["return " ++ (hashExpression fs).text ++ ";"]

/-- The part of the text of an object that shows one field. -/
def fieldText (f : Field) : String :=
  "\"" ++ f.name ++ ": \" + " ++ f.name ++ "()"

def toStringBody (className : String) (fs : List Field) : List String :=
  if hasLazyField fs then
    ["return super.toString(); " ++
      "// Avoid evaluating lazy members in toString to avoid circularity."]
  else match fs with
    | [] => ["return \"" ++ className ++ "(\" + \")\";"]
    | fs => ["return \"" ++ className ++ "(\" + " ++
        Text.join " + \", \" + " (fs.map fieldText) ++ " + \")\";"]

end Typewright.Java
