import Typewright.Java.Unit
import Typewright.Proofs.Text.Lines

/-!
# Bodies of structural methods

The lines of `equals`, `hashCode` and `toString` as what they do: which accessors they call, and
whether they hand over to the method of the superclass.

- `Method`: the three methods.
- `Body`, `Body.lines`: what a body can be, and its source text.
- `lines_bodyOf`: the lines that a class is given for a method are those of a body.
- `methodLines_eq_fallback_iff`: they are those of the fallback exactly if a field is lazy.
- `mem_calls_bodyOf`: the accessors that a body calls are those of all fields, and none if one is
  lazy.
-/

namespace Typewright.Java

/-! ## Methods -/

/-- The methods that every class declares anew. -/
inductive Method where
  | equals
  | hashCode
  | toString
  deriving DecidableEq

def Method.name : Method → String
  | .equals => "equals"
  | .hashCode => "hashCode"
  | .toString => "toString"

/-- The lines of the body that a class has for a method. -/
def ClassUnit.bodyLines (u : ClassUnit) : Method → List String
  | .equals => u.equalsBody
  | .hashCode => u.hashCodeBody
  | .toString => u.toStringBody

/-! ## Bodies -/

/-- What the body of a structural method does. -/
inductive Body where
  /-- It compares the two references. -/
  | sameObject
  /-- It calls a method of the superclass. -/
  | inherited (method : Method)
  /-- It makes the tests on an object of the class. -/
  | comparing (className : String) (tests : List Test)
  | hashing (term : HashTerm)
  /-- It shows the values of accessors, each after its name. -/
  | showing (className : String) (accessors : List String)

/-- The accessors that a test calls, on this object or the other. -/
def Test.accessors : Test → List String
  | .same a b => [a.accessor, b.accessor]
  | .equal a b => [a.accessor, b.accessor]
  | .equalArrays a b => [a.accessor, b.accessor]
  | .deepEqualArrays a b => [a.accessor, b.accessor]

/-- The accessors that a term for a hash code calls. -/
def HashTerm.accessors : HashTerm → List String
  | .seed => []
  | .boxed _ a => [a]
  | .own a => [a]
  | .ofArray a => [a]
  | .ofDeepArray a => [a]
  | .mixed sum next => sum.accessors ++ next.accessors

namespace Body

/-- The source text of the value of an accessor, after its name. -/
def shown (accessor : String) : String :=
  "\"" ++ accessor ++ ": \" + " ++ accessor ++ "()"

def lines : Body → List String
  | .sameObject =>
    ["return this == obj; // We have lazy members, so use object identity to avoid circularity."]
  | .inherited m =>
    ["return super." ++ m.name ++ "(); // Avoid evaluating lazy members in " ++ m.name ++
      " to avoid circularity."]
  | .comparing n tests =>
    ["if (this == obj) \x7b",
     "return true;",
     "\x7d else if (!(obj instanceof " ++ n ++ ")) \x7b",
     "return false;",
     "\x7d else \x7b",
     n ++ " o = (" ++ n ++ ")obj;",
     "return " ++ testText tests ++ ";",
     "\x7d"]
  | .hashing term => ["return " ++ term.text ++ ";"]
  | .showing n [] => ["return \"" ++ n ++ "(\" + \")\";"]
  | .showing n accessors =>
    ["return \"" ++ n ++ "(\" + " ++ Text.join " + \", \" + " (accessors.map shown) ++ " + \")\";"]

/-- The accessors that a body calls, on this object or the other. -/
def calls : Body → List String
  | .sameObject => []
  | .inherited _ => []
  | .comparing _ tests => tests.flatMap (·.accessors)
  | .hashing term => term.accessors
  | .showing _ accessors => accessors

end Body

/-- The body that takes an object for what it is, and calls no accessor. -/
def Method.fallback : Method → Body
  | .equals => .sameObject
  | m => .inherited m

/-- The body that goes by the values of all fields. -/
def Method.structural (className : String) (fs : List Field) : Method → Body
  | .equals => .comparing className (comparison fs)
  | .hashCode => .hashing (hashExpression fs)
  | .toString => .showing className (fs.map (·.name))

/-- The body of a method of a class with the given fields, inherited ones first. -/
def bodyOf (className : String) (fs : List Field) (m : Method) : Body :=
  if hasLazyField fs then m.fallback else m.structural className fs

variable {n className : String} {fs : List Field} {m : Method} {f : Field}

theorem hasLazyField_iff : hasLazyField fs ↔ ∃ f ∈ fs, f.type.isLazy := by
  simp [hasLazyField]

/-! ## Source text -/

/-- The lines that a class is given for a method. -/
def methodLines (className : String) (fs : List Field) : Method → List String
  | .equals => equalsBody className fs
  | .hashCode => hashCodeBody fs
  | .toString => toStringBody className fs

theorem lines_structural_toString (className : String) (fs : List Field) :
    (Method.structural className fs .toString).lines =
      match fs with
      | [] => ["return \"" ++ className ++ "(\" + \")\";"]
      | fs => ["return \"" ++ className ++ "(\" + " ++
          Text.join " + \", \" + " (fs.map fieldText) ++ " + \")\";"] := by
  cases fs with
  | nil => rfl
  | cons f r =>
    have hshown : ((f :: r).map (·.name)).map Body.shown = (f :: r).map fieldText := by
      rw [List.map_map]; rfl
    simp only [← hshown]
    rfl

/-- The lines of a method are those of its body. -/
theorem lines_bodyOf (className : String) (fs : List Field) (m : Method) :
    (bodyOf className fs m).lines = methodLines className fs m := by
  unfold bodyOf
  cases hl : hasLazyField fs with
  | true =>
    cases m with
    | equals => simp only [methodLines, equalsBody, hl, if_true]; rfl
    | hashCode => simp only [methodLines, hashCodeBody, hl, if_true]; decide
    | toString => simp only [methodLines, toStringBody, hl, if_true]; decide
  | false =>
    cases m with
    | equals => simp only [methodLines, equalsBody, hl, Bool.false_eq_true, if_false]; rfl
    | hashCode => simp only [methodLines, hashCodeBody, hl, Bool.false_eq_true, if_false]; rfl
    | toString =>
      rw [if_neg Bool.false_ne_true, lines_structural_toString, methodLines]
      unfold toStringBody
      rw [hl]; rfl

/-- The last character of lines: a full stop in the fallbacks, which end in a comment. -/
def lastOf (lines : List String) : Option Char :=
  lines.getLast?.bind (·.toList.getLast?)

theorem lastOf_append {s t : String} {c : Char} (h : t.toList.getLast? = some c) :
    lastOf [s ++ t] = some c := by
  rw [lastOf, List.getLast?_singleton, Option.bind_some, String.toList_append, List.getLast?_append,
    h, Option.some_or]

theorem lastOf_fallback (m : Method) : lastOf m.fallback.lines = some '.' := by
  have hend : (" to avoid circularity.").toList.getLast? = some '.' := by decide
  cases m with
  | equals => simp [Method.fallback, Body.lines, lastOf]
  | hashCode => exact lastOf_append hend
  | toString => exact lastOf_append hend

theorem lastOf_structural (className : String) (fs : List Field) (m : Method) :
    lastOf (m.structural className fs).lines ≠ some '.' := by
  cases m with
  | equals => simp [Method.structural, Body.lines, lastOf]
  | hashCode =>
    rw [Method.structural, Body.lines, lastOf_append (by decide : (";").toList.getLast? = some ';')]
    decide
  | toString =>
    rw [lines_structural_toString]
    cases fs with
    | nil =>
      simp only [lastOf_append (by decide : ("(\" + \")\";").toList.getLast? = some ';')]
      decide
    | cons f r =>
      simp only [lastOf_append (by decide : (" + \")\";").toList.getLast? = some ';')]
      decide

/-- A method is its fallback exactly if a field is lazy. -/
theorem methodLines_eq_fallback_iff :
    methodLines className fs m = m.fallback.lines ↔ ∃ f ∈ fs, f.type.isLazy := by
  rw [← lines_bodyOf, ← hasLazyField_iff, bodyOf]
  cases hasLazyField fs with
  | true => simp
  | false =>
    simp only [Bool.false_eq_true, if_false, iff_false]
    intro h
    exact lastOf_structural className fs m (h ▸ lastOf_fallback m)

/-! ## Calls -/

theorem calls_fallback (m : Method) : m.fallback.calls = [] := by
  cases m <;> rfl

theorem mem_accessors_fieldEquality : n ∈ (fieldEquality f).accessors ↔ n = f.name := by
  unfold fieldEquality
  cases f.type.shape <;> simp [Test.accessors]

theorem mem_accessors_fieldHash : n ∈ (fieldHash f).accessors ↔ n = f.name := by
  unfold fieldHash
  cases f.type.shape <;> simp [HashTerm.accessors]

theorem mem_accessors_foldl (sum : HashTerm) :
    n ∈ (fs.foldl (fun sum f => .mixed sum (fieldHash f)) sum).accessors ↔
      n ∈ sum.accessors ∨ ∃ f ∈ fs, f.name = n := by
  induction fs generalizing sum with
  | nil => simp
  | cons f r ih =>
    rw [List.foldl_cons, ih, HashTerm.accessors, List.mem_append, mem_accessors_fieldHash, or_assoc]
    simp [eq_comm]

theorem mem_calls_structural :
    n ∈ (m.structural className fs).calls ↔ ∃ f ∈ fs, f.name = n := by
  cases m with
  | equals =>
    simp only [Method.structural, Body.calls, comparison, List.flatMap_map, List.mem_flatMap,
      mem_accessors_fieldEquality, eq_comm]
  | hashCode =>
    rw [Method.structural, Body.calls, hashExpression, mem_accessors_foldl]
    simp [HashTerm.accessors]
  | toString => simp [Method.structural, Body.calls]

/-- The accessors that a body calls are those of all fields, and none if a field is lazy. -/
theorem mem_calls_bodyOf :
    n ∈ (bodyOf className fs m).calls ↔
      (¬ ∃ f ∈ fs, f.type.isLazy) ∧ ∃ f ∈ fs, f.name = n := by
  rw [← hasLazyField_iff, bodyOf]
  cases hasLazyField fs with
  | true => simp [calls_fallback]
  | false => simp [mem_calls_structural]

end Typewright.Java
