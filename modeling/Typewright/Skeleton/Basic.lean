import Typewright.Defect
import Typewright.Java.Fragment
import Typewright.Text.Case

/-!
# Skeletons

A skeleton is source text with gaps, choices and repetitions, filled in from a context of JSON
values. Every name has to be bound by the time it is reached: what is never reached is never
missed.

- `Skeleton.fill`: the text of a skeleton in a context, or the first fault on the way.
-/

namespace Typewright

/-- Why a skeleton could not be filled in. -/
inductive SkeletonFault where
  /-- A name that is reached is not bound. -/
  | undefined (name : String)
  /-- A value has no part of a name. -/
  | noPart (value : Json) (name : String)
  /-- A value is used as what it is not. -/
  | defect (defect : Defect)

def SkeletonFault.message : SkeletonFault → String
  | .undefined name => s!"'{name}' is undefined"
  | .noPart .null name => s!"'None' has no attribute '{name}'"
  | .noPart value name => s!"'{value.kindName} object' has no attribute '{name}'"
  | .defect d => d.message

namespace Skeleton

/-- The names bound in a context, the innermost first. -/
abbrev Context := List (String × Json)

/-- A reference to a value of the context. -/
inductive Ref where
  | name (name : String)
  | part (of : Ref) (name : String)

/-- A piece of a skeleton. -/
inductive Piece where
  | text (text : String)
  /-- The text of a value. -/
  | value (ref : Ref)
  /-- The text of a value with its first character in upper case. -/
  | capital (ref : Ref)
  /-- The documentation comment that holds the text of a value. -/
  | comment (ref : Ref)
  /-- The texts of the items of a value, separated by commas. -/
  | list (ref : Ref)
  /-- One of two bodies, as a value counts as set or not. -/
  | choice (ref : Ref) (yes no : List Piece)
  /-- A body for each item of a value, or another one if there are no items. -/
  | each (item : String) (ref : Ref) (body : List Piece) (otherwise : List Piece)
  /-- A text after the last item of the innermost repetition, and another after all others. -/
  | separator (last other : String)

/-- The value that a reference leads to. -/
def Ref.value (env : Context) : Ref → Except SkeletonFault Json
  | .name n => match Json.lookup n env with
    | some v => .ok v
    | none => .error (.undefined n)
  | .part r n => do
    let v ← r.value env
    match v.get? n with
    | some w => return w
    | none => .error (.noPart v n)

/-- The items of a value: those of an array, the pieces of a text, the keys of an object. -/
def items : Json → Except SkeletonFault (List Json)
  | .arr xs => .ok xs
  | .str s => .ok ((Text.pieces s).map .str)
  | .obj ms => .ok (ms.map fun m => .str m.1)
  | j => .error (.defect (.notIterable j))

/-- The text of a value with its first character in upper case. -/
def capital : Json → Except SkeletonFault String
  | .str s => .ok (Text.upperFirst s)
  | .arr xs => .error (.defect (.noMember (.arr xs) "upper"))
  | .obj _ => .error (.defect (.unhashableKey "slice"))
  | j => .error (.defect (.notSubscriptable j))

/-- The documentation comment that a value asks for; a value that is not set asks for none. -/
def comment (j : Json) : String :=
  if j.isTruthy then Java.docComment j.text else ""

mutual

/-- The text of a piece; `isLast` says whether the innermost repetition is at its last item. -/
def Piece.fill (env : Context) (isLast : Bool) : Piece → Except SkeletonFault String
  | .text s => .ok s
  | .value r => Json.text <$> r.value env
  | .capital r => r.value env >>= Skeleton.capital
  | .comment r => Skeleton.comment <$> r.value env
  | .list r => do
    let xs ← r.value env >>= items
    return Text.join ", " (xs.map Json.text)
  | .choice r yes no => do
    let v ← r.value env
    if v.isTruthy then fillAll env isLast yes else fillAll env isLast no
  | .each item r body otherwise => do
    let xs ← r.value env >>= items
    if xs.isEmpty then fillAll env isLast otherwise
    else
      let texts ← xs.zipIdx.mapM fun (x, i) => fillAll ((item, x) :: env) (i + 1 == xs.length) body
      return String.join texts
  | .separator last other => .ok (if isLast then last else other)

def fillAll (env : Context) (isLast : Bool) : List Piece → Except SkeletonFault String
  | [] => .ok ""
  | p :: r => do
    let s ← p.fill env isLast
    let t ← fillAll env isLast r
    return s ++ t

end

/-- The names that are bound in every context, unless the context binds them otherwise. -/
def ambient : Context :=
  [("namespace", .str "<class 'jinja2.utils.Namespace'>")]

end Skeleton

/-- Source text with gaps. -/
structure Skeleton where
  name : String
  pieces : List Skeleton.Piece

/-- The text of a skeleton in a context. -/
def Skeleton.fill (s : Skeleton) (env : Skeleton.Context) : Except SkeletonFault String :=
  Skeleton.fillAll (env ++ Skeleton.ambient) false s.pieces

end Typewright
