import Typewright.Text.Blank

/-!
# Type references

A field, an argument or a response has a type by name. The reference says besides whether the value
is deferred, and whether it is a single one, repeated or optional. Its compact spelling is the name
with `lazy ` before it and `*` or `?` after it.

- `TypeRef.spelling`, `TypeRef.ofText?`: writing and reading the compact spelling.
-/

namespace Typewright

/-- How many values a type reference stands for. -/
inductive Arity where
  | single
  | repeated
  | optional
  deriving DecidableEq, Repr

/-- The mark that an arity has after the name of a type. -/
def Arity.mark : Arity → String
  | .single => ""
  | .repeated => "*"
  | .optional => "?"

/-- A reference to a named type. -/
structure TypeRef where
  name : String
  arity : Arity
  isLazy : Bool
  deriving DecidableEq, Repr

namespace TypeRef

/-- The word before the name of a deferred type. -/
def lazyWord : List Char := "lazy ".toList

/-- The compact spelling of a reference. -/
def spelling (t : TypeRef) : String :=
  (if t.isLazy then "lazy " else "") ++ t.name ++ t.arity.mark

/-- Whether a text starts with the word for a deferred type, and what follows the word. -/
def splitLazy (cs : List Char) : Bool × List Char :=
  if lazyWord.isPrefixOf cs then (true, Text.trimChars (cs.drop lazyWord.length)) else (false, cs)

/-- The arity that the last character of a text marks, and what stands before the mark. -/
def splitMark (cs : List Char) : Arity × List Char :=
  match cs.getLast? with
  | some '*' => (.repeated, Text.trimChars cs.dropLast)
  | some '?' => (.optional, Text.trimChars cs.dropLast)
  | _ => (.single, cs)

/-- Whether the characters can name a type: there are some, and the last is no arity mark. -/
def isTypeName (cs : List Char) : Bool :=
  match cs.getLast? with
  | none => false
  | some c => c != '*' && c != '?'

/-- The reference that a text spells, if it spells one. -/
def ofText? (s : String) : Option TypeRef :=
  let (isLazy, marked) := splitLazy (Text.trimChars s.toList)
  let (arity, name) := splitMark marked
  if isTypeName name then some ⟨.ofList name, arity, isLazy⟩ else none

/-- The reference with the given marks, unless it is both repeated and optional. -/
def ofMarks? (name : String) (isLazy repeated optional : Bool) : Option TypeRef :=
  match repeated, optional with
  | true, true => none
  | true, false => some ⟨name, .repeated, isLazy⟩
  | false, true => some ⟨name, .optional, isLazy⟩
  | false, false => some ⟨name, .single, isLazy⟩

end TypeRef

end Typewright
