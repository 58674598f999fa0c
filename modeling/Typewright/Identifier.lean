import Typewright.Text.Lines

/-!
# Identifiers

An identifier is an ASCII letter, `_` or `$`, and then letters, digits, `_` and `$`; a qualified
name is identifiers with points between them. One line feed at the very end is tolerated in both.
`NameRules` says which names a language reserves and which its own types bear.
-/

namespace Typewright

namespace Identifier

/-- Whether a character can start an identifier. -/
def isStart (c : Char) : Bool :=
  ('A' ≤ c && c ≤ 'Z') || ('a' ≤ c && c ≤ 'z') || c == '_' || c == '$'

/-- Whether a character can stand in an identifier after its start. -/
def isPart (c : Char) : Bool :=
  isStart c || ('0' ≤ c && c ≤ '9')

/-- Whether the characters form an identifier. -/
def isWord : List Char → Bool
  | [] => false
  | c :: r => isStart c && r.all isPart

/-- Whether the characters form identifiers with points between them. -/
def isQualified (cs : List Char) : Bool :=
  (Text.splitChars '.' cs).all isWord

/-- The characters without one line feed at the end. -/
def dropFinalBreak (cs : List Char) : List Char :=
  if cs.getLast? = some '\n' then cs.dropLast else cs

end Identifier

/-- Whether a text is an identifier, apart from one line feed at its end. -/
def isIdentifier (s : String) : Bool :=
  Identifier.isWord (Identifier.dropFinalBreak s.toList)

/-- Whether a text is a qualified name, apart from one line feed at its end. -/
def isQualifiedName (s : String) : Bool :=
  Identifier.isQualified (Identifier.dropFinalBreak s.toList)

/-- The names that a language keeps for itself. -/
structure NameRules where
  reserved : List String
  /-- The types of the language's own library. -/
  builtin : List String

/-- Why a name cannot be used as it is. -/
inductive NameIssue where
  | notIdentifier
  | reserved
  | shadowsBuiltin
  deriving DecidableEq

def NameIssue.message (what name : String) : NameIssue → String
  | .notIdentifier => s!"{what} '{name}' is not a valid identifier"
  | .reserved => s!"{what} '{name}' is a reserved word"
  | .shadowsBuiltin => s!"{what} '{name}' shadows a builtin type"

namespace NameRules

def isReserved (r : NameRules) (name : String) : Bool :=
  r.reserved.contains name

def isBuiltin (r : NameRules) (name : String) : Bool :=
  r.builtin.contains name

/-- The first issue with a name that need only be an identifier and no reserved word. -/
def memberIssue? (r : NameRules) (name : String) : Option NameIssue :=
  if !isIdentifier name then some .notIdentifier
  else if r.isReserved name then some .reserved
  else none

/-- The first issue with the name of a type. -/
def issue? (r : NameRules) (name : String) : Option NameIssue :=
  (r.memberIssue? name).or (if r.isBuiltin name then some .shadowsBuiltin else none)

end NameRules

end Typewright
