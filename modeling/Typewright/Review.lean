import Typewright.Generator.Basic
import Typewright.Identifier
import Typewright.Schema.Basic

/-!
# Review of schemas

What is doubtful about a schema without keeping it from being generated: empty definitions, repeated
fields, and names that Java cannot use: its reserved words, and the types of its base package that a
generated class of the same name would hide.

- `Generator.review`: the warnings of a schema.
-/

namespace Typewright

/-! ## Names in Java -/

namespace Java

/-- The reserved words, with the literals and the single underscore. -/
def reservedWords : List String :=
  ["abstract", "assert", "boolean", "break", "byte", "case", "catch", "char", "class", "const",
   "continue", "default", "do", "double", "else", "enum", "extends", "false", "final", "finally",
   "float", "for", "goto", "if", "implements", "import", "instanceof", "int", "interface", "long",
   "native", "new", "null", "package", "private", "protected", "public", "return", "short",
   "static", "strictfp", "super", "switch", "synchronized", "this", "throw", "throws", "transient",
   "true", "try", "void", "volatile", "while", "_"]

/-- The types that a generated type of the same name would hide. -/
def builtinTypes : List String :=
  ["Boolean", "Byte", "Character", "Class", "Double", "Enum", "Float", "Integer", "Iterable",
   "Long", "Number", "Object", "Override", "Record", "Short", "String", "System", "Void"]

/-- The names that Java keeps for itself. -/
def nameRules : NameRules :=
  ⟨reservedWords, builtinTypes⟩

end Java

/-! ## Warnings -/

/-- A warning about a schema. -/
inductive SchemaWarning where
  | noValues (enumeration : String)
  | noFields (record : String)
  | repeatedField (owner field : String)
  | typeName (name : String) (issue : NameIssue)
  | valueName (owner name : String) (issue : NameIssue)
  | fieldName (owner name : String) (issue : NameIssue)
  | packageName (name : String)

def SchemaWarning.message : SchemaWarning → String
  | .noValues enumeration => s!"Enumeration '{enumeration}' has no values"
  | .noFields record => s!"Record '{record}' has no fields"
  | .repeatedField owner field => s!"Duplicate field name in {owner}: {field}"
  | .typeName name issue => issue.message "Type name" name
  | .valueName owner name issue => issue.message s!"Value of {owner}" name
  | .fieldName owner name issue => issue.message s!"Field of {owner}" name
  | .packageName name => s!"Invalid Java package name: {name}"

namespace Review

/-- The names that stand among those before them, each time they do. -/
def repeats (seen : List String) : List String → List String
  | [] => []
  | n :: r => if n ∈ seen then n :: repeats seen r else repeats (n :: seen) r

/-- The warnings about the fields of a class. -/
def repeatedFields (owner : String) (fs : List Field) : List SchemaWarning :=
  (repeats [] (fs.map (·.name))).map (.repeatedField owner)

/-- The warnings about what a definition holds. -/
def contentWarnings (d : Definition) (inherited : List Field) : List SchemaWarning :=
  match d with
  | .enumeration h vs => if vs.isEmpty then [.noValues h.name] else []
  | .record h fs =>
    (if (inherited ++ fs).isEmpty then [.noFields h.name] else []) ++
      repeatedFields h.name (inherited ++ fs)
  | .protocol h fs _ _ => repeatedFields h.name (inherited ++ fs)

def memberWarnings (rules : NameRules) : Definition → List SchemaWarning
  | .enumeration h vs =>
    vs.filterMap fun v => (rules.memberIssue? v.name).map (.valueName h.name v.name)
  | .record h fs | .protocol h fs _ _ =>
    fs.filterMap fun f => (rules.memberIssue? f.name).map (.fieldName h.name f.name)

def nameWarnings (rules : NameRules) (d : Definition) : List SchemaWarning :=
  ((rules.issue? d.name).map (.typeName d.name)).toList ++ memberWarnings rules d

/-- Whether each part of a package name can be used. -/
def isPackageName (rules : NameRules) (name : String) : Bool :=
  (Text.splitAt '.' name).all fun part => (rules.memberIssue? part).isNone

/-- The warning about the name of a package, if it has an issue. -/
def packageWarnings (rules : NameRules) (space : Json) : Except Defect (List SchemaWarning) :=
  match space with
  | .str name => .ok (if isPackageName rules name then [] else [.packageName name])
  | j => .error (.noMember j "split")

end Review

/-- The warnings of a schema: contents first, then names, then the package. -/
def Generator.review (g : Generator) (s : Schema) : Except Defect (List SchemaWarning) := do
  let package ← Review.packageWarnings Java.nameRules (g.settings.spaceFor s.space)
  return s.walk.flatMap (fun (d, inherited) => Review.contentWarnings d inherited) ++
    s.walk.flatMap (fun (d, _) => Review.nameWarnings Java.nameRules d) ++ package

end Typewright
