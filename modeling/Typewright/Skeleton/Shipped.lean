import Typewright.Files.Path
import Typewright.Skeleton.Basic

/-!
# The shipped skeletons

The skeletons of a Java package line, enumeration and class.

- `Skeleton.find?`: a shipped skeleton by its name, which is read as a path.
-/

namespace Typewright.Skeleton

/-- A reference to a part of an item of a repetition. -/
def ofItem (item part : String) : Ref :=
  .part (.name item) part

/-- A value on a line of its own. -/
def line (r : Ref) : List Piece :=
  [.value r, .text "\n"]

/-- A documentation comment on lines of its own, if the value is set. -/
def docLines (r : Ref) : Piece :=
  .choice r [.comment r, .text "\n"] []

/-- The items of a value, each on a line of its own. -/
def lines (r : Ref) : Piece :=
  .each "line" r (line (.name "line")) []

/-- The line that puts a unit into its package. -/
def packageLine : Skeleton where
  name := "package.java.j2"
  pieces := [.text "package ", .value (.name "namespace"), .text ";"]

def enumeration : Skeleton where
  name := "enumeration.java.j2"
  pieces :=
    [docLines (.name "doc"),
     .text "public enum ", .value (.name "name"), .text " \x7b\n",
     .each "value" (.name "values")
       [docLines (ofItem "value" "doc"),
        .value (ofItem "value" "name"), .separator ";" ",", .text "\n"]
       [.text ";\n"],
     lines (.name "extra"),
     .text "\x7d"]

def classHead : List Piece :=
  [docLines (.name "doc"),
   .text "public ", .value (.name "modifier"), .text " class ", .value (.name "name"),
   .choice (.name "parent")
     [.text " extends ", .value (.name "parent")]
     [.text " implements ", .value (.name "serializable_type")],
   .text " \x7b\n"]

def classFields : Piece :=
  .each "field" (.name "fields")
    [docLines (ofItem "field" "doc"),
     .value (ofItem "field" "visibility"), .text " ", .value (ofItem "field" "type"), .text " ",
     .value (ofItem "field" "name"), .text ";\n"]
    []

def classConstructors : Piece :=
  .each "ctor" (.name "constructors")
    [.text "public ", .value (.name "name"), .text "(", .list (ofItem "ctor" "parameters"),
     .text ") \x7b\nsuper(", .list (ofItem "ctor" "super_arguments"), .text ");\n",
     .each "assignment" (ofItem "ctor" "assignments") (line (.name "assignment")) [],
     .text "\x7d\n"]
    []

def classAccessors : Piece :=
  .each "accessor" (.name "accessors")
    [.text "public ", .value (ofItem "accessor" "type"), .text " ",
     .value (ofItem "accessor" "name"), .text "() \x7b\nreturn ",
     .value (ofItem "accessor" "expression"), .text ";\n\x7d\n"]
    []

def classMessages : Piece :=
  .each "message" (.name "messages")
    [docLines (ofItem "message" "doc"),
     .text "public abstract ", .value (ofItem "message" "response"), .text " ",
     .value (ofItem "message" "name"), .text "(", .list (ofItem "message" "arguments"),
     .text ");\n"]
    []

def classWithMethods : Piece :=
  .each "method" (.name "with_methods")
    [.text "public ", .value (.name "name"), .text " with", .capital (ofItem "method" "field"),
     .text "(", .value (ofItem "method" "type"), .text " ", .value (ofItem "method" "field"),
     .text ") \x7b\nreturn new ", .value (.name "name"), .text "(",
     .list (ofItem "method" "arguments"), .text ");\n\x7d\n"]
    []

def classStructural : List Piece :=
  [.text "public boolean equals(Object obj) \x7b\n", lines (.name "equals_body"),
   .text "\x7d\npublic int hashCode() \x7b\n", lines (.name "hash_code_body"),
   .text "\x7d\npublic String toString() \x7b\n", lines (.name "to_string_body"),
   .text "\x7d\n"]

def classBody : Skeleton where
  name := "class.java.j2"
  pieces :=
    classHead ++ [lines (.name "extra"), classFields, classConstructors, classAccessors,
      classMessages, classWithMethods] ++ classStructural ++ [.text "\x7d"]

def shipped : List Skeleton :=
  [packageLine, enumeration, classBody]

/-- The shipped skeleton that a path leads to; they all stand side by side. -/
def find? (path : String) : Option Skeleton :=
  match (Path.ofText path).names with
  | [name] => shipped.find? (·.name == name)
  | _ => none

end Typewright.Skeleton
