import Typewright.Json.Parser
import Typewright.Json.Printer
import Typewright.Text.Repeated

/-!
# Defects and limits

Settings and skeleton contexts are JSON values that are not checked beforehand. A defect is the use
of such a value, or of a file, as something it is not, or of the machine beyond its limits. Defects
are told apart by what went wrong; `Defect.message` words those that reach an output.

- `Machine`: the limits of what the program runs on. They are parameters of whatever depends on
  them.
-/

namespace Typewright

/-- The limits of what the program runs on. -/
structure Machine where
  memory : Text.Memory
  /-- How many arrays and objects in one another can be followed in the document of a schema. -/
  schemaDepth : Nat
  /-- How many of them can be followed in a file of settings. -/
  settingsDepth : Nat
  /-- How many directories can be made one inside the other. -/
  directoryDepth : Nat

/-- A machine with ample memory that follows everything to the same depth. -/
def Machine.ample (depth : Nat) : Machine :=
  ⟨.ample, depth, depth, depth⟩

def Json.kindName : Json → String
  | .null => "NoneType"
  | .bool _ => "bool"
  | .int _ => "int"
  | .real _ => "float"
  | .str _ => "str"
  | .arr _ => "list"
  | .obj _ => "dict"

/-- A value or file used as what it is not. -/
inductive Defect where
  /-- A member is asked of a value that has none of that name. -/
  | noMember (value : Json) (member : String)
  /-- The items are asked of a value that has none. -/
  | notIterable (value : Json)
  /-- A part is asked of a value that has none. -/
  | notSubscriptable (value : Json)
  /-- A value that cannot be a key is used as one. -/
  | unhashableKey (kind : String)
  /-- A value is used as a count. -/
  | notCount (value : Json)
  /-- A text is repeated more often than can be. -/
  | repetition (fault : Text.RepeatFault)
  /-- A list of pairs holds something of another length. -/
  | notPair
  /-- An option that does not exist is set. -/
  | unknownOption (name : String)
  /-- A value that is no text is used as a path or level. -/
  | notText (value : Json)
  /-- The bytes of a file are not UTF-8. -/
  | undecodable
  /-- A number has too many digits. -/
  | integerTooLong (digits : Nat)
  /-- A path holds a character that no path can hold. -/
  | nulInPath
  /-- A text holds a surrogate where it has to be encoded. -/
  | unencodable
  /-- The host of an address is malformed. -/
  | badHost
  /-- The operating system refused with an error that nothing handles. -/
  | system (message : String)
  /-- Something holds parts within parts more often than can be followed. -/
  | tooDeep
  /-- The console cannot show something. -/
  | unshowable (reason : String)

def Defect.message : Defect → String
  | .noMember value member => s!"'{value.kindName}' object has no attribute '{member}'"
  | .notIterable value => s!"'{value.kindName}' object is not iterable"
  | .notSubscriptable value => s!"'{value.kindName}' object is not subscriptable"
  | .unhashableKey kind => s!"unhashable type: '{kind}'"
  | .notCount value => s!"can't multiply sequence by non-int of type '{value.kindName}'"
  | .repetition fault => fault.message
  | .notPair => "dictionary update sequence element #0 has length 1; 2 is required"
  | .unknownOption name => s!"got an unexpected keyword argument '{name}'"
  | .notText value => s!"expected str, not {value.kindName}"
  | .undecodable => "invalid UTF-8"
  | .integerTooLong digits => (Json.ReadError.integerTooLong digits).message
  | .nulInPath => "embedded null byte"
  | .unencodable => "surrogates not allowed"
  | .badHost => "Invalid IPv6 URL"
  | .system message => message
  | .tooDeep => "maximum recursion depth exceeded"
  | .unshowable reason => reason

end Typewright
