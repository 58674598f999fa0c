import Typewright.Decimal.Shortest
import Typewright.Json.Basic
import Typewright.Text.Lines
import Typewright.Text.Quoted

/-!
# The text of a JSON value

`Json.inspect` is how a value is shown inside a message; `Json.text` is how it is used as a text of
its own, which differs for a string only: it stands for itself.
-/

namespace Typewright.Json

mutual

/-- How a value is shown inside a message. -/
def inspect : Json → String
  | .null => "None"
  | .bool true => "True"
  | .bool false => "False"
  | .int n => toString n
  | .real x => Decimal.text x
  | .str s => Text.quoted s
  | .arr xs => "[" ++ Text.join ", " (inspectItems xs) ++ "]"
  | .obj ms => "\x7b" ++ Text.join ", " (inspectMembers ms) ++ "\x7d"

def inspectItems : List Json → List String
  | [] => []
  | x :: r => inspect x :: inspectItems r

def inspectMembers : List (String × Json) → List String
  | [] => []
  | (k, v) :: r => (Text.quoted k ++ ": " ++ inspect v) :: inspectMembers r

end

/-- The text that a value stands for. -/
def text : Json → String
  | .str s => s
  | j => j.inspect

end Typewright.Json
