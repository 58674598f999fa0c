import Typewright.Json.Basic
import Typewright.Text.Blank
import Typewright.Text.Lines
import Typewright.Text.Repeated

/-!
# Layout

Indentation is derived from the lines themselves. A layout says which lines open a block and which
close one; a line that closes one stands a level further out, and the lines after one that opens a
block stand a level further in. A line whose indentation is too long is refused.

- `Layout.Buffer.append`: a nest of lines, down to the first item that cannot be appended.
- `Layout.text`: the text of several lines.
-/

namespace Typewright

/-- How lines are indented. -/
structure Layout where
  /-- The text of one level. -/
  indent : String
  /-- The memory that an indentation has to fit into. -/
  memory : Text.Memory
  /-- Whether the lines after a line stand further in. -/
  opens : String → Bool
  /-- Whether a line stands further out than the one before it. -/
  closes : String → Bool

namespace Layout

/-- The indentation of a level, unless it is too long. -/
def margin (l : Layout) (level : Nat) : Except Text.RepeatFault String :=
  Text.repeated l.memory l.indent level

/-- The level at which a trimmed line stands when the level before it is `level`. -/
def levelOf (l : Layout) (level : Nat) (clean : String) : Nat :=
  if l.closes clean then level - 1 else level

/-- The level after a trimmed line when the level before it is `level`. -/
def levelAfter (l : Layout) (level : Nat) (clean : String) : Nat :=
  if l.opens clean then l.levelOf level clean + 1 else l.levelOf level clean

def unlines (lines : List String) : String :=
  String.join (lines.map (· ++ "\n"))

/-- The lines laid out so far, and the level of the next. -/
structure Buffer where
  level : Nat
  lines : List String

/-- Why something cannot be appended. -/
inductive Refusal where
  /-- A value is no line. -/
  | notLine (value : Json)
  /-- The indentation of a line is too long. -/
  | indentation (fault : Text.RepeatFault)

namespace Buffer

/--
The buffer after one more line. If its indentation is too long, the buffer is left at the level of
that line.
-/
def appendLine (l : Layout) (b : Buffer) (line : String) : Buffer × Option Refusal :=
  let clean := Text.trim line
  match l.margin (l.levelOf b.level clean) with
  | .error fault => (⟨l.levelOf b.level clean, b.lines⟩, some (.indentation fault))
  | .ok margin => (⟨l.levelAfter b.level clean, b.lines ++ [margin ++ clean]⟩, none)

/-- The buffer after several lines. -/
def appendLines (l : Layout) (b : Buffer) : List String → Buffer × Option Refusal
  | [] => (b, none)
  | line :: r =>
    match appendLine l b line with
    | (b', none) => appendLines l b' r
    | (b', some refusal) => (b', some refusal)

mutual

/--
The buffer after a nest of lines: a string is a line, null is nothing, and an array or the keys of
an object are several. A number or truth value is no line. After something that cannot be appended
nothing more is.
-/
def append (l : Layout) (b : Buffer) : Json → Buffer × Option Refusal
  | .null => (b, none)
  | .str line => b.appendLine l line
  | .arr items => appendAll l b items
  | .obj members => b.appendLines l (members.map (·.1))
  | j => (b, some (.notLine j))

/-- The buffer after several nests of lines. -/
def appendAll (l : Layout) (b : Buffer) : List Json → Buffer × Option Refusal
  | [] => (b, none)
  | j :: r =>
    match append l b j with
    | (b', none) => appendAll l b' r
    | (b', some refusal) => (b', some refusal)

end

/-- The text of the lines so far. -/
def text (b : Buffer) : String :=
  unlines b.lines

end Buffer

/-- The text of lines laid out from level zero on, unless one of them is refused. -/
def text (l : Layout) (lines : List String) : Except Refusal String :=
  match Buffer.appendLines l ⟨0, []⟩ lines with
  | (b, none) => .ok b.text
  | (_, some refusal) => .error refusal

end Layout

end Typewright
