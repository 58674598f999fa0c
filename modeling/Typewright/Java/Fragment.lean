import Typewright.Layout

/-!
# Fragments of a unit

A unit is put together from fragments, each a documentation comment or a piece of code. A fragment
may hold several lines; blank ones among them are dropped. A text becomes a comment of one line, or
of a starred line for each of its lines. A line that ends with an opening brace opens a block,
unless it is a comment; a line that starts with a closing brace closes one.

- `docComment`: the comment that holds a text.
- `Fragment.lines`: the lines of a fragment.
- `layout`: the layout of Java source.
-/

namespace Typewright.Java

/-! ## Documentation comments -/

/-- A line inside a documentation comment. -/
def commentLine (line : String) : String :=
  Text.trimEnd (" * " ++ line)

/-- The documentation comment that holds a text; no text has no comment. -/
def docComment (doc : String) : String :=
  if doc = "" then ""
  else match Text.splitAt '\n' doc with
    | [line] => "/** " ++ line ++ " */"
    | lines => "/**\n" ++ Text.join "\n" (lines.map commentLine) ++ "\n */"

/-! ## Fragments -/

/-- A piece of a unit. -/
inductive Fragment where
  /-- The comment that holds a documentation text. -/
  | comment (doc : String)
  | code (text : String)
  deriving DecidableEq

namespace Fragment

def text : Fragment → String
  | .comment doc => docComment doc
  | .code text => text

def isComment : Fragment → Bool
  | .comment _ => true
  | .code _ => false

/-- The lines of a fragment that are not blank. -/
def lines (f : Fragment) : List String :=
  (Text.splitLines f.text).filter fun line => !Text.isBlankText line

/-- The comment that a documentation text asks for, if there is one. -/
def ofDoc (doc : Option String) : List Fragment :=
  doc.toList.map .comment

theorem code_of_notComment {f : Fragment} (h : f.isComment = false) : ∃ text, f = .code text := by
  cases f with
  | comment => simp [isComment] at h
  | code text => exact ⟨text, rfl⟩

end Fragment

/-! ## Blocks -/

/-- What a comment, or a line inside one, starts with. -/
def commentMarks : List (List Char) :=
  [['/', '*'], ['*'], ['/', '/']]

/-- Whether a line is a comment or part of one. -/
def isCommentLine (line : String) : Bool :=
  commentMarks.any (·.isPrefixOf line.toList)

/-- Whether a line opens a block. -/
def opensBlock (line : String) : Bool :=
  line.toList.getLast? == some '\x7b' && !isCommentLine line

/-- Whether a line closes a block. -/
def closesBlock (line : String) : Bool :=
  line.toList.head? == some '\x7d'

/-- The layout of Java source with the given text for one level. -/
def layout (memory : Text.Memory) (indent : String) : Layout :=
  ⟨indent, memory, opensBlock, closesBlock⟩

end Typewright.Java
