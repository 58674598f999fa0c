import Typewright.Text.CodePoint
import Typewright.Text.Lines

/-!
# Paths

A path is an anchor, which is empty unless the path is absolute, and the names that lead on from
there. Empty names and single points do not count; two points do.

- `Path.ofText`, `Path.text`: reading a path and its normal form.
- `Path.join`: going on from a path; an absolute path starts anew.
- `Path.fault?`: why a path cannot be that of a file.
-/

namespace Typewright

/-- Why a path cannot be that of a file. -/
inductive PathFault where
  /-- It holds a surrogate that stands for no byte. -/
  | unencodable
  /-- It holds the one character that no file name can hold. -/
  | nul

/-- A path in its normal form. -/
structure Path where
  anchor : String
  names : List String
  deriving DecidableEq

namespace Path

/-- The working directory. -/
def here : Path :=
  ⟨"", []⟩

/-- The anchor of a path: two slashes are kept, one or more than two are one. -/
def anchorOf (cs : List Char) : String :=
  match cs.takeWhile (· == '/') with
  | [] => ""
  | [_, _] => "//"
  | _ => "/"

/-- The path that a text names. -/
def ofText (s : String) : Path :=
  ⟨anchorOf s.toList, (Text.splitAt '/' s).filter fun n => n != "" && n != "."⟩

/-- The normal form of a path. -/
def text (p : Path) : String :=
  if p.anchor = "" && p.names.isEmpty then "." else p.anchor ++ Text.join "/" p.names

/-- The path that goes on from a directory. -/
def join (directory p : Path) : Path :=
  if p.anchor = "" then ⟨directory.anchor, directory.names ++ p.names⟩ else p

def parent (p : Path) : Path :=
  ⟨p.anchor, p.names.dropLast⟩

/-- What a name ends in from its last point on, unless the point is its first or last character. -/
def suffixOf (name : String) : String :=
  let cs := name.toList
  let ending := cs.reverse.takeWhile (· != '.')
  if ending.isEmpty || cs.length ≤ ending.length + 1 then ""
  else .ofList ('.' :: ending.reverse)

/-- What the last name of a path ends in. -/
def suffix (p : Path) : String :=
  match p.names.getLast? with
  | none => ""
  | some name => suffixOf name

/-- Whether a code point is a surrogate that stands for a byte, as file names are bytes. -/
def isByteSurrogate (code : Nat) : Bool :=
  0xDC80 ≤ code && code ≤ 0xDCFF

/-- The number of bytes that a code point takes in the name of a file. -/
def codeSize (code : Nat) : Nat :=
  if code < 0x80 || isByteSurrogate code then 1
  else if code < 0x800 then 2
  else if code < 0x10000 then 3
  else 4

/-- The number of bytes that a text takes as the name of a file. -/
def nameSize (s : String) : Nat :=
  (Text.codes s.toList).foldl (fun size code => size + codeSize code) 0

/-- Why a path cannot be that of a file; a surrogate is found first. -/
def fault? (p : Path) : Option PathFault :=
  let codes := Text.codes p.text.toList
  if codes.any fun n => Text.isSurrogate n && !isByteSurrogate n then some .unencodable
  else if codes.contains 0 then some .nul
  else none

end Path

end Typewright
