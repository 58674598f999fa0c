import Typewright.Files.Path
import Typewright.Text.CodePoint
import Typewright.Text.Lines
import Typewright.Text.Quoted

/-!
# File trees

The files and directories that a run can see, as a value. Places are counted from the working
directory: so many levels above it, or from the root. The working directory, those above it and the
root are there from the start. Files are UTF-8. Reading one as text turns every carriage return,
alone or before a line feed, into a line feed; a text that holds a surrogate has no bytes.

- `FileTree.locate`: the place that a path leads to; every name but the last must be a directory.
- `FileTree.read`, `FileTree.write`, `FileTree.makeDirectories`.
- `fileText?`, `encodeText?`: the text of bytes, and the bytes of a text.
-/

namespace Typewright

/-- The reasons for which the operating system refuses. -/
inductive Errno where
  | noEntry
  | alreadyExists
  | notDirectory
  | isDirectory
  | nameTooLong
  deriving DecidableEq

namespace Errno

/-- The number of a reason. -/
def number : Errno → Nat
  | .noEntry => 2
  | .alreadyExists => 17
  | .notDirectory => 20
  | .isDirectory => 21
  | .nameTooLong => 36

def text : Errno → String
  | .noEntry => "No such file or directory"
  | .alreadyExists => "File exists"
  | .notDirectory => "Not a directory"
  | .isDirectory => "Is a directory"
  | .nameTooLong => "File name too long"

end Errno

/-- A refusal of the operating system, about one path. -/
structure SystemError where
  reason : Errno
  path : Path

def SystemError.message (e : SystemError) : String :=
  s!"[Errno {e.reason.number}] {e.reason.text}: {Text.quoted e.path.text}"

/-- Where the names of a place lead on from. -/
inductive Origin where
  /-- The working directory, or the directory so many levels above it. -/
  | above (levels : Nat)
  | root
  deriving DecidableEq

/-- A place that a path can lead to. -/
structure Place where
  origin : Origin
  names : List String
  deriving DecidableEq

/-- What is at a place. -/
inductive Entry where
  | directory
  | file (content : List UInt8)
  deriving DecidableEq

/-- The entries at the places below the origins, in the order in which they were made. -/
structure FileTree where
  entries : List (Place × Entry)

namespace FileTree

def empty : FileTree :=
  ⟨[]⟩

def get? (t : FileTree) (p : Place) : Option Entry :=
  if p.names.isEmpty then some .directory
  else (t.entries.find? (·.1 = p)).map (·.2)

/-- The entries with one more or one replaced. -/
def setEntry (p : Place) (e : Entry) : List (Place × Entry) → List (Place × Entry)
  | [] => [(p, e)]
  | (q, f) :: r => if q = p then (q, e) :: r else (q, f) :: setEntry p e r

def set (t : FileTree) (p : Place) (e : Entry) : FileTree :=
  ⟨setEntry p e t.entries⟩

/-- The place that one more name leads to from a directory. -/
def step (p : Place) (name : String) : Place :=
  if name = ".." then
    match p.names, p.origin with
    | [], .above n => ⟨.above (n + 1), []⟩
    | [], .root => p
    | names, _ => ⟨p.origin, names.dropLast⟩
  else ⟨p.origin, p.names ++ [name]⟩

def maxNameSize : Nat :=
  255

def maxPathSize : Nat :=
  4095

/-- The place that names lead to from another. -/
def follow (t : FileTree) (p : Place) : List String → Except Errno Place
  | [] => .ok p
  | name :: r =>
    match t.get? p with
    | some .directory =>
      if maxNameSize < Path.nameSize name then .error .nameTooLong else follow t (step p name) r
    | some (.file _) => .error .notDirectory
    | none => .error .noEntry

/-- The place that a path starts from. -/
def startOf (p : Path) : Place :=
  ⟨if p.anchor = "" then .above 0 else .root, []⟩

/-- The place that a path leads to. -/
def locate (t : FileTree) (p : Path) : Except Errno Place :=
  if maxPathSize < Path.nameSize p.text then .error .nameTooLong else follow t (startOf p) p.names

/-- Whether a path leads to anything; a name or path that is too long is refused. -/
def pathExists (t : FileTree) (p : Path) : Except SystemError Bool :=
  if p.fault?.isSome then .ok false
  else match t.locate p with
    | .ok place => .ok (t.get? place).isSome
    | .error .nameTooLong => .error ⟨.nameTooLong, p⟩
    | .error _ => .ok false

/-- The bytes of the file that a path leads to. -/
def read (t : FileTree) (p : Path) : Except SystemError (List UInt8) :=
  match t.locate p with
  | .error e => .error ⟨e, p⟩
  | .ok place =>
    match t.get? place with
    | some (.file content) => .ok content
    | some .directory => .error ⟨.isDirectory, p⟩
    | none => .error ⟨.noEntry, p⟩

/-- The tree after writing a file. -/
def write (t : FileTree) (p : Path) (content : List UInt8) : Except SystemError FileTree :=
  match t.locate p with
  | .error e => .error ⟨e, p⟩
  | .ok place =>
    match t.get? place with
    | some .directory => .error ⟨.isDirectory, p⟩
    | _ => .ok (t.set place (.file content))

/-- Why directories could not be made: the system refused, or too many of them were missing. -/
inductive MakeFailure where
  | refused (error : SystemError)
  | tooMany

/--
The tree after making directories one inside the other, starting at a place that is one; those that
are there already stay. `before` are the names on the way to the place, and `names` those to make.
-/
def makeChain (t : FileTree) (anchor : String) (p : Place) (before : List String) :
    (names : List String) → FileTree × Option SystemError
  | [] => (t, none)
  | name :: r =>
    let path : Path := ⟨anchor, before ++ [name]⟩
    let next := step p name
    if maxNameSize < Path.nameSize name then (t, some ⟨.nameTooLong, path⟩)
    else match t.get? next with
      | some .directory => makeChain t anchor next path.names r
      | some (.file _) => (t, some ⟨.alreadyExists, path⟩)
      | none => makeChain (t.set next .directory) anchor next path.names r

/-- The number of names that lead on from the first place that is missing, that one included. -/
def missingFrom (t : FileTree) (p : Place) : List String → Nat
  | [] => 0
  | name :: r =>
    match t.get? (step p name) with
    | none => r.length + 1
    | some _ => missingFrom t (step p name) r

/--
The tree after making a directory and those that lead to it, of which `most` may be missing. What
was made stays, also when a later directory cannot be made.
-/
def makeDirectories (most : Nat) (t : FileTree) (p : Path) : FileTree × Option MakeFailure :=
  match t.locate p with
  | .ok place =>
    match t.get? place with
    | some .directory => (t, none)
    | some (.file _) => (t, some (.refused ⟨.alreadyExists, p⟩))
    | none => (t.set place .directory, none)
  | .error .noEntry =>
    if most < t.missingFrom (startOf p) p.names then (t, some .tooMany)
    else
      let (t', error) := t.makeChain p.anchor (startOf p) [] p.names
      (t', error.map .refused)
  | .error e => (t, some (.refused ⟨e, p⟩))

end FileTree

/-! ## The text of a file -/

/-- The characters with every kind of line end turned into a line feed. -/
def universalBreaks : List Char → List Char
  | [] => []
  | '\r' :: '\n' :: r => '\n' :: universalBreaks r
  | '\r' :: r => '\n' :: universalBreaks r
  | c :: r => c :: universalBreaks r

/-- The text that bytes encode, if they encode one. -/
def decodeText? (bytes : List UInt8) : Option String :=
  (String.fromUTF8? ⟨bytes.toArray⟩).map Text.ofPlain

/-- The text of a file with the given bytes. -/
def fileText? (bytes : List UInt8) : Option String :=
  (decodeText? bytes).map fun s => .ofList (universalBreaks s.toList)

/-- The bytes that encode a text, if any do. -/
def encodeText? (s : String) : Option (List UInt8) :=
  (Text.plain? s).map fun plain => plain.toUTF8.toList

end Typewright
