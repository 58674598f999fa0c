import Typewright.CommandLine.Run

/-!
# The program

Reads the files that a command line names, lets `CommandLine.run` decide what becomes of them, and
then shows and writes what it has decided. The web is out of reach from here.
-/

namespace Typewright.CommandLine

/-- What the program runs on: a console that shows texts without their markup, and ample memory. -/
def host : Host :=
  .ample 988

def usageText : String :=
  "usage: datatype-gen [-h] [--version] [--verbose] [--list-languages] [generate] ..."

/-- The path of a place below the working directory, above it or below the root. -/
def pathOfPlace (p : Place) : String :=
  Text.plain <| match p.origin with
    | .root => "/" ++ Text.join "/" p.names
    | .above levels => Text.join "/" (List.replicate levels ".." ++ p.names)

/-- The paths that a command line names, those of directories with all that lead to them. -/
def namedPaths (words : List String) : List Path :=
  match Invocation.ofWords words with
  | .error _ => []
  | .ok i => match i.command with
    | none => []
    | some o =>
      let output := Path.ofText (o.outputDirectory.getD "")
      let leading := (List.range output.names.length).map fun n =>
        (⟨output.anchor, output.names.take (n + 1)⟩ : Path)
      Path.ofText (o.schema.getD "") :: Path.ofText o.config :: leading

/-- The tree with what there is at a path. -/
def readInto (t : FileTree) (p : Path) : IO FileTree := do
  let parents := (t.makeDirectories host.directoryDepth p.parent).1
  let name := Text.plain p.text
  try
    let content ← IO.FS.readBinFile name
    match parents.write p content.toList with
    | .ok t' => return t'
    | .error _ => return t
  catch _ =>
    try
      let real ← IO.FS.realPath name
      if ← real.isDir then return (t.makeDirectories host.directoryDepth p).1 else return t
    catch _ => return t

/-- What is written to the console to show something, without its colours. -/
def displayText : Display → String
  | .text s => s ++ "\n"
  | .blank => "\n"
  | .rule title => title ++ "\n"
  | .source code _ => code
  | .table title columns rows =>
    Layout.unlines (title :: (columns :: rows).map (Text.join "  "))
  | .panel text title => Layout.unlines [title, text]

def display (d : Display) : IO Unit :=
  IO.print (Text.plain (displayText d))

/-- Writes what is in one tree and not in another. -/
def writeChanges (before after : FileTree) : IO Unit := do
  for (place, entry) in after.entries do
    if before.get? place ≠ some entry then
      match entry with
      | .directory => IO.FS.createDirAll (pathOfPlace place)
      | .file content => IO.FS.writeBinFile (pathOfPlace place) ⟨content.toArray⟩

def showStop : Stop → IO Unit
  | .help => IO.println usageText
  | .version => IO.print versionText
  | .usage program e => IO.eprintln (Text.plain s!"{program}: error: {e.message}")

end Typewright.CommandLine

open Typewright Typewright.CommandLine in
/-- Runs the program; a defect that nothing handles counts as failure. -/
def main (arguments : List String) : IO UInt32 := do
  let words := arguments.map Text.ofPlain
  let before ← (namedPaths words).foldlM readInto FileTree.empty
  let outcome := run host .builtin before (.error (.connection "the web is out of reach")) words
  match outcome with
  | .stopped stop => showStop stop
  | .usage _ => IO.println usageText
  | .ended _ _ => pure ()
  outcome.shown.forM CommandLine.display
  writeChanges before (outcome.files before)
  match outcome.exitCode with
  | .ok code => return code.toUInt32
  | .error d => do
    IO.eprintln (Text.plain d.message)
    return 1
