import Typewright.CommandLine.Words

/-!
# Invocations

What a command line asks the program to do. The program has options of its own and one command,
which generates a schema from a file or from the web.

- `Invocation.ofWords`: the invocation that a command line asks for, or why there is none.
-/

namespace Typewright.CommandLine

/-- What is wrong with a command line. -/
inductive UsageError where
  | word (fault : WordFault)
  | badCommand (command : String)
  | exclusive (argument other : String)
  | noSource
  | unrecognized (words : List String)

def UsageError.message : UsageError → String
  | .word fault => fault.message
  | .badCommand command =>
    s!"argument command: invalid choice: {Text.quoted command} (choose from 'generate')"
  | .exclusive argument other => s!"argument {argument}: not allowed with argument {other}"
  | .noSource => "one of the arguments schema --url is required"
  | .unrecognized words => "unrecognized arguments: " ++ Text.join " " words

/-- Why a command line asks for nothing. -/
inductive Stop where
  | help
  | version
  | usage (program : String) (error : UsageError)

def programName : String :=
  "datatype-gen"

def commandName : String :=
  programName ++ " generate"

def versionText : String :=
  programName ++ " 0.1.0\n"

/-! ## The command -/

/-- The options of the command. -/
inductive GenerateKey where
  | help
  | url
  | language
  | outputDirectory
  | config
  | space
  | lazyType
  | optionalType
  | noComments
  | spaceDirectories
  | dryRun
  deriving DecidableEq

/-- How the options of the command are spelled. -/
def generateSpecs : List (OptionSpec GenerateKey) :=
  [⟨.help, ["-h", "--help"], false⟩,
   ⟨.url, ["--url"], true⟩,
   ⟨.language, ["--language", "-l"], true⟩,
   ⟨.outputDirectory, ["--output-dir", "-o"], true⟩,
   ⟨.config, ["--config"], true⟩,
   ⟨.space, ["--namespace"], true⟩,
   ⟨.lazyType, ["--lazy-type"], true⟩,
   ⟨.optionalType, ["--optional-type"], true⟩,
   ⟨.noComments, ["--no-comments"], false⟩,
   ⟨.spaceDirectories, ["--namespace-dirs"], false⟩,
   ⟨.dryRun, ["--dry-run"], false⟩]

/-- What the command is asked to do; a text that is empty asks for nothing. -/
structure GenerateOptions where
  schema : Option String
  url : Option String
  /-- The language, unless one is asked for without a name. -/
  language : Option String
  /-- The directory that units go to, unless one is asked for without a name. -/
  outputDirectory : Option String
  config : String
  space : String
  lazyType : String
  optionalType : String
  noComments : Bool
  spaceDirectories : Bool
  dryRun : Bool
  deriving DecidableEq

namespace GenerateOptions

/-- What the command does unless it is asked otherwise. -/
def start : GenerateOptions where
  schema := none
  url := none
  language := some "java"
  outputDirectory := some "."
  config := ""
  space := ""
  lazyType := ""
  optionalType := ""
  noComments := false
  spaceDirectories := false
  dryRun := false

/-- A usage error of the command. -/
def fail {α : Type} (e : UsageError) : Except Stop α :=
  .error (.usage commandName e)

/-- The options after one more; one that takes a value may be given without. -/
def set (g : GenerateOptions) (key : GenerateKey) (value : Option String) :
    Except Stop GenerateOptions :=
  match key with
  | .help => .error .help
  | .url =>
    if g.schema.isSome then fail (.exclusive "--url" "schema")
    else .ok { g with url := some (value.getD "") }
  | .language => .ok { g with language := value }
  | .outputDirectory => .ok { g with outputDirectory := value }
  | .config => .ok { g with config := value.getD "" }
  | .space => .ok { g with space := value.getD "" }
  | .lazyType => .ok { g with lazyType := value.getD "" }
  | .optionalType => .ok { g with optionalType := value.getD "" }
  | .noComments => .ok { g with noComments := true }
  | .spaceDirectories => .ok { g with spaceDirectories := true }
  | .dryRun => .ok { g with dryRun := true }

/-- The options after several events, with the words that are left over. -/
def follow (g : GenerateOptions) :
    List (Event GenerateKey) → Except Stop (GenerateOptions × List String)
  | [] => .ok (g, [])
  | .set key value :: r => do
    let next ← g.set key value
    next.follow r
  | .operand words :: r =>
    if g.url.isSome then fail (.exclusive "schema" "--url")
    else follow { g with schema := words.head? } r
  | .extra word :: r => do
    let (last, extras) ← g.follow r
    return (last, word :: extras)
  | .fault f :: _ => fail (.word f)

/-- The options that words ask for, with the words that are left over. -/
def ofWords (words : List String) : Except Stop (GenerateOptions × List String) :=
  match events .single generateSpecs words with
  | .error f => fail (.word f)
  | .ok es => do
    let (g, extras) ← start.follow es
    if g.schema.isNone && g.url.isNone then fail .noSource else return (g, extras)

end GenerateOptions

/-! ## The program -/

/-- The options of the program. -/
inductive ProgramKey where
  | help
  | version
  | verbose
  | listLanguages
  deriving DecidableEq

/-- How the options of the program are spelled. -/
def programSpecs : List (OptionSpec ProgramKey) :=
  [⟨.help, ["-h", "--help"], false⟩,
   ⟨.version, ["--version"], false⟩,
   ⟨.verbose, ["--verbose", "-v"], false⟩,
   ⟨.listLanguages, ["--list-languages"], false⟩]

/-- What the program is asked to do. -/
structure Invocation where
  verbose : Bool
  listLanguages : Bool
  command : Option GenerateOptions
  deriving DecidableEq

namespace Invocation

def fail {α : Type} (e : UsageError) : Except Stop α :=
  .error (.usage programName e)

def set (i : Invocation) : ProgramKey → Except Stop Invocation
  | .help => .error .help
  | .version => .error .version
  | .verbose => .ok { i with verbose := true }
  | .listLanguages => .ok { i with listLanguages := true }

/-- The command that words ask for, with the words that are left over. -/
def commandOf : List String → Except Stop (GenerateOptions × List String)
  | "generate" :: words => GenerateOptions.ofWords words
  | words => fail (.badCommand (words.head?.getD ""))

/--
The invocation after several events, with the words that are left over, those of the program before
those of its command.
-/
def follow (i : Invocation) :
    List (Event ProgramKey) → Except Stop (Invocation × List String × List String)
  | [] => .ok (i, [], [])
  | .set key _ :: r => do
    let next ← i.set key
    next.follow r
  | .operand words :: r => do
    let (g, inner) ← commandOf words
    let (last, outer, others) ← follow { i with command := some g } r
    return (last, outer, inner ++ others)
  | .extra word :: r => do
    let (last, outer, inner) ← i.follow r
    return (last, word :: outer, inner)
  | .fault f :: _ => fail (.word f)

/-- The invocation that a command line asks for. -/
def ofWords (words : List String) : Except Stop Invocation :=
  match events .subcommand programSpecs words with
  | .error f => fail (.word f)
  | .ok es => do
    let (i, outer, inner) ← follow ⟨false, false, none⟩ es
    match outer ++ inner with
    | [] => return i
    | extras => fail (.unrecognized extras)

end Invocation

end Typewright.CommandLine
