import Typewright.CommandLine.Invocation
import Typewright.Journal
import Typewright.Loading
import Typewright.Registry.Basic
import Typewright.Report

/-!
# Runs of the program

A run turns a command line, the files that are there and what the web answers into an exit code,
what is shown, and the files that are there afterwards. What is shown keeps its markup: rendering it
is not a part of the program, and a console may refuse it, such as a text whose markup closes what
it has not opened. Whether it does is a parameter; a run ends at the first thing that it refuses.

- `Console`: what a console refuses.
- `Host`: all that the program depends on where it runs.
- `run`: a run of the program.
- `writeUnits`: units written into a directory, which is made if need be.
-/

namespace Typewright.CommandLine

/-! ## The console -/

/-- Something to be shown on the console. -/
inductive Display where
  | text (text : String)
  | blank
  | rule (title : String)
  | source (code language : String)
  | table (title : String) (columns : List String) (rows : List (List String))
  | panel (text title : String)

structure Console where
  /-- Why the console refuses something, if it does, after what it has shown so far. -/
  refuses? : List Display → Display → Option String

/-- The console that shows everything. -/
def Console.willing : Console :=
  ⟨fun _ _ => none⟩

/-- What the program depends on where it runs. -/
structure Host extends Machine where
  client : Web.Client
  console : Console

/-- A host with ample memory whose console shows everything. -/
def Host.ample (depth : Nat) : Host where
  toMachine := .ample depth
  client := .standard depth
  console := .willing

/-! ## Sessions -/

/-- The files of a run, and what it has shown so far. -/
structure Session where
  files : FileTree
  shown : List Display

/-- How a command ends: with an exit code, or at a defect that nothing handles. -/
structure Ending where
  session : Session
  result : Except Defect Nat

/--
The end of a command that shows several things and then goes on, unless one of them is refused.
-/
def Session.showing (c : Console) (s : Session) (next : Session → Ending) : List Display → Ending
  | [] => next s
  | d :: r =>
    match c.refuses? s.shown d with
    | some reason => ⟨s, .error (.unshowable reason)⟩
    | none => Session.showing c { s with shown := s.shown ++ [d] } next r

/-- The end of a command that shows several things last. -/
def Session.endingWith (c : Console) (s : Session) (shown : List Display) (code : Nat) : Ending :=
  s.showing c (fun s => ⟨s, .ok code⟩) shown

/-- Why a command cannot do what it is asked to: an error that is shown, or a defect. -/
inductive CommandFailure where
  | error (message : String)
  | defect (defect : Defect)

/-! ## Settings -/

/-- The settings that the options ask for. -/
def GenerateOptions.overrides (o : GenerateOptions) : List (String × Json) :=
  let custom :=
    (if o.lazyType = "" then [] else [("lazy_type", Json.str o.lazyType)]) ++
      (if o.optionalType = "" then [] else [("optional_type", Json.str o.optionalType)])
  (if o.space = "" then [] else [("namespace", Json.str o.space)]) ++
    (if o.noComments then [("add_comments", Json.bool false)] else []) ++
    (if custom.isEmpty then [] else [("custom", Json.obj custom)])

/-- The settings of the command for a language. -/
def GenerateOptions.settings (m : Machine) (r : Registry) (t : FileTree) (o : GenerateOptions)
    (language : String) : Except CommandFailure Settings := do
  let name ← (r.resolve language).mapError fun e => .error s!"Configuration error: {e.message}"
  (Settings.layered m t name (.obj o.overrides) (.str o.config)).mapError fun
    | .config e => .error s!"Configuration error: {e.message}"
    | .defect d => .defect d

/-- The generator that the command uses for a language. -/
def GenerateOptions.generator (m : Machine) (r : Registry) (t : FileTree) (o : GenerateOptions)
    (language : String) : Except CommandFailure Generator := do
  let s ← o.settings m r t language
  (r.createFrom m language s).mapError fun e => .error e.message

/-! ## Writing -/

/-- The directory that units go to. -/
def unitDirectory (outputDirectory : Path) (space : Json) (spaceDirectories : Bool) :
    Except Defect Path :=
  if !spaceDirectories then .ok outputDirectory
  else match space with
    | .str s => .ok ((Text.splitAt '.' s).foldl (fun p n => p.join (.ofText n)) outputDirectory)
    | j => .error (.noMember j "split")

/-- How writing fails: the operating system refuses, or a path asks for what cannot be. -/
inductive WriteFailure where
  | refused (error : SystemError)
  | defect (defect : Defect)

def WriteFailure.ofPath : PathFault → WriteFailure
  | .unencodable => .defect .unencodable
  | .nul => .defect .nulInPath

/-- The files after writing a text; one that cannot be encoded leaves an empty file. -/
def writeText (path : Path) (t : FileTree) (text : String) : FileTree × Option WriteFailure :=
  match path.fault? with
  | some fault => (t, some (.ofPath fault))
  | none =>
    let bytes? := encodeText? text
    match t.write path (bytes?.getD []) with
    | .error e => (t, some (.refused e))
    | .ok t' => (t', if bytes?.isSome then none else some (.defect .unencodable))

/-- The files after writing units into a directory that is there; what was written stays. -/
def writeAll (directory : Path) (t : FileTree) :
    Units String → FileTree × Option WriteFailure
  | [] => (t, none)
  | (name, text) :: r =>
    match writeText (directory.join (.ofText name)) t text with
    | (t', none) => writeAll directory t' r
    | (t', some failure) => (t', some failure)

/-- The files after writing units into a directory, which is made if need be. -/
def writeUnits (m : Machine) (directory : Path) (t : FileTree) (units : Units String) :
    FileTree × Option WriteFailure :=
  match directory.fault? with
  | some fault => (t, some (.ofPath fault))
  | none => match t.makeDirectories m.directoryDepth directory with
    | (t', some (.refused e)) => (t', some (.refused e))
    | (t', some .tooMany) => (t', some (.defect .tooDeep))
    | (t', none) => writeAll directory t' units.sorted

/-! ## What is shown -/

/-- An error, as it is shown. -/
def errorDisplay (message : String) : Display :=
  .text s!"[red]✗ Error:[/red] {message}"

def unsupportedDisplays (r : Registry) (language : String) : List Display :=
  [.text s!"[red]✗ Unsupported language '{language}'[/red]",
   .text ("[dim]Supported languages: " ++ Text.join ", " r.languages ++ "[/dim]")]

/-- Units, as they are shown instead of written. -/
def unitDisplays (language : String) (units : Units String) : List Display :=
  units.sorted.flatMap fun (name, text) =>
    [.blank, .rule s!"[green]📄 {name}[/green]", .source text language]

/-- What is known about units, as it is shown. -/
def detailDisplays (g : Generator) (units : Units String) (definitionCount : Nat) (space : Json) :
    List Display :=
  [.blank,
   .table "📊 Generation Metadata" ["Property", "Value"]
     [["Language", g.target.language], ["File Extension", g.target.extension],
      ["Namespace", space.text], ["Unit Count", toString units.length],
      ["Definition Count", toString definitionCount]]]

def warningDisplays (warnings : List SchemaWarning) : List Display :=
  if warnings.isEmpty then []
  else .text "\n[yellow]⚠️  Warnings:[/yellow]" ::
    warnings.map fun w => .text s!"  [yellow]•[/yellow] {w.message}"

def languageRow (entry : String × LanguageInfo) : List String :=
  [entry.1, entry.2.extension, entry.2.generatorName,
   if entry.2.aliases.isEmpty then "[dim]none[/dim]" else Text.join ", " entry.2.aliases]

def languageDisplays (all : List (String × LanguageInfo)) : List Display :=
  [.blank,
   .table "📋 Supported Languages" ["Language", "Extension", "Generator Class", "Aliases"]
     (all.map languageRow),
   .panel
     ("[bold]Usage:[/bold] datatype-gen generate [dim]schema.json[/dim] " ++
       "--language [cyan]LANGUAGE[/cyan]")
     "💡 Quick Start"]

/-! ## The command -/

def failWith (c : Console) (s : Session) : CommandFailure → Ending
  | .error message => s.endingWith c [errorDisplay message] 1
  | .defect d => ⟨s, .error d⟩

/-- The end of a command whose units are where they belong. -/
def finish (c : Console) (verbose : Bool) (g : Generator) (units : Units String)
    (warnings : List SchemaWarning) (definitionCount : Nat) (space : Json) (s : Session) : Ending :=
  let details := if verbose then detailDisplays g units definitionCount space else []
  s.endingWith c (details ++ warningDisplays warnings) 0

/-- The value of an option that is given without one. -/
def noValue : Json :=
  .arr []

/-- The directory that the options name, with the part of it that a namespace goes to. -/
def GenerateOptions.directory (o : GenerateOptions) (space : Json) : Except Defect Path :=
  match o.outputDirectory with
  | none => .error (.notText noValue)
  | some name => unitDirectory (.ofText name) space o.spaceDirectories

/-- The files after writing units where the options say, and the directory they were written to. -/
def storeUnits (m : Machine) (t : FileTree) (o : GenerateOptions) (units : Units String)
    (space : Json) : FileTree × Except CommandFailure Path :=
  match o.directory space with
  | .error d => (t, .error (.defect d))
  | .ok directory =>
    match writeUnits m directory t units with
    | (t', some (.defect d)) => (t', .error (.defect d))
    | (t', some (.refused e)) =>
      (t', .error (.error s!"Failed to write to {directory.text}: {e.message}"))
    | (t', none) => (t', .ok directory)

def storedDisplay (units : Units String) (directory : Path) : Display :=
  .text (s!"[green]✓[/green] Generated {units.length} unit(s) in " ++
    s!"[cyan]{directory.text}[/cyan]")

def failureDisplay (e : GenerationError) : Display :=
  .text s!"[red]✗ Code generation failed:[/red] {Report.failureMessage e}"

/-- The end of the command once there is a generator and a schema. -/
def deliver (h : Host) (verbose : Bool) (o : GenerateOptions) (g : Generator) (schema : Schema)
    (s : Session) : Ending :=
  match (g.report schema).2 with
  | .error d => failWith h.console s (.defect d)
  | .ok (.failed e) => s.endingWith h.console [failureDisplay e] 1
  | .ok (.generated units warnings definitionCount space) =>
    let finished := finish h.console verbose g units warnings definitionCount space
    if o.dryRun then s.showing h.console finished (unitDisplays g.target.language units)
    else match storeUnits h.toMachine s.files o units space with
      | (t, .error failure) => failWith h.console ⟨t, s.shown⟩ failure
      | (t, .ok directory) =>
        Session.showing h.console ⟨t, s.shown⟩ finished [storedDisplay units directory]

/-- The seconds after which the command gives up waiting for the web. -/
def webTimeout : Json :=
  .int 30

/-- The schema that the options name, with the name of its source. -/
def GenerateOptions.load (h : Host) (t : FileTree) (reply : Except Web.TransportFault Web.Reply)
    (o : GenerateOptions) : Except CommandFailure (String × Schema) :=
  let loading := loadSchema h.toMachine h.client t reply webTimeout (o.schema.getD "")
    (o.url.getD "")
  loading.result.mapError fun
    | .error e => .error s!"Failed to load schema: {e.message}"
    | .defect d => .defect d

def loadedDisplay (source : String) : Display :=
  .text s!"📄 Loaded: {source}"

/-- The end of the command for a language that is known. -/
def generateIn (h : Host) (r : Registry) (t : FileTree)
    (reply : Except Web.TransportFault Web.Reply) (verbose : Bool) (o : GenerateOptions)
    (language : String) : Ending :=
  let s : Session := ⟨t, []⟩
  match o.load h t reply with
  | .error failure => failWith h.console s failure
  | .ok (source, schema) =>
    let continued (s : Session) : Ending :=
      match o.generator h.toMachine r t language with
      | .error failure => failWith h.console s failure
      | .ok g => deliver h verbose o g schema s
    s.showing h.console continued [loadedDisplay source]

def generate (h : Host) (r : Registry) (t : FileTree) (reply : Except Web.TransportFault Web.Reply)
    (verbose : Bool) (o : GenerateOptions) : Ending :=
  let s : Session := ⟨t, []⟩
  match o.language with
  | none => ⟨s, .error (.noMember noValue "lower")⟩
  | some language =>
    if !r.isSupported language then s.endingWith h.console (unsupportedDisplays r language) 1
    else generateIn h r t reply verbose o language

def listLanguages (c : Console) (r : Registry) (t : FileTree) : Ending :=
  let s : Session := ⟨t, []⟩
  match r.allInfo with
  | .error e => s.endingWith c [.text s!"[red]✗ Error listing languages:[/red] {e.message}"] 1
  | .ok all => s.endingWith c (languageDisplays all) 0

/-! ## The program -/

/-- What a run leaves behind. -/
inductive Outcome where
  /-- The command line asked for nothing but a text, or was at fault. -/
  | stopped (stop : Stop)
  /-- No command was given, so how to use the program is shown. -/
  | usage (log : LogSetup)
  | ended (log : LogSetup) (ending : Ending)

def logFor (verbose : Bool) : LogSetup :=
  .withThreshold (if verbose then 10 else 30)

/-- A run of the program. -/
def run (h : Host) (r : Registry) (t : FileTree) (reply : Except Web.TransportFault Web.Reply)
    (words : List String) : Outcome :=
  match Invocation.ofWords words with
  | .error stop => .stopped stop
  | .ok i =>
    if i.listLanguages then .ended (logFor i.verbose) (listLanguages h.console r t)
    else match i.command with
      | none => .usage (logFor i.verbose)
      | some o => .ended (logFor i.verbose) (generate h r t reply i.verbose o)

def Outcome.files (t : FileTree) : Outcome → FileTree
  | .ended _ ending => ending.session.files
  | _ => t

def Outcome.shown : Outcome → List Display
  | .ended _ ending => ending.session.shown
  | _ => []

/-- The exit code of a run, unless it ends at a defect. -/
def Outcome.exitCode : Outcome → Except Defect Nat
  | .stopped (.usage _ _) => .ok 2
  | .stopped _ => .ok 0
  | .usage _ => .ok 1
  | .ended _ ending => ending.result

end Typewright.CommandLine
