import Typewright.Text.IntLiteral
import Typewright.Text.Lines
import Typewright.Text.Quoted

/-!
# Words of a command line

A command line is a list of words. Those that start with a hyphen are looked up among the options of
a command, as a whole, up to an equals sign, as an unambiguous beginning of a long name, or letter
by letter; after a lone `--` no word is an option.

- `classify`: what a word is.
- `events`: what the words ask for, in order, up to the first that is at fault.
-/

namespace Typewright.CommandLine

/-- An option that a command understands. -/
structure OptionSpec (κ : Type) where
  key : κ
  names : List String
  takesValue : Bool

/-- What is wrong with the words of a command line as such. -/
inductive WordFault where
  | ambiguous (word : String) (candidates : List String)
  | valueMissing (names : List String)
  | valueIgnored (names : List String) (value : String)

/-- How an option is named in the wording of a fault. -/
def argumentName (names : List String) : String :=
  "argument " ++ Text.join "/" names

def WordFault.message : WordFault → String
  | .ambiguous word candidates =>
    s!"ambiguous option: {word} could match " ++ Text.join ", " candidates
  | .valueMissing names => argumentName names ++ ": expected one argument"
  | .valueIgnored names value =>
    argumentName names ++ ": ignored explicit argument " ++ Text.quoted value

/-- What a word is. -/
inductive WordKind (κ : Type) where
  | plain
  /-- The word after which no word is an option. -/
  | separator
  /-- An option under one of its names, with what stands after the name in the same word. -/
  | option (spec : OptionSpec κ) (name : String) (attached : Option (List Char))
  | unknownOption

/-- What a word asks for. -/
inductive Event (κ : Type) where
  /-- An option is given, with a value if it takes one and does not stand empty. -/
  | set (key : κ) (value : Option String)
  | operand (words : List String)
  | extra (word : String)
  | fault (fault : WordFault)

/-- The operand that a command takes. -/
inductive OperandKind where
  /-- A single word. -/
  | single
  /-- A word and all that follow it, options or not. -/
  | subcommand

section

variable {κ : Type}

/-! ## Kinds of words -/

/-- The option with a name. -/
def named? (specs : List (OptionSpec κ)) (name : String) : Option (OptionSpec κ) :=
  specs.find? (·.names.contains name)

/-- The options that have a name with the given beginning, with that name. -/
def startingWith (specs : List (OptionSpec κ)) (stem : List Char) :
    List (OptionSpec κ × String) :=
  specs.flatMap fun o => (o.names.filter fun n => stem.isPrefixOf n.toList).map (o, ·)

/-- Whether characters start with two hyphens. -/
def isLong (cs : List Char) : Bool :=
  ['-', '-'].isPrefixOf cs

def allDigits (cs : List Char) : Bool :=
  cs.all fun c => (Text.digitValue? c).isSome

/-- Whether characters write a number without sign, apart from a line feed at the end. -/
def isUnsigned (cs : List Char) : Bool :=
  let cs := if cs.getLast? = some '\n' then cs.dropLast else cs
  match cs.dropWhile (· != '.') with
  | [] => !cs.isEmpty && allDigits cs
  | _ :: fraction =>
    allDigits (cs.takeWhile (· != '.')) && !fraction.isEmpty && allDigits fraction

/-- The kind of a word that is no option of the command. -/
def fallback (cs : List Char) : WordKind κ :=
  if isUnsigned (cs.drop 1) || cs.contains ' ' then .plain else .unknownOption

/-- The kind of a word with two hyphens at its start whose name is not spelled out. -/
def classifyLong (specs : List (OptionSpec κ)) (cs stem : List Char)
    (attached : Option (List Char)) : Except WordFault (WordKind κ) :=
  match startingWith specs stem with
  | [] => .ok (fallback cs)
  | [(o, name)] => .ok (.option o name attached)
  | several => .error (.ambiguous (.ofList cs) (several.map (·.2)))

/-- The kind of a word that is not one of the names of the options. -/
def classifyPartial (specs : List (OptionSpec κ)) (cs : List Char) :
    Except WordFault (WordKind κ) :=
  let stem := cs.takeWhile (· != '=')
  let attached := match cs.dropWhile (· != '=') with
    | [] => none
    | _ :: value => some value
  match attached, named? specs (.ofList stem) with
  | some a, some o => .ok (.option o (.ofList stem) (some a))
  | _, _ =>
    if isLong cs then classifyLong specs cs stem attached
    else
      let name := String.ofList (cs.take 2)
      match named? specs name with
      | some o => .ok (.option o name (some (cs.drop 2)))
      | none => .ok (fallback cs)

/-- The kind of a word. -/
def classify (specs : List (OptionSpec κ)) (word : String) : Except WordFault (WordKind κ) :=
  let cs := word.toList
  if cs.head? != some '-' then .ok .plain
  else match named? specs word with
    | some o => .ok (.option o word none)
    | none => if cs.length = 1 then .ok .plain else classifyPartial specs cs

/-- The words with their kinds; the first that could be several options is reported. -/
def classifyAll (specs : List (OptionSpec κ)) :
    List String → Except WordFault (List (String × WordKind κ))
  | [] => .ok []
  | word :: r => do
    if word = "--" then return (word, .separator) :: r.map (·, .plain)
    let kind ← classify specs word
    let rest ← classifyAll specs r
    return (word, kind) :: rest

/-! ## Events -/

/-- How the letters of a word end. -/
inductive LettersEnd (κ : Type) where
  /-- An option that has its value, if it takes one, in the next word. -/
  | bare (spec : OptionSpec κ)
  /-- An option with its value in the same word. -/
  | value (key : κ) (value : Option String)
  | fault (fault : WordFault)

/-- The value that a word attaches to an option; a lone `--` leaves the option without one. -/
def attachedValue (cs : List Char) : Option String :=
  if cs = ['-', '-'] then none else some (.ofList cs)

/--
The options that the characters after an option stand for, and how they end. An option that takes a
value takes them all; after a short one that takes none, the next character is a short option.
-/
def letters (specs : List (OptionSpec κ)) (o : OptionSpec κ) (isShort : Bool) :
    List Char → List κ × LettersEnd κ
  | [] =>
    if o.takesValue then ([], .value o.key (attachedValue []))
    else ([], .fault (.valueIgnored o.names ""))
  | c :: r =>
    if o.takesValue then ([], .value o.key (attachedValue (c :: r)))
    else match if isShort then named? specs (.ofList ['-', c]) else none with
      | none => ([], .fault (.valueIgnored o.names (.ofList (c :: r))))
      | some next =>
        match r with
        | [] => ([o.key], .bare next)
        | more =>
          let (keys, ending) := letters specs next true more
          (o.key :: keys, ending)

/-- The options that a word stands for, and how it ends. -/
def lettersOf (specs : List (OptionSpec κ)) (o : OptionSpec κ) (name : String) :
    Option (List Char) → List κ × LettersEnd κ
  | none => ([], .bare o)
  | some cs => letters specs o (!isLong name.toList) cs

/-- What the classified words ask for; `taken` says whether a single operand was there already. -/
def eventsOf (operand : OperandKind) (specs : List (OptionSpec κ)) (taken : Bool) :
    (words : List (String × WordKind κ)) → List (Event κ)
  | [] => []
  | (word, .plain) :: r =>
    match operand, taken with
    | .subcommand, _ => [.operand (word :: r.map (·.1))]
    | .single, true => .extra word :: eventsOf operand specs true r
    | .single, false =>
      match r with
      | (_, .separator) :: r => .operand [word] :: eventsOf operand specs true r
      | r => .operand [word] :: eventsOf operand specs true r
  | (word, .separator) :: r =>
    match operand, taken, r with
    | .subcommand, _, [] => [.extra word]
    | .subcommand, _, r => [.operand (word :: r.map (·.1))]
    | .single, false, [] => []
    | .single, false, (next, _) :: r => .operand [next] :: eventsOf operand specs true r
    | .single, true, r => .extra word :: eventsOf operand specs true r
  | (word, .unknownOption) :: r => .extra word :: eventsOf operand specs taken r
  | (_, .option o name attached) :: r =>
    let (keys, ending) := lettersOf specs o name attached
    let flags := keys.map fun k => (.set k none : Event κ)
    match ending with
    | .fault f => [.fault f]
    | .value key value => flags ++ .set key value :: eventsOf operand specs taken r
    | .bare o =>
      if !o.takesValue then flags ++ .set o.key none :: eventsOf operand specs taken r
      else match r with
        | (value, .plain) :: r =>
          flags ++ .set o.key (some value) :: eventsOf operand specs taken r
        | _ => [.fault (.valueMissing o.names)]

/-- What the words ask for, in order, up to the first that is at fault. -/
def events (operand : OperandKind) (specs : List (OptionSpec κ)) (words : List String) :
    Except WordFault (List (Event κ)) := do
  let kinds ← classifyAll specs words
  return eventsOf operand specs false kinds

end

end Typewright.CommandLine
