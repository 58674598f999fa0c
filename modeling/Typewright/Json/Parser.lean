import Typewright.Json.Basic
import Typewright.Text.CodePoint
import Typewright.Text.IntLiteral

/-!
# Reading JSON texts

`Json.parse` reads a text as a JSON value. Besides the standard's values it accepts `NaN`,
`Infinity` and `-Infinity`; an escape may denote a surrogate alone; an integer may have at most
`Text.maxDigits` digits; and only as many arrays and objects may stand in one another as can be
followed. A text that is no value is refused at the first place where no value can go on.

Every step of the parser gives back what it has not read, with a proof that this is less than it
was given.
-/

namespace Typewright.Json

/-- Why a text is not a JSON value. -/
inductive Fault where
  | byteOrderMark
  | valueExpected
  | nameExpected
  | colonExpected
  | commaExpected
  | extraData
  | unterminatedString
  | controlCharacter
  | unknownEscape
  | badUnicodeEscape

def Fault.message : Fault → String
  | .byteOrderMark => "Unexpected UTF-8 BOM (decode using utf-8-sig)"
  | .valueExpected => "Expecting value"
  | .nameExpected => "Expecting property name enclosed in double quotes"
  | .colonExpected => "Expecting ':' delimiter"
  | .commaExpected => "Expecting ',' delimiter"
  | .extraData => "Extra data"
  | .unterminatedString => "Unterminated string starting at"
  | .controlCharacter => "Invalid control character at"
  | .unknownEscape => "Invalid \\escape"
  | .badUnicodeEscape => "Invalid \\uXXXX escape"

/-- Why a text could not be read. -/
inductive ReadError where
  /-- The text is malformed at a place, given by line and column (from 1) and by offset (from 0). -/
  | malformed (fault : Fault) (line column offset : Nat)
  /-- The text holds an integer of too many digits. -/
  | integerTooLong (digits : Nat)
  /-- The text holds too many arrays and objects in one another. -/
  | tooDeep

def ReadError.message : ReadError → String
  | .malformed fault line column offset =>
    s!"{fault.message}: line {line} column {column} (char {offset})"
  | .integerTooLong digits =>
    s!"Exceeds the limit ({Text.maxDigits} digits) for integer string conversion: value has " ++
      s!"{digits} digits; use sys.set_int_max_str_digits() to increase the limit"
  | .tooDeep => "maximum recursion depth exceeded"

/-- A failure inside a text; places are counted by the characters that are left. -/
inductive Failure where
  | fault (fault : Fault) (left : Nat)
  | integerTooLong (digits : Nat)
  | tooDeep

/-- What was read from the front of `cs`, and what is left. -/
structure Step (α : Type) (cs : List Char) where
  value : α
  rest : List Char
  shorter : rest.length < cs.length

/-- Whether a character may stand between two tokens. -/
def isSpace (c : Char) : Bool :=
  c == ' ' || c == '\t' || c == '\n' || c == '\r'

/-- The characters from the next token on. -/
def skipSpace (cs : List Char) : List Char :=
  cs.dropWhile isSpace

theorem length_skipSpace_le (cs : List Char) : (skipSpace cs).length ≤ cs.length :=
  (List.dropWhile_sublist isSpace).length_le

/-! ## Strings -/

/-- The value of a hexadecimal digit. -/
def hexValue? (c : Char) : Option Nat :=
  if '0' ≤ c && c ≤ '9' then some (c.toNat - 48)
  else if 'a' ≤ c && c ≤ 'f' then some (c.toNat - 87)
  else if 'A' ≤ c && c ≤ 'F' then some (c.toNat - 55)
  else none

/-- The number that four hexadecimal digits denote. -/
def hexQuad? (a b c d : Char) : Option Nat := do
  let a ← hexValue? a
  let b ← hexValue? b
  let c ← hexValue? c
  let d ← hexValue? d
  return ((a * 16 + b) * 16 + c) * 16 + d

/-- The character that a one-letter escape stands for. -/
def shortEscape? : Char → Option Char
  | '"' => some '"'
  | '\\' => some '\\'
  | '/' => some '/'
  | 'b' => some '\x08'
  | 'f' => some '\x0c'
  | 'n' => some '\n'
  | 'r' => some '\r'
  | 't' => some '\t'
  | _ => none

/-- The characters by which a text holds a code unit. -/
def charsOfUnit (n : Nat) : List Char :=
  if Text.isSurrogate n then [Text.standIn n] else [Char.ofNat n]

/-- The code unit of a four-digit escape that opens the text and is followed by a character. -/
def secondEscape? : List Char → Option (Except Failure Nat)
  | '\\' :: 'u' :: a :: b :: c :: d :: _ :: r =>
    match hexQuad? a b c d with
    | some unit => some (.ok unit)
    | none => some (.error (.fault .badUnicodeEscape (r.length + 6)))
  | _ => none

/--
The characters by which a text holds the code unit of a four-digit escape whose digits open `cs`,
or the character of that and a second escape if the two form a surrogate pair. A character must
follow the digits; the place of a fault is the letter before them.
-/
def unicodeEscape (cs : List Char) : Except Failure (Step (List Char) cs) :=
  match cs with
  | a :: b :: c :: d :: e :: r =>
    match hexQuad? a b c d with
    | none => .error (.fault .badUnicodeEscape (r.length + 6))
    | some high => do
      let second : Nat ←
        if Text.isHighSurrogate high then (secondEscape? (e :: r)).getD (.ok 0) else .ok 0
      if Text.isLowSurrogate second then
        return ⟨Text.hold (Char.ofNat (Text.pairCode high second)), (e :: r).drop 6,
          by simp only [List.length_drop, List.length_cons]; omega⟩
      else return ⟨charsOfUnit high, e :: r, by simp only [List.length_cons]; omega⟩
  | r => .error (.fault .badUnicodeEscape (r.length + 1))

/--
The rest of a string after its opening quote; `start` is the text from that quote on, and `read`
holds the characters so far, the last first.
-/
def stringRest (start : List Char) (read : List Char) (cs : List Char) :
    Except Failure (Step String cs) :=
  match cs with
  | [] => .error (.fault .unterminatedString start.length)
  | '"' :: r => .ok ⟨.ofList read.reverse, r, by simp⟩
  | '\\' :: [] => .error (.fault .unterminatedString start.length)
  | '\\' :: 'u' :: r => do
    let ⟨escaped, rest, h⟩ ← unicodeEscape r
    let ⟨s, rest', h'⟩ ← stringRest start (escaped.reverse ++ read) rest
    return ⟨s, rest', by simp only [List.length_cons]; omega⟩
  | '\\' :: c :: r =>
    match shortEscape? c with
    | none => .error (.fault .unknownEscape (r.length + 2))
    | some c' => do
      let ⟨s, rest, h⟩ ← stringRest start (c' :: read) r
      return ⟨s, rest, by simp only [List.length_cons]; omega⟩
  | c :: r =>
    if c.toNat < 0x20 then .error (.fault .controlCharacter (r.length + 1))
    else do
      let ⟨s, rest, h⟩ ← stringRest start (c :: read) r
      return ⟨s, rest, by simp only [List.length_cons]; omega⟩
termination_by cs.length

/-! ## Numbers -/

def isDigit (c : Char) : Bool :=
  '0' ≤ c && c ≤ '9'

/-- The number that a run of ASCII digits denotes. -/
def digitsValue (ds : List Char) : Nat :=
  ds.foldl (fun n d => 10 * n + (d.toNat - 48)) 0

/-- The digits of the whole part of a number: a zero alone, or a run that starts with another. -/
def wholeDigits : List Char → List Char
  | '0' :: _ => ['0']
  | cs => cs.takeWhile isDigit

/-- The digits of the fraction of a number, if one opens the text. -/
def fractionDigits : List Char → List Char
  | '.' :: cs => cs.takeWhile isDigit
  | _ => []

/-- The exponent of a number, if one opens the text: its length, sign and size. -/
def exponent? : List Char → Option (Nat × Bool × Nat)
  | e :: cs =>
    if e != 'e' && e != 'E' then none
    else
      let (signs, negative, ds) : Nat × Bool × List Char := match cs with
        | '-' :: r => (1, true, r.takeWhile isDigit)
        | '+' :: r => (1, false, r.takeWhile isDigit)
        | r => (0, false, r.takeWhile isDigit)
      if ds.isEmpty then none else some (1 + signs + ds.length, negative, digitsValue ds)
  | [] => none

/-- The double precision number nearest to `digits * 10 ^ exponent`. -/
def realOf (negative : Bool) (digits : Nat) (exponent : Int) : Float :=
  let order : Int := exponent + (Nat.toDigits 10 digits).length
  let size : Float :=
    if digits == 0 || order < -400 then 0.0
    else if 400 < order then 1.0 / 0.0
    else Float.ofScientific digits (exponent < 0) exponent.natAbs
  if negative then -size else size

/-- The number that opens a text and the count of its characters, if there is one. -/
def number? (cs : List Char) : Option (Except Nat Json × Nat) :=
  let (negative, body) : Bool × List Char := match cs with
    | '-' :: r => (true, r)
    | r => (false, r)
  let whole := wholeDigits body
  if whole.isEmpty then none
  else
    let afterWhole := body.drop whole.length
    let fraction := fractionDigits afterWhole
    let pointed := if fraction.isEmpty then 0 else fraction.length + 1
    let signs := if negative then 1 else 0
    match exponent? (afterWhole.drop pointed) with
    | some (width, small, size) =>
      let e : Int := (if small then -(size : Int) else size) - fraction.length
      some (.ok (.real (realOf negative (digitsValue (whole ++ fraction)) e)),
        signs + whole.length + pointed + width)
    | none =>
      let width := signs + whole.length + pointed
      if !fraction.isEmpty then
        some (.ok (.real (realOf negative (digitsValue (whole ++ fraction)) (-fraction.length))),
          width)
      else if Text.maxDigits < whole.length then some (.error whole.length, width)
      else
        let n : Int := digitsValue whole
        some (.ok (.int (if negative then -n else n)), width)

/-- What is left after the first `n` characters, of which there is at least one. -/
theorem length_drop_lt {cs : List Char} {n : Nat} (h : 0 < n) (hc : cs ≠ []) :
    (cs.drop n).length < cs.length := by
  have := List.length_pos_iff.2 hc
  rw [List.length_drop]; omega

/-- A number that opens the text, or the failure that no value stands there. -/
def number (cs : List Char) : Except Failure (Step Json cs) :=
  match number? cs with
  | some (.ok v, n) =>
    if h : 0 < n ∧ cs ≠ [] then .ok ⟨v, cs.drop n, length_drop_lt h.1 h.2⟩
    else .error (.fault .valueExpected cs.length)
  | some (.error digits, _) => .error (.integerTooLong digits)
  | none => .error (.fault .valueExpected cs.length)

/-! ## Values -/

/-- The words that stand for a value, with their values. -/
def words : List (List Char × Json) :=
  [("null".toList, .null), ("true".toList, .bool true), ("false".toList, .bool false),
   ("NaN".toList, .real (0.0 / 0.0)), ("Infinity".toList, .real (1.0 / 0.0)),
   ("-Infinity".toList, .real (-1.0 / 0.0))]

/-- A word or number that opens the text. -/
def atom (cs : List Char) : Except Failure (Step Json cs) :=
  match words.find? fun w => w.1.isPrefixOf cs with
  | some (w, v) =>
    if h : 0 < w.length ∧ cs ≠ [] then
      .ok ⟨v, cs.drop w.length, length_drop_lt h.1 h.2⟩
    else .error (.fault .valueExpected cs.length)
  | none => number cs

mutual

/-- The value that opens the text; `depth` is how many arrays and objects it may open. -/
def value (depth : Nat) (cs : List Char) : Except Failure (Step Json cs) :=
  match depth, cs with
  | _, '"' :: r => do
    let ⟨s, rest, h⟩ ← stringRest ('"' :: r) [] r
    return ⟨.str s, rest, by simp only [List.length_cons]; omega⟩
  | 0, '[' :: _ => .error .tooDeep
  | depth + 1, '[' :: r =>
    have hr := length_skipSpace_le r
    match hs : skipSpace r with
    | ']' :: rest => .ok ⟨.arr [], rest, by
        simp only [hs, List.length_cons] at hr ⊢; omega⟩
    | _ => do
      let ⟨xs, rest, h⟩ ← items depth (skipSpace r)
      return ⟨.arr xs, rest, by simp only [List.length_cons]; omega⟩
  | 0, '\x7b' :: _ => .error .tooDeep
  | depth + 1, '\x7b' :: r =>
    have hr := length_skipSpace_le r
    match hs : skipSpace r with
    | '\x7d' :: rest => .ok ⟨.obj [], rest, by
        simp only [hs, List.length_cons] at hr ⊢; omega⟩
    | _ => do
      let ⟨ms, rest, h⟩ ← members depth (skipSpace r)
      return ⟨.obj (setMembers [] ms), rest, by simp only [List.length_cons]; omega⟩
  | _, cs => atom cs
termination_by (cs.length, 0)

/-- The items of an array from one of them on, and the bracket that closes it. -/
def items (depth : Nat) (cs : List Char) : Except Failure (Step (List Json) cs) := do
  let ⟨v, rest, h⟩ ← value depth cs
  have hr := length_skipSpace_le rest
  match hs : skipSpace rest with
  | ']' :: r => return ⟨[v], r, by simp only [hs, List.length_cons] at hr; omega⟩
  | ',' :: r =>
    have hr' := length_skipSpace_le r
    have hlt : (skipSpace r).length < cs.length := by
      simp only [hs, List.length_cons] at hr; omega
    let ⟨vs, rest', h'⟩ ← items depth (skipSpace r)
    return ⟨v :: vs, rest', by omega⟩
  | r => .error (.fault .commaExpected r.length)
termination_by (cs.length, 1)

/-- The members of an object from one of them on, and the brace that closes it. -/
def members (depth : Nat) (cs : List Char) :
    Except Failure (Step (List (String × Json)) cs) :=
  match cs with
  | '"' :: q => do
    let ⟨key, rest, h⟩ ← stringRest ('"' :: q) [] q
    have hk := length_skipSpace_le rest
    match hs : skipSpace rest with
    | ':' :: r =>
      have hr := length_skipSpace_le r
      have hlt : (skipSpace r).length < ('"' :: q).length := by
        simp only [hs, List.length_cons] at hk ⊢; omega
      let ⟨v, rest', h'⟩ ← value depth (skipSpace r)
      have hv := length_skipSpace_le rest'
      match hs' : skipSpace rest' with
      | '\x7d' :: r' => return ⟨[(key, v)], r', by
          simp only [hs', List.length_cons] at hv hlt ⊢; omega⟩
      | ',' :: r' =>
        have hr' := length_skipSpace_le r'
        have hlt' : (skipSpace r').length < ('"' :: q).length := by
          simp only [hs', List.length_cons] at hv hlt ⊢; omega
        let ⟨ms, rest'', h''⟩ ← members depth (skipSpace r')
        return ⟨(key, v) :: ms, rest'', by omega⟩
      | r' => .error (.fault .commaExpected r'.length)
    | r => .error (.fault .colonExpected r.length)
  | cs => .error (.fault .nameExpected cs.length)
termination_by (cs.length, 1)

end

/-- The read error for a failure inside the characters of a text. -/
def ReadError.ofFailure (cs : List Char) : Failure → ReadError
  | .fault fault left =>
    let before := cs.take (cs.length - left)
    let line := (before.reverse.takeWhile (· != '\n')).reverse
    .malformed fault (before.count '\n' + 1) ((Text.codes line).length + 1)
      (Text.codes before).length
  | .integerTooLong digits => .integerTooLong digits
  | .tooDeep => .tooDeep

/-- The value of a text that holds one value with nothing but space around it. -/
def parseChars (depth : Nat) (cs : List Char) : Except Failure Json :=
  match cs with
  | '\uFEFF' :: r => .error (.fault .byteOrderMark (r.length + 1))
  | cs => do
    let ⟨v, rest, _⟩ ← value depth (skipSpace cs)
    match skipSpace rest with
    | [] => return v
    | r => .error (.fault .extraData r.length)

/-- The value of a JSON text, in which `depth` arrays and objects may stand in one another. -/
def parse (depth : Nat) (s : String) : Except ReadError Json :=
  (parseChars depth s.toList).mapError (ReadError.ofFailure s.toList)

end Typewright.Json
