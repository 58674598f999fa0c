import Typewright.Text.Blank

/-!
# Integer literals

An integer literal is a run of decimal digits of any script, with single underscores allowed between
two digits, an optional sign before it and blanks around it (the information separators U+001C to
U+001F are no blanks here). A literal has at most `maxDigits` digits.

The digits are those of the general category Nd of Unicode 14.0: 66 runs of ten consecutive code
points, each from the digit zero of a script to its digit nine.
-/

namespace Typewright.Text

/-! ## Digits -/

/-- The code points of the digits zero, in ascending order. -/
def digitZeros : List Nat :=
  [
   0x30, 0x660, 0x6F0, 0x7C0, 0x966, 0x9E6, 0xA66, 0xAE6, 0xB66, 0xBE6, 0xC66, 0xCE6, 0xD66,
   0xDE6, 0xE50, 0xED0, 0xF20, 0x1040, 0x1090, 0x17E0, 0x1810, 0x1946, 0x19D0, 0x1A80, 0x1A90,
   0x1B50, 0x1BB0, 0x1C40, 0x1C50, 0xA620, 0xA8D0, 0xA900, 0xA9D0, 0xA9F0, 0xAA50, 0xABF0, 0xFF10,
   0x104A0, 0x10D30, 0x11066, 0x110F0, 0x11136, 0x111D0, 0x112F0, 0x11450, 0x114D0, 0x11650,
   0x116C0, 0x11730, 0x118E0, 0x11950, 0x11C50, 0x11D50, 0x11DA0, 0x16A60, 0x16AC0, 0x16B50,
   0x1D7CE, 0x1D7D8, 0x1D7E2, 0x1D7EC, 0x1D7F6, 0x1E140, 0x1E2F0, 0x1E950, 0x1FBF0]

/-- The value of a decimal digit of any script. -/
def digitValue? (c : Char) : Option Nat :=
  (digitZeros.find? fun z => z ≤ c.toNat && c.toNat ≤ z + 9).map (c.toNat - ·)

/-! ## Literals -/

/-- The number of digits beyond which a literal is refused. -/
def maxDigits : Nat := 4300

/-- The blanks that may stand around an integer literal. -/
def isLiteralBlank (c : Char) : Bool :=
  isBlank c && !(28 ≤ c.toNat && c.toNat ≤ 31)

/-- The values of the digits of an unsigned literal, which must follow a digit unless it starts. -/
def digitsAfter : List Char → Option (List Nat)
  | [] => some []
  | '_' :: c :: r => do
    let d ← digitValue? c
    let ds ← digitsAfter r
    return d :: ds
  | c :: r => do
    let d ← digitValue? c
    let ds ← digitsAfter r
    return d :: ds

/-- The values of the digits of an unsigned literal. -/
def literalDigits? : List Char → Option (List Nat)
  | [] => none
  | c :: r => do
    let d ← digitValue? c
    let ds ← digitsAfter r
    return d :: ds

/-- The number that a list of decimal digits denotes. -/
def ofDigits (ds : List Nat) : Nat :=
  ds.foldl (fun n d => 10 * n + d) 0

/-- The number that an unsigned literal denotes. -/
def natLiteral? (cs : List Char) : Option Nat := do
  let ds ← literalDigits? cs
  if ds.length ≤ maxDigits then return ofDigits ds else none

/-- The number that a literal denotes. -/
def intLiteral? (s : String) : Option Int :=
  let cs := (((s.toList.dropWhile isLiteralBlank).reverse).dropWhile isLiteralBlank).reverse
  match cs with
  | '-' :: r => (natLiteral? r).map fun n => -(n : Int)
  | '+' :: r => (natLiteral? r).map fun n => (n : Int)
  | r => (natLiteral? r).map fun n => (n : Int)

end Typewright.Text
