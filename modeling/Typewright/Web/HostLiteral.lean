import Typewright.Text.Lines

/-!
# Bracketed hosts

A host in brackets is an address of the sixth version of the internet protocol, or, if it starts
with `v`, one of a version still to come.

- `isHostLiteral`: whether the text between the brackets is either.
-/

namespace Typewright.Web

def isDigit (c : Char) : Bool :=
  '0' ≤ c && c ≤ '9'

def isHexDigit (c : Char) : Bool :=
  isDigit c || ('a' ≤ c && c ≤ 'f') || ('A' ≤ c && c ≤ 'F')

def digitsNumber (cs : List Char) : Nat :=
  cs.foldl (fun n c => 10 * n + (c.toNat - '0'.toNat)) 0

/-- Whether characters write a number below 256 without a leading zero. -/
def isOctet (cs : List Char) : Bool :=
  !cs.isEmpty && cs.all isDigit && cs.length ≤ 3 && (cs == ['0'] || cs.head? != some '0') &&
    digitsNumber cs ≤ 255

/-- Whether characters are four octets with points between them. -/
def isDotted (cs : List Char) : Bool :=
  let octets := Text.splitChars '.' cs
  octets.length == 4 && octets.all isOctet

/-- Whether characters are a group of an address: one to four hexadecimal digits. -/
def isGroup (cs : List Char) : Bool :=
  !cs.isEmpty && cs.length ≤ 4 && cs.all isHexDigit

/-- The number of groups on one side of a gap; there may be none at all. -/
def sideLength? (groups : List (List Char)) : Option Nat :=
  if groups = [[]] then some 0
  else if groups.all isGroup then some groups.length
  else none

/-- Whether pieces are eight groups, or fewer with a gap between them. -/
def isGroups (pieces : List (List Char)) : Bool :=
  match (pieces.drop 1).dropLast.findIdx? (·.isEmpty) with
  | none => pieces.length == 8 && pieces.all isGroup
  | some i =>
    match sideLength? (pieces.take (i + 1)), sideLength? (pieces.drop (i + 2)) with
    | some before, some after => before + after ≤ 7
    | _, _ => false

/-- The pieces of an address; four octets at its end stand for two groups. -/
def pieces? (cs : List Char) : Option (List (List Char)) :=
  let pieces := Text.splitChars ':' cs
  let last := pieces.getLast?.getD []
  if !last.contains '.' then some pieces
  else if isDotted last then some (pieces.dropLast ++ [['0'], ['0']])
  else none

/-- Whether a zone is named as it should be: not at all, or by some text without percent sign. -/
def isZone : List Char → Bool
  | [] => true
  | _ :: zone => !zone.isEmpty && !zone.contains '%'

/-- Whether characters are an address, which may have a zone. -/
def isAddress (cs : List Char) : Bool :=
  isZone (cs.dropWhile (· != '%')) &&
    match pieces? (cs.takeWhile (· != '%')) with
    | some pieces => isGroups pieces
    | none => false

/-- Whether characters are an address of a later version: its number, a point and some text. -/
def isLaterAddress (cs : List Char) : Bool :=
  match cs with
  | 'v' :: r =>
    !(r.takeWhile isHexDigit).isEmpty &&
      match r.dropWhile isHexDigit with
      | '.' :: _ :: _ => true
      | _ => false
  | _ => false

/-- Whether characters may stand between the brackets of a host. -/
def isHostLiteral (cs : List Char) : Bool :=
  if cs.head? = some 'v' then isLaterAddress cs else isAddress cs

end Typewright.Web
