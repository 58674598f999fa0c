import Typewright.Text.Case
import Typewright.Web.HostLiteral

/-!
# Web addresses

An address is a scheme and an authority, as far as it matters whether it can be asked. Control
characters and spaces before it do not count, nor do tabs and line breaks within it.

- `Address.ofText?`: the address that a text gives, unless its authority is malformed.
-/

namespace Typewright.Web

/-- The parts of a web address that have to be there. -/
structure Address where
  scheme : String
  authority : String

namespace Address

/-- Whether both parts are there. -/
def isComplete (a : Address) : Bool :=
  a.scheme != "" && a.authority != ""

/-- The characters that count. -/
def significant (cs : List Char) : List Char :=
  (cs.dropWhile fun c => c.toNat ≤ 32).filter fun c => c != '\t' && c != '\n' && c != '\r'

def isLetter (c : Char) : Bool :=
  ('a' ≤ c && c ≤ 'z') || ('A' ≤ c && c ≤ 'Z')

def isScheme : List Char → Bool
  | [] => false
  | c :: r =>
    isLetter c && r.all fun c => isLetter c || isDigit c || c == '+' || c == '-' || c == '.'

/-- The scheme of an address, empty if there is none, and what follows it. -/
def splitScheme (cs : List Char) : List Char × List Char :=
  let before := cs.takeWhile (· != ':')
  match cs.dropWhile (· != ':') with
  | _ :: r => if isScheme before then (before, r) else ([], cs)
  | [] => ([], cs)

/-- The authority after the scheme: what follows two slashes, up to the path. -/
def authorityOf : List Char → List Char
  | '/' :: '/' :: r => r.takeWhile fun c => c != '/' && c != '?' && c != '#'
  | _ => []

/-- What follows the last at sign of an authority: its host and port. -/
def hostAndPort (cs : List Char) : List Char :=
  (cs.reverse.takeWhile (· != '@')).reverse

/-- Whether what follows a host may follow it: nothing, or a colon and a port. -/
def isPortPart : List Char → Bool
  | [] => true
  | c :: _ => c == ':'

/-- Whether a host and port are a host that may stand in brackets, with nothing else around it. -/
def isLiteralHost (cs : List Char) : Bool :=
  if cs.contains '[' then
    let inner := (cs.dropWhile (· != '[')).drop 1
    cs.head? == some '[' && isPortPart ((inner.dropWhile (· != ']')).drop 1) &&
      isHostLiteral (inner.takeWhile (· != ']'))
  else isHostLiteral (cs.takeWhile (· != ':'))

/--
Whether the brackets of an authority fit: there are none, or there are both and the host is one
that brackets may hold.
-/
def bracketsFit (cs : List Char) : Bool :=
  match cs.contains '[', cs.contains ']' with
  | true, true => isLiteralHost (hostAndPort cs)
  | false, false => true
  | _, _ => false

/--
The characters whose compatibility form holds one of the marks that divide an address: a slash, a
question mark, a number sign, an at sign or a colon.
-/
def deceptive : List Nat :=
  [0x2047, 0x2048, 0x2049, 0x2100, 0x2101, 0x2105, 0x2106, 0x2A74, 0xFE13, 0xFE16, 0xFE55, 0xFE56,
   0xFE5F, 0xFE6B, 0xFF03, 0xFF0F, 0xFF1A, 0xFF1F, 0xFF20]

/-- Whether an authority is well formed. -/
def isAuthority (cs : List Char) : Bool :=
  bracketsFit cs && cs.all fun c => !deceptive.contains c.toNat

/-- The address that a text gives. -/
def ofText? (s : String) : Option Address :=
  let (scheme, rest) := splitScheme (significant s.toList)
  let authority := authorityOf rest
  if isAuthority authority then some ⟨Text.lower (.ofList scheme), .ofList authority⟩ else none

end Address

end Typewright.Web
