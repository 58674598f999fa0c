import Typewright.Text.CaseTable

/-!
# Upper and lower case

Full case mapping: one character may become several (`ß` in upper case is `SS`), and a capital
sigma at the end of a word becomes a final sigma.
-/

namespace Typewright.Text

/-- Whether a code point lies in one of the ranges. -/
def inRanges (rs : List (Nat × Nat)) (n : Nat) : Bool :=
  rs.any fun r => r.1 ≤ n && n ≤ r.2

/-- The code point that the runs assign to `n`, and `n` itself if no run holds it. -/
def shiftByRuns (runs : List (Nat × Nat × Nat × Int)) (n : Nat) : Nat :=
  match runs.find? fun (lo, hi, step, _) => lo ≤ n && n ≤ hi && (n - lo) % step == 0 with
  | some (_, _, _, shift) => (n + shift).toNat
  | none => n

/-- The image of a character under a case table. -/
def mapCase (runs : List (Nat × Nat × Nat × Int)) (expansions : List (Nat × List Nat))
    (c : Char) : List Char :=
  match expansions.find? (·.1 == c.toNat) with
  | some (_, ns) => ns.map Char.ofNat
  | none => [Char.ofNat (shiftByRuns runs c.toNat)]

def upperChar (c : Char) : List Char :=
  mapCase upperRuns upperExpansions c

/-- The lower case of one character, apart from the context that a capital sigma has. -/
def lowerChar (c : Char) : List Char :=
  mapCase lowerRuns lowerExpansions c

/-- Whether a character has case. -/
def isCased (c : Char) : Bool :=
  inRanges casedRanges c.toNat

/-- Whether the search for a neighbouring cased character passes over a character. -/
def isCaseIgnorable (c : Char) : Bool :=
  inRanges caseIgnorableRanges c.toNat

/-- Whether the first character that is not passed over has case. -/
def meetsCased (cs : List Char) : Bool :=
  match cs.dropWhile isCaseIgnorable with
  | [] => false
  | c :: _ => isCased c

/-- The lower case of `cs`, which follows the characters of `before` (the nearest first). -/
def lowerChars (before : List Char) : List Char → List Char
  | [] => []
  | c :: r =>
    let image :=
      if c = 'Σ' then (if meetsCased before && !meetsCased r then ['ς'] else ['σ'])
      else lowerChar c
    image ++ lowerChars (c :: before) r

def lower (s : String) : String :=
  .ofList (lowerChars [] s.toList)

def upper (s : String) : String :=
  .ofList (s.toList.flatMap upperChar)

/-- The text with its first character in upper case. -/
def upperFirst (s : String) : String :=
  match s.toList with
  | [] => ""
  | c :: r => .ofList (upperChar c ++ r)

end Typewright.Text
