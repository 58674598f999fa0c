/-!
# Code points of a text

A text is a sequence of code points, and a surrogate may be one of them although it is no character.
A code point above U+FFFF is written in 16-bit units as a pair of surrogates. The characters from
U+10D800 to U+10DFFF, which are for private use, stand in for the surrogates from U+D800 to U+DFFF;
each of these characters itself is held by the two that stand in for the halves of its pair.

- `halves`, `pairCode`: the pair of a code point, and back.
- `ofPlain`, `plain?`: the text that holds the characters of a string, and back.
- `codes`: the code points that characters hold.
-/

namespace Typewright.Text

/-! ## Surrogates -/

/-- Whether a number is the first half of a pair. -/
def isHighSurrogate (n : Nat) : Bool :=
  0xD800 ≤ n && n ≤ 0xDBFF

/-- Whether a number is the second half of a pair. -/
def isLowSurrogate (n : Nat) : Bool :=
  0xDC00 ≤ n && n ≤ 0xDFFF

/-- Whether a number is half of a pair. -/
def isSurrogate (n : Nat) : Bool :=
  0xD800 ≤ n && n ≤ 0xDFFF

/-- The code point of a pair. -/
def pairCode (high low : Nat) : Nat :=
  0x10000 + (high - 0xD800) * 0x400 + (low - 0xDC00)

/-- The pair of a code point. -/
def halves (code : Nat) : Nat × Nat :=
  (0xD800 + (code - 0x10000) / 0x400, 0xDC00 + (code - 0x10000) % 0x400)

/-! ## Texts -/

/-- The character that stands in for a surrogate. -/
def standIn (surrogate : Nat) : Char :=
  Char.ofNat (16 * 0x10000 + surrogate)

/-- Whether a code point is that of a character that stands in for a surrogate. -/
def isStandIn (code : Nat) : Bool :=
  code / 0x10000 == 16 && isSurrogate (code % 0x10000)

/-- The surrogate that a character stands in for. -/
def surrogateOf? (c : Char) : Option Nat :=
  if isStandIn c.toNat then some (c.toNat % 0x10000) else none

/-- The characters by which a text holds a character. -/
def hold (c : Char) : List Char :=
  if isStandIn c.toNat then [standIn (halves c.toNat).1, standIn (halves c.toNat).2] else [c]

/-- The code point of the character that two characters hold together. -/
def heldPair? (c d : Char) : Option Nat :=
  match surrogateOf? c, surrogateOf? d with
  | some high, some low =>
    if isHighSurrogate high && isLowSurrogate low && isStandIn (pairCode high low) then
      some (pairCode high low)
    else none
  | _, _ => none

/-- The code point that a character holds alone. -/
def codeOf (c : Char) : Nat :=
  (surrogateOf? c).getD c.toNat

/-- The code points that characters hold. -/
def codes : List Char → List Nat
  | [] => []
  | [c] => [codeOf c]
  | c :: d :: r =>
    match heldPair? c d with
    | some n => n :: codes r
    | none => codeOf c :: codes (d :: r)

def codeCount (s : String) : Nat :=
  (codes s.toList).length

/-- The characters in groups that hold one code point each. -/
def characters : List Char → List (List Char)
  | [] => []
  | [c] => [[c]]
  | c :: d :: r =>
    if (heldPair? c d).isSome then [c, d] :: characters r else [c] :: characters (d :: r)

/-- The pieces of a text that hold one code point each. -/
def pieces (s : String) : List String :=
  (characters s.toList).map String.ofList

/-- The text that holds the characters of a string. -/
def ofPlain (s : String) : String :=
  .ofList (s.toList.flatMap hold)

/-- The string of the characters that a text holds, unless it holds a surrogate. -/
def plain? (s : String) : Option String :=
  let ns := codes s.toList
  if ns.any isSurrogate then none else some (.ofList (ns.map Char.ofNat))

/-- The string of the characters that a text holds, with replacement characters for surrogates. -/
def plain (s : String) : String :=
  .ofList ((codes s.toList).map fun n => if isSurrogate n then '\uFFFD' else Char.ofNat n)

/-- Whether a text comes before another in the order of their code points. -/
def comesBefore (s t : String) : Bool :=
  decide (codes s.toList < codes t.toList)

/-! ## Small laws -/

theorem isHighSurrogate_iff {n : Nat} : isHighSurrogate n ↔ 0xD800 ≤ n ∧ n ≤ 0xDBFF := by
  rw [isHighSurrogate, Bool.and_eq_true, decide_eq_true_iff, decide_eq_true_iff]

theorem isLowSurrogate_iff {n : Nat} : isLowSurrogate n ↔ 0xDC00 ≤ n ∧ n ≤ 0xDFFF := by
  rw [isLowSurrogate, Bool.and_eq_true, decide_eq_true_iff, decide_eq_true_iff]

theorem toNat_ofNat_of_gt {n : Nat} (h : 0xDFFF < n) (hn : n < 0x110000) :
    (Char.ofNat n).toNat = n := by
  rw [Char.ofNat, dif_pos (Or.inr ⟨h, hn⟩)]
  rfl

theorem isStandIn_iff {n : Nat} : isStandIn n ↔ n / 0x10000 = 16 ∧ isSurrogate (n % 0x10000) := by
  rw [isStandIn, Bool.and_eq_true, beq_iff_eq]

end Typewright.Text
