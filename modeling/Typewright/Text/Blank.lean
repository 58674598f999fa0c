/-!
# Blank characters

`isBlank` is the class of characters that trimming removes: those of bidirectional type WS, B or S
together with the space separators (Zs).

- `trim_eq_of_ends`: a text whose two end characters are not blank is its own trimmed form.
-/

namespace Typewright.Text

/-- Whether a character counts as white space at the ends of a text. -/
def isBlank (c : Char) : Bool :=
  let n := c.toNat
  (9 ≤ n && n ≤ 13) || (28 ≤ n && n ≤ 32) || n == 0x85 || n == 0xA0 || n == 0x1680 ||
    (0x2000 ≤ n && n ≤ 0x200A) || n == 0x2028 || n == 0x2029 || n == 0x202F || n == 0x205F ||
    n == 0x3000

/-- The characters without the blank ones at the end. -/
def dropBlankEnd (cs : List Char) : List Char :=
  (cs.reverse.dropWhile isBlank).reverse

/-- The characters without the blank ones at either end. -/
def trimChars (cs : List Char) : List Char :=
  dropBlankEnd (cs.dropWhile isBlank)

def trim (s : String) : String :=
  .ofList (trimChars s.toList)

/-- The text without the blanks at its end. -/
def trimEnd (s : String) : String :=
  .ofList (dropBlankEnd s.toList)

/-- Whether a text holds nothing but blanks. -/
def isBlankText (s : String) : Bool :=
  s.toList.all isBlank

/-! ## Small laws -/

theorem dropWhile_eq_self_of_head {p : Char → Bool} {c : Char} {r : List Char} (h : p c = false) :
    (c :: r).dropWhile p = c :: r := by
  simp [h]

/-- Trimming leaves characters alone whose first and last are not blank. -/
theorem trimChars_eq_of_ends {cs : List Char} (hf : ∀ c ∈ cs.head?, isBlank c = false)
    (hl : ∀ c ∈ cs.getLast?, isBlank c = false) : trimChars cs = cs := by
  have hd : cs.dropWhile isBlank = cs := by
    cases cs with
    | nil => rfl
    | cons c r => exact dropWhile_eq_self_of_head (hf c rfl)
  have hr : cs.reverse.dropWhile isBlank = cs.reverse := by
    cases hc : cs.reverse with
    | nil => rfl
    | cons c r =>
      refine dropWhile_eq_self_of_head (hl c ?_)
      rw [List.getLast?_eq_head?_reverse, hc]; rfl
  rw [trimChars, dropBlankEnd, hd, hr, List.reverse_reverse]

theorem trim_eq_of_ends {s : String} (hf : ∀ c ∈ s.toList.head?, isBlank c = false)
    (hl : ∀ c ∈ s.toList.getLast?, isBlank c = false) : trim s = s := by
  rw [trim, trimChars_eq_of_ends hf hl, String.ofList_toList]

end Typewright.Text
