/-!
# Lines and pieces of a text

`splitLines` cuts a text at every line boundary: line feed, carriage return (with a line feed after
it, if there is one), vertical tab, form feed, the separators U+001C to U+001E, next line, line
separator and paragraph separator. A boundary at the end opens no further line.

`splitAt sep` cuts at one character and always gives at least one piece; `join` is its inverse.

- `splitChars_ne_nil`: there is at least one piece.
- `joinChars_splitChars`: joining the pieces with the separator gives the text back.
-/

namespace Typewright.Text

/-- Whether a character ends a line. -/
def isLineBreak (c : Char) : Bool :=
  let n := c.toNat
  (10 ≤ n && n ≤ 13) || (28 ≤ n && n ≤ 30) || n == 0x85 || n == 0x2028 || n == 0x2029

/-- The lines of a text, without the characters that end them. -/
def lineChars : List Char → List (List Char)
  | [] => []
  | '\r' :: '\n' :: r => [] :: lineChars r
  | c :: r =>
    if isLineBreak c then [] :: lineChars r
    else match lineChars r with
      | [] => [[c]]
      | l :: ls => (c :: l) :: ls

/-- The lines of a text, without the characters that end them. -/
def splitLines (s : String) : List String :=
  (lineChars s.toList).map String.ofList

/-- The pieces between the occurrences of one character. -/
def splitChars (sep : Char) : List Char → List (List Char)
  | [] => [[]]
  | c :: r =>
    if c = sep then [] :: splitChars sep r
    else match splitChars sep r with
      | [] => [[c]]
      | p :: ps => (c :: p) :: ps

/-- The pieces of a text between the occurrences of one character. -/
def splitAt (sep : Char) (s : String) : List String :=
  (splitChars sep s.toList).map String.ofList

/-- The texts in order, with a separator between neighbours. -/
def join (sep : String) : List String → String
  | [] => ""
  | s :: r => r.foldl (fun done t => done ++ sep ++ t) s

/-- Whether the characters of one text stand together somewhere in another. -/
def isWithin (part : List Char) : List Char → Bool
  | [] => part.isEmpty
  | c :: r => part.isPrefixOf (c :: r) || isWithin part r

/-! ## Small laws -/

theorem foldl_append_eq (sep s t : String) (r : List String) :
    r.foldl (fun done u => done ++ sep ++ u) (s ++ t) =
      s ++ r.foldl (fun done u => done ++ sep ++ u) t := by
  induction r generalizing t with
  | nil => rfl
  | cons u r ih => rw [List.foldl_cons, List.foldl_cons, ← ih, String.append_assoc,
      String.append_assoc, String.append_assoc]

@[simp] theorem join_nil (sep : String) : join sep [] = "" := rfl

@[simp] theorem join_singleton (sep s : String) : join sep [s] = s := rfl

theorem join_cons_cons (sep s t : String) (r : List String) :
    join sep (s :: t :: r) = s ++ sep ++ join sep (t :: r) := by
  rw [join, List.foldl_cons, foldl_append_eq, join]

/-- The pieces joined by one character. -/
def joinChars (sep : Char) : List (List Char) → List Char
  | [] => []
  | [p] => p
  | p :: q :: r => p ++ sep :: joinChars sep (q :: r)

theorem splitChars_ne_nil (sep : Char) (cs : List Char) : splitChars sep cs ≠ [] := by
  cases cs with
  | nil => simp [splitChars]
  | cons c r =>
    rw [splitChars]
    split
    · simp
    · split <;> simp

theorem joinChars_splitChars (sep : Char) (cs : List Char) :
    joinChars sep (splitChars sep cs) = cs := by
  induction cs with
  | nil => rfl
  | cons c r ih =>
    rw [splitChars]
    split
    · next h =>
      cases hr : splitChars sep r with
      | nil => exact absurd hr (splitChars_ne_nil sep r)
      | cons p ps => rw [joinChars, ← hr, ih, h, List.nil_append]
    · cases hr : splitChars sep r with
      | nil => exact absurd hr (splitChars_ne_nil sep r)
      | cons p ps =>
        rw [hr] at ih
        cases ps with
        | nil => simpa [joinChars] using ih
        | cons q qs => simpa [joinChars] using ih

/-- A piece never holds the separator. -/
theorem notMem_of_mem_splitChars {sep : Char} {cs p : List Char} (h : p ∈ splitChars sep cs) :
    sep ∉ p := by
  induction cs generalizing p with
  | nil => simp only [splitChars, List.mem_singleton] at h; simp [h]
  | cons c r ih =>
    rw [splitChars] at h
    split at h
    · rcases List.mem_cons.1 h with rfl | h
      · simp
      · exact ih h
    · next hc =>
      split at h
      · next hr => exact absurd hr (splitChars_ne_nil sep r)
      · next q qs hr =>
        rcases List.mem_cons.1 h with rfl | h
        · have hq := ih (hr ▸ List.mem_cons_self)
          simp [hq, Ne.symm hc]
        · exact ih (hr ▸ List.mem_cons_of_mem q h)

end Typewright.Text
