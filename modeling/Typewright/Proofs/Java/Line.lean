import Mathlib.Tactic.SplitIfs
import Typewright.Java.Fragment
import Typewright.Proofs.Text.Lines

/-!
# Lines of source text

What the fragments of a unit do to the blocks around them. A piece of code that stays in one line is
told by its two ends; a comment neither opens a block nor closes one, whatever it says.

- `IsLine`: a piece of code is one line, with its effect on blocks.
- `isLine_of_ends`: the effect of a line by its first and its last character.
- `commentLines`: the lines of a comment; `lines_comment` that they are all written.
- `isCommentLine_of_mem_comment`: the lines of a comment are comments.
-/

namespace Typewright.Java

open Text

/-! ## Code -/

/-- A piece of code is one line, which opens a block or not, and closes one or not. -/
structure IsLine (s : String) (opens closes : Bool) : Prop where
  lines : (Fragment.code s).lines = [s]
  opens : opensBlock (trim s) = opens
  closes : closesBlock (trim s) = closes

/-- Whether a line of code may start with the one character and end with the other. -/
def areEnds (a b : Char) : Bool :=
  !isBlank a && !isBlank b && a != '/' && a != '*'

theorem isCommentLine_eq_false {s : String} {a : Char} (ha : s.toList.head? = some a)
    (h : a ≠ '/' ∧ a ≠ '*') : isCommentLine s = false := by
  obtain ⟨r, hr⟩ := List.head?_eq_some_iff.1 ha
  simp [isCommentLine, commentMarks, hr, List.isPrefixOf, h.1.symm, h.2.symm]

theorem trim_of_areEnds {s : String} {a b : Char} (ha : s.toList.head? = some a)
    (hb : s.toList.getLast? = some b) (hab : areEnds a b) : trim s = s := by
  simp only [areEnds, Bool.and_eq_true, Bool.not_eq_true'] at hab
  obtain ⟨⟨⟨hna, hnb⟩, -⟩, -⟩ := hab
  refine trim_eq_of_ends ?_ ?_
  · rw [ha]; rintro c ⟨⟩; exact hna
  · rw [hb]; rintro c ⟨⟩; exact hnb

theorem isLine_of_ends {s : String} (a b : Char) (h : NoBreak s) (ha : s.toList.head? = some a)
    (hb : s.toList.getLast? = some b) (hab : areEnds a b) :
    IsLine s (b == '\x7b') (a == '\x7d') := by
  have htrim : trim s = s := trim_of_areEnds ha hb hab
  simp only [areEnds, Bool.and_eq_true, Bool.not_eq_true', bne_iff_ne] at hab
  obtain ⟨⟨⟨hna, -⟩, hslash⟩, hstar⟩ := hab
  have hne : s ≠ "" := by rintro rfl; simp at ha
  have hblank : isBlankText s = false := by
    rw [isBlankText, List.all_eq_false]
    exact ⟨a, List.mem_of_head? ha, by simp [hna]⟩
  refine ⟨?_, ?_, ?_⟩
  · simp [Fragment.lines, Fragment.text, splitLines_of_noBreak h hne, hblank]
  · rw [htrim, opensBlock, hb, isCommentLine_eq_false ha ⟨hslash, hstar⟩]
    simp
  · rw [htrim, closesBlock, ha]
    simp

theorem ends_append {s t : String} {a b : Char} (ha : s.toList.head? = some a)
    (hb : t.toList.getLast? = some b) :
    (s ++ t).toList.head? = some a ∧ (s ++ t).toList.getLast? = some b := by
  rw [String.toList_append]
  exact ⟨by rw [List.head?_append, ha, Option.some_or],
    by rw [List.getLast?_append, hb, Option.some_or]⟩

theorem isLine_append {s t : String} (a b : Char) (h : NoBreak (s ++ t))
    (ha : s.toList.head? = some a) (hb : t.toList.getLast? = some b) (hab : areEnds a b) :
    IsLine (s ++ t) (b == '\x7b') (a == '\x7d') :=
  isLine_of_ends a b h (ends_append ha hb).1 (ends_append ha hb).2 hab

theorem isLine_ofList {cs : List Char} (a b : Char) (h : cs.all fun c => !isLineBreak c)
    (ha : cs.head? = some a) (hb : cs.getLast? = some b) (hab : areEnds a b) :
    IsLine (.ofList cs) (b == '\x7b') (a == '\x7d') := by
  refine isLine_of_ends a b (noBreak_ofList h) ?_ ?_ hab
  · rw [String.toList_ofList, ha]
  · rw [String.toList_ofList, hb]

theorem isLine_closingBrace : IsLine "\x7d" false true :=
  isLine_ofList '\x7d' '\x7d' (by decide) rfl rfl (by decide)

/-! ## Comments -/

/-- A text in which only line feeds end lines. -/
def IsDoc (s : String) : Prop :=
  ∀ c ∈ s.toList, isLineBreak c → c = '\n'

instance (s : String) : Decidable (IsDoc s) :=
  decidable_of_iff (s.toList.all fun c => !isLineBreak c || c == '\n') <| by
    rw [List.all_eq_true, IsDoc]
    refine forall_congr' fun c => imp_congr_right fun _ => ?_
    cases isLineBreak c <;> simp

theorem IsDoc.noBreak_of_mem_splitAt {s p : String} (h : IsDoc s) (hp : p ∈ splitAt '\n' s) :
    NoBreak p := by
  obtain ⟨cs, hcs, rfl⟩ := List.mem_map.1 hp
  intro c hc
  rw [String.toList_ofList] at hc
  rw [Bool.eq_false_iff]
  intro hb
  obtain rfl := h c (mem_of_mem_splitChars hcs hc) hb
  exact notMem_of_mem_splitChars hcs hc

theorem isCommentLine_neutral {s : String} (h : isCommentLine s) :
    opensBlock s = false ∧ closesBlock s = false := by
  refine ⟨by simp [opensBlock, h], ?_⟩
  simp only [isCommentLine, commentMarks, List.any_cons, List.any_nil, Bool.or_false,
    Bool.or_eq_true, List.isPrefixOf_iff_prefix] at h
  rcases h with ⟨t, ht⟩ | ⟨t, ht⟩ | ⟨t, ht⟩ <;> rw [closesBlock, ← ht] <;> rfl

theorem isCommentLine_trim_slash (r : List Char) :
    isCommentLine (trim (.ofList ('/' :: '*' :: r))) := by
  have ht : trimChars ('/' :: '*' :: r) = dropBlankEnd ('/' :: '*' :: r) :=
    trimChars_append_cons (m := []) (by simp) (by decide) _
  obtain ⟨r', hr⟩ := exists_dropBlankEnd_append_cons ['/'] (show isBlank '*' = false by decide) r
  rw [List.singleton_append, ← ht] at hr
  simp [trim, hr, isCommentLine, commentMarks, List.isPrefixOf]

theorem isCommentLine_trim_star (r : List Char) :
    isCommentLine (trim (.ofList (' ' :: '*' :: r))) := by
  have hstar : isBlank '*' = false := by decide
  have hblank : ∀ c ∈ [' '], isBlank c := fun c hc => List.mem_singleton.1 hc ▸ rfl
  have ht : trimChars (' ' :: '*' :: r) = dropBlankEnd ('*' :: r) :=
    trimChars_append_cons hblank hstar r
  obtain ⟨r', hr⟩ := exists_dropBlankEnd_append_cons [] hstar r
  rw [List.nil_append, ← ht] at hr
  simp [trim, hr, isCommentLine, commentMarks, List.isPrefixOf]

theorem isCommentLine_trim_commentLine (s : String) : isCommentLine (trim (commentLine s)) := by
  obtain ⟨r, hr⟩ := exists_dropBlankEnd_append_cons [' '] (show isBlank '*' = false by decide)
    (' ' :: s.toList)
  have hs : (" * " ++ s).toList = [' '] ++ '*' :: ' ' :: s.toList := by simp
  rw [commentLine, trimEnd, hs, hr]
  exact isCommentLine_trim_star r

theorem noBreak_commentLine {s : String} (h : NoBreak s) : NoBreak (commentLine s) := by
  intro c hc
  rw [commentLine, trimEnd, String.toList_ofList] at hc
  have hs : NoBreak (" * " ++ s) := noBreak_append_iff.2 ⟨by decide, h⟩
  exact hs c ((dropBlankEnd_isPrefixOf _).subset hc)

/--
The lines of the comment that holds a text: that of a text of one line stays in one line, and
otherwise a line with a star stands for each line between the marks.
-/
def commentLines (doc : String) : List String :=
  if doc = "" then []
  else match splitAt '\n' doc with
    | [line] => ["/** " ++ line ++ " */"]
    | lines => "/**" :: lines.map commentLine ++ [" */"]

/-- Where only line feeds end lines, a comment has the lines that it was made of. -/
theorem splitLines_docComment {doc : String} (h : IsDoc doc) :
    splitLines (docComment doc) = commentLines doc := by
  have hp : ∀ p ∈ splitAt '\n' doc, NoBreak p := fun p hp => h.noBreak_of_mem_splitAt hp
  have hne : splitAt '\n' doc ≠ [] := by simp [splitAt, splitChars_ne_nil]
  unfold docComment commentLines
  split_ifs with hd
  · rfl
  generalize splitAt '\n' doc = pieces at hp hne
  obtain ⟨piece, r, rfl⟩ := List.exists_cons_of_ne_nil hne
  cases r with
  | nil =>
    have hb : NoBreak ("/** " ++ piece ++ " */") := by
      simp only [noBreak_append_iff, hp piece List.mem_cons_self, and_true]
      decide
    exact splitLines_of_noBreak hb (by simp [← String.toList_inj])
  | cons q r =>
    have hn : ∀ s ∈ (piece :: q :: r).map commentLine, NoBreak s := by
      intro s hs
      obtain ⟨p, hmem, rfl⟩ := List.mem_map.1 hs
      exact noBreak_commentLine (hp p hmem)
    have hend : splitLines " */" = [" */"] := by decide
    show splitLines ("/**\n" ++ join "\n" ((piece :: q :: r).map commentLine) ++ "\n */") =
      "/**" :: (piece :: q :: r).map commentLine ++ [" */"]
    generalize hlines : (piece :: q :: r).map commentLine = lines at hn ⊢
    -- opening and closing stand in lines of their own, so the lines between them are taken as given
    have ht : "/**\n" ++ join "\n" lines ++ "\n */" =
        "/**" ++ "\n" ++ (join "\n" lines ++ "\n" ++ " */") := by
      simp [← String.toList_inj]
    have hne : lines ≠ [] := by simp [← hlines]
    rw [ht, splitLines_append_lineFeed (by decide), splitLines_join_append hn hne, hend]
    rfl

theorem isCommentLine_of_mem_commentLines {doc line : String} (h : line ∈ commentLines doc) :
    isCommentLine (trim line) := by
  unfold commentLines at h
  split_ifs at h
  · cases h
  split at h
  · next piece hs =>
    obtain rfl := List.mem_singleton.1 h
    have ht : "/** " ++ piece ++ " */" =
        String.ofList ('/' :: '*' :: '*' :: ' ' :: (piece.toList ++ " */".toList)) := by
      simp [← String.toList_inj]
    rw [ht]
    exact isCommentLine_trim_slash _
  · simp only [List.mem_cons, List.cons_append, List.mem_append, List.mem_map, List.not_mem_nil,
      or_false] at h
    rcases h with rfl | ⟨p, -, rfl⟩ | rfl
    · decide
    · exact isCommentLine_trim_commentLine p
    · decide

/-- The lines of a comment are comments, or lines inside one. -/
theorem isCommentLine_of_mem_comment {doc line : String} (h : IsDoc doc)
    (hl : line ∈ (Fragment.comment doc).lines) : isCommentLine (trim line) := by
  have hmem : line ∈ splitLines (docComment doc) := (List.mem_filter.1 hl).1
  exact isCommentLine_of_mem_commentLines (splitLines_docComment h ▸ hmem)

/-- No line of a comment is blank. -/
theorem lines_comment {doc : String} (h : IsDoc doc) :
    (Fragment.comment doc).lines = commentLines doc := by
  have hs : splitLines (Fragment.comment doc).text = commentLines doc := splitLines_docComment h
  rw [Fragment.lines, hs, List.filter_eq_self]
  intro line hl
  have hc := isCommentLine_of_mem_commentLines hl
  rw [Bool.not_eq_true', Bool.eq_false_iff]
  intro hb
  have ht : trim line = "" := trim_of_isBlankText hb
  rw [ht] at hc
  exact absurd hc (by decide)

end Typewright.Java
