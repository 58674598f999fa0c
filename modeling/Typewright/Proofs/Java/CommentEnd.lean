import Mathlib.Data.List.Infix
import Typewright.Java.Fragment
import Typewright.Proofs.Text.Lines

/-!
# The end of a comment

A comment ends at the first `*/` after its start, whatever was meant to stand in it. The comment
that is made of a documentation text ends with `*/`, and neither the stars before its lines nor the
blanks that are trimmed off their ends make another one. But one that stands in the text is copied,
and all that comes after it is left outside. Characters are taken as they stand: an escape such as
`\u002f` is not looked into.

- `HoldsClose`: `*/` stands in a text; `holdsClose_append_cons_iff` where a text can be cut.
- `afterClose`: what stands after the first `*/`.
- `exists_content`: a comment holds one before its end exactly if its text does.
- `docComment_ends`: where the comment of a text ends.
- `docComment_ends_early`: a comment that ends before its text does.
-/

namespace Typewright.Java

open Text

/-- The characters that end a comment stand together. -/
def HoldsClose (cs : List Char) : Prop :=
  ['*', '/'] <:+: cs

instance (cs : List Char) : Decidable (HoldsClose cs) :=
  inferInstanceAs (Decidable (_ <:+: _))

/-- What stands after the first `*/`, if there is one. -/
def afterClose : List Char → Option (List Char)
  | [] => none
  | '*' :: '/' :: r => some r
  | _ :: r => afterClose r

/-- Whether a character is one of those that end a comment. -/
def isCloser (c : Char) : Bool :=
  c == '*' || c == '/'

variable {cs ds : List Char} {c : Char} {doc : String}

/-! ## Where a text can be cut -/

theorem afterClose_cons_of_not (h : ∀ r, c = '*' → cs = '/' :: r → False) :
    afterClose (c :: cs) = afterClose cs := by
  rw [afterClose]
  exact h

theorem holdsClose_iff : HoldsClose cs ↔ (afterClose cs).isSome := by
  induction cs using afterClose.induct with
  | case1 => simp [afterClose, HoldsClose]
  | case2 r => simp [afterClose, HoldsClose, List.infix_cons_iff]
  | case3 c cs hne ih =>
    have hprefix : ¬ ['*', '/'] <+: c :: cs := by
      rintro ⟨r, hr⟩
      obtain ⟨hc, hcs⟩ := List.cons.inj hr
      exact hne r hc.symm hcs.symm
    rw [afterClose_cons_of_not hne, ← ih, HoldsClose, HoldsClose, List.infix_cons_iff,
      or_iff_right hprefix]

/-- No `*/` spans a character that is neither `*` nor `/`. -/
theorem afterClose_append_cons (hc : isCloser c = false) (cs ds : List Char) :
    afterClose (cs ++ c :: ds) = ((afterClose cs).map (· ++ c :: ds)).or (afterClose ds) := by
  have hstar : c ≠ '*' := by rintro rfl; cases hc
  have hslash : c ≠ '/' := by rintro rfl; cases hc
  induction cs using afterClose.induct with
  | case1 => rw [List.nil_append, afterClose_cons_of_not fun r h _ => hstar h]; rfl
  | case2 r => rfl
  | case3 b cs hne ih =>
    have hnext : ∀ r, b = '*' → cs ++ c :: ds = '/' :: r → False := by
      intro r hb hr
      cases cs with
      | nil => exact hslash (List.cons.inj hr).1
      | cons d cs =>
        obtain ⟨rfl, -⟩ := List.cons.inj hr
        exact hne cs hb rfl
    rw [List.cons_append, afterClose_cons_of_not hnext, ih, afterClose_cons_of_not hne]

theorem holdsClose_append_cons_iff (hc : isCloser c = false) :
    HoldsClose (cs ++ c :: ds) ↔ HoldsClose cs ∨ HoldsClose ds := by
  simp [holdsClose_iff, afterClose_append_cons hc]

theorem holdsClose_append_of_forall (h : ∀ c ∈ ds, isCloser c = false) :
    HoldsClose (cs ++ ds) ↔ HoldsClose cs := by
  cases ds with
  | nil => rw [List.append_nil]
  | cons d r =>
    obtain ⟨hd, hr⟩ := List.forall_mem_cons.1 h
    have hnone : ¬ HoldsClose r := fun hclose =>
      absurd (hr '*' (hclose.subset List.mem_cons_self)) (by decide)
    rw [holdsClose_append_cons_iff hd, or_iff_left hnone]

/-! ## What a comment holds before its end -/

theorem holdsClose_joinChars_iff {sep : Char} (hsep : isCloser sep = false)
    {ps : List (List Char)} : HoldsClose (joinChars sep ps) ↔ ∃ p ∈ ps, HoldsClose p := by
  induction ps using joinChars.induct with
  | case1 => simp [joinChars, HoldsClose]
  | case2 p => simp [joinChars]
  | case3 p q r ih =>
    rw [joinChars, holdsClose_append_cons_iff hsep, ih]
    simp

theorem exists_append_dropBlankEnd (cs : List Char) :
    ∃ blanks, (∀ c ∈ blanks, isBlank c) ∧ dropBlankEnd cs ++ blanks = cs := by
  refine ⟨(cs.reverse.takeWhile isBlank).reverse, fun c hc => ?_, ?_⟩
  · exact List.all_eq_true.1 List.all_takeWhile c (List.mem_reverse.1 hc)
  · rw [dropBlankEnd, ← List.reverse_append, List.takeWhile_append_dropWhile, List.reverse_reverse]

theorem isCloser_of_isBlank (h : isBlank c) : isCloser c = false := by
  rw [Bool.eq_false_iff]
  intro hc
  simp only [isCloser, Bool.or_eq_true, beq_iff_eq] at hc
  rcases hc with rfl | rfl <;> exact absurd h (by decide)

theorem holdsClose_dropBlankEnd_iff : HoldsClose (dropBlankEnd cs) ↔ HoldsClose cs := by
  obtain ⟨blanks, hblanks, hcs⟩ := exists_append_dropBlankEnd cs
  have happend : HoldsClose (dropBlankEnd cs ++ blanks) ↔ HoldsClose (dropBlankEnd cs) :=
    holdsClose_append_of_forall fun c hc => isCloser_of_isBlank (hblanks c hc)
  rw [hcs] at happend
  exact happend.symm

theorem holdsClose_commentLine_iff (line : String) :
    HoldsClose (commentLine line).toList ↔ HoldsClose line.toList := by
  have hline : (" * " ++ line).toList = [' ', '*'] ++ ' ' :: line.toList := by
    rw [String.toList_append]; rfl
  have hstar : ¬ HoldsClose [' ', '*'] := by decide
  rw [commentLine, trimEnd, String.toList_ofList, holdsClose_dropBlankEnd_iff, hline,
    holdsClose_append_cons_iff (by decide), or_iff_right hstar]

/-- A text holds `*/` exactly if one of its lines does. -/
theorem holdsClose_iff_exists_line :
    HoldsClose doc.toList ↔ ∃ line ∈ splitAt '\n' doc, HoldsClose line.toList := by
  have hjoin : HoldsClose (joinChars '\n' (splitChars '\n' doc.toList)) ↔
      ∃ p ∈ splitChars '\n' doc.toList, HoldsClose p := holdsClose_joinChars_iff (by decide)
  rw [joinChars_splitChars] at hjoin
  rw [hjoin, splitAt]
  simp

/-- What stands in a comment before the blank at its end holds `*/` exactly if the text does. -/
theorem exists_content (h : doc ≠ "") :
    ∃ content, (docComment doc).toList = '/' :: '*' :: '*' :: (content ++ ' ' :: ['*', '/']) ∧
      (HoldsClose ('*' :: content) ↔ HoldsClose doc.toList) := by
  -- a character that closes nothing cuts off the star before it
  have hstar {c : Char} {cs : List Char} (hc : isCloser c = false) :
      HoldsClose ('*' :: c :: cs) ↔ HoldsClose cs := by
    have hcut : HoldsClose (['*'] ++ c :: cs) ↔ HoldsClose ['*'] ∨ HoldsClose cs :=
      holdsClose_append_cons_iff hc
    exact hcut.trans (or_iff_right (by decide))
  rw [holdsClose_iff_exists_line, docComment, if_neg h]
  split
  · next line hlines =>
    refine ⟨' ' :: line.toList, by simp, ?_⟩
    have hline : (∃ l ∈ splitAt '\n' doc, HoldsClose l.toList) ↔ HoldsClose line.toList := by
      simp [hlines]
    rw [hline]
    exact hstar (by decide)
  · generalize splitAt '\n' doc = lines
    have hjoin : (join "\n" (lines.map commentLine)).toList =
        joinChars '\n' ((lines.map commentLine).map String.toList) := toList_join rfl _
    have hlines : HoldsClose ((join "\n" (lines.map commentLine)).toList ++ ['\n']) ↔
        ∃ line ∈ lines, HoldsClose line.toList := by
      have hbreak : ∀ c ∈ ['\n'], isCloser c = false := List.forall_mem_singleton.2 rfl
      rw [holdsClose_append_of_forall hbreak, hjoin, holdsClose_joinChars_iff (by decide)]
      simp [holdsClose_commentLine_iff]
    refine ⟨'\n' :: ((join "\n" (lines.map commentLine)).toList ++ ['\n']), by simp, ?_⟩
    rw [← hlines]
    exact hstar (by decide)

/-! ## Where a comment ends -/

/--
The comment of a text is empty if the text is, and otherwise it starts with `/**` and is closed,
whatever comes after it. It ends at its own end, so that nothing of it is left outside, exactly if
`*/` does not stand in the text.
-/
theorem docComment_ends (doc : String) :
    (docComment doc = "" ↔ doc = "") ∧
      (doc ≠ "" → ∃ content outside,
        (docComment doc).toList = '/' :: '*' :: '*' :: content ∧
        (∀ rest, afterClose ('*' :: content ++ rest) = some (outside ++ rest)) ∧
        (outside = [] ↔ ¬ HoldsClose doc.toList)) := by
  refine ⟨⟨fun h => Classical.byContradiction fun hne => ?_, fun h => by rw [h]; rfl⟩, fun h => ?_⟩
  · obtain ⟨content, hcontent, -⟩ := exists_content hne
    rw [h] at hcontent
    cases hcontent
  obtain ⟨content, hcontent, hiff⟩ := exists_content h
  -- the comment ends where the text does, or with the first `*/` that stands in it
  have hend (rest : List Char) : afterClose ('*' :: (content ++ ' ' :: ['*', '/']) ++ rest) =
      ((afterClose ('*' :: content)).map (· ++ ' ' :: '*' :: '/' :: rest)).or (some rest) := by
    have hcut := afterClose_append_cons (c := ' ') (by decide) ('*' :: content) ('*' :: '/' :: rest)
    have hlast : afterClose ('*' :: '/' :: rest) = some rest := rfl
    rw [hlast] at hcut
    simpa using hcut
  rw [holdsClose_iff] at hiff
  rw [← hiff]
  cases hclose : afterClose ('*' :: content) with
  | none =>
    refine ⟨_, [], hcontent, fun rest => ?_, by simp⟩
    rw [hend, hclose]; rfl
  | some r =>
    refine ⟨_, r ++ [' ', '*', '/'], hcontent, fun rest => ?_, by simp⟩
    rw [hend, hclose]
    simp

/-- Between a star that ends a line and a slash that starts the next there is no end. -/
theorem docComment_ends_lines : ∃ content,
    (docComment "a *\n/ b").toList = '/' :: '*' :: '*' :: content ∧
      ∀ rest, afterClose ('*' :: content ++ rest) = some rest := by
  obtain ⟨content, outside, hcontent, hend, hiff⟩ := (docComment_ends "a *\n/ b").2 (by decide)
  obtain rfl := hiff.2 (by decide)
  exact ⟨content, hcontent, hend⟩

/-- What follows `*/` in a text is left outside of its comment. -/
theorem docComment_ends_early : docComment "*/" = "/** */ */" ∧
    afterClose ((docComment "*/").toList.drop 2) = some " */".toList := by
  decide

end Typewright.Java
