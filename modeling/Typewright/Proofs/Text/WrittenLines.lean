import Typewright.Proofs.Text.Lines

/-!
# Written lines

The lines of a text that are not blank, which are all that is laid out of it. A line feed between
two texts keeps their lines apart, though it does not always add an end of line of its own: after a
carriage return it is part of that.

- `Text.exists_lineChars_append`: the lines of two texts with a line feed between them.
- `Text.writtenLines_unlines_append`: the lines of several texts, each of which ends with a line
  feed, are those of each.
-/

namespace Typewright

namespace Text

/-- The lines of a text that are not blank. -/
def writtenLines (s : String) : List String :=
  (splitLines s).filter fun line => !isBlankText line

/--
The lines of two texts with a line feed between them are those of both, perhaps with an empty line
between them.
-/
theorem exists_lineChars_append (cs ds : List Char) :
    ∃ gap, (gap = [] ∨ gap = [[]]) ∧
      lineChars (cs ++ '\n' :: ds) = lineChars cs ++ gap ++ lineChars ds := by
  have hfeed : lineChars ([] ++ '\n' :: ds) = [] :: lineChars ds :=
    lineChars_append_lineFeed (by simp) ds
  rw [List.nil_append] at hfeed
  induction cs using lineChars.induct with
  | case1 => exact ⟨[[]], .inr rfl, hfeed⟩
  | case2 r ih =>
    obtain ⟨gap, hgap, h⟩ := ih
    refine ⟨gap, hgap, ?_⟩
    rw [List.cons_append, List.cons_append, lineChars, h, lineChars]
    rfl
  | case3 c r hcr hc ih =>
    obtain ⟨gap, hgap, h⟩ := ih
    by_cases hlast : c = '\r' ∧ r = []
    · -- the line feed is part of the end of line that the text ends with
      obtain ⟨rfl, rfl⟩ := hlast
      exact ⟨[], .inl rfl, rfl⟩
    · refine ⟨gap, hgap, ?_⟩
      have hcr' : ∀ t, c = '\r' → r ++ '\n' :: ds = '\n' :: t → False := by
        intro t hc' ht
        cases r with
        | nil => exact hlast ⟨hc', rfl⟩
        | cons d r =>
          rw [List.cons_append, List.cons.injEq] at ht
          exact hcr r hc' (by rw [ht.1])
      rw [List.cons_append, lineChars_cons_of_isLineBreak hc hcr', h,
        lineChars_cons_of_isLineBreak hc hcr]
      rfl
  | case4 c r hcr hc hr ih =>
    obtain rfl := lineChars_eq_nil_iff.1 hr
    have hc' : isLineBreak c = false := by simpa using hc
    refine ⟨[], .inl rfl, ?_⟩
    rw [List.singleton_append, lineChars_cons_of_lineChars hc' hfeed, lineChars_singleton hc']
    rfl
  | case5 c r hcr hc l ls hr ih =>
    obtain ⟨gap, hgap, h⟩ := ih
    have hc' : isLineBreak c = false := by simpa using hc
    rw [hr] at h
    refine ⟨gap, hgap, ?_⟩
    rw [List.cons_append, lineChars_cons_of_lineChars hc' h, lineChars_cons_of_lineChars hc' hr]
    rfl

theorem writtenLines_append_lineFeed (s t : String) :
    writtenLines (s ++ "\n" ++ t) = writtenLines s ++ writtenLines t := by
  obtain ⟨gap, hgap, h⟩ := exists_lineChars_append s.toList t.toList
  have hblank : (gap.map String.ofList).filter (fun line => !isBlankText line) = [] := by
    rcases hgap with rfl | rfl <;> decide
  have ht : (s ++ "\n" ++ t).toList = s.toList ++ '\n' :: t.toList := by simp
  rw [writtenLines, splitLines, ht, h, List.map_append, List.map_append, List.filter_append,
    List.filter_append, hblank, List.append_nil]
  rfl

/-- The lines of texts, each of which ends with a line feed, and of a text after them. -/
theorem writtenLines_unlines_append (ss : List String) (t : String) :
    writtenLines (Layout.unlines ss ++ t) = ss.flatMap writtenLines ++ writtenLines t := by
  induction ss with
  | nil =>
    have hempty : Layout.unlines [] = "" := rfl
    rw [hempty, String.empty_append]
    rfl
  | cons s r ih =>
    rw [Layout.unlines_cons, String.append_assoc, writtenLines_append_lineFeed, ih,
      List.flatMap_cons, List.append_assoc]

theorem writtenLines_unlines (ss : List String) :
    writtenLines (Layout.unlines ss) = ss.flatMap writtenLines := by
  have hempty : writtenLines "" = [] := rfl
  have h := writtenLines_unlines_append ss ""
  rwa [String.append_empty, hempty, List.append_nil] at h

end Text

namespace Layout

theorem unlines_append (ss ts : List String) : unlines (ss ++ ts) = unlines ss ++ unlines ts := by
  simp [unlines]

theorem join_map_unlines (sss : List (List String)) :
    String.join (sss.map unlines) = unlines sss.flatten := by
  induction sss with
  | nil => rfl
  | cons ss r ih => rw [List.map_cons, String.join_cons, ih, List.flatten_cons, unlines_append]

end Layout

end Typewright
