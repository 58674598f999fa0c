import Typewright.Proofs.Generation.Comments
import Typewright.Proofs.Skeleton.Filling

/-!
# Enumerations in lines

The unit of an enumeration is its skeleton, filled in and laid out. Each value stands in a line of
its own, right after the lines of its comment, with a comma after it or, after the last one, a
semicolon. The place of a value decides which, so the lines are told here by the places.

- `Java.valueParts`: the values of an enumeration by their places, each after what is written for
  its documentation; `Java.valueParts_cons_cons` is the recursion that source text is made by.
- `Generator.fill_enumeration`: the filled skeleton of an enumeration.
- `Generator.unitLines_enumFragments`: its lines that are not blank are those of the unit.
- `Generator.unitsOf_enumeration`: the unit of an enumeration, line by line.
-/

namespace Typewright

open Text

namespace Java

/-! ## Values in their places -/

/--
The values of an enumeration, each after what is written for its documentation: a comma follows
each but the last, which a semicolon follows. That stands alone if there are no values.
-/
def valueParts (written : Option String → List String) (vs : List EnumValue) : List String :=
  if vs = [] then [";"]
  else (vs.mapIdx fun i v =>
    written v.doc ++ [v.name ++ if i + 1 = vs.length then ";" else ","]).flatten

/--
The header of an enumeration and its values, each after what is written for its documentation.
-/
def enumParts (written : Option String → List String) (h : Heading) (vs : List EnumValue) :
    List String :=
  written h.doc ++ ("public enum " ++ h.name ++ " \x7b") :: valueParts written vs

variable {written : Option String → List String}

theorem valueParts_singleton (v : EnumValue) :
    valueParts written [v] = written v.doc ++ [v.name ++ ";"] := by
  simp [valueParts]

theorem valueParts_cons_cons (v w : EnumValue) (r : List EnumValue) :
    valueParts written (v :: w :: r) =
      written v.doc ++ (v.name ++ ",") :: valueParts written (w :: r) := by
  simp [valueParts, List.mapIdx_cons]

/-- What the parts of the values come to, if it is known of each documentation and each value. -/
theorem flatMap_valueParts {made : Option String → List String} {f : String → List String}
    {vs : List EnumValue} (hempty : f ";" = [";"])
    (hdoc : ∀ v ∈ vs, (written v.doc).flatMap f = made v.doc)
    (hname : ∀ v ∈ vs, f (v.name ++ ";") = [v.name ++ ";"] ∧ f (v.name ++ ",") = [v.name ++ ","]) :
    (valueParts written vs).flatMap f = valueParts made vs := by
  -- no place but the last matters, so the recursion of the source text can be followed
  induction vs using valueFragments.induct with
  | case1 => simp [valueParts, hempty]
  | case2 v =>
    rw [valueParts_singleton, valueParts_singleton, List.flatMap_append,
      hdoc v List.mem_cons_self, List.flatMap_singleton, (hname v List.mem_cons_self).1]
  | case3 v w r ih =>
    obtain ⟨hv, hr⟩ := List.forall_mem_cons.1 hdoc
    obtain ⟨hvname, hrname⟩ := List.forall_mem_cons.1 hname
    rw [valueParts_cons_cons, valueParts_cons_cons, List.flatMap_append, List.flatMap_cons, hv,
      hvname.2, ih hr hrname]
    rfl

end Java

namespace Generator

variable {g : Generator} {h : Heading} {vs : List EnumValue}

/-! ## The filled skeleton -/

section

open Skeleton

variable {env : Context} {isLast : Bool} {r : Ref}

/-- The comment that is written for a documentation: none for no text, or without comments. -/
def commentTexts (g : Generator) (doc : Option String) : List String :=
  if g.settings.showsComments then (doc.toList.filter (· ≠ "")).map Java.docComment else []

/-- What a skeleton is given as documentation. -/
def docEntry (g : Generator) (doc : Option String) : Json :=
  if g.settings.showsComments then doc.elim .null .str else .null

/-- What a skeleton is given as a value of an enumeration. -/
def valueEntry (g : Generator) (v : EnumValue) : Json :=
  .obj [("name", .str v.name), ("doc", g.docEntry v.doc)]

/-- What the skeleton of an enumeration is filled in from. -/
def enumContext (g : Generator) (h : Heading) (vs : List EnumValue) : Context :=
  [("name", .str h.name), ("doc", g.docEntry h.doc), ("values", .arr (vs.map g.valueEntry)),
   ("extra", .arr (h.extra.map .str))]

/-- A documentation becomes a comment on lines of its own, or nothing. -/
theorem fill_docLines {doc : Option String} (hr : r.value env = .ok (g.docEntry doc)) :
    (docLines r).fill env isLast = .ok (Layout.unlines (g.commentTexts doc)) := by
  have hnone (h : r.value env = .ok .null) : (docLines r).fill env isLast = .ok "" := by
    rw [docLines, fill_choice h, fillAll]
    rfl
  unfold docEntry at hr
  unfold commentTexts
  split_ifs at hr ⊢ with hc
  · cases doc with
    | none => exact hnone hr
    | some text =>
      replace hr : r.value env = .ok (.str text) := hr
      rw [docLines, fill_choice hr]
      by_cases ht : text = ""
      · subst ht
        rw [fillAll]
        rfl
      · have hset : (Json.str text).isTruthy = true := by simpa [Json.isTruthy] using ht
        rw [if_pos hset, fillAll_cons (fill_comment hr ht) (fillAll_singleton (fill_text "\n"))]
        simp [Layout.unlines, ht]
  · exact hnone hr

/-- The repetition over the values of an enumeration. -/
theorem fill_valueParts (hr : r.value env = .ok (.arr (vs.map g.valueEntry))) :
    (Piece.each "value" r
        [docLines (ofItem "value" "doc"), .value (ofItem "value" "name"), .separator ";" ",",
          .text "\n"]
        [.text ";\n"]).fill env isLast =
      .ok (Layout.unlines (Java.valueParts g.commentTexts vs)) := by
  by_cases hne : vs = []
  · subst hne
    rw [fill_each_nil hr, fillAll_singleton (fill_text ";\n")]
    rfl
  -- whether a value is the last is told by its place, as in the list of parts
  have hbody (i : Nat) (v : EnumValue) :
      fillAll (("value", g.valueEntry v) :: env) (i + 1 == vs.length)
          [docLines (ofItem "value" "doc"), .value (ofItem "value" "name"), .separator ";" ",",
            .text "\n"] =
        .ok (Layout.unlines
          (g.commentTexts v.doc ++ [v.name ++ if i + 1 = vs.length then ";" else ","])) := by
    have hdoc : (ofItem "value" "doc").value (("value", g.valueEntry v) :: env) =
        .ok (g.docEntry v.doc) := rfl
    have hname : (ofItem "value" "name").value (("value", g.valueEntry v) :: env) =
        .ok (.str v.name) := rfl
    have hseparator : (Piece.separator ";" ",").fill (("value", g.valueEntry v) :: env)
        (i + 1 == vs.length) = .ok (if i + 1 = vs.length then ";" else ",") := by
      rw [Piece.fill]
      simp only [beq_iff_eq]
    rw [fillAll_cons (fill_docLines hdoc) (fillAll_cons (fill_value hname)
      (fillAll_cons hseparator (fillAll_singleton (fill_text "\n")))), Layout.unlines_append]
    simp [Layout.unlines, Json.text, String.append_assoc]
  rw [fill_each hr hne hbody, Java.valueParts, if_neg hne, ← Layout.join_map_unlines,
    List.mapIdx_eq_zipIdx_map, List.mapIdx_eq_zipIdx_map, List.map_map]
  rfl

/-- The skeleton of an enumeration gives its parts, each on lines of its own. -/
theorem fill_enumeration (g : Generator) (h : Heading) (vs : List EnumValue) :
    enumeration.fill (g.enumContext h vs) =
      .ok (Layout.unlines (Java.enumParts g.commentTexts h vs ++ h.extra) ++ "\x7d") := by
  have hdoc : (Ref.name "doc").value (g.enumContext h vs ++ ambient) =
      .ok (g.docEntry h.doc) := rfl
  have hname : (Ref.name "name").value (g.enumContext h vs ++ ambient) = .ok (.str h.name) := rfl
  have hvalues : (Ref.name "values").value (g.enumContext h vs ++ ambient) =
      .ok (.arr (vs.map g.valueEntry)) := rfl
  have hextra : (Ref.name "extra").value (g.enumContext h vs ++ ambient) =
      .ok (.arr (h.extra.map .str)) := rfl
  rw [Skeleton.fill, enumeration]
  refine (fillAll_cons (fill_docLines hdoc) (fillAll_cons (fill_text "public enum ")
    (fillAll_cons (fill_value hname) (fillAll_cons (fill_text " \x7b\n")
    (fillAll_cons (fill_valueParts hvalues) (fillAll_cons (fill_lines hextra)
    (fillAll_singleton (fill_text "\x7d")))))))).trans ?_
  simp [Java.enumParts, Layout.unlines, Json.text, String.append_assoc]

end

/-! ## The lines of the unit -/

open Java

theorem unitLines_ofDoc (g : Generator) (doc : Option String) :
    g.unitLines (Fragment.ofDoc doc) = (g.commentTexts doc).flatMap writtenLines := by
  unfold unitLines shown commentTexts Fragment.ofDoc
  split_ifs with hc
  · cases doc with
    | none => rfl
    | some text =>
      have hlines : (Fragment.comment text).lines = writtenLines (docComment text) := rfl
      by_cases ht : text = ""
      · subst ht
        rfl
      · simp [ht, hlines]
  · cases doc <;> rfl

theorem unitLines_code (g : Generator) (text : String) :
    g.unitLines [.code text] = writtenLines text := by
  have hlines : (Fragment.code text).lines = writtenLines text := rfl
  unfold unitLines shown
  split_ifs <;> simp [Fragment.isComment, hlines]

theorem unitLines_cons_code (g : Generator) (text : String) (fragments : List Fragment) :
    g.unitLines (.code text :: fragments) = writtenLines text ++ g.unitLines fragments := by
  rw [← unitLines_code g, ← unitLines_append]
  rfl

theorem unitLines_map_code (g : Generator) (texts : List String) :
    g.unitLines (texts.map .code) = texts.flatMap writtenLines := by
  induction texts with
  | nil => unfold unitLines shown; split_ifs <;> rfl
  | cons text r ih => rw [List.map_cons, unitLines_cons_code, ih, List.flatMap_cons]

theorem unitLines_valueFragments (g : Generator) (hne : vs ≠ []) :
    g.unitLines (valueFragments vs) = (valueParts g.commentTexts vs).flatMap writtenLines := by
  induction vs using valueFragments.induct with
  | case1 => exact absurd rfl hne
  | case2 v =>
    rw [valueFragments, valueParts_singleton, unitLines_append, unitLines_ofDoc, unitLines_code,
      List.flatMap_append, List.flatMap_singleton]
  | case3 v w r ih =>
    rw [valueFragments, valueParts_cons_cons, unitLines_append, unitLines_ofDoc,
      unitLines_cons_code, List.flatMap_append, List.flatMap_cons, ih (List.cons_ne_nil w r)]

theorem unitLines_valueSection (g : Generator) (vs : List EnumValue) :
    g.unitLines (valueSection vs) = (valueParts g.commentTexts vs).flatMap writtenLines := by
  unfold valueSection
  split_ifs with hempty
  · obtain rfl := List.isEmpty_iff.1 hempty
    rw [unitLines_code]
    rfl
  · exact unitLines_valueFragments g (by simpa using hempty)

/-- The lines of an enumeration are those of its filled skeleton that are not blank. -/
theorem unitLines_enumFragments (g : Generator) (h : Heading) (vs : List EnumValue) :
    g.unitLines (enumFragments h vs) =
      writtenLines (Layout.unlines (enumParts g.commentTexts h vs ++ h.extra) ++ "\x7d") := by
  rw [writtenLines_unlines_append, enumFragments, enumParts, unitLines_append, unitLines_code,
    unitLines_append, unitLines_map_code, unitLines_append, unitLines_ofDoc, unitLines_cons_code,
    unitLines_valueSection, List.flatMap_append, List.flatMap_append, List.flatMap_cons]

/-! ## Line by line -/

/-- The lines of the comment for a documentation, trimmed, if comments are written. -/
def trimmedComment (g : Generator) (doc : Option String) : List String :=
  if g.settings.showsComments then
    doc.toList.flatMap fun text => (commentLines text).map trim
  else []

theorem written_commentTexts {doc : Option String} (hd : ∀ text ∈ doc, IsDoc text) :
    ((g.commentTexts doc).flatMap fun s => (writtenLines s).map trim) = g.trimmedComment doc := by
  unfold commentTexts trimmedComment
  split_ifs
  · cases doc with
    | none => rfl
    | some text =>
      have hlines : writtenLines (docComment text) = commentLines text :=
        lines_comment (hd text rfl)
      by_cases ht : text = ""
      · subst ht
        rfl
      · simp [ht, hlines]
  · rfl

/-- A line of code with such ends is written as it is. -/
theorem written_append {s t : String} (a b : Char) (h : NoBreak (s ++ t))
    (ha : s.toList.head? = some a) (hb : t.toList.getLast? = some b) (hab : areEnds a b) :
    (writtenLines (s ++ t)).map trim = [s ++ t] := by
  have hlines : writtenLines (s ++ t) = [s ++ t] := (isLine_append a b h ha hb hab).lines
  obtain ⟨hhead, hlast⟩ := ends_append ha hb
  rw [hlines, List.map_singleton, trim_of_areEnds hhead hlast hab]

theorem written_header (hn : IsName h.name) :
    (writtenLines ("public enum " ++ h.name ++ " \x7b")).map trim =
      ["public enum " ++ h.name ++ " \x7b"] := by
  refine written_append 'p' '\x7b' ?_ (by simp) rfl (by decide)
  simp only [noBreak_append_iff, hn.noBreak, and_true]
  decide

theorem written_value {name mark : String} (hn : IsName name) (hm : mark = ";" ∨ mark = ",") :
    (writtenLines (name ++ mark)).map trim = [name ++ mark] := by
  obtain ⟨a, ha, hblank, hslash, hstar, -⟩ := hn.exists_head
  have hab (b : Char) (hb : isBlank b = false) : areEnds a b := by
    simp [areEnds, hblank, hb, hslash, hstar]
  rcases hm with rfl | rfl
  · exact written_append a ';' (noBreak_append_iff.2 ⟨hn.noBreak, by decide⟩) ha rfl
      (hab ';' (by decide))
  · exact written_append a ',' (noBreak_append_iff.2 ⟨hn.noBreak, by decide⟩) ha rfl
      (hab ',' (by decide))

theorem written_enumParts (hn : IsName h.name) (hv : ∀ v ∈ vs, IsName v.name)
    (hd : ∀ doc ∈ (Definition.enumeration h vs).docs, IsDoc doc) :
    (writtenLines (Layout.unlines (enumParts g.commentTexts h vs ++ h.extra) ++ "\x7d")).map trim =
      g.trimmedComment h.doc ++ ("public enum " ++ h.name ++ " \x7b") ::
        valueParts g.trimmedComment vs ++
          (writtenLines (Layout.unlines h.extra)).map trim ++ ["\x7d"] := by
  have hend : (writtenLines "\x7d").map trim = ["\x7d"] := by decide
  have hdoc : ∀ text ∈ h.doc, IsDoc text :=
    fun text ht => hd text (List.mem_append_left _ (Option.mem_toList.2 ht))
  have hvalueDocs : ∀ v ∈ vs, ∀ text ∈ v.doc, IsDoc text := fun v hmem text ht =>
    hd text (List.mem_append_right _ (List.mem_flatMap.2 ⟨v, hmem, Option.mem_toList.2 ht⟩))
  have hvalues : (valueParts g.commentTexts vs).flatMap (fun s => (writtenLines s).map trim) =
      valueParts g.trimmedComment vs := by
    refine flatMap_valueParts (by decide) (fun v hmem => ?_) fun v hmem => ?_
    · exact written_commentTexts (hvalueDocs v hmem)
    · exact ⟨written_value (hv v hmem) (.inl rfl), written_value (hv v hmem) (.inr rfl)⟩
  rw [writtenLines_unlines_append, writtenLines_unlines, List.flatMap_append, List.map_append,
    List.map_append, hend, List.map_flatMap, enumParts, List.flatMap_append,
    written_commentTexts hdoc, List.flatMap_cons, written_header hn, hvalues]
  rfl

/--
The unit of an enumeration whose names are identifiers and in whose documentation only line feeds
end lines. It is its skeleton, filled in, of which the lines that are not blank are laid out; they
are those of its comments, the header, the values in order, each in a line right after those of its
comment, the lines of its extra text, and the closing brace. It has no unit only where a level of
indentation cannot be made, or that of one of its lines.
-/
theorem unitsOf_enumeration (superclass : Option String) (inherited : List Field)
    (hn : IsName h.name) (hv : ∀ v ∈ vs, IsName v.name)
    (hd : ∀ doc ∈ (Definition.enumeration h vs).docs, IsDoc doc) :
    (∀ d, g.settings.indent g.memory = .error d →
      g.unitsOf superclass inherited (.enumeration h vs) = .error (.defect d)) ∧
    ∀ indent l, g.settings.indent g.memory = .ok indent → l = Java.layout g.memory indent →
      ∃ source, Skeleton.enumeration.fill (g.enumContext h vs) = .ok source ∧
        (∀ fault, l.Refuses 0 (writtenLines source) fault →
          g.unitsOf superclass inherited (.enumeration h vs) =
            .error (.defect (.repetition fault))) ∧
        ((∀ n ∈ l.levels 0 (writtenLines source), l.Indents n) →
          ∃ text, text = Layout.unlines (l.arrange 0 (writtenLines source)).1 ∧
            g.unitsOf superclass inherited (.enumeration h vs) = .ok [(g.unitName h.name, text)] ∧
            (splitLines text).map trim =
              g.trimmedComment h.doc ++ ("public enum " ++ h.name ++ " \x7b") ::
                valueParts g.trimmedComment vs ++
                  (writtenLines (Layout.unlines h.extra)).map trim ++ ["\x7d"]) := by
  have hunit : g.unitsOf superclass inherited (.enumeration h vs) =
      ((g.unitText (enumFragments h vs)).mapError .defect >>= fun text =>
        .ok [(g.unitName h.name, text)]) := rfl
  refine ⟨fun d hi => ?_, ?_⟩
  · rw [hunit, unitText_error_iff.2 (.level (Settings.indent_error_iff.1 hi))]
    rfl
  rintro indent l hi rfl
  have hl : g.layout = .ok (Java.layout g.memory indent) := by rw [layout, hi]; rfl
  refine ⟨_, fill_enumeration g h vs, fun fault hf => ?_, fun hlevels => ⟨_, rfl, ?_, ?_⟩⟩
  · rw [← unitLines_enumFragments] at hf
    rw [hunit, unitText_error_iff.2 (.line hl hf)]
    rfl
  · rw [← unitLines_enumFragments] at hlevels ⊢
    rw [hunit, unitText, laidOut_ok_iff.2 ⟨_, hl, Layout.text_of_indents hlevels⟩]
    rfl
  · have hplain := hasPlainIndent hl
    rw [← written_enumParts hn hv hd, ← unitLines_enumFragments, Layout.splitLines_unlines
      (Layout.noBreak_of_mem_arrange hplain (noBreak_of_mem_unitLines g _)),
      Layout.map_trim_arrange hplain]

end Generator

/-- The heading of an enumeration with extra text in which lines end in several ways. -/
def Heading.sides : Heading :=
  ⟨"Side", some "Of a road", ["// a\r\n\n  int x;\u2028", " "]⟩

/-- Two values, of which the first is documented in three lines, one of them blank. -/
def EnumValue.sides : List EnumValue :=
  [⟨"LEFT", some "first\n\nsecond"⟩, ⟨"RIGHT", none⟩]

theorem Generator.unitsOf_enumeration_sides :
    ∃ text, (counted 4).unitsOf none [] (.enumeration .sides EnumValue.sides) =
        .ok [("Side.java", text)] ∧
      (splitLines text).map trim =
        ["/** Of a road */", "public enum Side \x7b", "/**", "* first", "*", "* second", "*/",
          "LEFT,", "RIGHT;", "// a", "int x;", "\x7d"] := by
  have hn : IsName Heading.sides.name := by decide
  have hv : ∀ v ∈ EnumValue.sides, IsName v.name := by decide
  have hd : ∀ doc ∈ (Definition.enumeration .sides EnumValue.sides).docs, Java.IsDoc doc := by
    decide
  obtain ⟨source, hsource, -, hunit⟩ :=
    (unitsOf_enumeration (g := counted 4) none [] hn hv hd).2 "    " _ rfl rfl
  obtain rfl := Except.ok.inj (hsource.symm.trans (fill_enumeration (counted 4) _ _))
  obtain ⟨text, -, hunits, hlines⟩ := hunit (by decide +kernel)
  refine ⟨text, hunits, hlines.trans ?_⟩
  decide +kernel

end Typewright
