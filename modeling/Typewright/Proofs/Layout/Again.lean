import Typewright.Generation
import Typewright.Proofs.Layout.Arrangement
import Typewright.Proofs.Text.Lines

/-!
# Laying out again

A text that was laid out is cut into its lines and laid out again when it gets the line of its
package. Nothing is changed by that: each line has kept its trimmed form and stays in one line, so
it comes to stand where it stood.

- `Layout.arrange_arrange`: lines that are laid out again from the same level stand where they
  stood.
- `Generator.inPackage_unitText`: a unit in its package is the line of the package and the unit.
-/

namespace Typewright

namespace Layout

variable {l : Layout}

/-- The indentation of a layout is blank and stays in one line. -/
structure HasPlainIndent (l : Layout) : Prop where
  blank : ∀ c ∈ l.indent.toList, Text.isBlank c
  noBreak : Text.NoBreak l.indent

theorem isBlank_inset (h : l.HasPlainIndent) (n : Nat) :
    ∀ c ∈ (l.inset n).toList, Text.isBlank c := by
  intro c hc
  rw [inset, Text.toList_times, List.mem_flatten] at hc
  obtain ⟨cs, hcs, hc⟩ := hc
  rw [List.eq_of_mem_replicate hcs] at hc
  exact h.blank c hc

theorem trim_emit (h : l.HasPlainIndent) (n : Nat) (line : String) :
    Text.trim (l.emit n line).1 = Text.trim line := by
  have hm := isBlank_inset h (l.levelOf n (Text.trim line))
  simp only [emit, Text.trim, String.toList_append, String.toList_ofList] at hm ⊢
  rw [Text.trimChars_append_trimChars hm]

theorem emit_emit (h : l.HasPlainIndent) (n : Nat) (line : String) :
    l.emit n (l.emit n line).1 = l.emit n line := by
  have ht := trim_emit h n line
  rw [emit, ht]; rfl

/-- Lines that are laid out again from the same level stand where they stood. -/
theorem arrange_arrange (h : l.HasPlainIndent) (n : Nat) (lines : List String) :
    l.arrange n (l.arrange n lines).1 = l.arrange n lines := by
  induction lines generalizing n with
  | nil => rfl
  | cons line r ih =>
    have he := emit_emit h n line
    simp only [arrange, he, ih]

theorem noBreak_emit (h : l.HasPlainIndent) (n : Nat) {line : String} (hl : Text.NoBreak line) :
    Text.NoBreak (l.emit n line).1 :=
  Text.noBreak_append_iff.2 ⟨Text.noBreak_times h.noBreak _, Text.noBreak_trim hl⟩

theorem noBreak_of_mem_arrange (h : l.HasPlainIndent) {n : Nat} {lines : List String}
    (hl : ∀ s ∈ lines, Text.NoBreak s) : ∀ s ∈ (l.arrange n lines).1, Text.NoBreak s := by
  induction lines generalizing n with
  | nil => simp [arrange]
  | cons line r ih =>
    intro s hs
    simp only [arrange, List.mem_cons] at hs
    rcases hs with rfl | hs
    · exact noBreak_emit h n (hl line List.mem_cons_self)
    · exact ih (fun t ht => hl t (List.mem_cons_of_mem line ht)) s hs

/-- Lines are laid out one by one, and each is trimmed to what it was trimmed to before. -/
theorem map_trim_arrange (h : l.HasPlainIndent) (n : Nat) (lines : List String) :
    (l.arrange n lines).1.map Text.trim = lines.map Text.trim := by
  induction lines generalizing n with
  | nil => rfl
  | cons line r ih =>
    simp only [arrange, List.map_cons, trim_emit h, ih]

/-- Lines stand at their levels also when they are laid out again. -/
theorem levels_arrange (h : l.HasPlainIndent) (n m : Nat) (lines : List String) :
    l.levels n (l.arrange m lines).1 = l.levels n lines :=
  levels_congr (map_trim_arrange h m lines) n

/--
A trimmed line that neither opens nor closes a block stands at the start of the text as it is.
-/
theorem emit_zero {line : String} (ht : Text.trim line = line) (ho : l.opens line = false)
    (hc : l.closes line = false) : l.emit 0 line = (line, 0) := by
  simp [emit, ht, levelOf, levelAfter, ho, hc, inset, Text.times_zero]

/--
What was laid out stays as it is when it is laid out again after such a line. Its lines are indented
as before, so none of them is refused.
-/
theorem text_cons_splitLines (h : l.HasPlainIndent) {lines : List String} {text : String}
    (hl : ∀ s ∈ lines, Text.NoBreak s) {first : String} (ht : Text.trim first = first)
    (ho : l.opens first = false) (hc : l.closes first = false) (htext : l.text lines = .ok text) :
    l.text (first :: Text.splitLines text) = .ok (first ++ "\n" ++ text) := by
  obtain ⟨hi, rfl⟩ := text_eq_ok_iff.1 htext
  have hfirst := emit_zero ht ho hc
  have hlevel : l.levelOf 0 first = 0 := by simp [levelOf, hc]
  rw [splitLines_unlines (noBreak_of_mem_arrange h hl), text_eq_ok_iff]
  constructor
  · rw [levels, levelAfter, ht, hlevel, ho, if_neg Bool.false_ne_true, levels_arrange h]
    exact List.forall_mem_cons.2 ⟨l.indents_zero, hi⟩
  · rw [arrange, hfirst]
    simp only [arrange_arrange h, unlines_cons]

end Layout

theorem Settings.eq_of_mem_indent {m : Text.Memory} {s : Settings} {indent : String}
    (h : s.indent m = .ok indent) :
    ∀ c ∈ indent.toList, c = '\t' ∨ c = ' ' := by
  intro c hc
  unfold Settings.indent at h
  split at h
  · obtain rfl := Except.ok.inj h
    exact .inl (by simpa using hc)
  · obtain ⟨n, -, h⟩ := Fallible.bind_ok h
    obtain rfl := Text.repeated_ok (Fallible.mapError_ok h)
    rw [Text.toList_times, List.mem_flatten] at hc
    obtain ⟨cs, hcs, hc⟩ := hc
    rw [List.eq_of_mem_replicate hcs] at hc
    exact .inr (by simpa using hc)

namespace Generator

variable {g : Generator}

theorem hasPlainIndent {l : Layout} (h : g.layout = .ok l) : l.HasPlainIndent := by
  obtain ⟨indent, hi, h⟩ := Fallible.bind_ok h
  obtain rfl := Except.ok.inj h
  have hc := Settings.eq_of_mem_indent hi
  constructor
  · intro c hm
    rcases hc c hm with rfl | rfl <;> decide
  · intro c hm
    rcases hc c hm with rfl | rfl <;> decide

theorem noBreak_of_mem_unitLines (g : Generator) (fragments : List Java.Fragment) :
    ∀ s ∈ g.unitLines fragments, Text.NoBreak s := by
  intro s hs
  obtain ⟨f, -, hs⟩ := List.mem_flatMap.1 hs
  exact Text.noBreak_of_mem_splitLines (List.mem_of_mem_filter hs)

/-- The line of a package is a trimmed line that neither opens nor closes a block. -/
theorem packageLine_plain (g : Generator) (space : String) :
    Text.trim (g.packageLine space) = g.packageLine space ∧
      Java.opensBlock (g.packageLine space) = false ∧
        Java.closesBlock (g.packageLine space) = false := by
  have hhead : (g.packageLine space).toList.head? = some 'p' := by simp [packageLine]
  have hlast : (g.packageLine space).toList.getLast? = some ';' := by
    rw [packageLine, String.toList_append]
    exact List.getLast?_concat
  refine ⟨Text.trim_eq_of_ends ?_ ?_, ?_, ?_⟩
  · rw [hhead]; rintro c ⟨⟩; decide
  · rw [hlast]; rintro c ⟨⟩; decide
  · rw [Java.opensBlock, hlast]; rfl
  · rw [Java.closesBlock, hhead]; rfl

/-- A layout opens and closes blocks as every layout of a generator does. -/
theorem layout_marks {l : Layout} (h : g.layout = .ok l) :
    l.opens = Java.opensBlock ∧ l.closes = Java.closesBlock := by
  obtain ⟨indent, -, h⟩ := Fallible.bind_ok h
  obtain rfl := Except.ok.inj h
  exact ⟨rfl, rfl⟩

theorem laidOut_ok_iff {lines : List String} {text : String} :
    g.laidOut lines = .ok text ↔ ∃ l, g.layout = .ok l ∧ l.text lines = .ok text := by
  constructor
  · intro h
    obtain ⟨l, hl, h⟩ := Fallible.bind_ok h
    exact ⟨l, hl, Fallible.mapError_ok h⟩
  · rintro ⟨l, hl, h⟩
    simp only [laidOut, hl, h, bind, Except.bind, Fallible.mapError_of_ok]

/-- A unit in its package is the line of the package and the unit as it was. -/
theorem inPackage_unitText {space name text : String} {fragments : List Java.Fragment}
    (h : g.unitText fragments = .ok text) :
    g.inPackage (g.packageLine space) (name, text) =
      .ok (name, g.packageLine space ++ "\n" ++ text) := by
  obtain ⟨l, hl, htext⟩ := laidOut_ok_iff.1 h
  obtain ⟨ht, ho, hc⟩ := packageLine_plain g space
  obtain ⟨hopens, hcloses⟩ := layout_marks hl
  have hagain := Layout.text_cons_splitLines (hasPlainIndent hl)
    (noBreak_of_mem_unitLines g fragments) ht (hopens ▸ ho) (hcloses ▸ hc) htext
  simp only [inPackage, laidOut_ok_iff.2 ⟨l, hl, hagain⟩, Fallible.mapError_of_ok, bind,
    Except.bind]
  rfl

end Generator

end Typewright
