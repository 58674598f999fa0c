import Typewright.Proofs.Generation.Sites
import Typewright.Proofs.Java.Nesting
import Typewright.Proofs.Settings.Indentation

/-!
# Texts that fit

The text of a definition is laid out unless a level of indentation cannot be made, or that of one of
its lines. Where names and types stay in one line no line stands further in than three levels, so
that three levels are all that has to fit.

- `Generator.Fits`, `Generator.Hinders`: whether lines can be laid out, and what is in the way.
- `Generator.unitText_error_iff`, `Generator.exists_unitText_iff`: the text of a definition.
- `Generator.fitsAll_of_isPlain`: the definitions of a plain schema can be laid out.
-/

namespace Typewright

namespace Generator

variable {g : Generator} {d : Defect} {fragments : List Java.Fragment}

/-- What keeps the lines of a definition from being laid out. -/
inductive Hinders (g : Generator) (fragments : List Java.Fragment) : Defect → Prop
  /-- A level of indentation cannot be made. -/
  | level {d : Defect} (h : g.settings.LacksLevel g.memory d) : Hinders g fragments d
  /-- A line, the first such, cannot be indented as many levels as it stands in. -/
  | line {l : Layout} {fault : Text.RepeatFault} (hl : g.layout = .ok l)
      (h : l.Refuses 0 (g.unitLines fragments) fault) : Hinders g fragments (.repetition fault)

/-- A level of indentation can be made, and every line of a definition can be indented. -/
def Fits (g : Generator) (fragments : List Java.Fragment) : Prop :=
  ∃ l, g.layout = .ok l ∧ ∀ n ∈ l.levels 0 (g.unitLines fragments), l.Indents n

theorem layout_error_iff : g.layout = .error d ↔ g.settings.LacksLevel g.memory d := by
  rw [← Settings.indent_error_iff, layout]
  cases g.settings.indent g.memory <;> simp [bind, Except.bind, pure, Except.pure]

theorem unitText_error_iff : g.unitText fragments = .error d ↔ g.Hinders fragments d := by
  constructor
  · intro h
    obtain h | ⟨l, hl, h⟩ := Fallible.bind_error h
    · exact .level (layout_error_iff.1 h)
    · obtain ⟨r, hr, rfl⟩ := Fallible.mapError_error h
      obtain ⟨fault, rfl, hf⟩ := Layout.text_eq_error_iff.1 hr
      exact .line hl hf
  · rintro (h | ⟨hl, h⟩)
    · simp only [unitText, laidOut, layout_error_iff.2 h, bind, Except.bind]
    · simp only [unitText, laidOut, hl, Layout.text_of_refuses h, bind, Except.bind]
      rfl

theorem exists_unitText_iff : (∃ text, g.unitText fragments = .ok text) ↔ g.Fits fragments := by
  constructor
  · rintro ⟨text, h⟩
    obtain ⟨l, hl, ht⟩ := laidOut_ok_iff.1 h
    exact ⟨l, hl, (Layout.text_eq_ok_iff.1 ht).1⟩
  · rintro ⟨l, hl, hi⟩
    exact ⟨_, laidOut_ok_iff.2 ⟨l, hl, Layout.text_of_indents hi⟩⟩

theorem fits_iff : g.Fits fragments ↔ ∀ d, ¬g.Hinders fragments d := by
  rw [← exists_unitText_iff, Fallible.exists_ok_iff]
  exact forall_congr' fun d => not_congr unitText_error_iff

/-- The source text that the definitions of a schema have can be laid out. -/
def FitsAll (g : Generator) (s : Schema) : Prop :=
  ∀ x ∈ s.sites, ∀ fragments,
    g.fragmentsOf x.parent? x.inherited x.definition = .ok fragments → g.Fits fragments

end Generator

/-! ## Plain schemas -/

/-- A schema of which every part stays in one line, save the documentation. -/
def Schema.IsPlain (s : Schema) : Prop :=
  ∀ x ∈ s.sites, x.definition.IsPlain x.parent? x.inherited ∧ ∀ v ∈ x.definition.values, v.IsPlain

instance (s : Schema) : Decidable s.IsPlain :=
  inferInstanceAs (Decidable (∀ x ∈ s.sites, _ ∧ _))

namespace Generator

open Java

variable {g : Generator} {fragments : List Fragment} {indent : String}

theorem unitLines_append (g : Generator) (fs gs : List Fragment) :
    g.unitLines (fs ++ gs) = g.unitLines fs ++ g.unitLines gs := by
  unfold unitLines shown
  split
  · exact List.flatMap_append
  · rw [List.filter_append, List.flatMap_append]

/-- The lines of an outline are those that are laid out for its fragments. -/
theorem map_snd_outlineLines (g : Generator) (xs : List (Part × Fragment)) :
    (outlineLines g.settings.showsComments xs).map Prod.snd = g.unitLines (xs.map Prod.snd) := by
  have hpart (x : Part × Fragment) :
      (partLines g.settings.showsComments x).map Prod.snd = g.unitLines [x.2] := by
    unfold partLines unitLines shown
    cases g.settings.showsComments <;> cases hx : x.2.isComment <;> simp [hx, Function.comp_def]
  induction xs with
  | nil =>
    unfold unitLines shown
    split <;> rfl
  | cons x r ih =>
    rw [outlineLines] at ih ⊢
    rw [List.flatMap_cons, List.map_append, hpart, ih, ← unitLines_append]
    rfl

/-- Nested lines stand at most three levels in. -/
theorem fits_of_nested {xs : List (Part × Fragment)} (hi : g.settings.indent g.memory = .ok indent)
    (hm : Text.codeCount indent * 3 ≤ g.memory.capacity)
    (h : Nested g.settings.showsComments g.memory indent 0 xs 0) : g.Fits (xs.map Prod.snd) := by
  have hl : g.layout = .ok (Java.layout g.memory indent) := by rw [layout, hi]; rfl
  obtain ⟨ds, hds, hparts⟩ := h
  rw [map_snd_outlineLines] at hds
  refine ⟨_, hl, fun n hn => Layout.indents_iff.2 ?_⟩
  rw [(Layout.levels_of_depths hds).1] at hn
  have hthree : n ≤ 3 := by
    obtain ⟨i, hi, rfl⟩ := List.mem_iff_getElem.1 hn
    exact (hparts.get (hparts.length_eq ▸ hi) hi).le_three
  refine ⟨Nat.lt_of_le_of_lt hthree (by decide), Nat.le_trans ?_ hm⟩
  exact Nat.mul_le_mul_left _ hthree

/-- The definitions of a plain schema can be laid out if three levels can. -/
theorem fitsAll_of_isPlain {s : Schema} (hi : g.settings.indent g.memory = .ok indent)
    (hm : Text.codeCount indent * 3 ≤ g.memory.capacity) (hc : g.containers.IsPlain)
    (hs : s.IsPlain) : g.FitsAll s := by
  intro x hx fragments hf
  obtain ⟨hd, hv⟩ := hs x hx
  by_cases hclass : x.definition.isClass
  · obtain ⟨u, hu⟩ := exists_classOf_of_fragmentsOf hclass hf
    rw [fragmentsOf_of_classOf hu] at hf
    obtain rfl := Except.ok.inj hf
    show g.Fits u.fragments
    rw [← ClassUnit.map_snd_outline]
    exact fits_of_nested hi hm (nested_classOf hc hd hu)
  · obtain ⟨d, around⟩ := x
    cases d with
    | enumeration h vs =>
      obtain rfl := Except.ok.inj hf
      rw [← map_snd_enumOutline]
      exact fits_of_nested hi hm (nested_enumOutline hd.name hd.doc hd.extra hv)
    | record h fs => exact absurd rfl hclass
    | protocol h fs ms ds => exact absurd rfl hclass

end Generator

end Typewright
