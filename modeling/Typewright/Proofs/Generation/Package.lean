import Typewright.Proofs.Generation.Outcome

/-!
# Units in their package

Every unit is cut into lines again and laid out below the line of its package. That puts the line
before it and does nothing else, whatever characters the unit holds: a schema has the units of its
definitions, each with that line before it.

- `Generator.exists_unitsOf`: several definitions have the units of each in order.
- `Generator.generate_packaged`: the units of a schema.
-/

namespace Typewright

namespace Generator

variable {g : Generator} {s : Schema}

/-- Several definitions have the units of each in order, after those so far. -/
theorem exists_unitsOf {superclass : Option String} {inherited : List Field}
    {ds : List Definition} {sofar us : Units String}
    (h : g.unitsOfAll superclass inherited sofar ds = .ok us) :
    ∃ made, List.Forall₂ (fun d new => g.unitsOf superclass inherited d = .ok new) ds made ∧
      us = sofar ++ made.flatten := by
  induction ds generalizing sofar with
  | nil =>
    obtain rfl := Except.ok.inj h
    exact ⟨[], .nil, by simp⟩
  | cons d r ih =>
    rw [unitsOfAll] at h
    obtain ⟨new, hnew, h⟩ := Fallible.bind_ok h
    obtain ⟨all, hall, h⟩ := Fallible.bind_ok h
    obtain ⟨rfl, -, -⟩ := merged_ok hall
    obtain ⟨made, hmade, rfl⟩ := ih h
    exact ⟨new :: made, .cons hnew hmade, by simp⟩

/--
The units of a schema are those of its definitions, in order, with the line of the package before
the text of each.
-/
theorem generate_packaged {units : Units String} (h : g.generate s = .ok units) :
    ∃ made, List.Forall₂ (fun d us => g.unitsOf none [] d = .ok us) s.definitions made ∧
      units = made.flatten.map fun u =>
        (u.1, "package " ++ (g.settings.spaceFor s.space).text ++ ";\n" ++ u.2) := by
  rw [generate_eq_map] at h
  obtain ⟨us, hus, rfl⟩ := Fallible.map_ok h
  obtain ⟨made, hmade, rfl⟩ := exists_unitsOf hus
  exact ⟨made, hmade, rfl⟩

theorem generate_packaged_nested :
    ∃ units made, (counted 4).generate Schema.nested = .ok units ∧
      List.Forall₂ (fun d us => (counted 4).unitsOf none [] d = .ok us)
        Schema.nested.definitions made ∧
      units = made.flatten.map fun u =>
        (u.1, "package " ++ ((counted 4).settings.spaceFor Schema.nested.space).text ++ ";\n" ++
          u.2) := by
  obtain ⟨units, h⟩ := exists_generate_nested
  obtain ⟨made, hmade, hu⟩ := generate_packaged h
  exact ⟨units, made, h, hmade, hu⟩

end Generator

end Typewright
