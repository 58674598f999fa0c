import Typewright.Proofs.Fallible
import Typewright.Review

/-!
# Schemas without warnings

What is known of a schema about which the review has nothing to say.

- `Generator.warnings_eq_nil`: no definition of it has a warning, and neither has its package.
- `Generator.exists_space_of_review`: the namespace of a reviewed schema.
- `Generator.isIdentifier_of_review`: the names of its definitions are identifiers.
-/

namespace Typewright

namespace NameRules

theorem isIdentifier_of_memberIssue? {r : NameRules} {name : String}
    (h : r.memberIssue? name = none) : isIdentifier name := by
  unfold memberIssue? at h
  split_ifs at h with hi hr
  simpa using hi

theorem isIdentifier_of_issue? {r : NameRules} {name : String} (h : r.issue? name = none) :
    isIdentifier name :=
  isIdentifier_of_memberIssue? (Option.or_eq_none_iff.1 h).1

end NameRules

theorem ne_empty_of_isIdentifier {name : String} (h : isIdentifier name) : name ≠ "" := by
  rintro rfl
  exact absurd h (by decide)

namespace Generator

variable {g : Generator} {s : Schema}

/-- Nothing is wrong with any definition of the schema, nor with its package. -/
theorem warnings_eq_nil (h : g.review s = .ok []) :
    (∀ w ∈ s.walk, Review.contentWarnings w.1 w.2 = [] ∧
      Review.nameWarnings Java.nameRules w.1 = []) ∧
      Review.packageWarnings Java.nameRules (g.settings.spaceFor s.space) = .ok [] := by
  obtain ⟨package, hp, h⟩ := Fallible.bind_ok h
  have hall := Except.ok.inj h
  rw [List.append_eq_nil_iff, List.append_eq_nil_iff, List.flatMap_eq_nil_iff,
    List.flatMap_eq_nil_iff] at hall
  obtain ⟨⟨hcontent, hnames⟩, rfl⟩ := hall
  exact ⟨fun w hw => ⟨hcontent w hw, hnames w hw⟩, hp⟩

/-- The namespace of a schema that can be reviewed is a text. -/
theorem exists_space_of_review {warnings : List SchemaWarning} (h : g.review s = .ok warnings) :
    ∃ space, g.settings.spaceFor s.space = .str space := by
  obtain ⟨package, hp, -⟩ := Fallible.bind_ok h
  unfold Review.packageWarnings at hp
  split at hp
  · next space hs => exact ⟨space, hs⟩
  · cases hp

/-- The names of definitions without warnings are identifiers. -/
theorem isIdentifier_of_review (h : g.review s = .ok []) {w : Definition × List Field}
    (hw : w ∈ s.walk) : isIdentifier w.1.name := by
  have hn := ((warnings_eq_nil h).1 w hw).2
  unfold Review.nameWarnings at hn
  have hissue := (List.append_eq_nil_iff.1 hn).1
  rw [Option.toList_eq_nil_iff, Option.map_eq_none_iff] at hissue
  exact NameRules.isIdentifier_of_issue? hissue

end Generator

end Typewright
