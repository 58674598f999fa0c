import Typewright.Proofs.Generation.Enumerations
import Typewright.Proofs.Generation.Undocumented
import Typewright.Proofs.Identifier
import Typewright.Proofs.Java.Copying
import Typewright.Proofs.Review

/-!
# Declared names

What is known of the names that the units of a schema declare, if the review has nothing to say. It
looks at the package and at the names of definitions, fields and enumeration values, and tolerates a
line feed at the end of each, also where a reserved word stands before it. It never looks at the
messages of a protocol, nor at their parameters.

- `Java.IsDeclarable`: what the name of a declaration has to be.
- `ClassUnit.declaredNames`, `Definition.declaredNames`: the names that a class, and the unit of a
  definition, declare.
- `Java.declaredNames_of_classOf`, `Java.codeFragments_enumFragments`: that units declare them.
- `Java.isDeclarable_iff`: what a name without an issue lacks to be one.
- `Generator.introduced_declarable_iff`: when the names that a schema introduces are declarable.
- `Generator.reserved_message`: a schema without warnings that declares a reserved word.
-/

namespace Typewright

namespace Java

/-- The name can be declared: it is an identifier, and it is not reserved. -/
def IsDeclarable (name : String) : Prop :=
  IsName name ∧ name ∉ reservedWords

instance (name : String) : Decidable (IsDeclarable name) :=
  inferInstanceAs (Decidable (_ ∧ _))

/-- The name ends in a line feed. -/
def EndsInBreak (name : String) : Prop :=
  name.toList.getLast? = some '\n'

instance (name : String) : Decidable (EndsInBreak name) :=
  inferInstanceAs (Decidable (_ = _))

/-- The names that a class declares: its own, and those of fields, messages and parameters. -/
def ClassUnit.declaredNames (u : ClassUnit) : List String :=
  u.heading.name ::
    (u.fields.map (·.name) ++ u.messages.flatMap fun m => m.name :: m.parameters.map (·.name))

end Java

namespace Definition

/-- The names of the values of an enumeration, or of the fields of a class. -/
def memberNames : Definition → List String
  | .enumeration _ vs => vs.map (·.name)
  | .record _ fs | .protocol _ fs _ _ => fs.map (·.name)

/-- The names at a definition that are reviewed: its own and those of its members. -/
def reviewedNames (d : Definition) : List String :=
  d.name :: d.memberNames

/-- The names of the messages of a definition and of their parameters. -/
def messageNames (d : Definition) : List String :=
  d.messages.flatMap fun m => m.name :: m.parameters.map (·.name)

/-- The names that the unit of a definition declares. -/
def declaredNames (d : Definition) : List String :=
  d.reviewedNames ++ d.messageNames

theorem declaredNames_enumeration (h : Heading) (vs : List EnumValue) :
    (Definition.enumeration h vs).declaredNames = h.name :: vs.map (·.name) :=
  List.append_nil _

theorem memberNames_of_isClass {d : Definition} (h : d.isClass) :
    d.memberNames = d.fields.map (·.name) := by
  cases d with
  | enumeration hd vs => cases h
  | record hd fs => rfl
  | protocol hd fs ms ds => rfl

theorem name_mem_memberNames {d : Definition} {f : Field} (h : f ∈ d.fields) :
    f.name ∈ d.memberNames := by
  cases d with
  | enumeration hd vs => cases h
  | record hd fs => exact List.mem_map_of_mem h
  | protocol hd fs ms ds => exact List.mem_map_of_mem h

end Definition

namespace Java

variable {name : String}

/-- An identifier in the sense of the review is one unless it ends in a line feed. -/
theorem isName_iff : IsName name ↔ isIdentifier name ∧ ¬ EndsInBreak name := by
  unfold IsName isIdentifier EndsInBreak Identifier.dropFinalBreak
  split_ifs with hb
  · refine ⟨fun h => ?_, fun h => absurd hb h.2⟩
    exact absurd (Identifier.isPart_of_isWord h _ (List.mem_of_getLast? hb)) (by decide)
  · exact (and_iff_left hb).symm

/-- A name with which the review finds no issue is declarable unless it ends in a line feed. -/
theorem isDeclarable_iff (h : nameRules.memberIssue? name = none) :
    IsDeclarable name ↔ ¬ EndsInBreak name := by
  have hi := NameRules.isIdentifier_of_memberIssue? h
  have hr : name ∉ reservedWords := by
    intro hmem
    have hreserved : nameRules.isReserved name := List.contains_iff_mem.2 hmem
    simp [NameRules.memberIssue?, hi, hreserved] at h
  rw [IsDeclarable, isName_iff]
  exact ⟨fun hd => hd.1.2, fun hb => ⟨⟨hi, hb⟩, hr⟩⟩

variable {c : Containers} {superclass : Option String} {inherited : List Field} {d : Definition}
  {u : ClassUnit}

theorem declaredNames_of_classOf (h : classOf c superclass inherited d = some (.ok u)) :
    u.declaredNames = d.declaredNames := by
  obtain ⟨hheading, hdeclared, hmessages⟩ := declarations_of_classOf h
  have hfields : u.fields.map (·.name) = d.memberNames := by
    rw [hdeclared, List.map_map, Definition.memberNames_of_isClass (isClass_of_classOf h)]
    rfl
  have hnames : (u.messages.flatMap fun m => m.name :: m.parameters.map (·.name)) =
      d.messageNames := by
    rw [hmessages, List.flatMap_map, Definition.messageNames]
    simp [AbstractMethod.ofMessage, Function.comp_def]
  rw [ClassUnit.declaredNames, hheading, hfields, hnames]; rfl

theorem codeFragments_valueSection (vs : List EnumValue) :
    codeFragments (valueSection vs) = (valueParts (fun _ => []) vs).map .code := by
  induction vs using valueFragments.induct with
  | case1 => rfl
  | case2 v => simp [valueSection, valueFragments, valueParts_singleton]
  | case3 v w r ih =>
    have hrest : valueSection (w :: r) = valueFragments (w :: r) := rfl
    rw [hrest] at ih
    simp [valueSection, valueFragments, valueParts_cons_cons, ih]

/-- The code of an enumeration: its name in the header, and then the names of its values. -/
theorem codeFragments_enumFragments (h : Heading) (vs : List EnumValue) :
    codeFragments (enumFragments h vs) =
      (enumParts (fun _ => []) h vs ++ h.extra ++ ["\x7d"]).map .code := by
  simp [enumFragments, enumParts, codeFragments_valueSection]

end Java

/-- Where the members of a definition have no warning, there is no issue with their names. -/
theorem Review.memberIssue?_of_memberWarnings {rules : NameRules} {d : Definition}
    (h : memberWarnings rules d = []) : ∀ n ∈ d.memberNames, rules.memberIssue? n = none := by
  intro n hn
  cases d with
  | enumeration hd vs =>
    obtain ⟨v, hv, rfl⟩ := List.mem_map.1 hn
    exact Option.map_eq_none_iff.1 (List.filterMap_eq_nil_iff.1 h v hv)
  | record hd fs =>
    obtain ⟨f, hf, rfl⟩ := List.mem_map.1 hn
    exact Option.map_eq_none_iff.1 (List.filterMap_eq_nil_iff.1 h f hf)
  | protocol hd fs ms ds =>
    obtain ⟨f, hf, rfl⟩ := List.mem_map.1 hn
    exact Option.map_eq_none_iff.1 (List.filterMap_eq_nil_iff.1 h f hf)

namespace Generator

open Java

variable {g : Generator} {s : Schema} {name : String}

/-- The name is a part of the package of a schema. -/
def IsPackagePart (g : Generator) (s : Schema) (name : String) : Prop :=
  ∃ space, g.settings.spaceFor s.space = .str space ∧ name ∈ Text.splitAt '.' space

/-- The name is one of those that the review of a schema looks at. -/
def Reviews (g : Generator) (s : Schema) (name : String) : Prop :=
  g.IsPackagePart s name ∨ ∃ x ∈ s.sites, name ∈ x.definition.reviewedNames

/-- The name is declared by a unit of a schema, or is a part of the package. -/
def Introduces (g : Generator) (s : Schema) (name : String) : Prop :=
  g.IsPackagePart s name ∨ ∃ x ∈ s.sites, name ∈ x.definition.declaredNames

theorem memberIssue?_of_isPackagePart (h : g.review s = .ok []) (hn : g.IsPackagePart s name) :
    nameRules.memberIssue? name = none := by
  obtain ⟨space, hspace, hpart⟩ := hn
  have hpackage := (warnings_eq_nil h).2
  rw [hspace] at hpackage
  have hname : Review.isPackageName nameRules space := by
    by_contra hbad
    rw [Review.packageWarnings, if_neg hbad] at hpackage
    cases hpackage
  exact Option.isNone_iff_eq_none.1 (List.all_eq_true.1 hname name hpart)

theorem memberIssue?_of_review (h : g.review s = .ok []) (hn : g.Reviews s name) :
    nameRules.memberIssue? name = none := by
  rcases hn with hpart | ⟨x, hx, hmem⟩
  · exact memberIssue?_of_isPackagePart h hpart
  · have hnames := ((warnings_eq_nil h).1 _ (Schema.mem_walk_of_mem_sites hx)).2
    obtain ⟨htype, hmembers⟩ := List.append_eq_nil_iff.1 hnames
    rcases List.mem_cons.1 hmem with rfl | hmem
    · rw [Option.toList_eq_nil_iff, Option.map_eq_none_iff] at htype
      exact (Option.or_eq_none_iff.1 htype).1
    · exact Review.memberIssue?_of_memberWarnings hmembers name hmem

theorem introduces_iff :
    g.Introduces s name ↔ g.Reviews s name ∨ ∃ x ∈ s.sites, name ∈ x.definition.messageNames := by
  simp only [Introduces, Reviews, Definition.declaredNames, List.mem_append, and_or_left, exists_or,
    or_assoc]

/--
A schema without warnings. Its package is a text; its classes declare the names at their
definitions, and the code of its enumerations their own names and those of their values. All of
these names, the parts of the package among them, are declarable exactly if those that the review
looks at do not end in a line feed and those of messages and parameters, which it never looks at,
are declarable.
-/
theorem introduced_declarable_iff (h : g.review s = .ok []) :
    (∃ space, g.settings.spaceFor s.space = .str space ∧
      g.packageLine s.space = "package " ++ space ++ ";") ∧
    (∀ x ∈ s.sites, ∀ u,
      classOf g.containers x.parent? x.inherited x.definition = some (.ok u) →
        g.fragmentsOf x.parent? x.inherited x.definition = .ok u.fragments ∧
        u.declaredNames = x.definition.declaredNames) ∧
    (∀ x ∈ s.sites, ∀ hd vs, x.definition = .enumeration hd vs →
      x.definition.declaredNames = hd.name :: vs.map (·.name) ∧
      codeFragments <$> g.fragmentsOf x.parent? x.inherited x.definition =
        .ok ((enumParts (fun _ => []) hd vs ++ hd.extra ++ ["\x7d"]).map .code)) ∧
    ((∀ n, g.Introduces s n → IsDeclarable n) ↔
      (∀ n, g.Reviews s n → ¬ EndsInBreak n) ∧
        ∀ x ∈ s.sites, ∀ n ∈ x.definition.messageNames, IsDeclarable n) := by
  obtain ⟨space, hspace⟩ := exists_space_of_review h
  refine ⟨⟨space, hspace, by rw [packageLine, hspace]; rfl⟩,
    fun x _ u hu => ⟨fragmentsOf_of_classOf hu, declaredNames_of_classOf hu⟩,
    fun x _ hd vs hx => ?_, fun hall => ?_, ?_⟩
  · rw [hx]
    exact ⟨Definition.declaredNames_enumeration hd vs,
      congrArg Except.ok (codeFragments_enumFragments hd vs)⟩
  · refine ⟨fun n hn => ?_, fun x hx n hn => hall n (introduces_iff.2 (.inr ⟨x, hx, hn⟩))⟩
    exact (isDeclarable_iff (memberIssue?_of_review h hn)).1 (hall n (introduces_iff.2 (.inl hn)))
  · rintro ⟨hreviewed, hmessages⟩ n hn
    rcases introduces_iff.1 hn with hn | ⟨x, hx, hn⟩
    · exact (isDeclarable_iff (memberIssue?_of_review h hn)).2 (hreviewed n hn)
    · exact hmessages x hx n hn

end Generator

/-- A protocol with a field and a message with one parameter, and in it an enumeration. -/
def Schema.asking (message parameter : String) : Schema :=
  ⟨"n.m", [.protocol ⟨"P", none, []⟩ [.ofInt "a" [0] none]
    [⟨message, ⟨"int", .single, false⟩, [⟨parameter, ⟨"int", .single, false⟩, none⟩], none⟩] [
      .enumeration ⟨"E", none, []⟩ [⟨"V", none⟩]]]⟩

namespace Generator

open Java

theorem introduced_declarable_asking : (counted 4).review (.asking "ask" "topic") = .ok [] ∧
    ∀ n, (counted 4).Introduces (.asking "ask" "topic") n → IsDeclarable n := by
  have hr : (counted 4).review (.asking "ask" "topic") = .ok [] := rfl
  refine ⟨hr, (introduced_declarable_iff hr).2.2.2.2 ⟨?_, by decide⟩⟩
  rintro n (⟨space, hspace, hpart⟩ | ⟨x, hx, hn⟩)
  · obtain rfl : "n.m" = space := Json.str.inj hspace
    have hparts : ∀ part ∈ Text.splitAt '.' "n.m", ¬ EndsInBreak part := by decide
    exact hparts n hpart
  · have hsites : ∀ x ∈ (Schema.asking "ask" "topic").sites,
        ∀ n ∈ x.definition.reviewedNames, ¬ EndsInBreak n := by decide
    exact hsites x hx n hn

/-- Nothing is found wrong with a message that has a reserved word as its name. -/
theorem reserved_message :
    (counted 4).review (.asking "class" "topic") = .ok [] ∧
      (∃ units, (counted 4).generate (.asking "class" "topic") = .ok units) ∧
      ∃ x ∈ (Schema.asking "class" "topic").sites, ∃ u,
        classOf (counted 4).containers x.parent? x.inherited x.definition = some (.ok u) ∧
        "class" ∈ u.declaredNames ∧ "class" ∈ reservedWords := by
  obtain ⟨units, hg⟩ := exists_generate_counted (s := .asking "class" "topic") (by decide)
    (by decide) (by decide) (by decide)
  have hx : (Schema.asking "class" "topic").sites[0] ∈ (Schema.asking "class" "topic").sites :=
    List.getElem_mem _
  obtain ⟨u, hu⟩ := exists_classOf_of_generate hg hx rfl
  refine ⟨rfl, ⟨units, hg⟩, _, hx, u, hu, ?_, by decide⟩
  rw [declaredNames_of_classOf hu]
  decide

end Generator

end Typewright
