import Typewright.Proofs.Generation.DeclaredNames
import Typewright.Proofs.Java.Body
import Typewright.Proofs.Java.Construction

/-!
# Signatures of methods

A class cannot declare two methods with one name and the same parameter types. The names of its
methods come from three sources: accessors bear the names of fields, copy methods the capitalised
ones after `with`, and the structural methods have names of their own. The review compares the names
of fields with one another as they are, so it warns of none of the ways in which methods clash: a
field with the name of a structural method, fields whose names differ in the case of the first
letter only, and fields whose names differ in a line feed at the end.

- `ClassUnit.signatures`: the methods of a class by name and parameter types.
- `Review.nodup_of_repeats`: without a warning, the flattened fields have different names.
- `identifierOf_copyMethod`: the name of a copy method.
- `Generator.signatures_differ_iff`: when the methods of a class are different.
- `Generator.copyMethods_clash`: a schema without warnings in which they are not.
-/

namespace Typewright

open Text

/-! ## Names of fields -/

/-- What is not repeated in a list is in it once, and was not seen before. -/
theorem Review.nodup_of_repeats {seen names : List String} (h : repeats seen names = []) :
    names.Nodup ∧ ∀ n ∈ names, n ∉ seen := by
  induction names generalizing seen with
  | nil => simp
  | cons n r ih =>
    rw [repeats] at h
    split_ifs at h with hn
    obtain ⟨hr, hseen⟩ := ih h
    refine ⟨List.nodup_cons.2 ⟨fun hmem => hseen n hmem List.mem_cons_self, hr⟩, ?_⟩
    exact List.forall_mem_cons.2 ⟨hn, fun m hm hmem => hseen m hm (List.mem_cons_of_mem n hmem)⟩

/-- In a schema without warnings, the flattened fields of a class have different names. -/
theorem Generator.nodup_names_of_review {g : Generator} {s : Schema} (h : g.review s = .ok [])
    {x : Site} (hx : x ∈ s.sites) (hd : x.definition.isClass) :
    ((x.inherited ++ x.definition.fields).map (·.name)).Nodup := by
  have hcontent := ((warnings_eq_nil h).1 _ (Schema.mem_walk_of_mem_sites hx)).1
  obtain ⟨d, around⟩ := x
  cases d with
  | enumeration hd' vs => cases hd
  | record hd' fs =>
    have hrepeats := List.map_eq_nil_iff.1 (List.append_eq_nil_iff.1 hcontent).2
    exact (Review.nodup_of_repeats hrepeats).1
  | protocol hd' fs ms ds => exact (Review.nodup_of_repeats (List.map_eq_nil_iff.1 hcontent)).1

/-- In a schema without warnings, the flattened fields of a class have identifiers as names. -/
theorem Generator.isIdentifier_fields_of_review {g : Generator} {s : Schema}
    (h : g.review s = .ok []) {x : Site} (hx : x ∈ s.sites) :
    ∀ f ∈ x.inherited ++ x.definition.fields, isIdentifier f.name := by
  refine Schema.forall_inherited (fun w hw f hf => ?_) hx
  rw [Schema.walk_eq_sites] at hw
  obtain ⟨y, hy, rfl⟩ := List.mem_map.1 hw
  have hreviewed : g.Reviews s f.name :=
    .inr ⟨y, hy, List.mem_cons_of_mem _ (Definition.name_mem_memberNames hf)⟩
  exact NameRules.isIdentifier_of_memberIssue? (memberIssue?_of_review h hreviewed)

/-- The fields for which the class of a definition has copy methods. -/
def Definition.copied (inherited : List Field) : Definition → List Field
  | .record _ fs => inherited ++ fs
  | _ => []

theorem Definition.copied_sublist {inherited : List Field} {d : Definition} :
    (d.copied inherited).Sublist (inherited ++ d.fields) := by
  cases d with
  | enumeration hd vs => exact List.nil_sublist _
  | record hd fs => exact List.Sublist.refl _
  | protocol hd fs ms ds => exact List.nil_sublist _

namespace Java

variable {T : Type} {meaning : String → T} {c : Containers} {superclass : Option String}
  {inherited fs : List Field} {d : Definition} {u : ClassUnit} {n : String}

/-! ## Methods -/

/-- What tells the methods of a class apart: the name, and the types of the parameters. -/
structure Signature (T : Type) where
  name : String
  parameters : List T
  deriving DecidableEq

/-- The types of the parameters of a structural method. -/
def Method.parameterTypes : Method → List String
  | .equals => ["Object"]
  | .hashCode => []
  | .toString => []

def structuralSignatures (meaning : String → T) : List (Signature T) :=
  [Method.equals, .hashCode, .toString].map fun m => ⟨m.name, m.parameterTypes.map meaning⟩

/-- The methods that a class declares, where the spellings of types mean something. -/
def ClassUnit.signatures (meaning : String → T) (u : ClassUnit) : List (Signature T) :=
  u.accessors.map (fun a => ⟨identifierOf a.name, []⟩) ++
    u.messages.map (fun m => ⟨identifierOf m.name, m.parameters.map fun b => meaning b.type⟩) ++
    u.copyMethods.map (fun m => ⟨identifierOf ("with" ++ upperFirst m.field), [meaning m.type]⟩) ++
    structuralSignatures meaning

def accessorSignature (f : Field) : Signature T :=
  ⟨fieldName f, []⟩

def copySignature (meaning : String → T) (c : Containers) (f : Field) : Signature T :=
  ⟨"with" ++ upperFirst (fieldName f), [meaning (f.type.storageType c)]⟩

theorem upperFirst_append {s : String} (h : s ≠ "") (t : String) :
    upperFirst (s ++ t) = upperFirst s ++ t := by
  obtain ⟨ch, r, hs⟩ := List.exists_cons_of_ne_nil (mt String.toList_eq_nil_iff.1 h)
  rw [← String.toList_inj]
  simp [upperFirst, hs]

/-- The name of a copy method is `with` and the capitalised identifier of its field. -/
theorem identifierOf_copyMethod (h : isIdentifier n) :
    identifierOf ("with" ++ upperFirst n) = "with" ++ upperFirst (identifierOf n) := by
  have hname := isName_identifierOf h
  rcases eq_identifierOf_or n with hn | hn
  · rw [← hn] at hname ⊢
    exact identifierOf_of_noBreak (noBreak_append_iff.2 ⟨by decide, hname.noBreak_upperFirst⟩)
  · have hne : identifierOf n ≠ "" := by
      intro hempty
      rw [hempty] at hname
      exact absurd hname (by decide)
    have hupper : upperFirst n = upperFirst (identifierOf n) ++ "\n" := by
      rw [← upperFirst_append hne, ← hn]
    rw [hupper, ← String.append_assoc, identifierOf_append_break]

theorem copyMethods_eq_of_classOf (h : classOf c superclass inherited d = some (.ok u)) :
    u.copyMethods = (d.copied inherited).map (.ofField c (inherited ++ d.fields)) := by
  cases d with
  | enumeration hd vs => cases h
  | record hd fs => exact copyMethods_of_classOf h
  | protocol hd fs ms ds =>
    obtain ⟨plans, -, hu⟩ := Fallible.bind_ok (Option.some.inj h)
    obtain rfl := Except.ok.inj hu
    rfl

/-- The methods of a class without messages, by the fields of its definition. -/
theorem signatures_of_classOf (h : classOf c superclass inherited d = some (.ok u))
    (hm : d.messages = []) (hn : ∀ f ∈ inherited ++ d.fields, isIdentifier f.name) :
    u.signatures meaning = d.fields.map accessorSignature ++
      (d.copied inherited).map (copySignature meaning c) ++ structuralSignatures meaning := by
  have hmessages : u.messages = [] := by rw [(declarations_of_classOf h).2.2, hm]; rfl
  have hcopy : u.copyMethods.map (fun m => (⟨identifierOf ("with" ++ upperFirst m.field),
      [meaning m.type]⟩ : Signature T)) = (d.copied inherited).map (copySignature meaning c) := by
    rw [copyMethods_eq_of_classOf h, List.map_map]
    refine List.map_congr_left fun f hf => ?_
    have hname := identifierOf_copyMethod (hn f (Definition.copied_sublist.subset hf))
    simp [copySignature, CopyMethod.ofField, hname, fieldName]
  rw [ClassUnit.signatures, hcopy, hmessages, (madeFor_of_classOf h).accessors_eq, List.map_map,
    List.map_nil, List.append_nil]
  rfl

/-! ## Methods that are different -/

theorem copySignature_notMem (f : Field) :
    copySignature meaning c f ∉ structuralSignatures meaning := by
  have hwith (s : String) : "with" ++ s ≠ "equals" := by
    intro h
    have hhead := congrArg (fun t => t.toList.head?) h
    simp at hhead
  simp [copySignature, structuralSignatures, Method.parameterTypes, Method.name, hwith]

/-- An accessor has the signature of a structural method without parameters if it has its name. -/
theorem accessorSignature_mem_iff (f : Field) :
    accessorSignature f ∈ structuralSignatures meaning ↔
      fieldName f = "hashCode" ∨ fieldName f = "toString" := by
  simp [accessorSignature, structuralSignatures, Method.parameterTypes, Method.name]

theorem nodup_structuralSignatures : (structuralSignatures meaning).Nodup := by
  simp [structuralSignatures, Method.parameterTypes, Method.name]

/--
Accessors, copy methods and structural methods are different if the accessors are, the copy methods
are, and no accessor has the name of a structural method without parameters.
-/
theorem nodup_signatures_iff {own copied : List Field} :
    (own.map accessorSignature ++ copied.map (copySignature meaning c) ++
        structuralSignatures meaning).Nodup ↔
      (own.map (accessorSignature (T := T))).Nodup ∧
        (copied.map (copySignature meaning c)).Nodup ∧
        ∀ f ∈ own, fieldName f ≠ "hashCode" ∧ fieldName f ≠ "toString" := by
  have hparameters : (own.map accessorSignature).Disjoint
      (copied.map (copySignature meaning c)) := by
    intro a ha hb
    obtain ⟨f, -, rfl⟩ := List.mem_map.1 ha
    obtain ⟨g, -, hg⟩ := List.mem_map.1 hb
    cases congrArg Signature.parameters hg
  have hcopy : (copied.map (copySignature meaning c)).Disjoint (structuralSignatures meaning) := by
    intro a ha
    obtain ⟨f, -, rfl⟩ := List.mem_map.1 ha
    exact copySignature_notMem f
  have haccessor : (own.map accessorSignature).Disjoint (structuralSignatures meaning) ↔
      ∀ f ∈ own, fieldName f ≠ "hashCode" ∧ fieldName f ≠ "toString" := by
    simp only [List.disjoint_left, List.forall_mem_map, accessorSignature_mem_iff, not_or, ne_eq]
  rw [List.nodup_append', List.nodup_append', List.disjoint_append_left, haccessor]
  have hstructural : (structuralSignatures meaning).Nodup := nodup_structuralSignatures
  tauto

end Java

namespace Generator

open Java

variable {g : Generator} {s : Schema} {units : Units String} {x : Site} {T : Type}

/--
A class without messages of a schema that has units and no warning. The methods that it declares
are different in name or in parameter types, whatever the spellings of types mean, exactly if no
field of its own has the name of a structural method without parameters, no two have one identifier,
and no two fields with a copy method have one identifier when capitalised, and one type.
-/
theorem signatures_differ_iff (meaning : String → T) (hr : g.review s = .ok [])
    (hg : g.generate s = .ok units) (hx : x ∈ s.sites) (hd : x.definition.isClass)
    (hm : x.definition.messages = []) :
    ∃ u, classOf g.containers x.parent? x.inherited x.definition = some (.ok u) ∧
      g.fragmentsOf x.parent? x.inherited x.definition = .ok u.fragments ∧
      ((u.signatures meaning).Nodup ↔
        (∀ f ∈ x.definition.fields, fieldName f ≠ "hashCode" ∧ fieldName f ≠ "toString") ∧
        (∀ f ∈ x.definition.fields, ∀ f' ∈ x.definition.fields,
          fieldName f = fieldName f' → f = f') ∧
        ∀ f ∈ x.definition.copied x.inherited, ∀ f' ∈ x.definition.copied x.inherited,
          upperFirst (fieldName f) = upperFirst (fieldName f') →
          meaning (f.type.storageType g.containers) = meaning (f'.type.storageType g.containers) →
          f = f') := by
  obtain ⟨u, hu⟩ := exists_classOf_of_generate hg hx hd
  have hall : (x.inherited ++ x.definition.fields).Nodup := (nodup_names_of_review hr hx hd).of_map
  refine ⟨u, hu, fragmentsOf_of_classOf hu, ?_⟩
  rw [signatures_of_classOf hu hm (isIdentifier_fields_of_review hr hx), nodup_signatures_iff,
    List.nodup_map_iff_inj_on hall.of_append_right,
    List.nodup_map_iff_inj_on (hall.sublist Definition.copied_sublist)]
  simp only [accessorSignature, copySignature, Signature.mk.injEq, and_true,
    String.append_right_inj, List.cons.injEq, and_imp]
  tauto

end Generator

/-- A record with a field for each of two names. -/
def Schema.paired (first second : String) : Schema :=
  ⟨"n", [.record ⟨"R", none, []⟩ [.ofInt first [0] none, .ofInt second [0] none]]⟩

namespace Generator

open Java

theorem signatures_differ_paired :
    (counted 4).review (.paired "x" "y") = .ok [] ∧
      (∃ units, (counted 4).generate (.paired "x" "y") = .ok units) ∧
      ∃ x ∈ (Schema.paired "x" "y").sites, ∃ u,
        classOf (counted 4).containers x.parent? x.inherited x.definition = some (.ok u) ∧
        (u.signatures id).Nodup := by
  obtain ⟨units, hg⟩ := exists_generate_counted (s := .paired "x" "y") (by decide) (by decide)
    (by decide) (by decide)
  have hx : (Schema.paired "x" "y").sites[0] ∈ (Schema.paired "x" "y").sites := List.getElem_mem _
  have hr : (counted 4).review (.paired "x" "y") = .ok [] := rfl
  obtain ⟨u, hu, -, hiff⟩ := signatures_differ_iff id hr hg hx rfl rfl
  exact ⟨hr, ⟨units, hg⟩, _, hx, u, hu, hiff.2 ⟨by decide, by decide, by decide⟩⟩

/-- Nothing is found wrong with two fields of one type whose copy methods have one name. -/
theorem copyMethods_clash :
    (counted 4).review (.paired "x" "X") = .ok [] ∧
      (∃ units, (counted 4).generate (.paired "x" "X") = .ok units) ∧
      ∃ x ∈ (Schema.paired "x" "X").sites, x.definition.messages = [] ∧ ∃ u,
        classOf (counted 4).containers x.parent? x.inherited x.definition = some (.ok u) ∧
        ¬ (u.signatures id).Nodup := by
  obtain ⟨units, hg⟩ := exists_generate_counted (s := .paired "x" "X") (by decide) (by decide)
    (by decide) (by decide)
  have hx : (Schema.paired "x" "X").sites[0] ∈ (Schema.paired "x" "X").sites := List.getElem_mem _
  obtain ⟨u, hu⟩ := exists_classOf_of_generate hg hx rfl
  refine ⟨rfl, ⟨units, hg⟩, _, hx, rfl, u, hu, ?_⟩
  rw [signatures_of_classOf hu rfl (by decide), nodup_signatures_iff]
  decide

end Generator

end Typewright
