import Typewright.Generation
import Typewright.Proofs.Fallible
import Typewright.Proofs.Schema.Site

/-!
# Definitions that become classes

Records and protocols become classes. Whatever else they differ in, both plan the constructors for
the fields they inherit and their own, and have a class unless there is no plan.

- `Java.classOf`: the class of a definition.
- `Java.exists_classOf`: a definition that becomes a class has one if its constructors are planned.
- `Java.exists_plans_of_classOf`: what the class has of the plans.
- `Java.declarations_of_classOf`: what it declares of the definition.
- `Java.madeFor_of_classOf`: what else it has of it, whatever the kind of the definition is.
- `Generator.fragmentsOf_error`: why a definition has no source text.
-/

namespace Typewright

/-- Whether a definition becomes a class. -/
def Definition.isClass : Definition → Bool
  | .enumeration _ _ => false
  | _ => true

theorem Definition.isClass_of_mem_children {d p : Definition} (h : d ∈ p.children) : p.isClass := by
  cases p with
  | protocol hd fs ms ds => rfl
  | record hd fs => cases h
  | enumeration hd vs => cases h

theorem Definition.isClass_of_isPath {top around : List Definition} {d : Definition}
    (h : IsPath top (d :: around)) : ∀ p ∈ around, p.isClass := by
  intro p hp
  obtain ⟨e, he⟩ := exists_mem_children_of_isPath h p hp
  exact isClass_of_mem_children he

/-- Where the fields of the class of a definition can be seen. -/
def Definition.visibility : Definition → String
  | .record _ _ => "private"
  | _ => "protected"

theorem Definition.visibility_of_mem_children {d p : Definition} (h : d ∈ p.children) :
    p.visibility = "protected" := by
  cases p with
  | protocol hd fs ms ds => rfl
  | record hd fs => cases h
  | enumeration hd vs => cases h

namespace Java

variable {superclass : Option String} {inherited : List Field} {d : Definition}

/-- The class of a definition, if it becomes one. -/
def classOf (c : Containers) (superclass : Option String) (inherited : List Field) :
    Definition → Option (Except MissingDefault ClassUnit)
  | .enumeration _ _ => none
  | .record h fs => some (ClassUnit.ofRecord c superclass inherited h fs)
  | .protocol h fs ms _ => some (ClassUnit.ofProtocol c superclass inherited h fs ms)

/-- A class is made from the plans of its constructors, whatever these are. -/
theorem exists_classOf (c : Containers) (superclass : Option String) (inherited : List Field)
    (hd : d.isClass) :
    ∃ make : List ConstructorPlan → ClassUnit,
      (∀ plans, (make plans).constructors = plans.map (.ofPlan c) ∧
        (make plans).superclass = superclass) ∧
      classOf c superclass inherited d =
        some (make <$> planConstructors d.name inherited d.fields) := by
  cases d with
  | enumeration h vs => cases hd
  | record h fs => exact ⟨_, fun plans => ⟨rfl, rfl⟩, rfl⟩
  | protocol h fs ms ds => exact ⟨_, fun plans => ⟨rfl, rfl⟩, rfl⟩

theorem isClass_of_classOf {c : Containers} {r : Except MissingDefault ClassUnit}
    (h : classOf c superclass inherited d = some r) : d.isClass := by
  cases d with
  | enumeration hd vs => cases h
  | record hd fs => rfl
  | protocol hd fs ms ds => rfl

/-- A class has the constructors of its plans, and the superclass that it was made for. -/
theorem exists_plans_of_classOf {c : Containers} {u : ClassUnit}
    (h : classOf c superclass inherited d = some (.ok u)) :
    ∃ plans, planConstructors d.name inherited d.fields = .ok plans ∧
      u.constructors = plans.map (.ofPlan c) ∧ u.superclass = superclass := by
  obtain ⟨make, hmake, hc⟩ := exists_classOf c superclass inherited (isClass_of_classOf h)
  rw [h] at hc
  obtain ⟨plans, hp, rfl⟩ := Fallible.map_ok (Option.some.inj hc).symm
  exact ⟨plans, hp, hmake plans⟩

/--
A class has the heading of its definition, declares its fields, for itself or for the classes within
it, and has its messages as abstract methods.
-/
theorem declarations_of_classOf {c : Containers} {u : ClassUnit}
    (h : classOf c superclass inherited d = some (.ok u)) :
    u.heading = d.heading ∧ u.fields = d.fields.map (.ofField c d.visibility) ∧
      u.messages = d.messages.map (.ofMessage c) := by
  cases d with
  | enumeration hd vs => cases h
  | record hd fs =>
    obtain ⟨plans, -, hu⟩ := Fallible.bind_ok (Option.some.inj h)
    obtain rfl := Except.ok.inj hu
    exact ⟨rfl, rfl, rfl⟩
  | protocol hd fs ms ds =>
    obtain ⟨plans, -, hu⟩ := Fallible.bind_ok (Option.some.inj h)
    obtain rfl := Except.ok.inj hu
    exact ⟨rfl, rfl, rfl⟩

/-- What a class has of the definition that it was made for, in records and protocols alike. -/
structure ClassUnit.MadeFor (c : Containers) (inherited : List Field) (d : Definition)
    (u : ClassUnit) : Prop where
  exists_plans : ∃ plans, planConstructors d.name inherited d.fields = .ok plans ∧
    u.constructors = plans.map (.ofPlan c)
  accessors_eq : u.accessors = d.fields.map (.ofField c)
  copyMethods_of : ∀ m ∈ u.copyMethods, ∃ target, m = .ofField c (inherited ++ d.fields) target
  equalsBody_eq : u.equalsBody = Java.equalsBody d.name (inherited ++ d.fields)
  hashCodeBody_eq : u.hashCodeBody = Java.hashCodeBody (inherited ++ d.fields)
  toStringBody_eq : u.toStringBody = Java.toStringBody d.name (inherited ++ d.fields)

theorem madeFor_of_classOf {c : Containers} {u : ClassUnit}
    (h : classOf c superclass inherited d = some (.ok u)) : u.MadeFor c inherited d := by
  cases d with
  | enumeration hd vs => cases h
  | record hd fs =>
    obtain ⟨plans, hp, hu⟩ := Fallible.bind_ok (Option.some.inj h)
    obtain rfl := Except.ok.inj hu
    refine ⟨⟨plans, hp, rfl⟩, rfl, fun m hm => ?_, rfl, rfl, rfl⟩
    obtain ⟨target, -, rfl⟩ := List.mem_map.1 hm
    exact ⟨target, rfl⟩
  | protocol hd fs ms ds =>
    obtain ⟨plans, hp, hu⟩ := Fallible.bind_ok (Option.some.inj h)
    obtain rfl := Except.ok.inj hu
    exact ⟨⟨plans, hp, rfl⟩, rfl, fun m hm => (List.not_mem_nil hm).elim,
      rfl, rfl, rfl⟩

/-- A class extends its superclass, unless that has no name. -/
theorem ancestry_of_superclass {u : ClassUnit} {n : String} (h : u.superclass = some n)
    (hn : n ≠ "") : u.ancestry = " extends " ++ n := by
  unfold ClassUnit.ancestry
  rw [h]
  split
  · next heq => cases heq
  · next heq => exact absurd (Option.some.inj heq) hn
  · next heq => rw [Option.some.inj heq]

end Java

namespace Generator

open Java

variable {g : Generator} {superclass : Option String} {inherited : List Field} {d : Definition}

/-- The source text of a definition that becomes a class is that of the class. -/
theorem fragmentsOf_of_classOf {r : Except MissingDefault ClassUnit}
    (h : classOf g.containers superclass inherited d = some r) :
    g.fragmentsOf superclass inherited d = (·.fragments) <$> r := by
  cases d with
  | enumeration hd vs => cases h
  | record hd fs =>
    obtain rfl := Option.some.inj h
    rfl
  | protocol hd fs ms ds =>
    obtain rfl := Option.some.inj h
    rfl

theorem isClass_of_fragmentsOf_error {m : MissingDefault}
    (h : g.fragmentsOf superclass inherited d = .error m) : d.isClass := by
  cases d with
  | enumeration hd vs => cases h
  | record hd fs => rfl
  | protocol hd fs ms ds => rfl

/-- Source text fails where the constructors of a class cannot be planned. -/
theorem fragmentsOf_error {m : MissingDefault}
    (h : g.fragmentsOf superclass inherited d = .error m) :
    d.isClass ∧ planConstructors d.name inherited d.fields = .error m := by
  have hd := isClass_of_fragmentsOf_error h
  obtain ⟨make, -, hc⟩ := exists_classOf g.containers superclass inherited hd
  rw [fragmentsOf_of_classOf hc] at h
  exact ⟨hd, Fallible.map_error (Fallible.map_error h)⟩

/-- A definition that becomes a class and has source text has a class. -/
theorem exists_classOf_of_fragmentsOf {fragments : List Fragment} (hd : d.isClass)
    (h : g.fragmentsOf superclass inherited d = .ok fragments) :
    ∃ u, classOf g.containers superclass inherited d = some (.ok u) := by
  obtain ⟨make, -, hc⟩ := exists_classOf g.containers superclass inherited hd
  rw [fragmentsOf_of_classOf hc] at h
  obtain ⟨u, hu, -⟩ := Fallible.map_ok h
  exact ⟨u, by rw [hc, hu]⟩

end Generator

end Typewright
