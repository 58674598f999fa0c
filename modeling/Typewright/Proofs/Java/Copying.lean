import Typewright.Proofs.Generation.Walk

/-!
# Copying with a change

A record has a copy method for each of its fields, the inherited ones too. Each calls the newest
constructor, and fills its parameters in place: that for the field of the method with the parameter
of the method, and all others with what the object holds.

- `CopyMethod.Changes`: a copy method against the fields of its class and a constructor.
- `changes_ofField`: where fields have different names, that is so for the copy method of each.
- `Generator.Declares`: a class among those of a schema declares a field.
- `Generator.copyMethods_fit`: the copy methods of the records of a schema, and the declarations of
  the fields that they read.
-/

namespace Typewright

namespace Java

/--
The method copies an object with the given fields by the constructor `k`, and changes the field at a
place. The argument there is the parameter of the method, which has the type of that of `k`; at
every other place it is the field of the object.
-/
structure CopyMethod.Changes (m : CopyMethod) (fs : List Field) (k : Constructor) (i : Nat) :
    Prop where
  field : fs[i]?.map (·.name) = some m.field
  type : k.parameters[i]?.map (·.type) = some m.type
  arity : m.arguments.length = k.parameters.length
  changed : m.arguments[i]? = some (.name m.field)
  kept : ∀ j f, j ≠ i → fs[j]? = some f → m.arguments[j]? = some (.own f.name)

variable {c : Containers} {fs inherited : List Field} {superclass : Option String} {d : Definition}
  {u : ClassUnit}

theorem getElem?_arguments (c : Containers) (fs : List Field) (target : Field) (j : Nat) :
    (CopyMethod.ofField c fs target).arguments[j]? = fs[j]?.map fun f : Field =>
      if f.name = target.name then Expression.name f.name else .own f.name :=
  List.getElem?_map

/-- Where fields have different names, the copy method of each changes it and no other. -/
theorem changes_ofField (c : Containers) (hn : (fs.map (·.name)).Nodup) {k : Constructor}
    (hk : k.parameters = fs.map (parameterOf c)) {i : Nat} {target : Field}
    (ht : fs[i]? = some target) : (CopyMethod.ofField c fs target).Changes fs k i := by
  refine ⟨by rw [ht]; rfl, ?_, ?_, ?_, fun j f hj hf => ?_⟩
  · rw [hk, List.getElem?_map, ht]; rfl
  · rw [hk, List.length_map]; exact List.length_map _
  · rw [getElem?_arguments, ht, Option.map_some, if_pos rfl]; rfl
  · have hne : f.name ≠ target.name := by
      intro heq
      have hlt : j < (fs.map (·.name)).length := by
        rw [List.length_map]
        exact (List.getElem?_eq_some_iff.1 hf).1
      refine hj ((List.getElem?_inj hlt hn).1 ?_)
      rw [List.getElem?_map, List.getElem?_map, hf, ht, Option.map_some, Option.map_some, heq]
    rw [getElem?_arguments, hf, Option.map_some, if_neg hne]

/-- Every field that a copy method reads off the object is one of those copied. -/
theorem exists_of_own_mem_arguments {target : Field} {n : String}
    (h : .own n ∈ (CopyMethod.ofField c fs target).arguments) : ∃ f ∈ fs, f.name = n := by
  obtain ⟨f, hf, he⟩ := List.mem_map.1 h
  split at he
  · cases he
  · exact ⟨f, hf, Expression.own.inj he⟩

theorem copyMethods_of_classOf {h : Heading} {own : List Field}
    (hu : classOf c superclass inherited (.record h own) = some (.ok u)) :
    u.copyMethods = (inherited ++ own).map (.ofField c (inherited ++ own)) := by
  obtain ⟨plans, -, hu⟩ := Fallible.bind_ok (Option.some.inj hu)
  obtain rfl := Except.ok.inj hu
  rfl

end Java

namespace Generator

open Java

variable {g : Generator} {s : Schema} {units : Units String} {x : Site}

/--
The class of the definition at a site, whose unit is among those of the schema, declares a field of
its own with the name and visibility.
-/
def Declares (g : Generator) (s : Schema) (units : Units String) (x : Site)
    (visibility name : String) : Prop :=
  ∃ u, classOf g.containers x.parent? x.inherited x.definition = some (.ok u) ∧
    g.fragmentsOf x.parent? x.inherited x.definition = .ok u.fragments ∧
    (∃ unit ∈ units, g.Renders s.space x unit) ∧
    ∃ f ∈ x.definition.fields, f.name = name ∧ .ofField g.containers visibility f ∈ u.fields

theorem declares_of_mem (hg : g.generate s = .ok units) (hx : x ∈ s.sites)
    (hd : x.definition.isClass) {f : Field} (hf : f ∈ x.definition.fields) :
    g.Declares s units x x.definition.visibility f.name := by
  obtain ⟨u, hu⟩ := exists_classOf_of_generate hg hx hd
  obtain ⟨text, hunit, hmem⟩ := mem_of_generate hg hx
  refine ⟨u, hu, fragmentsOf_of_classOf hu, ⟨_, hmem, text, hunit, rfl⟩, f, hf, rfl, ?_⟩
  rw [(declarations_of_classOf hu).2.1]
  exact List.mem_map_of_mem hf

/-- A field that a definition inherits is declared by one of the protocols around it. -/
theorem exists_declares_of_inherited (hg : g.generate s = .ok units) (hx : x ∈ s.sites) {f : Field}
    (hf : f ∈ x.inherited) :
    ∃ p rest, p :: rest <:+ x.around ∧ g.Declares s units ⟨p, rest⟩ "protected" f.name := by
  obtain ⟨p, hp, hf⟩ := mem_fieldsAround.1 hf
  obtain ⟨inner, rest, hpath⟩ := List.append_of_mem hp
  have hsuffix : p :: rest <:+ x.around := ⟨inner, hpath.symm⟩
  obtain ⟨e, he⟩ :=
    Definition.exists_mem_children_of_isPath (Schema.isPath_of_mem_sites hx) p hp
  have hdeclares := declares_of_mem hg (Schema.mem_sites_of_suffix hx hsuffix)
    (Definition.isClass_of_mem_children he) hf
  rw [Definition.visibility_of_mem_children he] at hdeclares
  exact ⟨p, rest, hsuffix, hdeclares⟩

/--
A record of a schema that has units, the fields of which have different names. It has a copy method
for each field, the inherited ones first, which changes that field by the newest constructor; that
one takes all the fields, in their order. The fields read off the object are private in the record,
or protected in the class of a protocol around it.
-/
theorem copyMethods_fit {h : Heading} {own : List Field} (hg : g.generate s = .ok units)
    (hx : x ∈ s.sites) (hd : x.definition = .record h own)
    (hn : ((x.inherited ++ own).map (·.name)).Nodup) :
    ∃ u plans newest,
      classOf g.containers x.parent? x.inherited x.definition = some (.ok u) ∧
      g.fragmentsOf x.parent? x.inherited x.definition = .ok u.fragments ∧
      planConstructors h.name x.inherited own = .ok plans ∧ plans.getLast? = some newest ∧
      u.constructors.getLast? = some (.ofPlan g.containers newest) ∧
      newest.parameters = x.inherited ++ own ∧
      u.copyMethods.map (·.field) = newest.parameters.map (·.name) ∧
      (∀ (i : Nat) (m : CopyMethod), u.copyMethods[i]? = some m →
        m.Changes newest.parameters (.ofPlan g.containers newest) i) ∧
      ∀ m ∈ u.copyMethods, ∀ n, .own n ∈ m.arguments →
        g.Declares s units x "private" n ∨
          ∃ p rest, p :: rest <:+ x.around ∧ g.Declares s units ⟨p, rest⟩ "protected" n := by
  have hclass : x.definition.isClass := by rw [hd]; rfl
  obtain ⟨u, hu⟩ := exists_classOf_of_generate hg hx hclass
  obtain ⟨plans, hplans, hconstructors, -⟩ := exists_plans_of_classOf hu
  have hcopy := copyMethods_of_classOf (hd ▸ hu)
  rw [hd] at hplans
  obtain ⟨newest, hlast, hall⟩ := exists_newest hplans
  refine ⟨u, plans, newest, hu, fragmentsOf_of_classOf hu, hplans, hlast, ?_, hall, ?_,
    fun i m hm => ?_, fun m hm n hown => ?_⟩
  · rw [hconstructors, List.getLast?_map, hlast]; rfl
  · rw [hcopy, hall, List.map_map]; rfl
  · rw [hcopy, List.getElem?_map] at hm
    obtain ⟨target, ht, rfl⟩ := Option.map_eq_some_iff.1 hm
    rw [hall]
    exact changes_ofField g.containers hn (congrArg (List.map _) hall) ht
  · rw [hcopy] at hm
    obtain ⟨target, -, rfl⟩ := List.mem_map.1 hm
    obtain ⟨f, hf, rfl⟩ := exists_of_own_mem_arguments hown
    -- a field read off the object is declared by a protocol around it, or by the record itself
    rcases List.mem_append.1 hf with hf | hf
    · exact .inr (exists_declares_of_inherited hg hx hf)
    · have hdeclares := declares_of_mem (f := f) hg hx hclass (by rwa [hd])
      rw [hd] at hdeclares
      exact .inl hdeclares

end Generator

/-- A record below two protocols, the outermost of which was given the newest field of all. -/
def Schema.deepened : Schema :=
  ⟨"n", [.protocol ⟨"P", none, []⟩ [.ofInt "a" [2] (some "0")] [] [
    .protocol ⟨"Q", none, []⟩ [.ofInt "b" [0] none] [] [
      .record ⟨"R", none, []⟩ [.ofInt "c" [1] (some "1")]]]]⟩

namespace Generator

open Java

theorem copyMethods_fit_deepened :
    ∃ units, (counted 4).generate Schema.deepened = .ok units ∧
      ∃ x ∈ Schema.deepened.sites, ∃ u newest,
        classOf (counted 4).containers x.parent? x.inherited x.definition = some (.ok u) ∧
        u.constructors.getLast? = some newest ∧
        u.copyMethods.map (·.field) = ["a", "b", "c"] ∧
        (∀ (i : Nat) (m : CopyMethod), u.copyMethods[i]? = some m →
          m.Changes (x.inherited ++ x.definition.fields) newest i) ∧
        ∀ m ∈ u.copyMethods, ∀ n, .own n ∈ m.arguments →
          (counted 4).Declares Schema.deepened units x "private" n ∨
            ∃ p rest, p :: rest <:+ x.around ∧
              (counted 4).Declares Schema.deepened units ⟨p, rest⟩ "protected" n := by
  obtain ⟨units, hg⟩ : ∃ units, (counted 4).generate Schema.deepened = .ok units :=
    exists_generate_counted (by decide) (by decide) (by decide) (by decide)
  have hx : Schema.deepened.sites[2] ∈ Schema.deepened.sites := List.getElem_mem _
  obtain ⟨u, plans, newest, hu, -, -, -, hlast, hall, hfields, hchanges, hdeclares⟩ :=
    copyMethods_fit hg hx rfl (by decide)
  rw [hall] at hfields hchanges
  exact ⟨units, hg, _, hx, u, _, hu, hlast, hfields, hchanges, hdeclares⟩

end Generator

end Typewright
