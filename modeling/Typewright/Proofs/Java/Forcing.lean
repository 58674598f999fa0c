import Mathlib.Logic.Relation
import Typewright.Proofs.Java.References

/-!
# Forcing deferred values

The accessor of a lazy field forces its value. Which accessors do the structural methods of a class
come to call? A class with a lazy field calls none itself, but the method of its superclass, which
goes by the fields of the superclass. And a method of the superclass may be an accessor: that of a
field with the name of the method.

- `Leads`: what a method of an object calls. `Forces`: what it comes to in the end.
- `expected_of_leads`: what one call keeps; `forces_iff`: which lazy fields a method forces.
- `Generator.forces_iff_named`: which fields the classes of a schema force, and how else they refer
  to them.
- `Generator.hashCode_forces`: a class the hash code of which forces a field.
-/

namespace Typewright

namespace Java

/-! ## Calls -/

/-- The body of a method of the class of a definition, around which the given protocols are. -/
def bodyAt (d : Definition) (around : List Definition) (m : Method) : Body :=
  bodyOf d.name (fieldsAround (d :: around)) m

/--
The field whose accessor is called by a name on an object of the class that stands first in a chain:
the first class that declares an accessor of that name is asked for it.
-/
def accessorOf (path : List Definition) (name : String) : Option Field :=
  path.findSome? fun d => d.fields.find? (·.name == name)

inductive Invocation where
  /-- A structural method, as the class of a definition declares it. -/
  | method (d : Definition) (around : List Definition) (m : Method)
  | accessor (f : Field)

/--
The first calls the second, on an object of the class that stands first in the chain or on another
object of that class. Where a method and an accessor have one name and no parameters, either of the
two is called.
-/
inductive Leads (path : List Definition) : Invocation → Invocation → Prop where
  | accessor {d : Definition} {around : List Definition} {m : Method} {n : String} {f : Field} :
    n ∈ (bodyAt d around m).calls → accessorOf path n = some f →
    Leads path (.method d around m) (.accessor f)
  | method {d e : Definition} {around rest : List Definition} {m m' : Method} :
    m'.name ∈ (bodyAt d around m).calls → m' ≠ .equals → path = e :: rest →
    Leads path (.method d around m) (.method e rest m')
  | superMethod {d p : Definition} {rest : List Definition} {m m' : Method} :
    bodyAt d (p :: rest) m = .inherited m' →
    Leads path (.method d (p :: rest) m) (.method p rest m')
  | superAccessor {d p : Definition} {rest : List Definition} {m m' : Method} {f : Field} :
    bodyAt d (p :: rest) m = .inherited m' → f ∈ p.fields → f.name = m'.name →
    Leads path (.method d (p :: rest) m) (.accessor f)

/-- A method of an object of a class comes to call the accessor of a lazy field. -/
def Forces (d : Definition) (around : List Definition) (m : Method) (f : Field) : Prop :=
  f.type.isLazy ∧
    Relation.ReflTransGen (Leads (d :: around)) (.method d around m) (.accessor f)

variable {d e : Definition} {around rest path : List Definition} {m : Method} {f : Field}
  {n : String}

theorem accessorOf_some (h : accessorOf path n = some f) : f ∈ fieldsAround path ∧ f.name = n := by
  obtain ⟨d, hd, hf⟩ := List.exists_of_findSome?_eq_some h
  refine ⟨mem_fieldsAround.2 ⟨d, hd, List.mem_of_find?_eq_some hf⟩, ?_⟩
  simpa using List.find?_some hf

theorem fieldsAround_subset (h : rest <:+ path) :
    ∀ f ∈ fieldsAround rest, f ∈ fieldsAround path := by
  intro f hf
  obtain ⟨p, hp, hf⟩ := mem_fieldsAround.1 hf
  exact mem_fieldsAround.2 ⟨p, h.subset hp, hf⟩

theorem eq_of_name_eq {fs : List Field} (hn : (fs.map (·.name)).Nodup) {f g : Field} (hf : f ∈ fs)
    (hg : g ∈ fs) (h : f.name = g.name) : f = g :=
  List.inj_on_of_nodup_map hn hf hg h

theorem eq_of_bodyAt_inherited {m' : Method} (h : bodyAt d around m = .inherited m') :
    m' = m ∧ m ≠ .equals := by
  unfold bodyAt bodyOf at h
  split at h
  · cases m with
    | equals => cases h
    | hashCode => cases h; exact ⟨rfl, by decide⟩
    | toString => cases h; exact ⟨rfl, by decide⟩
  · cases m <;> cases h

theorem bodyAt_of_lazy (hm : m ≠ .equals) (hf : f ∈ fieldsAround (d :: around))
    (hl : f.type.isLazy) : bodyAt d around m = .inherited m := by
  rw [bodyAt, bodyOf, if_pos (hasLazyField_iff.2 ⟨f, hf, hl⟩)]
  cases m with
  | equals => exact absurd rfl hm
  | hashCode => rfl
  | toString => rfl

/-! ## What a method comes to call -/

/--
What is known of the calls that a method comes to: they are of classes further out and of the same
method, unless a field that is not lazy has the name of the method; and of the lazy fields only one
that is inherited under the name of the method is asked for.
-/
def Expected (d : Definition) (around : List Definition) (m : Method) : Invocation → Prop
  | .method e rest m' =>
    e :: rest <:+ d :: around ∧
      (m' = m ∨ ∃ f ∈ fieldsAround (d :: around), f.type.isLazy = false ∧ f.name = m'.name)
  | .accessor f =>
    f.type.isLazy → m ≠ .equals ∧ f ∈ fieldsAround around ∧ f.name = m.name

theorem exists_of_mem_calls (hs : e :: rest <:+ path) {m' : Method}
    (h : n ∈ (bodyAt e rest m').calls) :
    ∃ f ∈ fieldsAround path, f.type.isLazy = false ∧ f.name = n := by
  obtain ⟨hlazy, f, hf, hname⟩ := mem_calls_bodyOf.1 h
  refine ⟨f, fieldsAround_subset hs f hf, ?_, hname⟩
  rw [Bool.eq_false_iff]
  exact fun hl => hlazy ⟨f, hf, hl⟩

/-- One call keeps what is known. -/
theorem expected_of_leads (hn : ((fieldsAround (d :: around)).map (·.name)).Nodup)
    {u v : Invocation} (hu : Expected d around m u) (h : Leads (d :: around) u v) :
    Expected d around m v := by
  cases h with
  | @accessor e rest m' n f hcall hfield =>
    obtain ⟨g, hg, hlazy, hname⟩ := exists_of_mem_calls hu.1 hcall
    obtain ⟨hf, hfname⟩ := accessorOf_some hfield
    intro hl
    -- the accessor is that of the field which is compared or shown, and that one is not lazy
    obtain rfl := eq_of_name_eq hn hf hg (hfname.trans hname.symm)
    rw [hl] at hlazy
    cases hlazy
  | @method e e' rest rest' m' m'' hcall _ hpath =>
    obtain ⟨rfl, rfl⟩ := List.cons.inj hpath
    exact ⟨List.suffix_rfl, .inr (exists_of_mem_calls hu.1 hcall)⟩
  | @superMethod e p rest m' m'' hbody =>
    obtain ⟨rfl, -⟩ := eq_of_bodyAt_inherited hbody
    exact ⟨(List.suffix_cons e (p :: rest)).trans hu.1, hu.2⟩
  | @superAccessor e p rest m' m'' f hbody hf hname =>
    obtain ⟨rfl, hequals⟩ := eq_of_bodyAt_inherited hbody
    obtain ⟨hs, hm⟩ := hu
    have hout : p :: rest <:+ around := by
      rcases List.suffix_cons_iff.1 hs with heq | hs
      · obtain ⟨rfl, rfl⟩ := List.cons.inj heq
        exact List.suffix_rfl
      · exact (List.suffix_cons e (p :: rest)).trans hs
    have hin : f ∈ fieldsAround around :=
      fieldsAround_subset hout f (mem_fieldsAround.2 ⟨p, List.mem_cons_self, hf⟩)
    intro hl
    rcases hm with rfl | ⟨g, hg, hlazy, hgname⟩
    · exact ⟨hequals, hin, hname⟩
    · -- two fields would have the name of the method
      have hall := fieldsAround_subset (List.suffix_cons d around) f hin
      obtain rfl := eq_of_name_eq hn hall hg (hname.trans hgname.symm)
      rw [hl] at hlazy
      cases hlazy

/-- All that a method comes to call is as expected. -/
theorem expected_of_reaches (hn : ((fieldsAround (d :: around)).map (·.name)).Nodup)
    {v : Invocation} (h : Relation.ReflTransGen (Leads (d :: around)) (.method d around m) v) :
    Expected d around m v := by
  induction h with
  | refl => exact ⟨List.suffix_rfl, .inl rfl⟩
  | tail _ hstep ih => exact expected_of_leads hn ih hstep

/-- A lazy field that is inherited under the name of the method is asked for in the end. -/
theorem reaches_of_named (hm : m ≠ .equals) (hf : f ∈ fieldsAround around) (hl : f.type.isLazy)
    (hname : f.name = m.name) :
    Relation.ReflTransGen (Leads path) (.method d around m) (.accessor f) := by
  induction around generalizing d with
  | nil => simp at hf
  | cons p rest ih =>
    have hall := fieldsAround_subset (List.suffix_cons d (p :: rest)) f hf
    have hbody := bodyAt_of_lazy (d := d) hm hall hl
    rw [fieldsAround_cons, List.mem_append] at hf
    rcases hf with hf | hf
    · exact .head (.superMethod hbody) (ih hf)
    · exact .single (.superAccessor hbody hf hname)

/--
Where fields have different names, a method comes to force a lazy field exactly if the field is
inherited under the name of the method. No comparison does.
-/
theorem forces_iff (hn : ((fieldsAround (d :: around)).map (·.name)).Nodup) :
    Forces d around m f ↔
      m ≠ .equals ∧ f ∈ fieldsAround around ∧ f.type.isLazy ∧ f.name = m.name := by
  constructor
  · rintro ⟨hl, h⟩
    obtain ⟨hm, hf, hname⟩ := expected_of_reaches hn h hl
    exact ⟨hm, hf, hl, hname⟩
  · rintro ⟨hm, hf, hl, hname⟩
    exact ⟨hl, reaches_of_named hm hf hl hname⟩

end Java

namespace Generator

open Java

variable {g : Generator} {s : Schema} {units : Units String} {x : Site}

/-- The bodies of a class and of the classes that it continues are those that its calls go by. -/
theorem exists_bodyAt (hg : g.generate s = .ok units) (hx : x ∈ s.sites) (hd : x.definition.isClass)
    {p : Definition} {rest : List Definition} (hp : p :: rest <:+ x.definition :: x.around) :
    ∃ v, classOf g.containers (parentName rest) (fieldsAround rest) p = some (.ok v) ∧
      ∀ m, v.bodyLines m = (bodyAt p rest m).lines := by
  have hsite : ⟨p, rest⟩ ∈ s.sites ∧ p.isClass := by
    rcases List.suffix_cons_iff.1 hp with heq | hp
    · obtain ⟨rfl, rfl⟩ := List.cons.inj heq
      exact ⟨hx, hd⟩
    · exact ⟨Schema.mem_sites_of_suffix hx hp,
        Definition.isClass_of_isPath (Schema.isPath_of_mem_sites hx) p
          (hp.subset List.mem_cons_self)⟩
  obtain ⟨v, hv⟩ := exists_classOf_of_generate hg hsite.1 hsite.2
  refine ⟨v, hv, fun m => ?_⟩
  rw [bodyLines_of_classOf hv, bodyAt, lines_bodyOf, fieldsAround_cons]; rfl

/--
A class of a schema that has units, the fields of which have different names. Its structural methods
are the fallbacks exactly if a field is lazy. They and the methods of its superclasses that they
call come to force a lazy field exactly if the field is inherited under the name `hashCode` or
`toString`. Its other members refer to fields without forcing them, but for the accessors.
-/
theorem forces_iff_named (hg : g.generate s = .ok units) (hx : x ∈ s.sites)
    (hd : x.definition.isClass)
    (hn : ((x.inherited ++ x.definition.fields).map (·.name)).Nodup) :
    ∃ u, classOf g.containers x.parent? x.inherited x.definition = some (.ok u) ∧
      g.fragmentsOf x.parent? x.inherited x.definition = .ok u.fragments ∧
      (∀ m, u.bodyLines m = m.fallback.lines ↔
        ∃ f ∈ x.inherited ++ x.definition.fields, f.type.isLazy) ∧
      (∀ p rest, p :: rest <:+ x.definition :: x.around →
        ∃ v, classOf g.containers (parentName rest) (fieldsAround rest) p = some (.ok v) ∧
          ∀ m, v.bodyLines m = (bodyAt p rest m).lines) ∧
      (∀ m f, Forces x.definition x.around m f ↔
        m ≠ .equals ∧ f ∈ x.inherited ∧ f.type.isLazy ∧ f.name = m.name) ∧
      References g.containers x.inherited x.definition.fields u := by
  obtain ⟨u, hu⟩ := exists_classOf_of_generate hg hx hd
  have hall : ((fieldsAround (x.definition :: x.around)).map (·.name)).Nodup := by
    rw [fieldsAround_cons]
    exact hn
  rw [List.map_append] at hn
  refine ⟨u, hu, fragmentsOf_of_classOf hu, fun m => ?_,
    fun p rest hp => exists_bodyAt hg hx hd hp, fun m f => forces_iff hall,
    references_of_classOf hn.of_append_right hu⟩
  rw [bodyLines_of_classOf hu, methodLines_eq_fallback_iff]

end Generator

/-- A protocol with a lazy field of the given name, and in it a record. -/
def Schema.deferring (name : String) : Schema :=
  ⟨"n", [.protocol ⟨"P", none, []⟩ [⟨name, ⟨"int", .single, true⟩, .zero, none, none⟩] [] [
    .record ⟨"R", none, []⟩ [.ofInt "a" [0] none]]]⟩

namespace Generator

open Java

theorem forces_iff_named_deferring :
    ∃ units, (counted 4).generate (Schema.deferring "b") = .ok units ∧
      ∃ x ∈ (Schema.deferring "b").sites, x.definition.name = "R" ∧
        ∃ u, classOf (counted 4).containers x.parent? x.inherited x.definition = some (.ok u) ∧
          (∀ m, u.bodyLines m = m.fallback.lines) ∧
          ∀ m f, ¬ Forces x.definition x.around m f := by
  obtain ⟨units, hg⟩ := exists_generate_counted (s := Schema.deferring "b") (by decide) (by decide)
    (by decide) (by decide)
  have hx : (Schema.deferring "b").sites[1] ∈ (Schema.deferring "b").sites := List.getElem_mem _
  obtain ⟨u, hu, -, hfallback, -, hforces, -⟩ := forces_iff_named hg hx rfl (by decide)
  refine ⟨units, hg, _, hx, rfl, u, hu, fun m => (hfallback m).2 (by decide), fun m f hf => ?_⟩
  obtain ⟨-, hmem, -, hname⟩ := (hforces m f).1 hf
  obtain rfl := List.mem_singleton.1 hmem
  revert hname
  cases m <;> decide

/--
Nothing is found wrong with a lazy field of the name `hashCode`, but the hash code of a class that
inherits it is the value that it defers.
-/
theorem hashCode_forces :
    (counted 4).review (Schema.deferring "hashCode") = .ok [] ∧
      (∃ units, (counted 4).generate (Schema.deferring "hashCode") = .ok units) ∧
      ∃ x ∈ (Schema.deferring "hashCode").sites,
        ((x.inherited ++ x.definition.fields).map (·.name)).Nodup ∧
        ∃ f, Forces x.definition x.around .hashCode f := by
  refine ⟨rfl, exists_generate_counted (by decide) (by decide) (by decide) (by decide),
    (Schema.deferring "hashCode").sites[1], List.getElem_mem _, by decide,
    ⟨"hashCode", ⟨"int", .single, true⟩, .zero, none, none⟩, ?_⟩
  exact (forces_iff (by decide)).2 ⟨by decide, List.mem_singleton.2 rfl, rfl, rfl⟩

end Generator

end Typewright
