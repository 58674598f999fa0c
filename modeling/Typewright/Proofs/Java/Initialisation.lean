import Typewright.Proofs.Generation.Outcome
import Typewright.Proofs.Java.Construction
import Typewright.Proofs.Review

/-!
# Initialisation

The constructors of a class leave each field with its value, the inherited ones too: unless two
fields have one name in Java, or a parameter of a constructor hides a field that it assigns. The
parameter for a field `x` is `_x`, so a field `_x` of the same class is hidden by it.

- `Lineage`: a class and the classes that it continues.
- `Unhidden`: no class assigns a field that one of its parameters hides.
- `exists_construct`: where that is so, construction gives each field its value.
- `unhidden_of_construct`: only there does it give each field a value at all.
- `unhidden_of_head?`: names that do not start with an underscore are safe.
- `Generator.initialises_iff`: which classes of a schema have constructors that initialise objects.
-/

namespace Typewright

namespace Java

/-- The classes of a definition and of the protocols around it, each of which extends the next. -/
inductive Lineage (c : Containers) : List Definition → List ClassUnit → Prop where
  | root : Lineage c [] []
  | step {d : Definition} {around : List Definition} {u : ClassUnit} {us : List ClassUnit} :
    classOf c (parentName around) (fieldsAround around) d = some (.ok u) →
    (∀ p ∈ around.head?, u.ancestry = " extends " ++ p.name) →
    Lineage c around us → Lineage c (d :: around) (u :: us)

/-- No class of a chain has a field of its own that a parameter of its constructors hides. -/
def Unhidden : List Definition → Prop
  | [] => True
  | d :: around =>
    (∀ f ∈ d.fields, ∀ g ∈ fieldsAround (d :: around), fieldName f ≠ argumentName g) ∧
      Unhidden around

instance decidableUnhidden : ∀ ds, Decidable (Unhidden ds)
  | [] => .isTrue trivial
  | d :: around =>
    have := decidableUnhidden around
    inferInstanceAs (Decidable
      ((∀ f ∈ d.fields, ∀ g ∈ fieldsAround (d :: around), fieldName f ≠ argumentName g) ∧ _))

/--
The constructor of a plan makes an object that has the argument of the caller in each field of its
era, and the default in each newer one.
-/
def Initialises (c : Containers) (us : List ClassUnit) (fs : List Field) (p : ConstructorPlan) :
    Prop :=
  ∀ (V : Type) (constant : String → V) (arg : Field → V),
    ∃ o, (Constructor.ofPlan c p).run constant (construct constant us) (p.parameters.map arg) =
        some o ∧
      ∀ v, p.era = some v → ∀ f ∈ fs,
        o (fieldName f) = if f.since ≤ v then some (arg f) else f.default.map constant

variable {c : Containers} {around : List Definition} {d : Definition}
  {us : List ClassUnit} {inherited own : List Field}

/-! ## The constructor that a subclass calls -/

theorem exists_era_ofPlan (c : Containers) {owner : String} {plans : List ConstructorPlan}
    {p : ConstructorPlan} (h : planConstructors owner inherited own = .ok plans) (hp : p ∈ plans) :
    ∃ era, (∀ f ∈ inherited ++ own, ¬ f.MissingAt era) ∧
      (inherited ++ own ≠ [] → p.era = some era) ∧
      p.parameters = providedAt era (inherited ++ own) ∧
      Constructor.ofPlan c p = .ofPlan c (planFor inherited own era) := by
  obtain ⟨era, hm, hera, hsome⟩ := exists_era_of_mem h hp
  refine ⟨era, hm, hsome, ?_, ?_⟩
  · rw [hera]; rfl
  · rw [hera]; rfl

/-- A call with a value for each field finds a constructor, that of an era that knows them all. -/
theorem exists_find_constructor (c : Containers) {owner : String} {plans : List ConstructorPlan}
    (h : planConstructors owner inherited own = .ok plans) :
    ∃ era, (∀ f ∈ inherited ++ own, f.since ≤ era) ∧
      (plans.map (Constructor.ofPlan c)).find?
          (fun k => k.parameters.length = (inherited ++ own).length) =
        some (.ofPlan c (planFor inherited own era)) := by
  obtain ⟨newest, hlast, hall⟩ := exists_newest h
  have hsome : ((plans.map (Constructor.ofPlan c)).find?
      fun k => k.parameters.length = (inherited ++ own).length).isSome := by
    rw [List.find?_isSome]
    refine ⟨_, List.mem_map_of_mem (List.mem_of_getLast? hlast), ?_⟩
    simp [Constructor.ofPlan, hall]
  obtain ⟨k, hk⟩ := Option.isSome_iff_exists.1 hsome
  obtain ⟨p, hp, rfl⟩ := List.mem_map.1 (List.mem_of_find?_eq_some hk)
  obtain ⟨era, -, -, -, hera⟩ := exists_era_ofPlan c h hp
  rw [hera] at hk
  have hlen := List.find?_some hk
  refine ⟨era, fun f hf => ?_, hk⟩
  have hfilter : ((inherited ++ own).filter fun f => f.since ≤ era).length =
      (inherited ++ own).length := by
    simpa [Constructor.ofPlan, planFor, providedAt] using hlen
  exact of_decide_eq_true (List.length_filter_eq_length_iff.1 hfilter f hf)

/-! ## Construction along a chain -/

variable {V : Type} {constant : String → V} {path : List Definition} {args : List V} {o : Object V}

/-- Where all fields are known, what is passed on are the arguments of the caller. -/
theorem passedFor_of_le {era : Version} {arg : Field → V} {f : Field} (h : f.since ≤ era) :
    passedFor constant arg era f = arg f :=
  if_pos h

/-- A chain of classes in which no field is hidden gives each field the argument for it. -/
theorem exists_construct (h : Lineage c path us) (hn : ((fieldsAround path).map fieldName).Nodup)
    (hh : Unhidden path) (arg : Field → V) :
    ∃ o, construct constant us ((fieldsAround path).map arg) = some o ∧
      ∀ f ∈ fieldsAround path, o (fieldName f) = some (arg f) := by
  induction h generalizing arg with
  | root => exact ⟨fun _ => none, rfl, by simp⟩
  | @step d around u us hu _ _ ih =>
    rw [fieldsAround_cons] at hn ⊢
    obtain ⟨plans, hp, hconstructors, -⟩ := exists_plans_of_classOf hu
    obtain ⟨era, hera, hfind⟩ := exists_find_constructor c hp
    have hsub : ((fieldsAround around).map fieldName).Nodup := by
      rw [List.map_append] at hn
      exact hn.of_append_left
    -- the superclass gets what this constructor passes on for the fields that it inherits
    obtain ⟨made, hm, hi⟩ := ih hsub hh.2 (passedFor constant arg era)
    have hown := hh.1
    rw [fieldsAround_cons] at hown
    obtain ⟨o, ho, hv⟩ := Constructor.exists_run_planFor c hn hown hm hi
    rw [providedAt_eq_self hera] at ho
    refine ⟨o, ?_, fun f hf => ?_⟩
    · rw [construct, hconstructors, List.length_map, hfind]
      exact ho
    · rw [hv f hf, passedFor_of_le (hera f hf)]

/-- Construction gives no value to what is no field of the chain. -/
theorem construct_eq_none (h : Lineage c path us) (ho : construct constant us args = some o)
    {n : String} (hn : ∀ f ∈ fieldsAround path, fieldName f ≠ n) : o n = none := by
  induction h generalizing args o with
  | root =>
    unfold construct at ho
    split_ifs at ho
    obtain rfl := Option.some.inj ho
    rfl
  | step hu _ _ ih =>
    rw [fieldsAround_cons, List.forall_mem_append] at hn
    obtain ⟨plans, hp, hconstructors, -⟩ := exists_plans_of_classOf hu
    obtain ⟨k, hk, hrun⟩ := Option.bind_eq_some_iff.1 ho
    rw [hconstructors] at hk
    obtain ⟨p, hmem, rfl⟩ := List.mem_map.1 (List.mem_of_find?_eq_some hk)
    obtain ⟨era, -, -, -, hera⟩ := exists_era_ofPlan c hp hmem
    rw [hera] at hrun
    -- neither the superclass nor the assignments of this class reach such a name
    obtain ⟨passed, made, -, hm, hsame⟩ := Constructor.run_untouched hrun
    rw [hsame n (.inr ?_)]
    · exact ih hm hn.1
    · rw [Constructor.assignments_planFor]
      exact List.forall_mem_map.2 hn.2

/--
If the constructor of an era that knows all fields gives each of them a value, none of those that it
assigns is hidden, and what the superclass made has a value in each inherited field.
-/
theorem unhidden_of_run {era : Version} (h : Lineage c around us)
    (hera : ∀ f ∈ fieldsAround around ++ d.fields, f.since ≤ era)
    (ho : (Constructor.ofPlan c (planFor (fieldsAround around) d.fields era)).run constant
      (construct constant us) args = some o)
    (hall : ∀ f ∈ fieldsAround around ++ d.fields, o (fieldName f) ≠ none) :
    ((fieldsAround around ++ d.fields).map fieldName).Nodup ∧
      (∀ f ∈ d.fields, ∀ g ∈ fieldsAround (d :: around), fieldName f ≠ argumentName g) ∧
        ∃ passed made, passed.length = (fieldsAround around).length ∧
          construct constant us passed = some made ∧
            ∀ f ∈ fieldsAround around, made (fieldName f) ≠ none := by
  obtain ⟨hn, passed, made, hlen, hm, hsame⟩ :=
    Constructor.run_planFor_some ho (providedAt_eq_self hera)
  have hapart := hn
  rw [List.map_append, List.nodup_append'] at hapart
  refine ⟨hn, fun f hf g hg heq => ?_, passed, made, hlen, hm, fun f hf => ?_⟩
  · -- a hidden field keeps what the superclass made of it, which is nothing
    rw [fieldsAround_cons] at hg
    have hnone : made (fieldName f) = none := by
      refine construct_eq_none h hm fun e he hef => ?_
      exact hapart.2.2 (List.mem_map.2 ⟨e, he, hef⟩) (List.mem_map_of_mem hf)
    apply hall f (List.mem_append_right _ hf)
    rw [hsame _ (.inl ⟨g, hg, heq.symm⟩), hnone]
  · rw [← hsame _ (.inr fun e he hef => ?_)]
    · exact hall f (List.mem_append_left _ hf)
    · exact hapart.2.2 (List.mem_map_of_mem hf) (List.mem_map.2 ⟨e, he, hef⟩)

/-- A chain of classes that gives each field a value has no hidden field. -/
theorem unhidden_of_construct (h : Lineage c path us) (ho : construct constant us args = some o)
    (hlen : args.length = (fieldsAround path).length)
    (hall : ∀ f ∈ fieldsAround path, o (fieldName f) ≠ none) : Unhidden path := by
  induction h generalizing args o with
  | root => trivial
  | step hu _ hus ih =>
    rw [fieldsAround_cons] at hlen hall
    obtain ⟨plans, hp, hconstructors, -⟩ := exists_plans_of_classOf hu
    obtain ⟨era, hera, hfind⟩ := exists_find_constructor c hp
    obtain ⟨k, hk, hrun⟩ := Option.bind_eq_some_iff.1 ho
    rw [hconstructors, hlen, hfind] at hk
    obtain rfl := Option.some.inj hk
    obtain ⟨-, hown, passed, made, hpassed, hm, hmade⟩ := unhidden_of_run hus hera hrun hall
    exact ⟨hown, ih hm hpassed hmade⟩

/-! ## Classes of a schema -/

/-- Definitions with names that all have source text as classes form a lineage. -/
theorem exists_lineage {g : Generator} {path : List Definition}
    (h : ∀ d rest, d :: rest <:+ path → d.isClass ∧ d.name ≠ "" ∧
      ∃ fragments, g.fragmentsOf (parentName rest) (fieldsAround rest) d = .ok fragments) :
    ∃ us, Lineage g.containers path us := by
  induction path with
  | nil => exact ⟨[], .root⟩
  | cons d r ih =>
    obtain ⟨us, hus⟩ := ih fun e rest he => h e rest (he.trans (List.suffix_cons d r))
    obtain ⟨hd, -, fragments, hf⟩ := h d r List.suffix_rfl
    obtain ⟨u, hu⟩ := Generator.exists_classOf_of_fragmentsOf hd hf
    obtain ⟨-, -, -, hsuper⟩ := exists_plans_of_classOf hu
    refine ⟨u :: us, .step hu (fun p hp => ?_) hus⟩
    obtain ⟨rest, rfl⟩ := List.head?_eq_some_iff.1 hp
    exact ancestry_of_superclass hsuper (h p rest (List.suffix_cons d _)).2.1

theorem exists_lineage_of_generate {g : Generator} {s : Schema} {units : Units String} {x : Site}
    (hr : g.review s = .ok []) (hg : g.generate s = .ok units) (hx : x ∈ s.sites)
    (hd : x.definition.isClass) : ∃ us, Lineage g.containers (x.definition :: x.around) us := by
  obtain ⟨raw, hraw, -, -⟩ := Generator.generate_ok hg
  refine exists_lineage fun d rest hsuffix => ?_
  have hsite : ⟨d, rest⟩ ∈ s.sites := by
    rcases List.suffix_cons_iff.1 hsuffix with heq | hsuffix
    · obtain ⟨rfl, rfl⟩ := List.cons.inj heq
      exact hx
    · exact Schema.mem_sites_of_suffix hx hsuffix
  refine ⟨?_, ?_, ?_⟩
  · rcases List.mem_cons.1 (hsuffix.subset List.mem_cons_self) with rfl | hmem
    · exact hd
    · exact Definition.isClass_of_isPath (Schema.isPath_of_mem_sites hx) d hmem
  · have hword := Generator.isIdentifier_of_review hr (Schema.mem_walk_of_mem_sites hsite)
    exact ne_empty_of_isIdentifier hword
  · obtain ⟨u, hu⟩ := hraw.exists_of_mem hsite
    obtain ⟨fragments, -, hfrag, -, -⟩ := Generator.unitOf_ok hu
    exact ⟨fragments, hfrag⟩

/-! ## Which constructors initialise -/

theorem some_passedFor {era : Version} {arg : Field → V} {f : Field} (h : ¬ f.MissingAt era) :
    some (passedFor constant arg era f) =
      if f.since ≤ era then some (arg f) else f.default.map constant := by
  unfold passedFor
  split_ifs with hle
  · rfl
  · cases hd : f.default with
    | none => exact absurd ⟨not_le.1 hle, hd⟩ h
    | some e => rfl

/-- Without hidden fields all the constructors of a class initialise. -/
theorem initialises_of_unhidden {owner : String} {plans : List ConstructorPlan}
    (hp : planConstructors owner (fieldsAround around) d.fields = .ok plans)
    (hus : Lineage c around us)
    (hn : ((fieldsAround around ++ d.fields).map fieldName).Nodup) (hh : Unhidden (d :: around)) :
    ∀ p ∈ plans, Initialises c us (fieldsAround around ++ d.fields) p := by
  intro p hmem V constant arg
  obtain ⟨era, hmiss, hera, hparameters, hplan⟩ := exists_era_ofPlan c hp hmem
  have hapart := hn
  rw [List.map_append] at hapart
  obtain ⟨made, hm, hi⟩ := exists_construct hus hapart.of_append_left hh.2
    (passedFor constant arg era)
  have hown := hh.1
  rw [fieldsAround_cons] at hown
  obtain ⟨o, ho, hv⟩ := Constructor.exists_run_planFor c hn hown hm hi
  rw [← hplan, ← hparameters] at ho
  refine ⟨o, ho, fun v hpv f hf => ?_⟩
  obtain rfl := Option.some.inj (hpv.symm.trans (hera (List.ne_nil_of_mem hf)))
  rw [hv f hf, some_passedFor (hmiss f hf)]

/--
If the constructors of a class initialise, no field is hidden and no two fields bear one name.
-/
theorem unhidden_of_initialises {owner : String} {plans : List ConstructorPlan}
    (hp : planConstructors owner (fieldsAround around) d.fields = .ok plans)
    (hus : Lineage c around us)
    (h : ∀ p ∈ plans, Initialises c us (fieldsAround around ++ d.fields) p) :
    ((fieldsAround around ++ d.fields).map fieldName).Nodup ∧ Unhidden (d :: around) := by
  -- the newest constructor knows all fields, and that is enough
  obtain ⟨newest, hlast, hall⟩ := exists_newest hp
  have hmem := List.mem_of_getLast? hlast
  obtain ⟨era, -, hera, hparameters, hplan⟩ := exists_era_ofPlan c hp hmem
  obtain ⟨o, ho, hv⟩ := h newest hmem Unit (fun _ => ()) fun _ => ()
  have hle : ∀ f ∈ fieldsAround around ++ d.fields, f.since ≤ era := by
    rw [hall] at hparameters
    intro f hf
    exact of_decide_eq_true (List.filter_eq_self.1 hparameters.symm f hf)
  rw [hplan] at ho
  obtain ⟨hn, hown, passed, made, hpassed, hm, hmade⟩ :=
    unhidden_of_run hus hle ho fun f hf => by
      rw [hv era (hera (List.ne_nil_of_mem hf)) f hf, if_pos (hle f hf)]
      simp
  exact ⟨hn, hown, unhidden_of_construct hus hm hpassed hmade⟩

end Java

namespace Generator

open Java

/--
In a schema that has units and no warnings, the constructors of a class all initialise its objects
exactly if its fields, with the inherited ones, have different names in Java, and no class of its
lineage assigns a field that a parameter hides.
-/
theorem initialises_iff {g : Generator} {s : Schema} {units : Units String} {x : Site}
    (hr : g.review s = .ok []) (hg : g.generate s = .ok units) (hx : x ∈ s.sites)
    (hd : x.definition.isClass) :
    ∃ plans u us,
      planConstructors x.definition.name x.inherited x.definition.fields = .ok plans ∧
      Lineage g.containers (x.definition :: x.around) (u :: us) ∧
      u.constructors = plans.map (.ofPlan g.containers) ∧
      g.fragmentsOf x.parent? x.inherited x.definition = .ok u.fragments ∧
      ((∀ p ∈ plans, Initialises g.containers us (x.inherited ++ x.definition.fields) p) ↔
        ((x.inherited ++ x.definition.fields).map fieldName).Nodup ∧
          Unhidden (x.definition :: x.around)) := by
  obtain ⟨all, hall⟩ := exists_lineage_of_generate hr hg hx hd
  cases hall with
  | @step _ _ u us hu hextends hus =>
    obtain ⟨plans, hp, hconstructors, -⟩ := exists_plans_of_classOf hu
    have hfragments := fragmentsOf_of_classOf hu
    refine ⟨plans, u, us, hp, .step hu hextends hus, hconstructors, hfragments, ?_, ?_⟩
    · exact unhidden_of_initialises hp hus
    · rintro ⟨hn, hh⟩
      exact initialises_of_unhidden hp hus hn hh

theorem initialises_iff_nested :
    ∃ x ∈ Schema.nested.sites, x.definition.name = "R" ∧ ∃ plans us,
      planConstructors "R" x.inherited x.definition.fields = .ok plans ∧
      Lineage (counted 4).containers x.around us ∧
      ∀ p ∈ plans, Initialises (counted 4).containers us
        (x.inherited ++ x.definition.fields) p := by
  obtain ⟨units, hg⟩ := exists_generate_nested
  have hx : Schema.nested.sites[1] ∈ Schema.nested.sites := List.getElem_mem _
  obtain ⟨plans, u, us, hp, hall, -, -, hiff⟩ := initialises_iff rfl hg hx rfl
  cases hall with
  | step _ _ hus =>
    exact ⟨_, hx, rfl, plans, us, hp, hus, hiff.2 (by decide)⟩

end Generator

/-- A record with two fields, of which the second bears the name of the parameter for the first. -/
def Schema.hiding : Schema :=
  ⟨"n", [.record ⟨"R", none, []⟩ [.ofInt "x" [0] none, .ofInt "_x" [0] none]]⟩

namespace Generator

open Java

/-- Nothing is found wrong with that record, but its constructor leaves the second field unset. -/
theorem hidden_field_unset :
    (counted 4).review Schema.hiding = .ok [] ∧
      (∃ units, (counted 4).generate Schema.hiding = .ok units) ∧
      ∃ p, planConstructors "R" [] [.ofInt "x" [0] none, .ofInt "_x" [0] none] = .ok [p] ∧
        p.era = some .zero ∧
        ∃ o : Object Nat, (Constructor.ofPlan .standard p).run (fun _ => 0)
            (construct (fun _ => 0) []) [1, 2] = some o ∧ o "x" = some 1 ∧ o "_x" = none := by
  refine ⟨rfl, ?_, ?_⟩
  · exact exists_generate_counted (by decide) (by decide) (by decide) (by decide)
  · exact ⟨_, rfl, rfl, _, rfl, rfl, rfl⟩

end Generator

end Typewright
