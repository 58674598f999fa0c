import Typewright.Proofs.Constructor.Arity
import Typewright.Proofs.Java.Initialisation

/-!
# Calls of the superclass

The constructors of a class each call one of its superclass, which is told from the others by how
many parameters it takes. It is the newest one, in the plan of which the parameters are the fields
that the class inherits.

- `Passes`: an argument is for a field.
- `forall₂_passes`: the arguments for inherited fields stand in the order of the fields.
- `CallsNewest`: all constructors of a class call the newest one of its superclass.
- `Generator.superCalls_resolve`: that is so for every class of a schema that has units.
-/

namespace Typewright

namespace Java

variable {c : Containers} {inherited own : List Field} {owner : String}
  {plans : List ConstructorPlan} {p : ConstructorPlan}

/-- The expression is the parameter for the field, or the default of the field. -/
def Passes (f : Field) (e : Expression) : Prop :=
  e = .name (parameterName f.name) ∨ ∃ text, f.default = some text ∧ e = .copied text

theorem passes_valueFor {era : Version} {f : Field} (h : ¬ f.MissingAt era) :
    Passes f (valueExpression (valueFor era f)) := by
  by_cases hle : f.since ≤ era
  · rw [valueFor_of_le hle]
    exact .inl rfl
  · cases hd : f.default with
    | none => exact absurd ⟨not_le.1 hle, hd⟩ h
    | some e =>
      rw [valueFor_of_lt (not_le.1 hle) hd]
      exact .inr ⟨e, hd, rfl⟩

/-- The values that a plan passes to the superclass are for the inherited fields, in their order. -/
theorem map_field_superValues (h : planConstructors owner inherited own = .ok plans)
    (hp : p ∈ plans) : p.superValues.map (·.field) = inherited := by
  obtain ⟨era, -, hera, -⟩ := exists_era_of_mem h hp
  rw [hera]
  simp [planFor, Function.comp_def]

/-- So are the arguments of the call of the superclass. -/
theorem forall₂_passes (c : Containers) (h : planConstructors owner inherited own = .ok plans)
    (hp : p ∈ plans) : List.Forall₂ Passes inherited (Constructor.ofPlan c p).superArguments := by
  obtain ⟨era, hmiss, -, -, hplan⟩ := exists_era_ofPlan c h hp
  rw [hplan, Constructor.superArguments_planFor, List.forall₂_map_right_iff, List.forall₂_same]
  exact fun f hf => passes_valueFor (hmiss f (List.mem_append_left own hf))

/--
The constructors of a class, made from its plans, call the newest constructor of its superclass. The
plans of the superclass are the older ones and the newest.
-/
structure CallsNewest (c : Containers) (inherited : List Field) (plans : List ConstructorPlan)
    (u parent : ClassUnit) (older : List ConstructorPlan) (newest : ConstructorPlan) : Prop where
  parameters_eq : newest.parameters = inherited
  superValues_eq : ∀ p ∈ plans, p.superValues.map (·.field) = newest.parameters
  arity_ne : ∀ q ∈ older, q.parameters.length ≠ newest.parameters.length
  /-- Only the newest constructor takes as many parameters as there are arguments. -/
  resolves : ∀ k ∈ u.constructors,
    parent.constructors.filter (fun m => m.parameters.length = k.superArguments.length) =
      [.ofPlan c newest]
  /-- Each argument stands where the parameter for its field stands. -/
  inPlace : ∀ k ∈ u.constructors, List.Forall₂ Passes newest.parameters k.superArguments

theorem callsNewest {u parent : ClassUnit} {older : List ConstructorPlan} {newest : ConstructorPlan}
    (hplans : planConstructors owner inherited own = .ok plans)
    (hu : u.constructors = plans.map (.ofPlan c))
    (hparent : parent.constructors = (older ++ [newest]).map (.ofPlan c))
    (hall : newest.parameters = inherited)
    (hfewer : ∀ q ∈ older, q.parameters.length < newest.parameters.length) :
    CallsNewest c inherited plans u parent older newest := by
  subst hall
  have hplace : ∀ k ∈ u.constructors, List.Forall₂ Passes newest.parameters k.superArguments := by
    rw [hu, List.forall_mem_map]
    exact fun p hp => forall₂_passes c hplans hp
  refine ⟨rfl, fun p hp => map_field_superValues hplans hp, fun q hq => (hfewer q hq).ne,
    fun k hk => ?_, hplace⟩
  have harity : ∀ p : ConstructorPlan,
      (Constructor.ofPlan c p).parameters.length = p.parameters.length := fun p => List.length_map _
  rw [hparent, List.map_append, List.filter_append, ← (hplace k hk).length_eq,
    List.filter_eq_nil_iff.2, List.nil_append]
  · simp [harity]
  · rw [List.forall_mem_map]
    intro q hq
    simpa [harity] using (hfewer q hq).ne

end Java

namespace Generator

open Java

/--
In a schema that has units, the constructors of a class call the newest constructor of the class of
the protocol around it, and call nothing with an argument where there is no protocol around.
-/
theorem superCalls_resolve {g : Generator} {s : Schema} {units : Units String} {x : Site}
    (hn : s.IsNonneg) (hg : g.generate s = .ok units) (hx : x ∈ s.sites)
    (hd : x.definition.isClass) :
    ∃ u plans,
      classOf g.containers x.parent? x.inherited x.definition = some (.ok u) ∧
      g.fragmentsOf x.parent? x.inherited x.definition = .ok u.fragments ∧
      planConstructors x.definition.name x.inherited x.definition.fields = .ok plans ∧
      u.constructors = plans.map (.ofPlan g.containers) ∧
      match x.around with
      | [] => u.superclass = none ∧ ∀ k ∈ u.constructors, k.superArguments = []
      | p :: rest =>
        u.superclass = some p.name ∧ ⟨p, rest⟩ ∈ s.sites ∧ ∃ parent older newest,
          classOf g.containers (parentName rest) (fieldsAround rest) p = some (.ok parent) ∧
          planConstructors p.name (fieldsAround rest) p.fields = .ok (older ++ [newest]) ∧
          parent.constructors = (older ++ [newest]).map (.ofPlan g.containers) ∧
          CallsNewest g.containers x.inherited plans u parent older newest := by
  obtain ⟨u, hu⟩ := exists_classOf_of_generate hg hx hd
  obtain ⟨plans, hplans, hconstructors, hsuper⟩ := exists_plans_of_classOf hu
  refine ⟨u, plans, hu, fragmentsOf_of_classOf hu, hplans, hconstructors, ?_⟩
  obtain ⟨d, around⟩ := x
  -- the class above is that of the innermost protocol around, or there is none
  cases around with
  | nil =>
    refine ⟨hsuper, ?_⟩
    rw [hconstructors, List.forall_mem_map]
    exact fun p hp => List.forall₂_nil_left_iff.1 (forall₂_passes g.containers hplans hp)
  | cons p rest =>
    have hp : ⟨p, rest⟩ ∈ s.sites := Schema.mem_sites_of_suffix hx List.suffix_rfl
    have hclass := Definition.isClass_of_isPath (Schema.isPath_of_mem_sites hx) p List.mem_cons_self
    obtain ⟨parent, hparent⟩ := exists_classOf_of_generate hg hp hclass
    obtain ⟨parentPlans, hpp, hpc, -⟩ := exists_plans_of_classOf hparent
    obtain ⟨older, newest, rfl, hall, hfewer⟩ :=
      exists_newest_append (Schema.forall_inherited hn hp) hpp
    refine ⟨hsuper, hp, parent, older, newest, hparent, hpp, hpc, ?_⟩
    exact callsNewest hplans hconstructors hpc (hall.trans (fieldsAround_cons p rest).symm) hfewer

theorem superCalls_resolve_nested :
    ∃ (u parent : ClassUnit) (newest : ConstructorPlan),
      classOf (counted 4).containers (some "P") [.ofInt "a" [0] none]
        (.record ⟨"R", none, []⟩ [.ofInt "b" [1] (some "1")]) = some (.ok u) ∧
      u.constructors.length = 2 ∧
      ∀ k ∈ u.constructors,
        parent.constructors.filter (fun m => m.parameters.length = k.superArguments.length) =
          [.ofPlan (counted 4).containers newest] := by
  obtain ⟨units, hg⟩ := exists_generate_nested
  have hx : Schema.nested.sites[1] ∈ Schema.nested.sites := List.getElem_mem _
  obtain ⟨u, plans, hu, -, hplans, hconstructors, -, -, parent, older, newest, -, -, -, hcalls⟩ :=
    superCalls_resolve (by decide) hg hx rfl
  refine ⟨u, parent, newest, hu, ?_, hcalls.resolves⟩
  obtain ⟨two, htwo, hlen⟩ : ∃ two,
      planConstructors "R" [.ofInt "a" [0] none] [.ofInt "b" [1] (some "1")] = .ok two ∧
        two.length = 2 := ⟨_, rfl, rfl⟩
  obtain rfl : two = plans := Except.ok.inj (htwo.symm.trans hplans)
  rw [hconstructors, List.length_map, hlen]

end Generator

end Typewright
