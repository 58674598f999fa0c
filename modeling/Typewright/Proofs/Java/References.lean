import Typewright.Proofs.Java.Body
import Typewright.Proofs.Java.SuperCall

/-!
# References to fields

How the members of a class other than its structural methods refer to fields. Constructors pass and
assign parameters or defaults, copy methods pass what the object holds or their parameter, and only
the accessor of a lazy field asks for the value that the field defers.

- `ClassUnit.expressions`: the expressions of these members.
- `References`: what they refer to.
- `references_of_classOf`: that this is so in every class.
- `bodyLines_of_classOf`: the lines that a class is given for its structural methods.
-/

namespace Typewright.Java

/-- The expressions of a class outside of its structural methods. -/
def ClassUnit.expressions (u : ClassUnit) : List Expression :=
  u.constructors.flatMap (fun k => k.superArguments ++ k.assignments.map (·.value)) ++
    u.accessors.map (·.expression) ++ u.copyMethods.flatMap (·.arguments)

/-- How a class with the given fields refers to them. -/
structure References (c : Containers) (inherited own : List Field) (u : ClassUnit) : Prop where
  parameters : ∀ k ∈ u.constructors, ∀ b ∈ k.parameters, ∃ f ∈ inherited ++ own, b = parameterOf c f
  superArguments : ∀ k ∈ u.constructors, List.Forall₂ Passes inherited k.superArguments
  assignments : ∀ k ∈ u.constructors,
    List.Forall₂ (fun f a => a.target = f.name ∧ Passes f a.value) own k.assignments
  copyArguments : ∀ m ∈ u.copyMethods,
    List.Forall₂ (fun f e => e = .own f.name ∨ e = .name f.name) (inherited ++ own) m.arguments
  /-- The value that a lazy field of the class defers is asked for once, by its accessor. -/
  forced_once : ∀ f ∈ own, f.type.isLazy → Accessor.ofField c f ∈ u.accessors ∧
    (Accessor.ofField c f).expression = .forced f.name ∧ u.expressions.count (.forced f.name) = 1
  /-- Nothing else is asked for. -/
  forced_own : ∀ n, .forced n ∈ u.expressions → ∃ f ∈ own, f.type.isLazy ∧ f.name = n

variable {c : Containers} {inherited own : List Field} {owner n : String} {f : Field}
  {plans : List ConstructorPlan} {p : ConstructorPlan} {d : Definition} {superclass : Option String}
  {u : ClassUnit}

/-! ## Constructors -/

theorem exists_parameterOf (h : planConstructors owner inherited own = .ok plans) (hp : p ∈ plans) :
    ∀ b ∈ (Constructor.ofPlan c p).parameters, ∃ f ∈ inherited ++ own, b = parameterOf c f := by
  obtain ⟨era, -, -, hparameters, -⟩ := exists_era_ofPlan c h hp
  intro b hb
  obtain ⟨f, hf, rfl⟩ := List.mem_map.1 hb
  rw [hparameters] at hf
  exact ⟨f, (mem_providedAt.1 hf).1, rfl⟩

theorem forall₂_assignments (c : Containers) (h : planConstructors owner inherited own = .ok plans)
    (hp : p ∈ plans) :
    List.Forall₂ (fun f a => a.target = f.name ∧ Passes f a.value) own
      (Constructor.ofPlan c p).assignments := by
  obtain ⟨era, hmiss, -, -, hplan⟩ := exists_era_ofPlan c h hp
  rw [hplan, Constructor.assignments_planFor, List.forall₂_map_right_iff, List.forall₂_same]
  exact fun f hf => ⟨rfl, passes_valueFor (hmiss f (List.mem_append_right inherited hf))⟩

theorem valueExpression_ne_forced (v : FieldValue) : valueExpression v ≠ .forced n := by
  cases v <;> simp [valueExpression]

theorem forced_notMem_constructor (c : Containers) (p : ConstructorPlan) :
    .forced n ∉ (Constructor.ofPlan c p).superArguments ++
      (Constructor.ofPlan c p).assignments.map (·.value) := by
  intro hmem
  simp only [Constructor.ofPlan, List.map_map, List.mem_append, List.mem_map] at hmem
  rcases hmem with ⟨v, -, hv⟩ | ⟨v, -, hv⟩
  · exact valueExpression_ne_forced v hv
  · exact valueExpression_ne_forced v hv

/-! ## Copy methods -/

theorem forall₂_copyArguments (c : Containers) (all : List Field) (target : Field) :
    List.Forall₂ (fun f e => e = .own f.name ∨ e = .name f.name) all
      (CopyMethod.ofField c all target).arguments := by
  rw [CopyMethod.ofField, List.forall₂_map_right_iff, List.forall₂_same]
  intro f _
  split
  · exact .inr rfl
  · exact .inl rfl

theorem forced_notMem_copyArguments {all : List Field} {target : Field} :
    .forced n ∉ (CopyMethod.ofField c all target).arguments := by
  intro hmem
  obtain ⟨f, -, he⟩ := List.mem_map.1 hmem
  split at he <;> cases he

/-! ## Accessors -/

theorem expression_ofField (c : Containers) (f : Field) :
    (Accessor.ofField c f).expression = if f.type.isLazy then .forced f.name else .own f.name := rfl

theorem mem_expressions_accessors :
    .forced n ∈ (own.map (Accessor.ofField c)).map (·.expression) ↔
      ∃ f ∈ own, f.type.isLazy ∧ f.name = n := by
  simp only [List.mem_map, exists_exists_and_eq_and, expression_ofField]
  refine exists_congr fun f => and_congr_right fun _ => ?_
  cases f.type.isLazy <;> simp

theorem nodup_expressions (c : Containers) (hn : (own.map (·.name)).Nodup) :
    ((own.map (Accessor.ofField c)).map (·.expression)).Nodup := by
  rw [List.Nodup, List.pairwise_map] at hn
  rw [List.map_map, List.Nodup, List.pairwise_map]
  refine hn.imp fun {f g} hne heq => hne ?_
  simp only [Function.comp_apply, expression_ofField] at heq
  cases hf : f.type.isLazy <;> cases hg : g.type.isLazy <;> simp [hf, hg] at heq
  · exact heq
  · exact heq

/-! ## Classes -/

theorem forced_notMem_constructors (hu : u.MadeFor c inherited d) :
    .forced n ∉
      u.constructors.flatMap fun k => k.superArguments ++ k.assignments.map (·.value) := by
  obtain ⟨plans, -, hconstructors⟩ := hu.exists_plans
  rw [hconstructors]
  intro hmem
  obtain ⟨k, hk, hmem⟩ := List.mem_flatMap.1 hmem
  obtain ⟨p, -, rfl⟩ := List.mem_map.1 hk
  exact forced_notMem_constructor c p hmem

theorem forced_notMem_copyMethods (hu : u.MadeFor c inherited d) :
    .forced n ∉ u.copyMethods.flatMap (·.arguments) := by
  intro hmem
  obtain ⟨m, hm, hmem⟩ := List.mem_flatMap.1 hmem
  obtain ⟨target, rfl⟩ := hu.copyMethods_of m hm
  exact forced_notMem_copyArguments hmem

/-- Outside of the structural methods, a class asks for deferred values in its accessors only. -/
theorem mem_expressions_iff (hu : u.MadeFor c inherited d) :
    .forced n ∈ u.expressions ↔ ∃ f ∈ d.fields, f.type.isLazy ∧ f.name = n := by
  rw [ClassUnit.expressions, List.mem_append, List.mem_append, hu.accessors_eq,
    mem_expressions_accessors]
  simp only [forced_notMem_constructors hu, forced_notMem_copyMethods hu, false_or, or_false]

/-- Fields of different names are asked for once each. -/
theorem count_expressions (hn : (d.fields.map (·.name)).Nodup) (hu : u.MadeFor c inherited d)
    (hf : f ∈ d.fields) (hl : f.type.isLazy) : u.expressions.count (.forced f.name) = 1 := by
  rw [ClassUnit.expressions, List.count_append, List.count_append, hu.accessors_eq,
    List.count_eq_zero.2 (forced_notMem_constructors hu),
    List.count_eq_zero.2 (forced_notMem_copyMethods hu),
    List.count_eq_one_of_mem (nodup_expressions c hn)
      (mem_expressions_accessors.2 ⟨f, hf, hl, rfl⟩)]

/-- The class of a definition with fields of different names refers to them as it should. -/
theorem references_of_classOf (hn : (d.fields.map (·.name)).Nodup)
    (h : classOf c superclass inherited d = some (.ok u)) : References c inherited d.fields u := by
  have hu := madeFor_of_classOf h
  obtain ⟨plans, hplans, hconstructors⟩ := hu.exists_plans
  have hk : ∀ k ∈ u.constructors, ∃ p ∈ plans, .ofPlan c p = k := by
    rw [hconstructors]
    exact fun k hk => List.mem_map.1 hk
  refine ⟨fun k hmem => ?_, fun k hmem => ?_, fun k hmem => ?_, fun m hm => ?_, fun f hf hl => ?_,
    fun n hmem => (mem_expressions_iff hu).1 hmem⟩
  · obtain ⟨p, hp, rfl⟩ := hk k hmem
    exact exists_parameterOf hplans hp
  · obtain ⟨p, hp, rfl⟩ := hk k hmem
    exact forall₂_passes c hplans hp
  · obtain ⟨p, hp, rfl⟩ := hk k hmem
    exact forall₂_assignments c hplans hp
  · obtain ⟨target, rfl⟩ := hu.copyMethods_of m hm
    exact forall₂_copyArguments c _ target
  · refine ⟨hu.accessors_eq ▸ List.mem_map_of_mem hf, ?_, count_expressions hn hu hf hl⟩
    rw [expression_ofField, if_pos hl]

theorem bodyLines_of_classOf (h : classOf c superclass inherited d = some (.ok u)) (m : Method) :
    u.bodyLines m = methodLines d.name (inherited ++ d.fields) m := by
  have hu := madeFor_of_classOf h
  cases m with
  | equals => exact hu.equalsBody_eq
  | hashCode => exact hu.hashCodeBody_eq
  | toString => exact hu.toStringBody_eq

end Typewright.Java
