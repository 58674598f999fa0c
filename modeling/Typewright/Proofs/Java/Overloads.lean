import Typewright.Proofs.Constructor.Arity
import Typewright.Proofs.Generation.Classes

/-!
# Overloads

The constructors of a class have one name, so a call can tell them apart by their parameters only.
Each takes all that the one before it takes, in the same order, and besides a field that came with
its own era; so no two of them take the same number of parameters.

- `ConstructorPlan.Extends`: what a constructor takes over an older one.
- `overloads_apart`: this holds along the constructors of a class, the last of which takes all
  fields.
-/

namespace Typewright

/--
The constructor `q` takes the parameters of an older one, in the same order, and more: among them a
field of its own era.
-/
structure ConstructorPlan.Extends (q p : ConstructorPlan) : Prop where
  sublist : p.parameters.Sublist q.parameters
  arity : p.parameters.length < q.parameters.length
  brought : ∃ f ∈ q.parameters, q.era = some f.since ∧ f ∉ p.parameters

variable {owner : String} {inherited own : List Field} {plans : List ConstructorPlan}
  {v w : Version}

theorem extends_planFor (hn : ∀ f ∈ inherited ++ own, f.since.IsNonneg)
    (hv : v ∈ eras (inherited ++ own)) (hw : w ∈ eras (inherited ++ own)) (h : v < w) :
    (planFor inherited own w).Extends (planFor inherited own v) := by
  obtain ⟨f, hf, rfl, hold⟩ := exists_brought hn hv hw h
  exact ⟨providedAt_sublist _ h.le, length_providedAt_lt hn hv hw h, f, hf, rfl, hold⟩

namespace Java

/-- The constructors of a class take as many parameters as their plans. -/
theorem map_arity_ofPlan (c : Containers) (plans : List ConstructorPlan) :
    (plans.map (Constructor.ofPlan c)).map (·.parameters.length) =
      plans.map (·.parameters.length) := by
  simp [Constructor.ofPlan, Function.comp_def]

/--
If the constructors of a class can be planned, each extends all those before it, and the last takes
all the fields of the class. The class made from the plans, be it of a record or of a protocol, has
no two constructors with as many parameters.
-/
theorem overloads_apart (hn : ∀ f ∈ inherited ++ own, f.since.IsNonneg)
    (h : planConstructors owner inherited own = .ok plans) :
    plans.Pairwise (fun p q => q.Extends p) ∧
      plans.getLast?.map (·.parameters) = some (inherited ++ own) ∧
      ∀ (c : Containers) (superclass : Option String) (d : Definition),
        d.isClass → d.name = owner → d.fields = own →
        ∃ u, classOf c superclass inherited d = some (.ok u) ∧
          u.constructors = plans.map (.ofPlan c) ∧
          (u.constructors.map (·.parameters.length)).Nodup := by
  have hext : plans.Pairwise fun p q => q.Extends p :=
    pairwise_plans h fun hv hw => extends_planFor hn hv hw
  obtain ⟨newest, hlast, hall⟩ := exists_newest h
  refine ⟨hext, by rw [hlast, Option.map_some, hall], fun c superclass d hd hname hfields => ?_⟩
  obtain ⟨make, hmake, hu⟩ := exists_classOf c superclass inherited hd
  obtain ⟨hconstructors, -⟩ := hmake plans
  refine ⟨make plans, by rw [hu, hname, hfields, h]; rfl, hconstructors, ?_⟩
  rw [hconstructors, map_arity_ofPlan, List.Nodup, List.pairwise_map]
  exact hext.imp fun hpq => hpq.arity.ne

/-- No field is as old as the base version, and one version is spelled in two ways. -/
theorem overloads_apart_unbased :
    (∀ f ∈ [Field.ofInt "a" [2] (some "0")] ++
        [.ofInt "b" [1, 0] (some "1"), .ofInt "c" [1] (some "2")], f.since.IsNonneg) ∧
      ∃ plans, planConstructors "R" [.ofInt "a" [2] (some "0")]
          [.ofInt "b" [1, 0] (some "1"), .ofInt "c" [1] (some "2")] = .ok plans ∧
        plans.map (·.parameters.map (·.name)) = [[], ["b", "c"], ["a", "b", "c"]] ∧
        plans.Pairwise fun p q => q.Extends p := by
  have hn : ∀ f ∈ [Field.ofInt "a" [2] (some "0")] ++
      [.ofInt "b" [1, 0] (some "1"), .ofInt "c" [1] (some "2")], f.since.IsNonneg := by decide
  have hplans : planConstructors "R" [.ofInt "a" [2] (some "0")]
      [.ofInt "b" [1, 0] (some "1"), .ofInt "c" [1] (some "2")] = .ok _ := rfl
  exact ⟨hn, _, hplans, by decide, (overloads_apart hn hplans).1⟩

end Java

end Typewright
