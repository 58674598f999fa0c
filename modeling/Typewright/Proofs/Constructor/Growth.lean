import Typewright.Proofs.Constructor.Plans

/-!
# Growth of a class

A class grows when a later revision of it puts new fields among the old ones, each with a default
and newer than all that was there. Whoever calls a constructor of the class as it was can go on
calling it.

- `Revised`: the fields of a revision, with the new ones told apart.
- `Keeps`: a constructor of the revision does what one of the old class did.
- `planConstructors_grown`: the oldest constructors of the revision are those of the old class.
-/

namespace Typewright

/-- A field of a revision: one that was there before, or one put in. -/
inductive Revised where
  | kept (field : Field)
  | added (field : Field)

namespace Revised

/-- The fields before the revision. -/
def before : List Revised → List Field
  | [] => []
  | .kept f :: r => f :: before r
  | .added _ :: r => before r

def after : List Revised → List Field
  | [] => []
  | .kept f :: r => f :: after r
  | .added f :: r => f :: after r

def additions : List Revised → List Field
  | [] => []
  | .kept _ :: r => additions r
  | .added f :: r => f :: additions r

@[simp] theorem before_append (r s : List Revised) : before (r ++ s) = before r ++ before s := by
  induction r with
  | nil => rfl
  | cons x r ih => cases x <;> simp [before, ih]

@[simp] theorem after_append (r s : List Revised) : after (r ++ s) = after r ++ after s := by
  induction r with
  | nil => rfl
  | cons x r ih => cases x <;> simp [after, ih]

@[simp] theorem additions_append (r s : List Revised) :
    additions (r ++ s) = additions r ++ additions s := by
  induction r with
  | nil => rfl
  | cons x r ih => cases x <;> simp [additions, ih]

theorem mem_after {f : Field} {r : List Revised} :
    f ∈ after r ↔ f ∈ before r ∨ f ∈ additions r := by
  induction r with
  | nil => simp [after, before, additions]
  | cons x r ih => cases x <;> simp [after, before, additions, ih, or_assoc, or_left_comm]

/-- The additions have defaults and are newer than the base version and all that was there. -/
def IsGrowth (r : List Revised) : Prop :=
  ∀ f ∈ additions r, f.default.isSome ∧ .zero < f.since ∧ ∀ g ∈ before r, g.since < f.since

instance (r : List Revised) : Decidable (IsGrowth r) :=
  inferInstanceAs (Decidable (∀ _ ∈ _, _))

end Revised

/--
The values that two constructors pass for the fields of a revision, the one before it and the one
after it: the same for each field that was there, and the default for each that was put in.
-/
inductive SameValues : List Revised → List FieldValue → List FieldValue → Prop where
  | nil : SameValues [] [] []
  | kept {r : List Revised} {vs ws : List FieldValue} (v : FieldValue) (h : SameValues r vs ws) :
    SameValues (.kept v.field :: r) (v :: vs) (v :: ws)
  | added {r : List Revised} {vs ws : List FieldValue} {f : Field} {e : String}
    (he : f.default = some e) (h : SameValues r vs ws) :
    SameValues (.added f :: r) vs (.defaulted f e :: ws)

/--
The constructor `q` of a revision does what `p` of the old class did. The constructor of a class
without fields has no era; it lives on as that of the base version.
-/
structure Keeps (inherited own : List Revised) (p q : ConstructorPlan) : Prop where
  era : q.era = p.era ∨ p.era = none ∧ q.era = some .zero
  parameters : q.parameters = p.parameters
  superValues : SameValues inherited p.superValues q.superValues
  ownValues : SameValues own p.ownValues q.ownValues

open Revised

/-- At an era older than the additions the values are the same. -/
theorem sameValues_valueFor {era : Version} {r : List Revised}
    (h : ∀ f ∈ additions r, f.default.isSome ∧ era < f.since) :
    SameValues r ((before r).map (valueFor era)) ((after r).map (valueFor era)) := by
  induction r with
  | nil => exact .nil
  | cons x r ih =>
    cases x with
    | kept f =>
      have hv := SameValues.kept (valueFor era f) (ih h)
      rwa [field_valueFor] at hv
    | added f =>
      obtain ⟨hd, hlt⟩ := h f List.mem_cons_self
      obtain ⟨e, he⟩ := Option.isSome_iff_exists.1 hd
      have hv := SameValues.added he (ih fun g hg => h g (List.mem_cons_of_mem f hg))
      rwa [← valueFor_of_lt hlt he] at hv

theorem providedAt_after {era : Version} {r : List Revised}
    (h : ∀ f ∈ additions r, era < f.since) :
    providedAt era (after r) = providedAt era (before r) := by
  induction r with
  | nil => rfl
  | cons x r ih =>
    cases x with
    | kept f =>
      have hr := ih h
      simp only [providedAt, after, before, List.filter_cons] at hr ⊢
      rw [hr]
    | added f =>
      have hf : ¬ f.since ≤ era := not_le.2 (h f List.mem_cons_self)
      have hr := ih fun g hg => h g (List.mem_cons_of_mem f hg)
      simpa [providedAt, after, before, hf] using hr

/-- The eras of a revision are those of the old class, with those of the additions after them. -/
theorem eras_after {r : List Revised} (h : IsGrowth r) :
    eras (after r) =
      eras (before r) ++ Version.distinct ((additions r).map (·.since)) := by
  rw [eras, eras, ← Version.distinct_append]
  · refine Version.distinct_congr fun v => ?_
    simp only [List.mem_cons, List.mem_map, List.mem_append, mem_after, or_and_right, exists_or,
      or_assoc]
  · intro u hu v hv
    obtain ⟨f, hf, rfl⟩ := List.mem_map.1 hv
    obtain ⟨-, hz, hg⟩ := h f hf
    rcases List.mem_cons.1 hu with rfl | hu
    · exact hz
    · obtain ⟨g, hgb, rfl⟩ := List.mem_map.1 hu
      exact hg g hgb

/-- No era of a grown class lacks a default if no era of the old one did. -/
theorem not_missingAt_after {r : List Revised} (hg : IsGrowth r)
    (h : ∀ era ∈ eras (before r), ∀ f ∈ before r, ¬ f.MissingAt era) :
    ∀ era ∈ eras (after r), ∀ f ∈ after r, ¬ f.MissingAt era := by
  rintro era he f hf ⟨hlt, hd⟩
  rcases mem_after.1 hf with hf | hf
  · rw [eras_after hg, List.mem_append] at he
    rcases he with he | he
    · exact h era he f hf ⟨hlt, hd⟩
    · -- the era is that of an addition, which is newer than the old field
      obtain ⟨g, hga, rfl⟩ := List.mem_map.1 (Version.mem_distinct.1 he)
      exact absurd ((hg g hga).2.2 f hf) (not_lt.2 hlt.le)
  · exact absurd (hg f hf).1 (by simp [hd])

theorem lt_since_of_mem_eras {r : List Revised} (hg : IsGrowth r) {era : Version}
    (he : era ∈ eras (before r)) {f : Field} (hf : f ∈ additions r) : era < f.since := by
  obtain ⟨-, hz, hlt⟩ := hg f hf
  rcases mem_eras.1 he with rfl | ⟨g, hgb, rfl⟩
  · exact hz
  · exact hlt g hgb

/-- At an old era the plan of a grown class does what that of the old class did. -/
theorem keeps_planFor {inherited own : List Revised} (hg : IsGrowth (inherited ++ own))
    {era : Version} (he : era ∈ eras (before (inherited ++ own))) :
    Keeps inherited own (planFor (before inherited) (before own) era)
      (planFor (after inherited) (after own) era) := by
  have hadd : ∀ f ∈ additions (inherited ++ own), f.default.isSome ∧ era < f.since := fun f hf =>
    ⟨(hg f hf).1, lt_since_of_mem_eras hg he hf⟩
  refine ⟨.inl rfl, ?_, ?_, ?_⟩
  · have hp := providedAt_after fun f hf => (hadd f hf).2
    rwa [before_append, after_append] at hp
  · exact sameValues_valueFor fun f hf => hadd f (by simp [hf])
  · exact sameValues_valueFor fun f hf => hadd f (by simp [hf])

/-- The plans of the eras of the old class are kept, oldest first. -/
theorem forall₂_keeps {inherited own : List Revised} (hg : IsGrowth (inherited ++ own)) :
    List.Forall₂ (Keeps inherited own)
      ((eras (before (inherited ++ own))).map (planFor (before inherited) (before own)))
      (((eras (after (inherited ++ own))).map (planFor (after inherited) (after own))).take
        (eras (before (inherited ++ own))).length) := by
  rw [eras_after hg, List.map_append, List.take_left' (by simp)]
  exact List.forall₂_map_left_iff.2 (List.forall₂_map_right_iff.2
    (List.forall₂_same.2 fun era he => keeps_planFor hg he))

theorem eq_nil_of_after {r : List Revised} (h : after r = []) : r = [] := by
  cases r with
  | nil => rfl
  | cons x r => cases x <;> simp [after] at h

/--
If a class has constructors, so has each growth of it, and the oldest of them are those of the
class: with the same parameters, the same values for the old fields and the defaults for the new.
-/
theorem planConstructors_grown {owner : String} {inherited own : List Revised}
    {plans : List ConstructorPlan} (hg : IsGrowth (inherited ++ own))
    (h : planConstructors owner (before inherited) (before own) = .ok plans) :
    ∃ later, planConstructors owner (after inherited) (after own) = .ok later ∧
      List.Forall₂ (Keeps inherited own) plans (later.take plans.length) := by
  by_cases ha : after (inherited ++ own) = []
  · -- nothing was there and nothing is put in
    obtain ⟨rfl, rfl⟩ := List.append_eq_nil_iff.1 (eq_nil_of_after ha)
    obtain rfl := Except.ok.inj (h.symm.trans (planConstructors_nil owner))
    exact ⟨_, planConstructors_nil owner, .cons ⟨.inl rfl, rfl, .nil, .nil⟩ .nil⟩
  have hkeeps := forall₂_keeps hg
  rw [after_append] at ha
  by_cases hb : before (inherited ++ own) = []
  · -- the only old plan has no era, and lives on as that of the base version
    have hm := not_missingAt_after hg (by simp [hb])
    rw [after_append] at hm
    refine ⟨_, (planConstructors_ok_iff ha).2 ⟨hm, rfl⟩, ?_⟩
    have hz : eras (before (inherited ++ own)) = [.zero] := by rw [hb]; rfl
    rw [before_append] at hb
    obtain ⟨hbi, hbo⟩ := List.append_eq_nil_iff.1 hb
    rw [hbi, hbo] at h
    obtain rfl := Except.ok.inj (h.symm.trans (planConstructors_nil owner))
    rw [hz, hbi, hbo, after_append] at hkeeps
    generalize List.take _ _ = first at hkeeps ⊢
    cases hkeeps with
    | cons hk hnil =>
      have hera := hk.era
      simp only [planFor, reduceCtorEq, false_and, or_false] at hera
      exact .cons ⟨.inr ⟨rfl, hera⟩, hk.parameters, hk.superValues, hk.ownValues⟩ hnil
  · rw [before_append] at hb
    obtain ⟨hold, rfl⟩ := (planConstructors_ok_iff hb).1 h
    have hm := not_missingAt_after hg (by rwa [before_append])
    rw [after_append] at hm hkeeps
    rw [before_append] at hkeeps
    refine ⟨_, (planConstructors_ok_iff ha).2 ⟨hm, rfl⟩, ?_⟩
    rwa [List.length_map]

/-- A revision that puts a field before an inherited one. -/
def Revised.sampleInherited : List Revised :=
  [.added (.ofInt "c" [1, 1] (some "2")), .kept (.ofInt "a" [0] none)]

/-- A revision that puts a field after an own one. -/
def Revised.sampleOwn : List Revised :=
  [.kept (.ofInt "b" [1] (some "1")), .added (.ofInt "d" [2] (some "3"))]

theorem planConstructors_grown_sample :
    IsGrowth (sampleInherited ++ sampleOwn) ∧
      ∃ plans, planConstructors "R" (before sampleInherited) (before sampleOwn) = .ok plans ∧
        ∃ later, planConstructors "R" (after sampleInherited) (after sampleOwn) = .ok later ∧
          List.Forall₂ (Keeps sampleInherited sampleOwn) plans (later.take plans.length) :=
  have hg : IsGrowth (sampleInherited ++ sampleOwn) := by decide
  ⟨hg, _, rfl, planConstructors_grown hg rfl⟩

end Typewright
