import Mathlib.Data.List.Pairwise
import Typewright.Constructor
import Typewright.Proofs.Fallible
import Typewright.Proofs.Version.Order

/-!
# What constructor plans are

The plans of a class are read off its fields: one for each era, with the fields known by then as
parameters, unless some era lacks a default.

- `planFor`: the plan of an era, if no default is missing there.
- `planConstructors_ok_iff`: the plans of a class with fields, and when there are any.
- `planConstructors_error_iff`: which default is reported as missing. The first one that the base
  version lacks is, because what a later era lacks the base version lacks too.
- `exists_newest`: one of the plans takes every field as a parameter.
-/

namespace Typewright

/-- A field of type `int` with the numbers of its version. -/
def Field.ofInt (name : String) (since : List Int) (default : Option String) : Field :=
  ⟨name, ⟨"int", .single, false⟩, .ofParts since, default, none⟩

/-- The constructor of an era has nothing to pass for the field. -/
def Field.MissingAt (f : Field) (era : Version) : Prop :=
  era < f.since ∧ f.default = none

instance (f : Field) (era : Version) : Decidable (f.MissingAt era) :=
  inferInstanceAs (Decidable (_ ∧ _))

/-- What an older era lacks is all that a newer one can lack. -/
theorem Field.MissingAt.mono {f : Field} {v w : Version} (h : f.MissingAt w) (hvw : v ≤ w) :
    f.MissingAt v :=
  ⟨hvw.trans_lt h.1, h.2⟩

/-- The value that the constructor of an era passes for a field that it does not lack. -/
def valueFor (era : Version) (f : Field) : FieldValue :=
  if f.since ≤ era then .given f else .defaulted f (f.default.getD "")

/-- The plan of an era that lacks no default. -/
def planFor (inherited own : List Field) (era : Version) : ConstructorPlan :=
  ⟨some era, providedAt era (inherited ++ own), inherited.map (valueFor era),
    own.map (valueFor era)⟩

theorem valueFor_of_le {era : Version} {f : Field} (h : f.since ≤ era) :
    valueFor era f = .given f :=
  if_pos h

theorem valueFor_of_lt {era : Version} {f : Field} {e : String} (h : era < f.since)
    (hd : f.default = some e) : valueFor era f = .defaulted f e := by
  rw [valueFor, if_neg (not_le.2 h), hd]; rfl

@[simp] theorem field_valueFor (era : Version) (f : Field) : (valueFor era f).field = f := by
  unfold valueFor
  split <;> rfl

/-! ## The value of one field -/

theorem valueAt_of_not_missing {owner : String} {era : Version} {f : Field}
    (h : ¬ f.MissingAt era) : valueAt owner era f = .ok (valueFor era f) := by
  unfold valueAt
  split_ifs with hle
  · rw [valueFor_of_le hle]
  · cases hd : f.default with
    | none => exact absurd ⟨not_le.1 hle, hd⟩ h
    | some e => rw [valueFor_of_lt (not_le.1 hle) hd]

theorem valueAt_of_missing {owner : String} {era : Version} {f : Field} (h : f.MissingAt era) :
    valueAt owner era f = .error ⟨f, owner, era⟩ := by
  rw [valueAt, if_neg (not_le.2 h.1), h.2]

theorem valueAt_ok_iff {owner : String} {era : Version} {f : Field} {v : FieldValue} :
    valueAt owner era f = .ok v ↔ ¬ f.MissingAt era ∧ v = valueFor era f := by
  by_cases h : f.MissingAt era
  · simp [valueAt_of_missing h, h]
  · simp [valueAt_of_not_missing h, h, eq_comm]

theorem valueAt_error_iff {owner : String} {era : Version} {f : Field} {m : MissingDefault} :
    valueAt owner era f = .error m ↔ f.MissingAt era ∧ m = ⟨f, owner, era⟩ := by
  by_cases h : f.MissingAt era
  · simp [valueAt_of_missing h, h, eq_comm]
  · simp [valueAt_of_not_missing h, h]

/-! ## The values of several fields -/

theorem mapM_valueAt_ok (owner : String) {era : Version} {fs : List Field}
    (h : ∀ f ∈ fs, ¬ f.MissingAt era) : fs.mapM (valueAt owner era) = .ok (fs.map (valueFor era)) :=
  (Fallible.mapM_ok_iff_map fun _ _ => valueAt_ok_iff).2 ⟨h, rfl⟩

theorem mapM_valueAt_error_iff {owner : String} {era : Version} {fs : List Field}
    {m : MissingDefault} :
    fs.mapM (valueAt owner era) = .error m ↔
      ∃ f, fs.find? (·.MissingAt era) = some f ∧ m = ⟨f, owner, era⟩ := by
  rw [Fallible.mapM_error_iff]
  constructor
  · rintro ⟨done, f, rest, rfl, hdone, hf⟩
    obtain ⟨hmiss, rfl⟩ := valueAt_error_iff.1 hf
    refine ⟨f, List.find?_eq_some_iff_append.2 ⟨by simpa using hmiss, done, rest, rfl, ?_⟩, rfl⟩
    intro g hg
    obtain ⟨v, hv⟩ := hdone g hg
    simpa using (valueAt_ok_iff.1 hv).1
  · rintro ⟨f, hf, rfl⟩
    obtain ⟨hmiss, done, rest, rfl, hdone⟩ := List.find?_eq_some_iff_append.1 hf
    refine ⟨done, f, rest, rfl, fun g hg => ?_, valueAt_error_iff.2 ⟨by simpa using hmiss, rfl⟩⟩
    exact ⟨_, valueAt_of_not_missing (by simpa using hdone g hg)⟩

/-! ## The plan of one era -/

theorem planAt_of_not_missing {owner : String} {inherited own : List Field} {era : Version}
    (h : ∀ f ∈ inherited ++ own, ¬ f.MissingAt era) :
    planAt owner inherited own era = .ok (planFor inherited own era) := by
  have hi := mapM_valueAt_ok owner fun f hf => h f (List.mem_append_left own hf)
  have ho := mapM_valueAt_ok owner fun f hf => h f (List.mem_append_right inherited hf)
  rw [planAt, hi, ho]; rfl

theorem planAt_error_iff {owner : String} {inherited own : List Field} {era : Version}
    {m : MissingDefault} :
    planAt owner inherited own era = .error m ↔
      ∃ f, (inherited ++ own).find? (·.MissingAt era) = some f ∧ m = ⟨f, owner, era⟩ := by
  rw [List.find?_append, planAt]
  cases hi : inherited.find? (·.MissingAt era) with
  | some f =>
    have he : inherited.mapM (valueAt owner era) = .error ⟨f, owner, era⟩ :=
      mapM_valueAt_error_iff.2 ⟨f, hi, rfl⟩
    rw [he]
    simp [bind, Except.bind, eq_comm]
  | none =>
    have hok := mapM_valueAt_ok owner fun f hf => by simpa using List.find?_eq_none.1 hi f hf
    rw [hok, Option.none_or, ← mapM_valueAt_error_iff]
    cases own.mapM (valueAt owner era) with
    | error m' => simp [bind, Except.bind]
    | ok vs => simp [bind, Except.bind, pure, Except.pure]

theorem planAt_ok_iff {owner : String} {inherited own : List Field} {era : Version}
    {p : ConstructorPlan} :
    planAt owner inherited own era = .ok p ↔
      (∀ f ∈ inherited ++ own, ¬ f.MissingAt era) ∧ p = planFor inherited own era := by
  cases hf : (inherited ++ own).find? (·.MissingAt era) with
  | some f =>
    have hm := List.find?_some hf
    rw [planAt_error_iff.2 ⟨f, hf, rfl⟩]
    simp only [reduceCtorEq, false_iff, not_and]
    exact fun h => absurd (by simpa using hm) (h f (List.mem_of_find?_eq_some hf))
  | none =>
    have h : ∀ f ∈ inherited ++ own, ¬ f.MissingAt era := fun f hf' => by
      simpa using List.find?_eq_none.1 hf f hf'
    rw [planAt_of_not_missing h, Except.ok.injEq, eq_comm]
    exact ⟨fun hp => ⟨h, hp⟩, And.right⟩

/-! ## Eras -/

theorem mem_eras {v : Version} {fs : List Field} :
    v ∈ eras fs ↔ v = .zero ∨ ∃ f ∈ fs, f.since = v := by
  simp [eras, Version.mem_distinct]

theorem zero_mem_eras (fs : List Field) : .zero ∈ eras fs :=
  mem_eras.2 (.inl rfl)

theorem since_mem_eras {f : Field} {fs : List Field} (h : f ∈ fs) : f.since ∈ eras fs :=
  mem_eras.2 (.inr ⟨f, h, rfl⟩)

/-- Without negative versions the base version is the first era. -/
theorem eras_eq_zero_cons {fs : List Field} (h : ∀ f ∈ fs, f.since.IsNonneg) :
    ∃ later, eras fs = .zero :: later := by
  have hz := zero_mem_eras fs
  have hs : (eras fs).Pairwise (· < ·) := Version.pairwise_distinct _
  cases he : eras fs with
  | nil => exact absurd (he ▸ hz) (by simp)
  | cons v later =>
    rcases List.mem_cons.1 (he ▸ hz) with rfl | hlater
    · exact ⟨later, rfl⟩
    · have hlt : v < .zero := List.rel_of_pairwise_cons (he ▸ hs) hlater
      rcases mem_eras.1 (he ▸ List.mem_cons_self : v ∈ eras fs) with rfl | ⟨f, hf, rfl⟩
      · exact absurd hlt (lt_irrefl _)
      · exact absurd hlt (not_lt.2 (Version.zero_le (h f hf)))

theorem since_le_getLast {f : Field} {fs : List Field} (h : f ∈ fs) (hne : eras fs ≠ []) :
    f.since ≤ (eras fs).getLast hne :=
  have hs : (eras fs).Pairwise (· ≤ ·) := (Version.pairwise_distinct _).imp le_of_lt
  hs.rel_getLast_of_rel_getLast_getLast (since_mem_eras h) le_rfl

theorem providedAt_eq_self {era : Version} {fs : List Field} (h : ∀ f ∈ fs, f.since ≤ era) :
    providedAt era fs = fs :=
  List.filter_eq_self.2 fun f hf => decide_eq_true (h f hf)

/-! ## The plans of a class -/

variable {owner : String} {inherited own : List Field} {plans : List ConstructorPlan}

theorem planConstructors_nil (owner : String) :
    planConstructors owner [] [] = .ok [⟨none, [], [], []⟩] := rfl

theorem planConstructors_of_ne_nil (owner : String) (h : inherited ++ own ≠ []) :
    planConstructors owner inherited own =
      (eras (inherited ++ own)).mapM (planAt owner inherited own) := by
  rw [planConstructors, if_neg (by simpa using h)]

/-- A class with fields has a plan for each era if no era lacks a default, and otherwise none. -/
theorem planConstructors_ok_iff (h : inherited ++ own ≠ []) :
    planConstructors owner inherited own = .ok plans ↔
      (∀ era ∈ eras (inherited ++ own), ∀ f ∈ inherited ++ own, ¬ f.MissingAt era) ∧
        plans = (eras (inherited ++ own)).map (planFor inherited own) := by
  rw [planConstructors_of_ne_nil owner h]
  exact Fallible.mapM_ok_iff_map fun _ _ => planAt_ok_iff

/-- What is reported is the first default that the base version lacks. -/
theorem planConstructors_error_iff {m : MissingDefault}
    (hn : ∀ f ∈ inherited ++ own, f.since.IsNonneg) :
    planConstructors owner inherited own = .error m ↔
      ∃ f, (inherited ++ own).find? (·.MissingAt .zero) = some f ∧ m = ⟨f, owner, .zero⟩ := by
  by_cases hne : inherited ++ own = []
  · rw [hne]
    obtain ⟨rfl, rfl⟩ := List.append_eq_nil_iff.1 hne
    simp [planConstructors_nil]
  obtain ⟨later, he⟩ := eras_eq_zero_cons hn
  rw [planConstructors_of_ne_nil owner hne, he, List.mapM_cons, ← planAt_error_iff]
  cases hz : planAt owner inherited own .zero with
  | error m' => simp [bind, Except.bind]
  | ok p =>
    -- no later era lacks anything that the base version has
    have hlater : later.mapM (planAt owner inherited own) =
        .ok (later.map (planFor inherited own)) := by
      refine (Fallible.mapM_ok_iff_map fun _ _ => planAt_ok_iff).2 ⟨fun era hera f hf hm => ?_, rfl⟩
      have hlt : .zero < era :=
        List.rel_of_pairwise_cons (he ▸ Version.pairwise_distinct _) hera
      exact (planAt_ok_iff.1 hz).1 f hf (hm.mono hlt.le)
    rw [hlater]
    simp [bind, Except.bind, pure, Except.pure]

/-- Without negative versions a class has plans exactly if the base version lacks no default. -/
theorem exists_planConstructors_iff (hn : ∀ f ∈ inherited ++ own, f.since.IsNonneg) :
    (∃ plans, planConstructors owner inherited own = .ok plans) ↔
      ∀ f ∈ inherited ++ own, ¬ f.MissingAt .zero := by
  constructor
  · rintro ⟨plans, h⟩ f hf
    exact ((planConstructors_ok_iff (List.ne_nil_of_mem hf)).1 h).1 _ (zero_mem_eras _) f hf
  · intro h
    cases hp : planConstructors owner inherited own with
    | ok plans => exact ⟨plans, rfl⟩
    | error m =>
      obtain ⟨f, hf, -⟩ := (planConstructors_error_iff hn).1 hp
      exact absurd (by simpa using List.find?_some hf) (h f (List.mem_of_find?_eq_some hf))

/-- Each plan is that of an era, up to the era of a class without fields. -/
theorem exists_era_of_mem {p : ConstructorPlan}
    (h : planConstructors owner inherited own = .ok plans)
    (hp : p ∈ plans) :
    ∃ era, (∀ f ∈ inherited ++ own, ¬ f.MissingAt era) ∧
      p = { planFor inherited own era with era := p.era } ∧
      (inherited ++ own ≠ [] → p.era = some era) := by
  by_cases hne : inherited ++ own = []
  · obtain ⟨rfl, rfl⟩ := List.append_eq_nil_iff.1 hne
    rw [planConstructors_nil, Except.ok.injEq] at h
    subst h
    rw [List.mem_singleton] at hp
    subst hp
    exact ⟨.zero, by simp, rfl, by simp⟩
  · obtain ⟨hm, rfl⟩ := (planConstructors_ok_iff hne).1 h
    obtain ⟨era, he, rfl⟩ := List.mem_map.1 hp
    exact ⟨era, hm era he, rfl, fun _ => rfl⟩

/-- The last plan takes every field as a parameter. -/
theorem exists_newest (h : planConstructors owner inherited own = .ok plans) :
    ∃ p, plans.getLast? = some p ∧ p.parameters = inherited ++ own := by
  by_cases hne : inherited ++ own = []
  · obtain ⟨rfl, rfl⟩ := List.append_eq_nil_iff.1 hne
    rw [planConstructors_nil, Except.ok.injEq] at h
    subst h
    exact ⟨_, rfl, rfl⟩
  · obtain ⟨-, rfl⟩ := (planConstructors_ok_iff hne).1 h
    have he : eras (inherited ++ own) ≠ [] := List.ne_nil_of_mem (zero_mem_eras _)
    refine ⟨planFor inherited own ((eras (inherited ++ own)).getLast he), ?_, ?_⟩
    · rw [List.getLast?_map, List.getLast?_eq_some_getLast he]; rfl
    · exact providedAt_eq_self fun f hf => since_le_getLast hf he

end Typewright
