import Mathlib.Data.List.Count
import Typewright.Proofs.Constructor.Plans

/-!
# The table of eras

The plans of a class form a table with a row for each era. A row says which fields the constructor
of the era takes, and what it passes for every field. The table is laid down here without the steps
by which it is computed.

- `RowOf`: the row of an era, and `planAt_ok_iff_rowOf`, that it is what is planned there.
- `IsTable`: the rows of all eras.
- `planConstructors_table`: the plans of a class are its table.
- `planConstructors_missing`: a class has no plans exactly if a field that came after the base
  version has no default, and the first such field is reported.
-/

namespace Typewright

/-- What is passed for a field at an era: the argument once it is known, its default before. -/
inductive PassedAt (era : Version) : Field → FieldValue → Prop where
  | known {f : Field} (h : f.since ≤ era) : PassedAt era f (.given f)
  | before {f : Field} {e : String} (h : era < f.since) (hd : f.default = some e) :
    PassedAt era f (.defaulted f e)

/-- The field for which the caller gives a value. -/
def FieldValue.argument? : FieldValue → Option Field
  | .given f => some f
  | .defaulted _ _ => none

/-- The row of an era in the table of a class. -/
structure RowOf (inherited own : List Field) (v : Version) (p : ConstructorPlan) : Prop where
  era : p.era = some v
  parameters : p.parameters = (inherited ++ own).filter fun f => f.since ≤ v
  superValues : List.Forall₂ (PassedAt v) inherited p.superValues
  ownValues : List.Forall₂ (PassedAt v) own p.ownValues

/-- The table of a class: a row for the base version and each later version that brought a field. -/
def IsTable (inherited own : List Field) (plans : List ConstructorPlan) : Prop :=
  ∃ vs : List Version, vs.Pairwise (· < ·) ∧ vs.head? = some .zero ∧
    (∀ v, v ∈ vs ↔ v = .zero ∨ ∃ f ∈ inherited ++ own, f.since = v) ∧
    List.Forall₂ (RowOf inherited own) vs plans

variable {owner : String} {inherited own fs : List Field} {plans : List ConstructorPlan}
  {p : ConstructorPlan} {v : Version} {f : Field} {x : FieldValue} {xs : List FieldValue}

/-! ## Values -/

theorem PassedAt.field (h : PassedAt v f x) : x.field = f := by
  cases h <;> rfl

theorem PassedAt.argument? (h : PassedAt v f x) :
    x.argument? = if f.since ≤ v then some f else none := by
  cases h with
  | known h => rw [if_pos h]; rfl
  | before h => rw [if_neg (not_le.2 h)]; rfl

theorem valueAt_ok_iff_passedAt : valueAt owner v f = .ok x ↔ PassedAt v f x := by
  rw [valueAt_ok_iff]
  constructor
  · rintro ⟨hm, rfl⟩
    by_cases hle : f.since ≤ v
    · rw [valueFor_of_le hle]
      exact .known hle
    · have hlt := not_le.1 hle
      cases hd : f.default with
      | none => exact absurd ⟨hlt, hd⟩ hm
      | some e =>
        rw [valueFor_of_lt hlt hd]
        exact .before hlt hd
  · intro h
    cases h with
    | known h => exact ⟨fun hm => absurd h (not_le.2 hm.1), (valueFor_of_le h).symm⟩
    | before h hd => exact ⟨fun hm => by simp [hm.2] at hd, (valueFor_of_lt h hd).symm⟩

/-- The values that are the caller's are those of the fields that are known. -/
theorem filterMap_argument? (h : List.Forall₂ (PassedAt v) fs xs) :
    xs.filterMap (·.argument?) = fs.filter fun f => f.since ≤ v := by
  induction h with
  | nil => rfl
  | @cons f x _ _ hx _ ih =>
    rw [List.filterMap_cons, hx.argument?, List.filter_cons, ih]
    by_cases hle : f.since ≤ v <;> simp [hle]

/-! ## Rows -/

/-- What is planned for an era is its row. -/
theorem planAt_ok_iff_rowOf : planAt owner inherited own v = .ok p ↔ RowOf inherited own v p := by
  simp only [planAt, Fallible.bind_ok_iff, Fallible.mapM_ok_iff, valueAt_ok_iff_passedAt]
  constructor
  · rintro ⟨superValues, hs, ownValues, ho, h⟩
    obtain rfl := Except.ok.inj h
    exact ⟨rfl, rfl, hs, ho⟩
  · rintro ⟨hera, hparameters, hs, ho⟩
    refine ⟨p.superValues, hs, p.ownValues, ho, ?_⟩
    obtain ⟨era, parameters, superValues, ownValues⟩ := p
    obtain rfl : era = some v := hera
    obtain rfl : parameters = _ := hparameters
    rfl

/-- The parameters of a row are the values that the caller gives. -/
theorem RowOf.arguments (h : RowOf inherited own v p) :
    (p.superValues ++ p.ownValues).filterMap (·.argument?) = p.parameters := by
  rw [List.filterMap_append, filterMap_argument? h.superValues, filterMap_argument? h.ownValues,
    h.parameters, List.filter_append]

/-- No row passes a default for a field that has none. -/
theorem RowOf.eq_given (h : RowOf inherited own v p) (hx : x ∈ p.superValues ++ p.ownValues)
    (hd : x.field.default = none) : x = .given x.field := by
  have hall := List.rel_append h.superValues h.ownValues
  obtain ⟨f, -, hf⟩ := Fallible.exists_of_mem_forall₂ hall hx
  cases hf with
  | known => rfl
  | before _ he => simp [FieldValue.field, he] at hd

/-! ## Tables -/

theorem eq_eras {vs : List Version} (hs : vs.Pairwise (· < ·))
    (hm : ∀ v, v ∈ vs ↔ v = .zero ∨ ∃ f ∈ fs, f.since = v) : vs = eras fs :=
  Version.eq_distinct hs fun v => by simp [hm v]

theorem planConstructors_ok_iff_isTable (hne : inherited ++ own ≠ [])
    (hn : ∀ f ∈ inherited ++ own, f.since.IsNonneg) :
    planConstructors owner inherited own = .ok plans ↔ IsTable inherited own plans := by
  rw [planConstructors_of_ne_nil owner hne, Fallible.mapM_ok_iff]
  simp only [planAt_ok_iff_rowOf]
  constructor
  · intro h
    obtain ⟨later, hz⟩ := eras_eq_zero_cons hn
    refine ⟨eras (inherited ++ own), Version.pairwise_distinct _, ?_, fun v => mem_eras, h⟩
    rw [hz, List.head?_cons]
  · rintro ⟨vs, hs, -, hm, h⟩
    rwa [← eq_eras hs hm]

/-- An era has one row, however its numbers are spelled, and other versions have none. -/
theorem IsTable.countP_era (h : IsTable inherited own plans) (ps : List Int) (k : Nat) :
    plans.countP (fun p => p.era = some (.ofParts (ps ++ List.replicate k 0))) =
      if .ofParts ps = Version.zero ∨ ∃ f ∈ inherited ++ own, f.since = .ofParts ps
      then 1 else 0 := by
  obtain ⟨vs, hs, -, hm, hrows⟩ := h
  have hera : plans.map (·.era) = vs.map some := by
    rw [← List.forall₂_eq_eq_eq, List.forall₂_map_left_iff, List.forall₂_map_right_iff]
    exact hrows.flip.imp fun p v hp => hp.era
  have hcount : plans.countP (fun p => p.era = some (.ofParts ps)) = vs.count (.ofParts ps) := by
    rw [← List.count_map_of_injective vs some (Option.some_injective _), ← hera, List.count,
      List.countP_map]
    exact List.countP_congr fun p _ => by simp
  rw [Version.ofParts_append_zeros, hcount, hs.nodup.count]
  simp only [hm]

/--
A class with fields has just the plans of its table, where the caller's values are the parameters
and each era has one row, however it is spelled. A class without fields has one plan that takes and
passes nothing.
-/
theorem planConstructors_table (owner : String) (hn : ∀ f ∈ inherited ++ own, f.since.IsNonneg) :
    (inherited ++ own ≠ [] →
      (∀ plans, planConstructors owner inherited own = .ok plans ↔ IsTable inherited own plans) ∧
      ∀ plans, planConstructors owner inherited own = .ok plans →
        (∀ p ∈ plans, (p.superValues ++ p.ownValues).filterMap (·.argument?) = p.parameters) ∧
        ∀ ps k, plans.countP (fun p => p.era = some (.ofParts (ps ++ List.replicate k 0))) =
          if .ofParts ps = Version.zero ∨ ∃ f ∈ inherited ++ own, f.since = .ofParts ps then 1
          else 0) ∧
      (inherited ++ own = [] →
        planConstructors owner inherited own = .ok [⟨none, [], [], []⟩]) := by
  refine ⟨fun hne => ?_, fun he => ?_⟩
  · have htable : ∀ plans, planConstructors owner inherited own = .ok plans ↔
        IsTable inherited own plans :=
      fun plans => planConstructors_ok_iff_isTable hne hn
    refine ⟨htable, fun plans h => ⟨fun p hp => ?_, ((htable plans).1 h).countP_era⟩⟩
    obtain ⟨vs, -, -, -, hrows⟩ := (htable plans).1 h
    obtain ⟨v, -, hrow⟩ := Fallible.exists_of_mem_forall₂ hrows hp
    exact hrow.arguments
  · obtain ⟨rfl, rfl⟩ := List.append_eq_nil_iff.1 he
    exact planConstructors_nil owner

/-- Fields of three eras, one of which is spelled in two ways. -/
def sampleFields : List Field :=
  [.ofInt "a" [0] none, .ofInt "b" [2, 1] (some "1"), .ofInt "c" [1] (some "2"),
    .ofInt "d" [1, 0] (some "3")]

theorem planConstructors_table_sample :
    (∀ f ∈ sampleFields.take 2 ++ sampleFields.drop 2, f.since.IsNonneg) ∧
      ∃ plans, planConstructors "R" (sampleFields.take 2) (sampleFields.drop 2) = .ok plans ∧
        IsTable (sampleFields.take 2) (sampleFields.drop 2) plans ∧
        plans.countP (fun p => p.era = some (.ofParts [1, 0, 0])) = 1 := by
  have hn : ∀ f ∈ sampleFields.take 2 ++ sampleFields.drop 2, f.since.IsNonneg := by decide
  obtain ⟨htable, hrest⟩ := (planConstructors_table "R" hn).1 (by simp [sampleFields])
  have hplans : planConstructors "R" (sampleFields.take 2) (sampleFields.drop 2) = .ok _ := rfl
  refine ⟨hn, _, hplans, (htable _).1 hplans, ?_⟩
  exact ((hrest _ hplans).2 [1] 2).trans (if_pos (by decide))

/-! ## Missing defaults -/

/--
A class has no plans exactly if a field that came after the base version has no default. What is
reported is the first such field, for the base version. Where there are plans, a field without
default is passed as the caller gives it.
-/
theorem planConstructors_missing (hn : ∀ f ∈ inherited ++ own, f.since.IsNonneg) :
    ((∃ m, planConstructors owner inherited own = .error m) ↔
        ∃ f ∈ inherited ++ own, .zero < f.since ∧ f.default = none) ∧
      (∀ m, planConstructors owner inherited own = .error m → m.owner = owner ∧ m.era = .zero ∧
        ∃ done rest, inherited ++ own = done ++ m.field :: rest ∧ .zero < m.field.since ∧
          m.field.default = none ∧ ∀ f ∈ done, .zero < f.since → f.default ≠ none) ∧
      ∀ plans, planConstructors owner inherited own = .ok plans → ∀ p ∈ plans,
        ∀ x ∈ p.superValues ++ p.ownValues, x.field.default = none → x = .given x.field := by
  refine ⟨⟨?_, ?_⟩, ?_, ?_⟩
  · rintro ⟨m, h⟩
    obtain ⟨f, hf, -⟩ := (planConstructors_error_iff hn).1 h
    have hmiss := List.find?_some hf
    exact ⟨f, List.mem_of_find?_eq_some hf, of_decide_eq_true hmiss⟩
  · rintro ⟨f, hf, hmiss⟩
    cases h : planConstructors owner inherited own with
    | error m => exact ⟨m, rfl⟩
    | ok plans => exact absurd hmiss ((exists_planConstructors_iff hn).1 ⟨plans, h⟩ f hf)
  · intro m h
    obtain ⟨f, hf, rfl⟩ := (planConstructors_error_iff hn).1 h
    obtain ⟨hmiss, done, rest, hall, hdone⟩ := List.find?_eq_some_iff_append.1 hf
    have hmiss := of_decide_eq_true hmiss
    refine ⟨rfl, rfl, done, rest, hall, hmiss.1, hmiss.2, fun g hg hlt hd => ?_⟩
    have hnot : ¬ g.MissingAt .zero := by simpa using hdone g hg
    exact hnot ⟨hlt, hd⟩
  · intro plans h p hp x hx hd
    -- a class without fields has a plan too, with no values in it
    by_cases hne : inherited ++ own = []
    · obtain ⟨rfl, rfl⟩ := List.append_eq_nil_iff.1 hne
      rw [planConstructors_nil, Except.ok.injEq] at h
      subst h
      obtain rfl := List.mem_singleton.1 hp
      simp at hx
    · obtain ⟨vs, -, -, -, hrows⟩ := (planConstructors_ok_iff_isTable hne hn).1 h
      obtain ⟨v, -, hrow⟩ := Fallible.exists_of_mem_forall₂ hrows hp
      exact hrow.eq_given hx hd

/-- Of two fields that lack a default the inherited one is reported, although it is the newer. -/
theorem planConstructors_missing_sample :
    (∀ f ∈ [Field.ofInt "a" [2] none] ++ [.ofInt "b" [1] none], f.since.IsNonneg) ∧
      ∃ m, planConstructors "R" [.ofInt "a" [2] none] [.ofInt "b" [1] none] = .error m ∧
        m.owner = "R" ∧ m.era = .zero ∧ m.field.name = "a" := by
  have hn : ∀ f ∈ [Field.ofInt "a" [2] none] ++ [.ofInt "b" [1] none], f.since.IsNonneg := by decide
  obtain ⟨hfails, hblamed, -⟩ := @planConstructors_missing "R" _ _ hn
  obtain ⟨m, hm⟩ := hfails.2 ⟨_, List.mem_cons_self, by decide⟩
  obtain ⟨howner, hera, done, rest, hall, -, -, hdone⟩ := hblamed m hm
  refine ⟨hn, m, hm, howner, hera, ?_⟩
  cases done with
  | nil =>
    obtain ⟨hfield, -⟩ := List.cons.inj hall
    rw [← hfield]; rfl
  | cons f done =>
    obtain ⟨rfl, -⟩ := List.cons.inj hall
    exact absurd rfl (hdone _ List.mem_cons_self (by decide))

end Typewright
