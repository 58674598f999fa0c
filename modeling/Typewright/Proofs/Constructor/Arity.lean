import Typewright.Proofs.Constructor.Plans

/-!
# Numbers of parameters

No two constructors of a class take the same number of parameters: each era knows all the fields of
the era before it, and the one that brought it about besides.

- `exists_brought`: the field that a newer era knows and an older one does not.
- `pairwise_arity`: the numbers of parameters ascend strictly along the plans of a class.
- `exists_newest_append`: the newest plan takes every field, and all the others take fewer.
-/

namespace Typewright

variable {owner : String} {inherited own fs : List Field} {plans : List ConstructorPlan}
  {v w : Version} {f : Field}

theorem mem_providedAt : f ∈ providedAt v fs ↔ f ∈ fs ∧ f.since ≤ v := by
  simp [providedAt]

theorem providedAt_sublist (fs : List Field) (h : v ≤ w) :
    (providedAt v fs).Sublist (providedAt w fs) :=
  List.monotone_filter_right fs fun _ hf => decide_eq_true ((of_decide_eq_true hf).trans h)

/-- A newer era knows a field that no older one does: one that brought it about. -/
theorem exists_brought (hn : ∀ f ∈ fs, f.since.IsNonneg) (hv : v ∈ eras fs) (hw : w ∈ eras fs)
    (h : v < w) : ∃ f ∈ providedAt w fs, f.since = w ∧ f ∉ providedAt v fs := by
  have hzero : Version.zero ≤ v := by
    rcases mem_eras.1 hv with rfl | ⟨f, hf, rfl⟩
    · exact le_rfl
    · exact Version.zero_le (hn f hf)
  rcases mem_eras.1 hw with rfl | ⟨f, hf, rfl⟩
  · exact absurd h (not_lt.2 hzero)
  · exact ⟨f, mem_providedAt.2 ⟨hf, le_rfl⟩, rfl, fun hold => not_le.2 h (mem_providedAt.1 hold).2⟩

theorem length_providedAt_lt (hn : ∀ f ∈ fs, f.since.IsNonneg) (hv : v ∈ eras fs) (hw : w ∈ eras fs)
    (h : v < w) : (providedAt v fs).length < (providedAt w fs).length := by
  have hsub := providedAt_sublist fs h.le
  obtain ⟨f, hf, -, hold⟩ := exists_brought hn hv hw h
  refine lt_of_le_of_ne hsub.length_le fun hlen => hold ?_
  rwa [hsub.eq_of_length hlen]

/-- A relation between the plan of each era and those of older eras holds along the plans. -/
theorem pairwise_plans {R : ConstructorPlan → ConstructorPlan → Prop}
    (h : planConstructors owner inherited own = .ok plans)
    (hR : ∀ {v w}, v ∈ eras (inherited ++ own) → w ∈ eras (inherited ++ own) → v < w →
      R (planFor inherited own v) (planFor inherited own w)) : plans.Pairwise R := by
  by_cases hne : inherited ++ own = []
  · obtain ⟨rfl, rfl⟩ := List.append_eq_nil_iff.1 hne
    rw [planConstructors_nil, Except.ok.injEq] at h
    subst h
    exact List.pairwise_singleton _ _
  · obtain ⟨-, rfl⟩ := (planConstructors_ok_iff hne).1 h
    have hs : (eras (inherited ++ own)).Pairwise (· < ·) := Version.pairwise_distinct _
    exact List.pairwise_map.2 (hs.imp_of_mem fun hv hw => hR hv hw)

/-- The plans of a class take more and more parameters. -/
theorem pairwise_arity (hn : ∀ f ∈ inherited ++ own, f.since.IsNonneg)
    (h : planConstructors owner inherited own = .ok plans) :
    plans.Pairwise fun p q => p.parameters.length < q.parameters.length :=
  pairwise_plans h fun hv hw => length_providedAt_lt hn hv hw

/-- The newest plan takes every field as a parameter, and each older one takes fewer. -/
theorem exists_newest_append (hn : ∀ f ∈ inherited ++ own, f.since.IsNonneg)
    (h : planConstructors owner inherited own = .ok plans) :
    ∃ older newest, plans = older ++ [newest] ∧ newest.parameters = inherited ++ own ∧
      ∀ p ∈ older, p.parameters.length < newest.parameters.length := by
  obtain ⟨newest, hlast, hall⟩ := exists_newest h
  obtain ⟨older, rfl⟩ := List.getLast?_eq_some_iff.1 hlast
  refine ⟨older, newest, rfl, hall, fun p hp => ?_⟩
  exact (List.pairwise_append.1 (pairwise_arity hn h)).2.2 p hp newest (List.mem_singleton_self _)

end Typewright
