import Typewright.Proofs.Version.Order

/-!
# Versions compared number by number

Versions are ordered as lists from which the zeros at the end are gone, and there a list that only
goes on is the greater. Where no number is negative, this is the same as to fill the shorter of the
lists up with zeros and to compare number by number.

- `Version.comparePadded`: the comparison that fills the shorter list up.
- `Version.comparePadded_trimZeros`: zeros at the end of a list do not count in it.
- `Version.comparePadded_of_lt`: it finds what the order of versions finds.
- `Version.order_ofParts`: the two agree, and the order is total, with the base version below all.
-/

namespace Typewright

namespace Version

/-- The numbers with zeros after them up to a length. -/
def padded (n : Nat) (ps : List Int) : List Int :=
  ps ++ List.replicate (n - ps.length) 0

/-- How two lists of one length compare: as the first numbers that differ. -/
def compareEach (ps qs : List Int) : Ordering :=
  (List.zipWith compare ps qs).foldr Ordering.then .eq

/-- How two lists compare number by number, the shorter one filled up with zeros. -/
def comparePadded (ps qs : List Int) : Ordering :=
  compareEach (padded (max ps.length qs.length) ps) (padded (max ps.length qs.length) qs)

variable {p q : Int} {ps qs : List Int}

/-! ## Number by number -/

theorem comparePadded_cons_cons :
    comparePadded (p :: ps) (q :: qs) = (compare p q).then (comparePadded ps qs) := by
  simp [comparePadded, padded, compareEach, Nat.add_max_add_right]

theorem comparePadded_nil_cons :
    comparePadded [] (q :: qs) = (compare 0 q).then (comparePadded [] qs) := by
  simp [comparePadded, padded, compareEach, List.replicate_succ]

theorem comparePadded_cons_nil :
    comparePadded (p :: ps) [] = (compare p 0).then (comparePadded ps []) := by
  simp [comparePadded, padded, compareEach, List.replicate_succ]

theorem comparePadded_swap (ps qs : List Int) :
    (comparePadded ps qs).swap = comparePadded qs ps := by
  have hswap (p q : Int) : (compare p q).swap = compare q p := Std.OrientedCmp.eq_swap.symm
  induction ps generalizing qs with
  | nil =>
    induction qs with
    | nil => rfl
    | cons q qs ih =>
      rw [comparePadded_nil_cons, comparePadded_cons_nil, Ordering.swap_then, hswap, ih]
  | cons p ps ih =>
    cases qs with
    | nil => rw [comparePadded_nil_cons, comparePadded_cons_nil, Ordering.swap_then, hswap, ih]
    | cons q qs =>
      rw [comparePadded_cons_cons, comparePadded_cons_cons, Ordering.swap_then, hswap, ih]

theorem comparePadded_self (ps : List Int) : comparePadded ps ps = .eq := by
  induction ps with
  | nil => rfl
  | cons p ps ih => rw [comparePadded_cons_cons, ih, compare_eq_iff_eq.2 rfl, Ordering.then_eq]

/-! ## Zeros at the end -/

theorem comparePadded_append_zero (ps qs : List Int) :
    comparePadded (ps ++ [0]) qs = comparePadded ps qs := by
  induction ps generalizing qs with
  | nil =>
    cases qs with
    | nil => rfl
    | cons q qs => rw [List.nil_append, comparePadded_cons_cons, comparePadded_nil_cons]
  | cons p ps ih =>
    cases qs with
    | nil => rw [List.cons_append, comparePadded_cons_nil, comparePadded_cons_nil, ih]
    | cons q qs => rw [List.cons_append, comparePadded_cons_cons, comparePadded_cons_cons, ih]

theorem comparePadded_append_zeros (ps qs : List Int) (k : Nat) :
    comparePadded (ps ++ List.replicate k 0) qs = comparePadded ps qs := by
  induction k with
  | zero => rw [List.replicate_zero, List.append_nil]
  | succ k ih =>
    rw [List.replicate_succ', ← List.append_assoc, comparePadded_append_zero, ih]

theorem comparePadded_trimZeros (ps qs : List Int) :
    comparePadded (trimZeros ps) qs = comparePadded ps qs := by
  by_cases h : ps = []
  · subst h
    exact comparePadded_append_zero [] qs
  · obtain ⟨k, hk⟩ := exists_append_zeros h
    conv_rhs => rw [hk]
    rw [comparePadded_append_zeros]

/-! ## The order of versions -/

/-- Numbers that are not negative exceed the empty list, unless all are zero. -/
theorem comparePadded_nil_of_nonneg (hne : qs ≠ []) (hn : ∀ q ∈ qs, 0 ≤ q)
    (hl : qs.getLast? ≠ some 0) : comparePadded [] qs = .lt := by
  induction qs with
  | nil => exact absurd rfl hne
  | cons q qs ih =>
    obtain ⟨hq, hqs⟩ := List.forall_mem_cons.1 hn
    rw [comparePadded_nil_cons, Ordering.then_eq_lt, compare_lt_iff_lt, compare_eq_iff_eq]
    refine hq.lt_or_eq.imp_right fun hzero => ⟨hzero, ?_⟩
    cases qs with
    | nil => exact absurd (by rw [← hzero]; rfl) hl
    | cons r rs => exact ih (List.cons_ne_nil r rs) hqs (by simpa using hl)

/-- A list that comes first in the order of lists compares as the lesser. -/
theorem comparePadded_of_lt (h : ps < qs) (hn : ∀ q ∈ qs, 0 ≤ q) (hl : qs.getLast? ≠ some 0) :
    comparePadded ps qs = .lt := by
  induction h with
  | nil => exact comparePadded_nil_of_nonneg (List.cons_ne_nil _ _) hn hl
  | rel hlt => rw [comparePadded_cons_cons, compare_lt_iff_lt.2 hlt, Ordering.then_eq_lt]; simp
  | @cons p ps qs _ ih =>
    have hl' : qs.getLast? ≠ some 0 := by
      cases qs with
      | nil => simp
      | cons r rs => simpa using hl
    rw [comparePadded_cons_cons, compare_eq_iff_eq.2 rfl, ih (List.forall_mem_cons.1 hn).2 hl']
    rfl

theorem comparePadded_parts_of_lt {v w : Version} (h : v < w) (hw : w.IsNonneg) :
    comparePadded v.parts w.parts = .lt := by
  by_cases hl : w.parts.getLast? = some 0
  · -- then the greater version is the base version, and the lesser one starts below zero
    have hshort : w.parts.length ≤ 1 := not_lt.1 fun hlong => w.trimmed.2 hlong hl
    obtain ⟨q, hq⟩ := List.length_eq_one_iff.1
      (le_antisymm hshort (List.length_pos_iff.2 w.trimmed.1))
    obtain ⟨p, ps, hp⟩ := List.exists_cons_of_ne_nil v.trimmed.1
    rw [lt_iff_parts, hp, hq, List.cons_lt_cons_iff] at h
    obtain hlt | ⟨-, hnil⟩ := h
    · rw [hp, hq, comparePadded_cons_cons, compare_lt_iff_lt.2 hlt]
      rfl
    · exact absurd hnil (List.not_lt_nil ps)
  · exact comparePadded_of_lt h hw hl

theorem comparePadded_ofParts (ps qs : List Int) :
    comparePadded (ofParts ps).parts (ofParts qs).parts = comparePadded ps qs := by
  calc comparePadded (trimZeros ps) (trimZeros qs)
      = comparePadded ps (trimZeros qs) := comparePadded_trimZeros ps _
    _ = (comparePadded (trimZeros qs) ps).swap := (comparePadded_swap _ _).symm
    _ = (comparePadded qs ps).swap := by rw [comparePadded_trimZeros]
    _ = comparePadded ps qs := comparePadded_swap qs ps

/-- Of versions without negative numbers, how they compare is how their numbers do. -/
theorem order_eq_comparePadded {v w : Version} (hv : v.IsNonneg) (hw : w.IsNonneg) :
    order v w = comparePadded v.parts w.parts := by
  unfold order
  rcases lt_trichotomy v w with hlt | rfl | hgt
  · rw [if_pos hlt, comparePadded_parts_of_lt hlt hw]
  · rw [if_neg (lt_irrefl v), if_pos rfl, comparePadded_self]
  · rw [if_neg hgt.not_gt, if_neg hgt.ne', ← comparePadded_swap, comparePadded_parts_of_lt hgt hv]
    rfl

theorem order_eq_lt_iff {v w : Version} : order v w = .lt ↔ v < w := by
  unfold order
  split_ifs with hlt heq <;> simp [hlt]

theorem order_eq_eq_iff {v w : Version} : order v w = .eq ↔ v = w := by
  unfold order
  split_ifs with hlt heq
  · simp [hlt.ne]
  · simp [heq]
  · simp [heq]

theorem order_eq_gt_iff {v w : Version} : order v w = .gt ↔ w < v := by
  unfold order
  split_ifs with hlt heq
  · simp [hlt.not_gt]
  · simp [heq]
  · simpa using lt_of_le_of_ne (not_lt.1 hlt) (Ne.symm heq)

/-- The same version is spelled by numbers that agree up to zeros at the end. -/
theorem ofParts_eq_iff :
    ofParts ps = ofParts qs ↔ ∃ k l, ps ++ List.replicate k 0 = qs ++ List.replicate l 0 := by
  have hfilled (ps : List Int) :
      ∃ k l, ps ++ List.replicate k 0 = trimZeros ps ++ List.replicate l 0 := by
    by_cases h : ps = []
    · exact ⟨1, 0, by rw [h]; rfl⟩
    · obtain ⟨l, hl⟩ := exists_append_zeros h
      exact ⟨0, l, by rw [List.replicate_zero, List.append_nil, ← hl]⟩
  constructor
  · intro h
    have htrim : trimZeros ps = trimZeros qs := congrArg parts h
    -- both are the trimmed numbers with zeros after them, and each is given those of the other
    obtain ⟨k, l, hp⟩ := hfilled ps
    obtain ⟨m, n, hq⟩ := hfilled qs
    refine ⟨k + n, m + l, ?_⟩
    calc ps ++ List.replicate (k + n) 0
        = ps ++ List.replicate k 0 ++ List.replicate n 0 := by
          rw [List.append_assoc, List.replicate_append_replicate]
      _ = trimZeros ps ++ List.replicate (n + l) 0 := by
          rw [hp, List.append_assoc, List.replicate_append_replicate, Nat.add_comm]
      _ = qs ++ List.replicate m 0 ++ List.replicate l 0 := by
          rw [hq, htrim, List.append_assoc, List.replicate_append_replicate]
      _ = qs ++ List.replicate (m + l) 0 := by
          rw [List.append_assoc, List.replicate_append_replicate]
  · rintro ⟨k, l, h⟩
    rw [← ofParts_append_zeros ps k, h, ofParts_append_zeros]

/--
Without negative numbers versions compare as their numbers do one by one, the shorter list filled up
with zeros, and are equal if their numbers agree up to zeros at the end. The order is total, and the
base version is the least.
-/
theorem order_ofParts (hp : ∀ p ∈ ps, 0 ≤ p) (hq : ∀ q ∈ qs, 0 ≤ q) :
    order (ofParts ps) (ofParts qs) = comparePadded ps qs ∧
      (ofParts ps < ofParts qs ↔ comparePadded ps qs = .lt) ∧
      (ofParts ps = ofParts qs ↔ comparePadded ps qs = .eq) ∧
      (ofParts qs < ofParts ps ↔ comparePadded ps qs = .gt) ∧
      (ofParts ps ≤ ofParts qs ↔ comparePadded ps qs ≠ .gt) ∧
      (ofParts ps = ofParts qs ↔
        ∃ k l, ps ++ List.replicate k 0 = qs ++ List.replicate l 0) ∧
      (∀ u v w : Version, (u ≤ v ∨ v ≤ u) ∧ (u ≤ v → v ≤ u → u = v) ∧
        (u ≤ v → v ≤ w → u ≤ w)) ∧
      ofParts [] = zero ∧ zero ≤ ofParts ps := by
  have horder : order (ofParts ps) (ofParts qs) = comparePadded ps qs := by
    rw [order_eq_comparePadded (isNonneg_ofParts hp) (isNonneg_ofParts hq), comparePadded_ofParts]
  rw [← horder, order_eq_lt_iff, order_eq_eq_iff, order_eq_gt_iff, Ne, order_eq_gt_iff, not_lt]
  exact ⟨rfl, Iff.rfl, Iff.rfl, Iff.rfl, Iff.rfl, ofParts_eq_iff,
    fun u v w => ⟨le_total u v, le_antisymm, le_trans⟩, rfl, zero_le (isNonneg_ofParts hp)⟩

/-- A zero inside counts, those at the end do not. -/
theorem order_ofParts_inner :
    (∀ p ∈ [1, 0, 2], (0 : Int) ≤ p) ∧ (∀ q ∈ [1, 0, 0, 7, 0], (0 : Int) ≤ q) ∧
      order (ofParts [1, 0, 2]) (ofParts [1, 0, 0, 7, 0]) = .gt ∧
      ofParts [1, 0, 0, 7, 0] < ofParts [1, 0, 2] := by
  have hp : ∀ p ∈ [1, 0, 2], (0 : Int) ≤ p := by decide
  have hq : ∀ q ∈ [1, 0, 0, 7, 0], (0 : Int) ≤ q := by decide
  obtain ⟨horder, -, -, hgt, -⟩ := order_ofParts hp hq
  exact ⟨hp, hq, horder, hgt.2 rfl⟩

end Version

end Typewright
