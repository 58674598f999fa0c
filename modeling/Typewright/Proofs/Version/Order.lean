import Mathlib.Data.List.DropRight
import Mathlib.Data.List.Lex
import Mathlib.Data.List.Sort
import Typewright.Schema.Document

/-!
# The order of versions

Versions form a linear order, and the distinct versions of a list are the one strictly ascending
list that holds them.

- `Version.pairwise_distinct`, `Version.mem_distinct`: the distinct versions of a list ascend, and
  they are the versions of the list.
- `Version.distinct_append`: the distinct versions of two lists, one above the other, stand one list
  after the other.
- `Version.zero_le`: a version that a document can give is at least the base version
  (`Version.isNonneg_of_ofJson`).
- `Version.ofParts_append_zeros`: zeros at the end spell the same version.
- `Version.exists_append_zeros`: only zeros at the end are dropped.
-/

namespace Typewright

namespace Version

theorem lt_iff_parts {v w : Version} : v < w ↔ v.parts < w.parts := Iff.rfl

theorem le_iff_parts {v w : Version} : v ≤ w ↔ v.parts ≤ w.parts :=
  not_lt (a := w.parts) (b := v.parts)

instance : LinearOrder Version where
  le_refl v := le_iff_parts.2 le_rfl
  le_trans u v w huv hvw := le_iff_parts.2 ((le_iff_parts.1 huv).trans (le_iff_parts.1 hvw))
  lt_iff_le_not_ge v w := by
    rw [lt_iff_parts, le_iff_parts, le_iff_parts]
    exact lt_iff_le_not_ge
  le_antisymm v w hvw hwv := ext (le_antisymm (le_iff_parts.1 hvw) (le_iff_parts.1 hwv))
  le_total v w := (le_total v.parts w.parts).imp le_iff_parts.2 le_iff_parts.2
  toDecidableLE := inferInstance
  toDecidableLT := inferInstance
  toDecidableEq := inferInstance

/-- Zeros at the end of the numbers spell the same version. -/
theorem ofParts_append_zeros (ps : List Int) (k : Nat) :
    ofParts (ps ++ List.replicate k 0) = ofParts ps := by
  have hz : ∀ p ∈ List.replicate k (0 : Int), (p == 0) = true := fun p hp => by
    simp [List.eq_of_mem_replicate hp]
  have ht : trimZeros (ps ++ List.replicate k 0) = trimZeros ps := by
    unfold trimZeros
    rw [List.reverse_append, List.reverse_replicate, List.dropWhile_append_of_pos hz]
  exact ext ht

/-- The numbers are what is kept of them with zeros after it. -/
theorem exists_append_zeros {ps : List Int} (h : ps ≠ []) :
    ∃ k, ps = trimZeros ps ++ List.replicate k 0 := by
  have hsplit : ps.rdropWhile (· == 0) ++ ps.rtakeWhile (· == 0) = ps :=
    List.rdropWhile_append_rtakeWhile
  obtain ⟨k, hzeros⟩ : ∃ k, ps.rtakeWhile (· == 0) = List.replicate k 0 :=
    ⟨_, List.eq_replicate_iff.2 ⟨rfl, fun p hp => by simpa using List.mem_rtakeWhile_imp hp⟩⟩
  rw [List.rdropWhile, hzeros] at hsplit
  unfold trimZeros
  split
  · next hnil =>
    -- one of the zeros stays
    rw [hnil, List.nil_append] at hsplit
    cases k with
    | zero => exact absurd hsplit.symm h
    | succ k => exact ⟨k, hsplit.symm⟩
  · next hkept => exact ⟨k, by rw [← hkept, hsplit]⟩

/-! ## Distinct versions -/

theorem mem_insertDistinct {u v : Version} {vs : List Version} :
    u ∈ insertDistinct v vs ↔ u = v ∨ u ∈ vs := by
  induction vs with
  | nil => simp [insertDistinct]
  | cons w r ih =>
    rw [insertDistinct]
    split_ifs with hlt heq
    · simp
    · simp [heq]
    · simp only [List.mem_cons, ih]
      tauto

/-- The distinct versions of a list are the versions in it. -/
theorem mem_distinct {u : Version} {vs : List Version} : u ∈ distinct vs ↔ u ∈ vs := by
  induction vs with
  | nil => simp [distinct]
  | cons v r ih => rw [distinct, List.foldr_cons, mem_insertDistinct, ← distinct, ih, List.mem_cons]

theorem pairwise_insertDistinct {v : Version} {vs : List Version} (h : vs.Pairwise (· < ·)) :
    (insertDistinct v vs).Pairwise (· < ·) := by
  induction vs with
  | nil => simp [insertDistinct]
  | cons w r ih =>
    obtain ⟨hw, hr⟩ := List.pairwise_cons.1 h
    rw [insertDistinct]
    split_ifs with hlt heq
    · refine List.pairwise_cons.2 ⟨fun u hu => ?_, h⟩
      rcases List.mem_cons.1 hu with rfl | hu
      · exact hlt
      · exact hlt.trans (hw u hu)
    · exact h
    · refine List.pairwise_cons.2 ⟨fun u hu => ?_, ih hr⟩
      rcases mem_insertDistinct.1 hu with rfl | hu
      · exact lt_of_le_of_ne (not_lt.1 hlt) (Ne.symm heq)
      · exact hw u hu

/-- The distinct versions of a list ascend strictly. -/
theorem pairwise_distinct (vs : List Version) : (distinct vs).Pairwise (· < ·) := by
  induction vs with
  | nil => exact List.Pairwise.nil
  | cons v r ih => exact pairwise_insertDistinct ih

/-- A strictly ascending list of the versions of another is the list of its distinct versions. -/
theorem eq_distinct {us vs : List Version} (hs : us.Pairwise (· < ·)) (hm : ∀ v, v ∈ us ↔ v ∈ vs) :
    us = distinct vs :=
  hs.eq_of_mem_iff (pairwise_distinct vs) fun v => (hm v).trans mem_distinct.symm

/-- The distinct versions of a list depend only on which versions are in it. -/
theorem distinct_congr {us vs : List Version} (h : ∀ v, v ∈ us ↔ v ∈ vs) :
    distinct us = distinct vs :=
  eq_distinct (pairwise_distinct us) fun v => mem_distinct.trans (h v)

/-- The distinct versions of lists of which one is above the other. -/
theorem distinct_append {us vs : List Version} (h : ∀ u ∈ us, ∀ v ∈ vs, u < v) :
    distinct (us ++ vs) = distinct us ++ distinct vs := by
  refine (eq_distinct ?_ fun v => ?_).symm
  · refine List.pairwise_append.2 ⟨pairwise_distinct us, pairwise_distinct vs, ?_⟩
    exact fun u hu v hv => h u (mem_distinct.1 hu) v (mem_distinct.1 hv)
  · simp [mem_distinct]

/-! ## Versions without negative numbers -/

/-- A version none of whose numbers is negative. -/
def IsNonneg (v : Version) : Prop :=
  ∀ p ∈ v.parts, 0 ≤ p

instance (v : Version) : Decidable v.IsNonneg :=
  inferInstanceAs (Decidable (∀ p ∈ v.parts, _))

theorem mem_of_mem_trimZeros {p : Int} {ps : List Int} (h : p ∈ trimZeros ps) : p = 0 ∨ p ∈ ps := by
  unfold trimZeros at h
  split at h
  · exact .inl (List.mem_singleton.1 h)
  · next q qs hq =>
    rw [← hq, List.mem_reverse] at h
    exact .inr (List.mem_reverse.1 ((List.dropWhile_sublist _).subset h))

/-- Numbers of which none is negative make a version without negative numbers. -/
theorem isNonneg_ofParts {ps : List Int} (h : ∀ p ∈ ps, 0 ≤ p) : (ofParts ps).IsNonneg := by
  intro p hp
  rcases mem_of_mem_trimZeros hp with rfl | hp
  · exact le_rfl
  · exact h p hp

theorem isNonneg_zero : zero.IsNonneg :=
  isNonneg_ofParts (by simp)

theorem isNonneg_of_ofText? {s : String} {v : Version} (h : ofText? s = some v) : v.IsNonneg := by
  simp only [ofText?, Option.bind_eq_bind, Option.bind_eq_some_iff] at h
  obtain ⟨ps, -, h⟩ := h
  split at h
  · simp at h
  · next hn =>
    simp only [Option.pure_def, Option.some.injEq] at h
    subst h
    refine isNonneg_ofParts fun p hp => ?_
    by_contra hlt
    exact hn (List.any_eq_true.2 ⟨p, hp, decide_eq_true (not_le.1 hlt)⟩)

/-- A version that a document gives has no negative numbers. -/
theorem isNonneg_of_ofJson {j : Json} {v : Version} (h : ofJson j = .ok v) : v.IsNonneg := by
  unfold ofJson at h
  split at h
  · cases h
    exact isNonneg_zero
  · simp at h
  · next n =>
    split at h
    · simp at h
    · next hn =>
      cases h
      exact isNonneg_ofParts fun p hp => by rw [List.mem_singleton.1 hp]; exact not_lt.1 hn
  · split at h
    · next w hw =>
      cases h
      exact isNonneg_of_ofText? hw
    · simp at h

/-- The base version is the least of those without negative numbers. -/
theorem zero_le {v : Version} (h : v.IsNonneg) : zero ≤ v := by
  rw [le_iff_parts]
  cases hp : v.parts with
  | nil => exact absurd hp v.trimmed.1
  | cons p ps =>
    have h0 : 0 ≤ p := h p (hp ▸ List.mem_cons_self)
    rcases h0.lt_or_eq with hlt | rfl
    · exact le_of_lt (List.Lex.rel hlt)
    · cases ps with
      | nil => exact le_rfl
      | cons q qs => exact le_of_lt (List.Lex.cons List.Lex.nil)

end Version

end Typewright
