import Typewright.Text.CodePoint

/-!
# Sorted sets of texts

Texts in ascending order of their code points, each once.

- `mem_sortedSet`: the set holds what the list holds.
- `isSorted_sortedSet`, `nodup_sortedSet`: in ascending order, and each once.
-/

namespace Typewright.Text

/-- A sorted set with one more text. -/
def insertSorted (s : String) : List String → List String
  | [] => [s]
  | t :: r =>
    if comesBefore s t then s :: t :: r
    else if s = t then t :: r
    else t :: insertSorted s r

/-- The texts of a list in ascending order, each once. -/
def sortedSet (texts : List String) : List String :=
  texts.foldr insertSorted []

/-! ## Small laws -/

theorem mem_insertSorted {s t : String} {ts : List String} :
    t ∈ insertSorted s ts ↔ t = s ∨ t ∈ ts := by
  induction ts with
  | nil => simp [insertSorted]
  | cons u r ih =>
    rw [insertSorted]
    split
    · simp
    · split
      · next h => subst h; simp
      · simp only [List.mem_cons, ih]; exact or_left_comm

theorem mem_sortedSet {t : String} {ts : List String} : t ∈ sortedSet ts ↔ t ∈ ts := by
  induction ts with
  | nil => simp [sortedSet]
  | cons u r ih =>
    rw [sortedSet, List.foldr_cons, mem_insertSorted, List.mem_cons]
    exact or_congr_right ih

/-! ## Order -/

theorem comesBefore_iff {s t : String} : comesBefore s t ↔ codes s.toList < codes t.toList := by
  simp [comesBefore]

theorem comesBefore_self (s : String) : comesBefore s s = false := by
  rw [Bool.eq_false_iff, ne_eq, comesBefore_iff]
  exact List.lt_irrefl _

theorem comesBefore_trans {s t u : String} (h : comesBefore s t) (h' : comesBefore t u) :
    comesBefore s u :=
  comesBefore_iff.2 (List.lt_trans (comesBefore_iff.1 h) (comesBefore_iff.1 h'))

theorem comesBefore_asymm {s t : String} (h : comesBefore s t) : comesBefore t s = false := by
  rw [Bool.eq_false_iff, ne_eq, comesBefore_iff]
  exact List.lt_asymm (comesBefore_iff.1 h)

/-- No text of the list comes before one that stands before it. -/
def IsSorted (ts : List String) : Prop :=
  ts.Pairwise fun s t => comesBefore t s = false

theorem isSorted_insertSorted {s : String} {ts : List String} (h : IsSorted ts) :
    IsSorted (insertSorted s ts) := by
  unfold IsSorted at h ⊢
  induction ts with
  | nil => simp [insertSorted]
  | cons t r ih =>
    obtain ⟨ht, hr⟩ := List.pairwise_cons.1 h
    rw [insertSorted]
    split
    · next hlt =>
      refine List.pairwise_cons.2 ⟨fun u hu => ?_, h⟩
      rcases List.mem_cons.1 hu with rfl | hu
      · exact comesBefore_asymm hlt
      · -- what comes before `s` comes before `t`, which nothing in the rest does
        rw [Bool.eq_false_iff]
        intro hus
        exact Bool.eq_false_iff.1 (ht u hu) (comesBefore_trans hus hlt)
    · next hlt =>
      split
      · exact h
      · refine List.pairwise_cons.2 ⟨fun u hu => ?_, ih hr⟩
        rcases mem_insertSorted.1 hu with rfl | hu
        · exact Bool.eq_false_iff.2 hlt
        · exact ht u hu

theorem isSorted_sortedSet (ts : List String) : IsSorted (sortedSet ts) := by
  induction ts with
  | nil => exact List.Pairwise.nil
  | cons t r ih => exact isSorted_insertSorted ih

theorem nodup_insertSorted {s : String} {ts : List String} (h : IsSorted ts) (hn : ts.Nodup) :
    (insertSorted s ts).Nodup := by
  induction ts with
  | nil => simp [insertSorted]
  | cons t r ih =>
    obtain ⟨ht, hr⟩ := List.pairwise_cons.1 h
    obtain ⟨hnot, hnr⟩ := List.nodup_cons.1 hn
    rw [insertSorted]
    split
    · next hlt =>
      refine List.nodup_cons.2 ⟨fun hs => ?_, hn⟩
      rcases List.mem_cons.1 hs with rfl | hs
      · exact Bool.eq_false_iff.1 (comesBefore_self s) hlt
      · exact Bool.eq_false_iff.1 (ht s hs) hlt
    · split
      · exact hn
      · next hne =>
        refine List.nodup_cons.2 ⟨fun hmem => ?_, ih hr hnr⟩
        rcases mem_insertSorted.1 hmem with rfl | hmem
        · exact hne rfl
        · exact hnot hmem

theorem nodup_sortedSet (ts : List String) : (sortedSet ts).Nodup := by
  induction ts with
  | nil => exact List.nodup_nil
  | cons t r ih => exact nodup_insertSorted (isSorted_sortedSet r) ih

end Typewright.Text
