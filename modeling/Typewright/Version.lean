import Typewright.Text.IntLiteral
import Typewright.Text.Lines

/-!
# Versions

A version is a list of numbers whose trailing zeros do not count, so that `1` and `1.0` are the same
version. The list is kept without them, with at least one number, and versions are ordered as their
lists are.

- `Version.isTrimmed_trimZeros`: dropping trailing zeros leaves a list in the kept form.
- `Version.ofParts_parts`: a version is what its own numbers make.
-/

namespace Typewright

namespace Version

/-- The kept form of a version: at least one number, and no zero at the end of several. -/
def IsTrimmed (ps : List Int) : Prop :=
  ps ≠ [] ∧ (1 < ps.length → ps.getLast? ≠ some 0)

/-- The numbers without the zeros at the end, but at least one number. -/
def trimZeros (ps : List Int) : List Int :=
  match (ps.reverse.dropWhile (· == 0)).reverse with
  | [] => [0]
  | q :: qs => q :: qs

theorem getLast?_reverse_dropWhile_ne_zero (ps : List Int) :
    (ps.dropWhile (· == 0)).reverse.getLast? ≠ some 0 := by
  rw [List.getLast?_reverse]
  intro h
  have := List.head?_dropWhile_not (fun p : Int => p == 0) ps
  rw [h] at this
  simp at this

theorem isTrimmed_trimZeros (ps : List Int) : IsTrimmed (trimZeros ps) := by
  have h := getLast?_reverse_dropWhile_ne_zero ps.reverse
  unfold trimZeros
  split
  · simp [IsTrimmed]
  · next hq => rw [hq] at h; exact ⟨by simp, fun _ => h⟩

/-- Numbers in the kept form are left alone. -/
theorem trimZeros_eq_self {ps : List Int} (h : IsTrimmed ps) : trimZeros ps = ps := by
  obtain ⟨hne, hl⟩ := h
  have hr : ps.reverse ≠ [] := by simpa using hne
  obtain ⟨z, r, hz⟩ : ∃ z r, ps.reverse = z :: r := by
    cases hp : ps.reverse with
    | nil => exact absurd hp hr
    | cons z r => exact ⟨z, r, rfl⟩
  have hlast : ps.getLast? = some z := by rw [List.getLast?_eq_head?_reverse, hz]; rfl
  have hlen : ps.length = r.length + 1 := by
    rw [← List.length_reverse, hz, List.length_cons]
  have hps : ps = r.reverse ++ [z] := by
    rw [← List.reverse_reverse ps, hz, List.reverse_cons]
  -- a zero at the end is kept only as the sole number
  by_cases h0 : z = 0
  · have : r = [] := by
      cases r with
      | nil => rfl
      | cons a b => exact absurd (h0 ▸ hlast) (hl (by rw [hlen]; simp))
    subst this h0
    simp [trimZeros, hps]
  · have : (ps.reverse.dropWhile (· == 0)).reverse = ps := by
      rw [hz, List.dropWhile_cons_of_neg (by simpa using h0), ← hz, List.reverse_reverse]
    unfold trimZeros
    rw [this]
    cases ps with
    | nil => exact absurd rfl hne
    | cons a b => rfl

end Version

/-- A version: its numbers, without the zeros at the end that do not count. -/
structure Version where
  parts : List Int
  trimmed : Version.IsTrimmed parts

namespace Version

@[ext] theorem ext {v w : Version} (h : v.parts = w.parts) : v = w := by
  cases v; cases w; cases h; rfl

instance : DecidableEq Version := fun v w =>
  decidable_of_iff (v.parts = w.parts) ⟨ext, fun h => h ▸ rfl⟩

/-- The version that the numbers make. -/
def ofParts (ps : List Int) : Version :=
  ⟨trimZeros ps, isTrimmed_trimZeros ps⟩

theorem ofParts_parts (v : Version) : ofParts v.parts = v :=
  ext (trimZeros_eq_self v.trimmed)

/-- The base version, `0`. -/
def zero : Version :=
  ofParts [0]

instance : Inhabited Version := ⟨zero⟩

/-- Versions are ordered by their first difference; one that only goes on is the greater. -/
instance : LT Version := ⟨fun v w => v.parts < w.parts⟩

instance : LE Version := ⟨fun v w => ¬ w < v⟩

instance (v w : Version) : Decidable (v < w) :=
  inferInstanceAs (Decidable (v.parts < w.parts))

instance (v w : Version) : Decidable (v ≤ w) :=
  inferInstanceAs (Decidable (¬ w < v))

def text (v : Version) : String :=
  Text.join "." (v.parts.map toString)

/-- The version that a text names: non-negative integer literals, separated by points. -/
def ofText? (s : String) : Option Version := do
  let ps ← (Text.splitAt '.' (Text.trim s)).mapM Text.intLiteral?
  if ps.any (· < 0) then none else return ofParts ps

/-- The versions with one more, in ascending order and each once, if they were so before. -/
def insertDistinct (v : Version) : List Version → List Version
  | [] => [v]
  | w :: r => if v < w then v :: w :: r else if v = w then w :: r else w :: insertDistinct v r

/-- The distinct versions of a list in ascending order. -/
def distinct (vs : List Version) : List Version :=
  vs.foldr insertDistinct []

/-- A version with one more in a list of versions in ascending order, after those equal to it. -/
def insertSorted (v : Version) : List Version → List Version
  | [] => [v]
  | w :: r => if v < w then v :: w :: r else w :: insertSorted v r

/-- The versions of a list in ascending order. -/
def sort (vs : List Version) : List Version :=
  vs.foldl (fun sorted v => insertSorted v sorted) []

/-- How one version compares with another. -/
def order (v w : Version) : Ordering :=
  if v < w then .lt else if v = w then .eq else .gt

end Version

end Typewright
