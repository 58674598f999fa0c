import Typewright.Text.CodePoint

/-!
# Units

Units are named texts in the order in which they were made. Merging adds units one by one and stops
at the first whose name is taken.

- `Units.merge`: the units after merging, and the name that was taken, if one was.
- `Units.merge_eq_none_iff`: merging succeeds exactly when no name is taken.
-/

namespace Typewright

/-- Named values in the order in which they were made. -/
abbrev Units (α : Type) := List (String × α)

namespace Units

variable {α : Type}

def names (us : Units α) : List String :=
  us.map (·.1)

/-- Units after merging others into them, and the name of the first that was taken. -/
def merge (target : Units α) : Units α → Units α × Option String
  | [] => (target, none)
  | (name, value) :: r =>
    if name ∈ target.names then (target, some name) else merge (target ++ [(name, value)]) r

/-- Units in ascending order of their names, with one more. -/
def insertByName (u : String × α) : Units α → Units α
  | [] => [u]
  | v :: r => if Text.comesBefore u.1 v.1 then u :: v :: r else v :: insertByName u r

def sorted (us : Units α) : Units α :=
  us.foldr insertByName []

@[simp] theorem names_append (us vs : Units α) : names (us ++ vs) = names us ++ names vs := by
  simp [names]

@[simp] theorem names_cons (u : String × α) (us : Units α) : names (u :: us) = u.1 :: names us :=
  rfl

@[simp] theorem names_nil : names ([] : Units α) = [] :=
  rfl

/-- Merging succeeds exactly when the names to come are new and differ from each other. -/
theorem merge_eq_none_iff (target units : Units α) :
    (merge target units).2 = none ↔
      (∀ n ∈ units.names, n ∉ target.names) ∧ units.names.Nodup := by
  induction units generalizing target with
  | nil => simp [merge]
  | cons u r ih =>
    obtain ⟨name, value⟩ := u
    rw [merge]
    by_cases h : name ∈ target.names
    · simp [h]
    · rw [if_neg h, ih]
      simp only [names_append, names_cons, names_nil, List.mem_append, List.mem_cons,
        List.not_mem_nil, or_false, List.nodup_cons, forall_eq_or_imp]
      -- the names to come have to differ from those there and from the one just put in
      constructor
      · rintro ⟨hd, hn⟩
        exact ⟨⟨h, fun n hr ht => hd n hr (.inl ht)⟩, fun hm => hd name hm (.inr rfl), hn⟩
      · rintro ⟨⟨_, hd⟩, hm, hn⟩
        refine ⟨fun n hr ht => ?_, hn⟩
        rcases ht with ht | rfl
        · exact hd n hr ht
        · exact hm hr

/-- When merging succeeds, the others stand after the units that were there. -/
theorem merge_eq_append {target units : Units α} (h : (merge target units).2 = none) :
    (merge target units).1 = target ++ units := by
  induction units generalizing target with
  | nil => simp [merge]
  | cons u r ih =>
    obtain ⟨name, value⟩ := u
    rw [merge] at h ⊢
    by_cases hn : name ∈ target.names
    · simp [hn] at h
    · rw [if_neg hn] at h ⊢
      rw [ih h, List.append_assoc]; rfl

end Units

end Typewright
