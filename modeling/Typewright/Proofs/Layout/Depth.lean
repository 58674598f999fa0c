import Typewright.Proofs.Layout.Arrangement

/-!
# Depths of lines

The depth at which a line is laid out is the number of blocks that are open around it, as long as
no line closes a block where none is open.

- `Layout.depths`: the depths of lines, unless a block is closed that was never opened.
- `Layout.depths_append`: lines after others go on where those left off.
- `Layout.depths_cons_of_marks`: where a line stands by what it does to the blocks around it.
- `Layout.arrange_of_depths`: lines are laid out at their depths.
-/

namespace Typewright.Layout

variable {l : Layout}

/--
The depths at which lines stand from a depth on, and the depth after them. There is no answer if a
line closes a block where none is open.
-/
def depths (l : Layout) (depth : Nat) : List String → Option (List Nat × Nat)
  | [] => some ([], depth)
  | line :: r =>
    let clean := Text.trim line
    if l.closes clean && depth == 0 then none
    else (l.depths (l.levelAfter depth clean) r).map fun (rest, last) =>
      (l.levelOf depth clean :: rest, last)

theorem depths_cons_iff {n m : Nat} {line : String} {r : List String} {ds : List Nat} :
    l.depths n (line :: r) = some (ds, m) ↔
      (l.closes (Text.trim line) → 0 < n) ∧
        ∃ rest, l.depths (l.levelAfter n (Text.trim line)) r = some (rest, m) ∧
          ds = l.levelOf n (Text.trim line) :: rest := by
  have hn : ¬ (l.closes (Text.trim line) && n == 0) ↔ (l.closes (Text.trim line) → 0 < n) := by
    simp [Nat.pos_iff_ne_zero]
  rw [depths, ← hn]
  by_cases hc : l.closes (Text.trim line) && n == 0
  · simp [hc]
  · simp only [hc, Bool.false_eq_true, if_false, not_false_iff, true_and, Option.map_eq_some_iff]
    constructor
    · rintro ⟨⟨rest, last⟩, hr, he⟩
      obtain ⟨rfl, rfl⟩ := Prod.mk.inj he
      exact ⟨rest, hr, rfl⟩
    · rintro ⟨rest, hr, rfl⟩
      exact ⟨(rest, m), hr, rfl⟩

/-- Lines after others stand as they do from the depth that those leave. -/
theorem depths_append {n m k : Nat} {xs ys : List String} {ds es : List Nat}
    (hx : l.depths n xs = some (ds, m)) (hy : l.depths m ys = some (es, k)) :
    l.depths n (xs ++ ys) = some (ds ++ es, k) := by
  induction xs generalizing n ds with
  | nil =>
    obtain ⟨rfl, rfl⟩ := Prod.mk.inj (Option.some.inj hx)
    exact hy
  | cons line r ih =>
    obtain ⟨hc, rest, hr, rfl⟩ := depths_cons_iff.1 hx
    exact depths_cons_iff.2 ⟨hc, rest ++ es, ih hr, rfl⟩

/-- Whether a line, when trimmed, opens a block and whether it closes one. -/
structure Marks (l : Layout) (line : String) (opens closes : Bool) : Prop where
  opens_eq : l.opens (Text.trim line) = opens
  closes_eq : l.closes (Text.trim line) = closes

/-- A line stands outside of a block that it closes, what follows it inside one that it opens. -/
theorem depths_cons_of_marks {n m : Nat} {line : String} {r : List String} {ds : List Nat}
    {opens closes : Bool} (h : l.Marks line opens closes)
    (hr : l.depths (n + opens.toNat) r = some (ds, m)) :
    l.depths (n + closes.toNat) (line :: r) = some (n :: ds, m) := by
  obtain ⟨rfl, rfl⟩ := h
  have hlevel : l.levelOf (n + (l.closes (Text.trim line)).toNat) (Text.trim line) = n := by
    cases hc : l.closes (Text.trim line) <;> simp [levelOf, hc]
  have hafter : l.levelAfter (n + (l.closes (Text.trim line)).toNat) (Text.trim line) =
      n + (l.opens (Text.trim line)).toNat := by
    cases ho : l.opens (Text.trim line) <;> simp [levelAfter, hlevel, ho]
  refine depths_cons_iff.2 ⟨fun hc => ?_, ds, hafter ▸ hr, by rw [hlevel]⟩
  rw [hc, Bool.toNat_true]
  omega

/-- Lines that neither open nor close a block stand at the depth around them. -/
theorem depths_of_neutral {n : Nat} {lines : List String}
    (h : ∀ line ∈ lines, l.Marks line false false) :
    l.depths n lines = some (lines.map fun _ => n, n) := by
  induction lines with
  | nil => rfl
  | cons line r ih =>
    obtain ⟨hline, hr⟩ := List.forall_mem_cons.1 h
    exact depths_cons_of_marks hline (ih hr)

/-! ## Levels -/

/-- Lines stand at their depths, and leave the depth after them. -/
theorem levels_of_depths {n m : Nat} {lines : List String} {ds : List Nat}
    (h : l.depths n lines = some (ds, m)) : l.levels n lines = ds ∧ (l.arrange n lines).2 = m := by
  induction lines generalizing n ds with
  | nil =>
    obtain ⟨rfl, rfl⟩ := Prod.mk.inj (Option.some.inj h)
    exact ⟨rfl, rfl⟩
  | cons line r ih =>
    obtain ⟨-, rest, hr, rfl⟩ := depths_cons_iff.1 h
    obtain ⟨hlevels, hlast⟩ := ih hr
    exact ⟨by rw [levels, hlevels], hlast⟩

/-- Lines are laid out at their depths. -/
theorem arrange_of_depths {n m : Nat} {lines : List String} {ds : List Nat}
    (h : l.depths n lines = some (ds, m)) :
    l.arrange n lines =
      (List.zipWith (fun d line => l.inset d ++ Text.trim line) ds lines, m) := by
  obtain ⟨rfl, rfl⟩ := levels_of_depths h
  rw [← arrange_fst]

end Typewright.Layout
