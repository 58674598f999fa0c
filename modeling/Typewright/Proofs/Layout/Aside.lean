import Typewright.Proofs.Layout.Arrangement

/-!
# Lines set aside

Lines of which some are set aside: what is left of a layout when those are deleted from it, and how
that compares to a layout that never had them. A line set aside is of no consequence if the line
after it stands at the level at which it would stand without it.

- `Layout.kept`: the lines of a layout without those set aside; `kept_append` takes it apart.
- `Layout.emit_eq_iff`: a line looks the same at two levels exactly if it stands at the same level,
  unless a level has no text.
- `Layout.arrange_congr`: lines stand alike from two levels on if the first of them does.
-/

namespace Typewright

theorem Text.length_times (s : String) (n : Nat) :
    (Text.times s n).toList.length = n * s.toList.length := by
  simp [toList_times]

namespace Layout

variable {l : Layout} {a b : Nat} {line : String}

theorem arrange_of_indent (h : l.indent = "") (n : Nat) (lines : List String) :
    (l.arrange n lines).1 = lines.map Text.trim := by
  induction lines generalizing n with
  | nil => rfl
  | cons line r ih => simp [arrange, emit, inset, Text.times, h, ih]

/-! ## Levels -/

theorem inset_injective (h : l.indent ≠ "") (hm : l.inset a = l.inset b) : a = b := by
  have hlen : 0 < l.indent.toList.length := by
    rw [List.length_pos_iff]
    simpa using h
  have hab := congrArg (fun s => s.toList.length) hm
  simp only [inset, Text.length_times] at hab
  exact Nat.eq_of_mul_eq_mul_right hlen hab

/-- A line that stands at the same level has the same consequences. -/
theorem emit_congr (h : l.levelOf a (Text.trim line) = l.levelOf b (Text.trim line)) :
    l.emit a line = l.emit b line := by
  simp only [emit, levelAfter, h]

/-- A line looks the same exactly if it stands at the same level. -/
theorem emit_eq_iff (hi : l.indent ≠ "") :
    (l.emit a line).1 = (l.emit b line).1 ↔
      l.levelOf a (Text.trim line) = l.levelOf b (Text.trim line) := by
  refine ⟨fun h => ?_, fun h => congrArg Prod.fst (emit_congr h)⟩
  rw [emit, emit, ← String.toList_inj, String.toList_append, String.toList_append,
    List.append_cancel_right_eq, String.toList_inj] at h
  exact inset_injective hi h

/-- Lines stand alike from two levels on if the first of them does. -/
theorem arrange_congr {r : List String}
    (h : l.levelOf a (Text.trim line) = l.levelOf b (Text.trim line)) :
    l.arrange a (line :: r) = l.arrange b (line :: r) := by
  simp only [arrange, emit_congr h]

theorem levels_cons_congr {r : List String}
    (h : l.levelOf a (Text.trim line) = l.levelOf b (Text.trim line)) :
    l.levels a (line :: r) = l.levels b (line :: r) := by
  simp only [levels, levelAfter, h]

/-! ## Deletion -/

/-- What is left of a layout from a level on when the lines set aside are deleted. -/
def kept (l : Layout) (n : Nat) (lines : List (Bool × String)) : List String :=
  ((lines.zip (l.arrange n (lines.map (·.2))).1).filter fun x => !x.1.1).map (·.2)

theorem kept_append (l : Layout) (n : Nat) (xs ys : List (Bool × String)) :
    l.kept n (xs ++ ys) = l.kept n xs ++ l.kept (l.arrange n (xs.map (·.2))).2 ys := by
  have hlen : xs.length = (l.arrange n (xs.map (·.2))).1.length := by
    rw [length_arrange, List.length_map]
  rw [kept, List.map_append, arrange_append, List.zip_append hlen, List.filter_append,
    List.map_append]
  rfl

theorem kept_aside (l : Layout) (n : Nat) (lines : List String) :
    l.kept n (lines.map ((true, ·))) = [] := by
  rw [kept, List.map_eq_nil_iff, List.filter_eq_nil_iff]
  intro x hx
  obtain ⟨line, -, hline⟩ := List.mem_map.1 (List.of_mem_zip hx).1
  simp [← hline]

theorem kept_written (l : Layout) (n : Nat) (lines : List String) :
    l.kept n (lines.map ((false, ·))) = (l.arrange n lines).1 := by
  have hlines : (lines.map ((false, ·))).map (·.2) = lines := by simp [Function.comp_def]
  rw [kept, hlines, List.filter_eq_self.2, List.map_snd_zip]
  · simp [length_arrange]
  · intro x hx
    obtain ⟨line, -, hline⟩ := List.mem_map.1 (List.of_mem_zip hx).1
    simp [← hline]

end Layout

end Typewright
