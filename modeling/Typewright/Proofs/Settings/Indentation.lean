import Mathlib.Tactic.SplitIfs
import Typewright.Proofs.Fallible
import Typewright.Settings.Basic

/-!
# Indentation

A level of indentation is a tab, or as many blanks as the settings say. It is made when a text is
laid out, and only then does it show whether the settings give a count at all.

- `Settings.HasLevel`, `Settings.LacksLevel`: whether a level can be made, and why it cannot.
- `Settings.exists_indent_iff`, `Settings.indent_error_iff`: the level of the settings.
-/

namespace Typewright

/-- As many blanks as a count says, which may be too large for a word or for memory. -/
theorem Text.repeated_blank (m : Memory) (n : Int) :
    repeated m " " n =
      if n < -wordLimit ∨ wordLimit ≤ n then .error .countTooLarge
      else if m.capacity < n then .error .outOfMemory
      else .ok (times " " n.toNat) := by
  have hone : codeCount " " = 1 := rfl
  unfold repeated
  simp only [hone, Nat.one_mul, Bool.or_eq_true, decide_eq_true_iff]
  by_cases hword : n < -wordLimit ∨ (wordLimit : Int) ≤ n
  · rw [if_pos hword, if_pos hword]
  · rw [if_neg hword, if_neg hword, if_neg (by omega)]
    by_cases hmemory : (m.capacity : Int) < n
    · rw [if_pos (by omega), if_pos hmemory]
    · rw [if_neg (by omega), if_neg hmemory]

namespace Settings

variable {m : Text.Memory} {c : Settings} {d : Defect}

/-- A level of indentation can be made. -/
def HasLevel (m : Text.Memory) (c : Settings) : Prop :=
  c.useTabs.isTruthy ∨
    ∃ n, countOf c.indentSize = .ok n ∧ -Text.wordLimit ≤ n ∧ n ≤ m.capacity

/-- Why a level of indentation cannot be made. -/
inductive LacksLevel (m : Text.Memory) (c : Settings) : Defect → Prop
  | notCount (ht : c.useTabs.isTruthy = false) (hi : ∀ n, countOf c.indentSize ≠ .ok n) :
      LacksLevel m c (.notCount c.indentSize)
  | countTooLarge {n : Int} (ht : c.useTabs.isTruthy = false) (hi : countOf c.indentSize = .ok n)
      (hn : n < -Text.wordLimit ∨ Text.wordLimit ≤ n) :
      LacksLevel m c (.repetition .countTooLarge)
  | outOfMemory {n : Int} (ht : c.useTabs.isTruthy = false) (hi : countOf c.indentSize = .ok n)
      (hm : m.capacity < n) (hw : n < Text.wordLimit) :
      LacksLevel m c (.repetition .outOfMemory)

theorem countOf_error {j : Json} (h : countOf j = .error d) : d = .notCount j := by
  cases j with
  | int n => cases h
  | bool b => cases h
  | _ => exact (Except.error.inj h).symm

theorem indent_error_iff : c.indent m = .error d ↔ c.LacksLevel m d := by
  unfold indent
  cases ht : c.useTabs.isTruthy with
  | true =>
    refine iff_of_false (fun h => by cases h) ?_
    rintro (⟨hf, -⟩ | ⟨hf, -⟩ | ⟨hf, -⟩) <;> cases ht.symm.trans hf
  | false =>
    cases hi : countOf c.indentSize with
    | error d' =>
      obtain rfl := countOf_error hi
      constructor
      · intro h
        obtain rfl := Except.error.inj h
        exact .notCount ht fun n hn => by cases hi.symm.trans hn
      · rintro (_ | ⟨-, hn, -⟩ | ⟨-, hn, -, -⟩)
        · rfl
        · cases hi.symm.trans hn
        · cases hi.symm.trans hn
    -- the word is asked about before the memory, so of two reasons the first is given
    | ok n =>
      simp only [bind, Except.bind, Text.repeated_blank, Bool.false_eq_true, if_false]
      constructor
      · intro h
        split_ifs at h with hword hmemory
        · cases h
          exact .countTooLarge ht hi hword
        · cases h
          exact .outOfMemory ht hi hmemory (by omega)
        · cases h
      · rintro (⟨-, hn⟩ | ⟨-, hn, hword⟩ | ⟨-, hn, hmemory, hword⟩)
        · exact absurd hi (hn n)
        · obtain rfl := Except.ok.inj (hi.symm.trans hn)
          rw [if_pos hword]
          rfl
        · obtain rfl := Except.ok.inj (hi.symm.trans hn)
          have hw := m.capacity_lt
          rw [if_neg (by omega), if_pos hmemory]
          rfl

/-- A level cannot be made for one reason only. -/
theorem LacksLevel.unique {d' : Defect} (h : c.LacksLevel m d) (h' : c.LacksLevel m d') : d = d' :=
  Except.error.inj ((indent_error_iff.2 h).symm.trans (indent_error_iff.2 h'))

theorem exists_indent_iff : (∃ indent, c.indent m = .ok indent) ↔ c.HasLevel m := by
  have hw := m.capacity_lt
  unfold indent HasLevel
  cases c.useTabs.isTruthy with
  | true => simp
  | false =>
    cases countOf c.indentSize with
    | error d => simp [bind, Except.bind]
    | ok n =>
      simp only [bind, Except.bind, Text.repeated_blank, Bool.false_eq_true, if_false, false_or,
        Except.ok.injEq, exists_eq_left']
      constructor
      · rintro ⟨indent, h⟩
        split_ifs at h with hword hmemory
        · cases h
        · cases h
        · omega
      · rintro ⟨hlow, hhigh⟩
        rw [if_neg (by omega), if_neg (by omega)]
        exact ⟨_, rfl⟩

theorem hasLevel_iff : c.HasLevel m ↔ ∀ d, ¬ c.LacksLevel m d := by
  rw [← exists_indent_iff, Fallible.exists_ok_iff]
  exact forall_congr' fun d => not_congr indent_error_iff

end Settings

end Typewright
