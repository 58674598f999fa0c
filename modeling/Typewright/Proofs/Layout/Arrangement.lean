import Typewright.Layout
import Typewright.Proofs.Fallible

/-!
# Arrangement

Lines as a layout puts them when no indentation is refused. What is refused is a matter of the
levels at which the lines stand, so that a buffer can be followed in two steps: the levels first,
and the lines from there.

- `Layout.arrange`: lines laid out from a level on, however far in.
- `Layout.levels`: the levels at which the lines stand; `arrange_fst` puts each line at its level.
- `Layout.Indents`: the levels whose indentation can be made.
- `Layout.Buffer.appendLines_of_indents`: lines that can all be indented are appended as arranged.
- `Layout.text_eq_ok_iff`, `Layout.text_eq_error_iff`: when lines have a text, and why they have
  none.
-/

namespace Typewright.Layout

variable {l : Layout} {n : Nat} {line : String} {lines : List String} {fault : Text.RepeatFault}

/-! ## Lines from a level on -/

/-- The text before a line at a level, however long. -/
def inset (l : Layout) (level : Nat) : String :=
  Text.times l.indent level

/-- A line as it is laid out at a level, and the level after it. -/
def emit (l : Layout) (level : Nat) (line : String) : String × Nat :=
  let clean := Text.trim line
  (l.inset (l.levelOf level clean) ++ clean, l.levelAfter level clean)

/-- Lines as they are laid out from a level on, and the level after them. -/
def arrange (l : Layout) (level : Nat) : List String → List String × Nat
  | [] => ([], level)
  | line :: r =>
    let (done, next) := l.emit level line
    let (rest, last) := l.arrange next r
    (done :: rest, last)

theorem arrange_append (l : Layout) (n : Nat) (xs ys : List String) :
    l.arrange n (xs ++ ys) =
      ((l.arrange n xs).1 ++ (l.arrange (l.arrange n xs).2 ys).1,
        (l.arrange (l.arrange n xs).2 ys).2) := by
  induction xs generalizing n with
  | nil => rfl
  | cons x xs ih => simp [arrange, ih]

theorem length_arrange (l : Layout) (n : Nat) (lines : List String) :
    (l.arrange n lines).1.length = lines.length := by
  induction lines generalizing n with
  | nil => rfl
  | cons line r ih => simp [arrange, ih]

/-! ## Levels -/

/-- The levels at which lines stand when the level before them is `n`. -/
def levels (l : Layout) (n : Nat) : List String → List Nat
  | [] => []
  | line :: r =>
    l.levelOf n (Text.trim line) :: l.levels (l.levelAfter n (Text.trim line)) r

theorem length_levels (l : Layout) (n : Nat) (lines : List String) :
    (l.levels n lines).length = lines.length := by
  induction lines generalizing n with
  | nil => rfl
  | cons line r ih => simp [levels, ih]

theorem levels_append (l : Layout) (n : Nat) (xs ys : List String) :
    l.levels n (xs ++ ys) = l.levels n xs ++ l.levels (l.arrange n xs).2 ys := by
  induction xs generalizing n with
  | nil => rfl
  | cons x xs ih => simp only [List.cons_append, levels, ih, arrange, emit]

/-- Lines are laid out at their levels. -/
theorem arrange_fst (l : Layout) (n : Nat) (lines : List String) :
    (l.arrange n lines).1 =
      List.zipWith (fun m line => l.inset m ++ Text.trim line) (l.levels n lines) lines := by
  induction lines generalizing n with
  | nil => rfl
  | cons line r ih => simp only [arrange, emit, levels, ih, List.zipWith_cons_cons]

/-- Only the lines without the blanks around them matter to their levels. -/
theorem levels_congr {xs ys : List String} (h : xs.map Text.trim = ys.map Text.trim) (n : Nat) :
    l.levels n xs = l.levels n ys := by
  induction xs generalizing n ys with
  | nil => rw [List.map_eq_nil_iff.1 h.symm]
  | cons x xs ih =>
    obtain ⟨y, ys, rfl, hx, hxs⟩ := List.map_eq_cons_iff.1 h.symm
    rw [levels, levels, hx, ih hxs.symm]

/-! ## Levels that can be indented -/

/-- The indentation of a level can be made. -/
def Indents (l : Layout) (n : Nat) : Prop :=
  ∃ margin, l.margin n = .ok margin

/-- The level fits into a word, and its indentation into memory. -/
theorem indents_iff :
    l.Indents n ↔ n < Text.wordLimit ∧ Text.codeCount l.indent * n ≤ l.memory.capacity := by
  constructor
  · rintro ⟨margin, h⟩
    unfold Layout.margin Text.repeated at h
    split at h
    · cases h
    next hn =>
    split at h
    · cases h
    split at h
    · cases h
    next hm =>
    simp only [Bool.or_eq_true, decide_eq_true_iff, not_or, Int.not_le] at hn
    rw [Int.toNat_natCast] at hm
    omega
  · rintro ⟨hn, h⟩
    exact ⟨l.inset n, Text.repeated_of_le hn h⟩

instance (l : Layout) (n : Nat) : Decidable (l.Indents n) :=
  decidable_of_iff _ indents_iff.symm

theorem margin_of_indents (h : l.Indents n) : l.margin n = .ok (l.inset n) := by
  obtain ⟨hn, hlen⟩ := indents_iff.1 h
  exact Text.repeated_of_le hn hlen

theorem exists_fault_of_not_indents (h : ¬l.Indents n) : ∃ fault, l.margin n = .error fault := by
  cases hr : l.margin n with
  | error fault => exact ⟨fault, rfl⟩
  | ok margin => exact absurd ⟨margin, hr⟩ h

theorem not_indents_of_error (h : l.margin n = .error fault) : ¬l.Indents n := by
  rintro ⟨margin, hm⟩
  cases hm.symm.trans h

theorem indents_zero (l : Layout) : l.Indents 0 :=
  indents_iff.2 ⟨by decide, Nat.zero_le _⟩

/-! ## Lines that are appended -/

namespace Buffer

variable {b : Buffer}

/-- The buffer after lines that all have been laid out. -/
def laid (l : Layout) (b : Buffer) (lines : List String) : Buffer :=
  ⟨(l.arrange b.level lines).2, b.lines ++ (l.arrange b.level lines).1⟩

theorem laid_nil (l : Layout) (b : Buffer) : b.laid l [] = b := by
  simp [laid, arrange]

theorem laid_append (l : Layout) (b : Buffer) (xs ys : List String) :
    b.laid l (xs ++ ys) = (b.laid l xs).laid l ys := by
  simp only [laid, arrange_append, List.append_assoc]

theorem appendLine_of_indents (h : l.Indents (l.levelOf b.level (Text.trim line))) :
    b.appendLine l line = (b.laid l [line], none) := by
  rw [appendLine, margin_of_indents h]
  rfl

/-- A line that is refused leaves the buffer at its level. -/
theorem appendLine_of_error (h : l.margin (l.levelOf b.level (Text.trim line)) = .error fault) :
    b.appendLine l line =
      (⟨l.levelOf b.level (Text.trim line), b.lines⟩, some (.indentation fault)) := by
  rw [appendLine, h]

/-- Lines after others that can be indented are appended to what those leave. -/
theorem appendLines_append {rest : List String} (h : ∀ n ∈ l.levels b.level lines, l.Indents n) :
    b.appendLines l (lines ++ rest) = (b.laid l lines).appendLines l rest := by
  induction lines generalizing b with
  | nil => rw [laid_nil]; rfl
  | cons line r ih =>
    obtain ⟨hn, hr⟩ := List.forall_mem_cons.1 h
    rw [List.cons_append, appendLines, appendLine_of_indents hn]
    exact (ih hr).trans (by rw [← laid_append]; rfl)

theorem appendLines_of_indents (h : ∀ n ∈ l.levels b.level lines, l.Indents n) :
    b.appendLines l lines = (b.laid l lines, none) := by
  rw [← List.append_nil lines, appendLines_append h, List.append_nil]
  rfl

end Buffer

/-! ## Texts -/

/-- The indentation of a line is refused, and the lines before it can be indented. -/
def Refuses (l : Layout) (n : Nat) (lines : List String) (fault : Text.RepeatFault) : Prop :=
  ∃ done line rest, lines = done ++ line :: rest ∧ (∀ m ∈ l.levels n done, l.Indents m) ∧
    l.margin (l.levelOf (l.arrange n done).2 (Text.trim line)) = .error fault

/-- Lines are refused exactly if one of their levels is. -/
theorem exists_refuses_iff :
    (∃ fault, l.Refuses n lines fault) ↔ ∃ m ∈ l.levels n lines, ¬l.Indents m := by
  constructor
  · rintro ⟨fault, done, line, rest, rfl, -, hf⟩
    refine ⟨_, ?_, not_indents_of_error hf⟩
    rw [levels_append]
    exact List.mem_append_right _ List.mem_cons_self
  · -- the first such level is found from the left, with the lines before it taken off
    rintro ⟨m, hm, hi⟩
    induction lines generalizing n with
    | nil => cases hm
    | cons line r ih =>
      by_cases hn : l.Indents (l.levelOf n (Text.trim line))
      · rcases List.mem_cons.1 hm with rfl | hm
        · exact absurd hn hi
        · obtain ⟨fault, done, line', rest, rfl, hd, hf⟩ := ih hm
          exact ⟨fault, line :: done, line', rest, rfl, List.forall_mem_cons.2 ⟨hn, hd⟩, hf⟩
      · obtain ⟨fault, hf⟩ := exists_fault_of_not_indents hn
        exact ⟨fault, [], line, r, rfl, by simp [levels], hf⟩

theorem text_of_indents (h : ∀ n ∈ l.levels 0 lines, l.Indents n) :
    l.text lines = .ok (unlines (l.arrange 0 lines).1) := by
  rw [text, Buffer.appendLines_of_indents (b := ⟨0, []⟩) h]
  rfl

theorem text_of_refuses (h : l.Refuses 0 lines fault) :
    l.text lines = .error (.indentation fault) := by
  obtain ⟨done, line, rest, rfl, hd, hf⟩ := h
  rw [text, Buffer.appendLines_append (b := ⟨0, []⟩) hd, Buffer.appendLines,
    Buffer.appendLine_of_error hf]

theorem text_cases (l : Layout) (lines : List String) :
    (∀ n ∈ l.levels 0 lines, l.Indents n) ∨ ∃ fault, l.Refuses 0 lines fault := by
  rw [exists_refuses_iff]
  by_cases h : ∀ n ∈ l.levels 0 lines, l.Indents n
  · exact .inl h
  · simp only [not_forall] at h
    obtain ⟨n, hn, hi⟩ := h
    exact .inr ⟨n, hn, hi⟩

/-- Lines have a text exactly if they can all be indented, and it is what they are arranged to. -/
theorem text_eq_ok_iff {t : String} :
    l.text lines = .ok t ↔
      (∀ n ∈ l.levels 0 lines, l.Indents n) ∧ t = unlines (l.arrange 0 lines).1 := by
  constructor
  · intro h
    obtain hi | ⟨fault, hf⟩ := text_cases l lines
    · exact ⟨hi, (Except.ok.inj ((text_of_indents hi).symm.trans h)).symm⟩
    · cases (text_of_refuses hf).symm.trans h
  · rintro ⟨hi, rfl⟩
    exact text_of_indents hi

/-- Lines that have no text are refused for the first indentation that cannot be made. -/
theorem text_eq_error_iff {r : Refusal} :
    l.text lines = .error r ↔ ∃ fault, r = .indentation fault ∧ l.Refuses 0 lines fault := by
  constructor
  · intro h
    obtain hi | ⟨fault, hf⟩ := text_cases l lines
    · cases (text_of_indents hi).symm.trans h
    · exact ⟨fault, Except.error.inj (h.symm.trans (text_of_refuses hf)), hf⟩
  · rintro ⟨fault, rfl, hf⟩
    exact text_of_refuses hf

end Typewright.Layout
