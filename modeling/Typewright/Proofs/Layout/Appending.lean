import Typewright.Java.Fragment
import Typewright.Proofs.Layout.Arrangement
import Typewright.Proofs.Text.Lines

/-!
# Appending

What is appended to a buffer is a nest. Its leaves come from left to right, each as if it were
appended on its own, down to the first that is no line or whose indentation cannot be made.

- `Json.leaves`: the leaves of a nest.
- `Layout.Buffer.append_eq_appendAll`: a nest is appended leaf by leaf.
- `Layout.Buffer.Yields`: what comes of leaves, one case for each way in which appending ends.
- `Layout.Buffer.append_leafwise`: how a nest is appended.
-/

namespace Typewright

/-! ## Leaves -/

namespace Json

mutual

/-- The leaves of a nest from left to right. Null has none, and those of an object are its keys. -/
def leaves : Json → List Json
  | .null => []
  | .arr items => leavesAll items
  | .obj members => members.map fun m => .str m.1
  | j => [j]

/-- The leaves of several nests from left to right. -/
def leavesAll : List Json → List Json
  | [] => []
  | j :: r => leaves j ++ leavesAll r

end

/-- Whether a value is neither a line nor made of lines. -/
def isStray : Json → Bool
  | .bool _ | .int _ | .real _ => true
  | _ => false

/-- A leaf without the blanks around it. -/
def trimmed : Json → Json
  | .str line => .str (Text.trim line)
  | j => j

/-- A leaf is a line, or it is neither a line nor made of lines. -/
def IsLeaf (j : Json) : Prop :=
  (∃ line, j = .str line) ∨ j.isStray

mutual

theorem isLeaf_of_mem_leaves {x : Json} : {j : Json} → x ∈ j.leaves → x.IsLeaf
  | .null, h => by simp [leaves] at h
  | .arr _, h => isLeaf_of_mem_leavesAll h
  | .obj _, h => by
    obtain ⟨m, -, rfl⟩ := List.mem_map.1 h
    exact .inl ⟨m.1, rfl⟩
  | .str line, h => .inl ⟨line, List.mem_singleton.1 h⟩
  | .bool _, h | .int _, h | .real _, h => by
    rw [List.mem_singleton.1 h]
    exact .inr rfl

theorem isLeaf_of_mem_leavesAll {x : Json} : {items : List Json} → x ∈ leavesAll items → x.IsLeaf
  | [], h => by simp [leavesAll] at h
  | _ :: _, h =>
    (List.mem_append.1 h).elim isLeaf_of_mem_leaves isLeaf_of_mem_leavesAll

end

end Json

namespace Layout

variable {l : Layout}

/-- A layout without blocks and without a text for a level. -/
def plain : Layout :=
  ⟨"", .ample, fun _ => false, fun _ => false⟩

namespace Buffer

variable {b : Buffer} {lines : List String} {line : String} {fault : Text.RepeatFault}

/-! ## One after the other -/

/-- What comes after something that was appended, unless that was refused. -/
def andThen (x : Buffer × Option Refusal) (f : Buffer → Buffer × Option Refusal) :
    Buffer × Option Refusal :=
  match x with
  | (b, none) => f b
  | (b, some refusal) => (b, some refusal)

theorem andThen_none (x : Buffer × Option Refusal) : (andThen x fun b => (b, none)) = x := by
  obtain ⟨b, _ | refusal⟩ := x <;> rfl

theorem andThen_assoc (x : Buffer × Option Refusal) (f g : Buffer → Buffer × Option Refusal) :
    andThen (andThen x f) g = andThen x fun b => andThen (f b) g := by
  obtain ⟨b, _ | refusal⟩ := x <;> rfl

theorem appendLines_cons (l : Layout) (b : Buffer) (line : String) (r : List String) :
    b.appendLines l (line :: r) = andThen (b.appendLine l line) (appendLines l · r) := by
  rw [appendLines]; rfl

theorem appendAll_cons (l : Layout) (b : Buffer) (j : Json) (r : List Json) :
    appendAll l b (j :: r) = andThen (append l b j) (appendAll l · r) := by
  rw [appendAll]; rfl

theorem appendAll_singleton (l : Layout) (b : Buffer) (j : Json) :
    appendAll l b [j] = append l b j := by
  rw [appendAll_cons]
  exact andThen_none _

theorem appendAll_append (l : Layout) (b : Buffer) (xs ys : List Json) :
    appendAll l b (xs ++ ys) = andThen (appendAll l b xs) (appendAll l · ys) := by
  induction xs generalizing b with
  | nil => rfl
  | cons j r ih => simp only [List.cons_append, appendAll_cons, ih, andThen_assoc]

theorem appendAll_lines (l : Layout) (b : Buffer) (lines : List String) :
    appendAll l b (lines.map .str) = b.appendLines l lines := by
  induction lines generalizing b with
  | nil => rfl
  | cons line r ih => simp only [List.map_cons, appendAll_cons, ih, append, appendLines_cons]

mutual

/-- A nest is appended leaf by leaf. -/
theorem append_eq_appendAll (l : Layout) (b : Buffer) :
    (j : Json) → append l b j = appendAll l b j.leaves
  | .null => rfl
  | .arr items => appendAll_eq_appendAll l b items
  | .obj members => by
    have h := appendAll_lines l b (members.map (·.1))
    rw [List.map_map] at h
    exact h.symm
  | .str _ | .bool _ | .int _ | .real _ => (appendAll_singleton l b _).symm

theorem appendAll_eq_appendAll (l : Layout) (b : Buffer) :
    (items : List Json) → appendAll l b items = appendAll l b (Json.leavesAll items)
  | [] => rfl
  | j :: r => by
    have hr := fun b' => appendAll_eq_appendAll l b' r
    rw [appendAll_cons, append_eq_appendAll l b j, Json.leavesAll, appendAll_append]
    simp only [hr]

end

/-! ## Blanks around a leaf -/

theorem append_trimmed (l : Layout) (b : Buffer) (j : Json) :
    append l b j.trimmed = append l b j := by
  cases j with
  | str line => simp only [Json.trimmed, append, appendLine, Text.trim_trim]
  | _ => rfl

theorem appendAll_trimmed (l : Layout) (b : Buffer) (js : List Json) :
    appendAll l b (js.map Json.trimmed) = appendAll l b js := by
  induction js generalizing b with
  | nil => rfl
  | cons j r ih => simp only [List.map_cons, appendAll_cons, append_trimmed, ih]

/-! ## What comes of leaves -/

/-- Leaves after lines that can be indented are appended to what those leave. -/
theorem appendAll_lines_append {rest : List Json}
    (h : ∀ n ∈ l.levels b.level lines, l.Indents n) :
    appendAll l b (lines.map .str ++ rest) = appendAll l (b.laid l lines) rest := by
  rw [appendAll_append, appendAll_lines, appendLines_of_indents h]
  rfl

/-- What comes of leaves that are appended to a buffer one after the other. -/
inductive Yields (l : Layout) (b : Buffer) : List Json → Buffer × Option Refusal → Prop where
  /-- All of them are lines that can be indented. -/
  | all (lines : List String) (h : ∀ n ∈ l.levels b.level lines, l.Indents n) :
    Yields l b (lines.map .str) (b.laid l lines, none)
  /-- One is no line, and the lines before it can be indented. -/
  | stray (lines : List String) (value : Json) (rest : List Json)
    (h : ∀ n ∈ l.levels b.level lines, l.Indents n) (hv : value.isStray) :
    Yields l b (lines.map .str ++ value :: rest) (b.laid l lines, some (.notLine value))
  /-- One is a line that cannot be indented, and the lines before it can. -/
  | tooDeep (lines : List String) (line : String) (rest : List Json) (level : Nat)
    (fault : Text.RepeatFault) (h : ∀ n ∈ l.levels b.level lines, l.Indents n)
    (hl : level = l.levelOf (b.laid l lines).level (Text.trim line))
    (hf : l.margin level = .error fault) :
    Yields l b (lines.map .str ++ .str line :: rest)
      (⟨level, (b.laid l lines).lines⟩, some (.indentation fault))

theorem append_of_isStray {value : Json} (h : value.isStray) :
    append l b value = (b, some (.notLine value)) := by
  cases value with
  | bool _ | int _ | real _ => rfl
  | _ => cases h

theorem appendAll_of_yields {leaves : List Json} {x : Buffer × Option Refusal}
    (h : Yields l b leaves x) : appendAll l b leaves = x := by
  cases h with
  | all lines h =>
    rw [← List.append_nil (lines.map _), appendAll_lines_append h]
    rfl
  | stray lines value rest h hv =>
    rw [appendAll_lines_append h, appendAll_cons, append_of_isStray hv]
    rfl
  | tooDeep lines line rest level fault h hl hf =>
    subst hl
    rw [appendAll_lines_append h, appendAll_cons, append, appendLine_of_error hf]
    rfl

/-- What comes of leaves comes of them after a line that can be indented. -/
theorem Yields.cons {leaves : List Json} {x : Buffer × Option Refusal}
    (hn : l.Indents (l.levelOf b.level (Text.trim line)))
    (h : Yields l (b.laid l [line]) leaves x) : Yields l b (.str line :: leaves) x := by
  have hlaid : ∀ lines, (b.laid l [line]).laid l lines = b.laid l (line :: lines) := fun lines =>
    (laid_append l b [line] lines).symm
  have hlevels : ∀ lines, (∀ n ∈ l.levels (b.laid l [line]).level lines, l.Indents n) →
      ∀ n ∈ l.levels b.level (line :: lines), l.Indents n := fun lines h =>
    List.forall_mem_cons.2 ⟨hn, h⟩
  cases h with
  | all lines h => rw [hlaid]; exact .all (line :: lines) (hlevels lines h)
  | stray lines value rest h hv =>
    rw [hlaid]; exact .stray (line :: lines) value rest (hlevels lines h) hv
  | tooDeep lines line' rest level fault h hl hf =>
    rw [hlaid] at hl ⊢
    exact .tooDeep (line :: lines) line' rest level fault (hlevels lines h) hl hf

theorem exists_yields (l : Layout) (b : Buffer) {leaves : List Json}
    (h : ∀ j ∈ leaves, j.IsLeaf) : ∃ x, Yields l b leaves x := by
  induction leaves generalizing b with
  | nil => exact ⟨_, .all [] (by simp [levels])⟩
  | cons j r ih =>
    obtain ⟨hj, hr⟩ := List.forall_mem_cons.1 h
    obtain ⟨line, rfl⟩ | hv := hj
    · by_cases hn : l.Indents (l.levelOf b.level (Text.trim line))
      · obtain ⟨x, hx⟩ := ih (b.laid l [line]) hr
        exact ⟨x, hx.cons hn⟩
      · obtain ⟨fault, hf⟩ := exists_fault_of_not_indents hn
        exact ⟨_, .tooDeep [] line r _ fault (by simp [levels]) (by rw [laid_nil]) hf⟩
    · exact ⟨_, .stray [] j r (by simp [levels]) hv⟩

theorem append_iff_yields (l : Layout) (b : Buffer) (j : Json) (x : Buffer × Option Refusal) :
    append l b j = x ↔ Yields l b j.leaves x := by
  obtain ⟨y, hy⟩ := exists_yields l b fun x (hx : x ∈ j.leaves) => Json.isLeaf_of_mem_leaves hx
  have hj : append l b j = y := (append_eq_appendAll l b j).trans (appendAll_of_yields hy)
  constructor
  · rintro rfl
    rwa [hj]
  · intro hx
    rw [append_eq_appendAll, appendAll_of_yields hx]

/-- Something is no line exactly if it is found behind lines that can be indented. -/
theorem Yields.notLine_iff {leaves : List Json} {x : Buffer × Option Refusal}
    (h : Yields l b leaves x) (value : Json) :
    x.2 = some (.notLine value) ↔
      ∃ lines rest, leaves = List.map .str lines ++ value :: rest ∧ value.isStray ∧
        ∀ n ∈ l.levels b.level lines, l.Indents n := by
  constructor
  · intro hx
    cases h with
    | all => cases hx
    | stray lines value' rest h hv =>
      obtain rfl := Refusal.notLine.inj (Option.some.inj hx)
      exact ⟨lines, rest, rfl, hv, h⟩
    | tooDeep => cases hx
  · rintro ⟨lines, rest, rfl, hv, hl⟩
    rw [← appendAll_of_yields h, appendAll_of_yields (.stray lines value rest hl hv)]

theorem Yields.exists_lines {leaves : List Json} {x : Buffer × Option Refusal}
    (h : Yields l b leaves x) : ∃ added, x.1.lines = b.lines ++ added := by
  cases h with
  | all => exact ⟨_, rfl⟩
  | stray => exact ⟨_, rfl⟩
  | tooDeep => exact ⟨_, rfl⟩

/--
A nest is appended leaf by leaf from the left, and what comes of it is what comes of its leaves. A
value is refused for being no line exactly if it is a number or truth value among the leaves, behind
lines that can be indented. Lines are only added at the end, and nests whose leaves are the same up
to the blanks around them have the same effect.
-/
theorem append_leafwise (l : Layout) (b : Buffer) (j : Json) :
    append l b j = appendAll l b j.leaves ∧
      (∀ x, append l b j = x ↔ Yields l b j.leaves x) ∧
      (∀ value, (append l b j).2 = some (.notLine value) ↔
        ∃ lines rest, j.leaves = List.map .str lines ++ value :: rest ∧ value.isStray ∧
          ∀ n ∈ l.levels b.level lines, l.Indents n) ∧
      (∃ added, (append l b j).1.lines = b.lines ++ added) ∧
      ∀ k : Json, k.leaves.map Json.trimmed = j.leaves.map Json.trimmed →
        append l b k = append l b j := by
  have hy := (append_iff_yields l b j _).1 rfl
  refine ⟨append_eq_appendAll l b j, append_iff_yields l b j, hy.notLine_iff, hy.exists_lines, ?_⟩
  intro k hk
  rw [append_eq_appendAll, append_eq_appendAll l b j, ← appendAll_trimmed, hk, appendAll_trimmed]

theorem append_leafwise_block :
    append (Java.layout .ample "  ") ⟨0, []⟩
          (.arr [.str "a \x7b", .obj [("b", .null)], .arr [.null, .int 1], .str "\x7d"]) =
        (⟨1, ["a \x7b", "  b"]⟩, some (.notLine (.int 1))) ∧
      append (Java.layout .ample "  ") ⟨0, []⟩
        (.arr [.str " a \x7b", .str "b ", .int 1, .str "\x7d"]) =
        append (Java.layout .ample "  ") ⟨0, []⟩
          (.arr [.str "a \x7b", .obj [("b", .null)], .arr [.null, .int 1], .str "\x7d"]) :=
  ⟨((append_leafwise (Java.layout .ample "  ") ⟨0, []⟩ _).2.1 _).2
      (.stray ["a \x7b", "b"] (.int 1) [.str "\x7d"] (by decide) rfl),
    (append_leafwise (Java.layout .ample "  ") ⟨0, []⟩ _).2.2.2.2 _ rfl⟩

/-- At a level that fills more than a word, a number after a line is not what is refused. -/
theorem append_leafwise_wordLimit :
    append Layout.plain ⟨Text.wordLimit, []⟩ (.arr [.str "x", .int 1]) =
        (⟨Text.wordLimit, []⟩, some (.indentation .countTooLarge)) ∧
      (Json.arr [.str "x", .int 1]).leaves = [.str "x", .int 1] ∧ (Json.int 1).isStray :=
  ⟨rfl, rfl, rfl⟩

end Buffer

end Layout

end Typewright
