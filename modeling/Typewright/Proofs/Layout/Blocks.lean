import Typewright.Proofs.Layout.Appending
import Typewright.Proofs.Layout.Depth

/-!
# Blocks

A balanced text is made of simple lines and of blocks. A block has an opening line, bodies that are
kept apart by continuation lines, and a closing line. Appended to a buffer, each line of such a text
stands at the level of the buffer and one further in for each block around it.

- `Layout.BlockText`: balanced texts, with what each line does to the blocks.
- `Layout.BlockText.placed`: the lines of a text, each with the number of blocks around it.
- `Layout.BlockText.depths_placed`: a text leaves the depth around it.
- `Layout.BlockText.append_placed`: how a text is appended.
-/

namespace Typewright.Layout

open Buffer

variable {l : Layout}

/-! ## Balanced texts -/

mutual

/-- A balanced text: simple lines and blocks. -/
inductive BlockText (l : Layout) where
  | done
  | line (text : String) (h : l.Marks text false false) (rest : BlockText l)
  | block (opening : String) (h : l.Marks opening true false) (inside : BlockBody l)
    (rest : BlockText l)

/-- What stands in a block after its opening line, down to its closing line. -/
inductive BlockBody (l : Layout) where
  | close (body : BlockText l) (closing : String) (h : l.Marks closing false true)
  | turn (body : BlockText l) (continuation : String) (h : l.Marks continuation true true)
    (more : BlockBody l)

end

mutual

/--
The lines of a text, each with the number of blocks around it, if there are so many around the text.
A line that opens, continues or closes a block is not inside that block.
-/
def BlockText.placed (around : Nat) : BlockText l → List (Nat × String)
  | .done => []
  | .line text _ rest => (around, text) :: rest.placed around
  | .block opening _ inside rest =>
    (around, opening) :: (inside.placed around ++ rest.placed around)

/-- The lines of a block after the first, each with the number of blocks around it. -/
def BlockBody.placed (around : Nat) : BlockBody l → List (Nat × String)
  | .close body closing _ => body.placed (around + 1) ++ [(around, closing)]
  | .turn body continuation _ more =>
    body.placed (around + 1) ++ (around, continuation) :: more.placed around

end

/-- The lines of a text. -/
def BlockText.lines (t : BlockText l) : List String :=
  (t.placed 0).map (·.2)

/-! ## Depths -/

mutual

/-- The lines of a text stand at their depth, and those after it at the depth around it. -/
theorem BlockText.depths_placed (n around : Nat) : (t : BlockText l) →
    l.depths (n + around) ((t.placed around).map (·.2)) =
      some ((t.placed around).map (n + ·.1), n + around)
  | .done => rfl
  | .line _ h rest => depths_cons_of_marks h (rest.depths_placed n around)
  | .block _ h inside rest => by
    have hr := depths_append (inside.depths_placed n around) (rest.depths_placed n around)
    rw [← List.map_append, ← List.map_append] at hr
    exact depths_cons_of_marks h hr

theorem BlockBody.depths_placed (n around : Nat) : (t : BlockBody l) →
    l.depths (n + around + 1) ((t.placed around).map (·.2)) =
      some ((t.placed around).map (n + ·.1), n + around)
  | .close body closing h => by
    have hc : l.depths (n + around + 1) [closing] = some ([n + around], n + around) :=
      depths_cons_of_marks h rfl
    rw [BlockBody.placed, List.map_append, List.map_append]
    exact depths_append (body.depths_placed n (around + 1)) hc
  | .turn body _ h more => by
    have hm := depths_cons_of_marks h (more.depths_placed n around)
    rw [BlockBody.placed, List.map_append, List.map_append]
    exact depths_append (body.depths_placed n (around + 1)) hm

end

theorem BlockText.depths_lines (t : BlockText l) (n : Nat) :
    l.depths n t.lines = some ((t.placed 0).map (n + ·.1), n) :=
  t.depths_placed n 0

/-! ## Texts that are appended -/

/-- If lines stand at their places, so do the lines before one of them, and that one. -/
theorem levels_of_split {n : Nat} {xs done rest : List (Nat × String)} {x : Nat × String}
    (h : l.levels n (xs.map (·.2)) = xs.map (n + ·.1)) (hx : xs = done ++ x :: rest) :
    l.levels n (done.map (·.2)) = done.map (n + ·.1) ∧
      l.levelOf (l.arrange n (done.map (·.2))).2 (Text.trim x.2) = n + x.1 := by
  rw [hx, List.map_append, List.map_append, levels_append] at h
  obtain ⟨hdone, hrest⟩ := List.append_inj h (by simp [length_levels])
  exact ⟨hdone, (List.cons.inj hrest).1⟩

namespace Buffer

variable {b : Buffer}

theorem lines_laid {xs : List (Nat × String)}
    (h : l.levels b.level (xs.map (·.2)) = xs.map (b.level + ·.1)) :
    (b.laid l (xs.map (·.2))).lines =
      b.lines ++ xs.map fun x => l.inset (b.level + x.1) ++ Text.trim x.2 := by
  rw [laid, arrange_fst, h, List.zipWith_map, List.zipWith_self]

end Buffer

/--
A balanced text closes no block that it has not opened, and ends at the depth at which it starts. If
its lines can be indented, they stand at the level of the buffer and one further in for each block
around them. Otherwise the first that cannot be is refused, and those before it stand so.
-/
theorem BlockText.append_placed (t : BlockText l) (b : Buffer) {j : Json}
    (hj : j.leaves = t.lines.map .str) :
    l.depths b.level t.lines = some ((t.placed 0).map (b.level + ·.1), b.level) ∧
      ((∀ x ∈ t.placed 0, l.Indents (b.level + x.1)) →
        append l b j =
          (⟨b.level, b.lines ++
            (t.placed 0).map fun x => l.inset (b.level + x.1) ++ Text.trim x.2⟩, none)) ∧
      ∀ done x rest fault, t.placed 0 = done ++ x :: rest →
        (∀ y ∈ done, l.Indents (b.level + y.1)) →
        l.margin (b.level + x.1) = .error fault →
        append l b j =
          (⟨b.level + x.1, b.lines ++
            done.map fun y => l.inset (b.level + y.1) ++ Text.trim y.2⟩,
            some (.indentation fault)) := by
  have hd := t.depths_lines b.level
  obtain ⟨hl, hlevel⟩ := levels_of_depths hd
  -- the depths are counted from the level of the buffer, so the levels are known beforehand
  refine ⟨hd, fun h => ?_, fun done x rest fault hx h hf => ?_⟩
  · have hi : ∀ n ∈ l.levels b.level t.lines, l.Indents n := by
      rw [hl]
      exact List.forall_mem_map.2 h
    have hlaid : b.laid l t.lines = ⟨b.level, (b.laid l t.lines).lines⟩ :=
      congrArg (Buffer.mk · (b.laid l t.lines).lines) hlevel
    rw [append_eq_appendAll, hj, appendAll_of_yields (.all t.lines hi), hlaid, ← lines_laid hl]
    rfl
  · obtain ⟨hdone, hlevel⟩ := levels_of_split hl hx
    have hi : ∀ n ∈ l.levels b.level (done.map (·.2)), l.Indents n := by
      rw [hdone]
      exact List.forall_mem_map.2 h
    have hleaves :
        j.leaves = (done.map (·.2)).map .str ++ .str x.2 :: (rest.map (·.2)).map .str := by
      rw [hj, lines, hx]
      simp
    rw [append_eq_appendAll, hleaves,
      appendAll_of_yields (.tooDeep _ _ _ _ fault hi hlevel.symm hf), lines_laid hdone]

/-- A choice between two lines, and a line after it. -/
def BlockText.choice : BlockText (Java.layout .ample "  ") :=
  .block "if \x7b" ⟨rfl, rfl⟩
    (.turn (.line "a" ⟨rfl, rfl⟩ .done) "\x7d else \x7b" ⟨rfl, rfl⟩
      (.close (.line "b" ⟨rfl, rfl⟩ .done) "\x7d" ⟨rfl, rfl⟩))
    (.line " c" ⟨rfl, rfl⟩ .done)

theorem BlockText.append_placed_choice :
    (Json.arr (choice.lines.map .str)).leaves = choice.lines.map .str ∧
      (∀ x ∈ choice.placed 0, (Java.layout .ample "  ").Indents (1 + x.1)) ∧
      append (Java.layout .ample "  ") ⟨1, []⟩ (.arr (choice.lines.map .str)) =
        (⟨1, ["  if \x7b", "    a", "  \x7d else \x7b", "    b", "  \x7d", "  c"]⟩, none) := by
  have hj : (Json.arr (choice.lines.map .str)).leaves = choice.lines.map .str := rfl
  have hi : ∀ x ∈ choice.placed 0, (Java.layout .ample "  ").Indents (1 + x.1) := by decide
  exact ⟨hj, hi, (choice.append_placed ⟨1, []⟩ hj).2.1 hi⟩

def BlockText.single : BlockText Layout.plain :=
  .line "x" ⟨rfl, rfl⟩ .done

/-- At a level that fills more than a word, a simple line is refused. -/
theorem BlockText.append_placed_wordLimit :
    single.placed 0 = [(0, "x")] ∧
      append Layout.plain ⟨Text.wordLimit, []⟩ (.arr (single.lines.map .str)) =
        (⟨Text.wordLimit, []⟩, some (.indentation .countTooLarge)) :=
  ⟨rfl, rfl⟩

end Typewright.Layout
