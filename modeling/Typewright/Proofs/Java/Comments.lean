import Typewright.Java.Unit
import Typewright.Proofs.Java.Nesting
import Typewright.Proofs.Layout.Aside

/-!
# Comments and the layout of code

What the comments of a unit do to the lines of its code. Each comment stands right before code, and
is of no consequence if the first line of that code stands at the level at which it would stand
without the comment.

- `Interleaved`: comments stand right before code; `interleaved_classFragments` and
  `interleaved_enumFragments` that this is so in every unit.
- `Undisturbed`: no comment of a unit moves the code after it.
- `keptLines_iff`: the code of a unit is laid out as it is without comments exactly if no comment
  moves the code after it, or levels have no text.
- `undisturbed_of_isDoc`: a text in which only line feeds end lines makes no such comment.
-/

namespace Typewright.Java

open Text

/-! ## Lines of comments and of code -/

/-- The lines of a unit, of which those of comments are set aside. -/
def markedLines (fragments : List Fragment) : List (Bool × String) :=
  fragments.flatMap fun f => f.lines.map ((f.isComment, ·))

def codeLines (fragments : List Fragment) : List String :=
  (fragments.filter fun f => !f.isComment).flatMap (·.lines)

/-- The lines of the code of a unit as they stand in the layout of the unit with its comments. -/
def keptLines (l : Layout) (n : Nat) (fragments : List Fragment) : List String :=
  l.kept n (markedLines fragments)

/--
No comment moves the code after it: the first line after a comment stands at the level at which it
would stand without the comment.
-/
def Undisturbed (l : Layout) : Nat → List Fragment → Prop
  | _, [] => True
  | n, .comment doc :: r =>
    (∀ line ∈ (codeLines r).head?,
      l.levelOf (l.arrange n (Fragment.comment doc).lines).2 (trim line) =
        l.levelOf n (trim line)) ∧
    Undisturbed l n r
  | n, .code text :: r => Undisturbed l (l.arrange n (Fragment.code text).lines).2 r

instance decidableUndisturbed (l : Layout) : ∀ n fragments, Decidable (Undisturbed l n fragments)
  | _, [] => .isTrue trivial
  | n, .comment _ :: r =>
    have := decidableUndisturbed l n r
    inferInstanceAs (Decidable (_ ∧ _))
  | _, .code _ :: r => decidableUndisturbed l _ r

/-- Every comment stands right before a piece of code with lines. -/
inductive Interleaved : List Fragment → Prop where
  | nil : Interleaved []
  | code (text : String) {r : List Fragment} : Interleaved r → Interleaved (.code text :: r)
  | documented (doc text : String) {r : List Fragment} :
    (Fragment.code text).lines ≠ [] → Interleaved r → Interleaved (.comment doc :: .code text :: r)

variable {l : Layout} {n : Nat} {fragments : List Fragment}

theorem map_snd_markedLines (fragments : List Fragment) :
    (markedLines fragments).map (·.2) = fragments.flatMap (·.lines) := by
  simp [markedLines, List.map_flatMap, Function.comp_def]

theorem keptLines_comment (l : Layout) (n : Nat) (doc : String) (r : List Fragment) :
    keptLines l n (.comment doc :: r) =
      keptLines l (l.arrange n (Fragment.comment doc).lines).2 r := by
  have hm : markedLines (.comment doc :: r) =
      (Fragment.comment doc).lines.map ((true, ·)) ++ markedLines r := rfl
  rw [keptLines, hm, Layout.kept_append, Layout.kept_aside, List.nil_append, List.map_map]
  simp [Function.comp_def, keptLines]

theorem keptLines_code (l : Layout) (n : Nat) (text : String) (r : List Fragment) :
    keptLines l n (.code text :: r) =
      (l.arrange n (Fragment.code text).lines).1 ++
        keptLines l (l.arrange n (Fragment.code text).lines).2 r := by
  have hm : markedLines (.code text :: r) =
      (Fragment.code text).lines.map ((false, ·)) ++ markedLines r := rfl
  rw [keptLines, hm, Layout.kept_append, Layout.kept_written, List.map_map]
  simp [Function.comp_def, keptLines]

@[simp] theorem codeLines_comment (doc : String) (r : List Fragment) :
    codeLines (.comment doc :: r) = codeLines r := rfl

@[simp] theorem codeLines_code (text : String) (r : List Fragment) :
    codeLines (.code text :: r) = (Fragment.code text).lines ++ codeLines r := rfl

/-! ## When comments are of no consequence -/

theorem keptLines_of_indent (h : l.indent = "") (n : Nat) (fragments : List Fragment) :
    keptLines l n fragments = (codeLines fragments).map trim := by
  induction fragments generalizing n with
  | nil => rfl
  | cons f r ih =>
    cases f with
    | comment doc => rw [keptLines_comment, ih, codeLines_comment]
    | code text =>
      rw [keptLines_code, ih, codeLines_code, Layout.arrange_of_indent h, List.map_append]

/-- The code of a unit is laid out alike with and without comments if no comment moves it. -/
theorem keptLines_of_undisturbed (hf : Interleaved fragments) (h : Undisturbed l n fragments) :
    keptLines l n fragments = (l.arrange n (codeLines fragments)).1 := by
  induction hf generalizing n with
  | nil => rfl
  | code text _ ih =>
    rw [keptLines_code, codeLines_code, Layout.arrange_append, ih h]
  | @documented doc text r hne _ ih =>
    obtain ⟨line, rest, hlines⟩ := List.exists_cons_of_ne_nil hne
    obtain ⟨hfirst, hr⟩ := h
    have hsame := Layout.arrange_congr (r := rest) (hfirst line (by simp [hlines]))
    rw [keptLines_comment, keptLines_code, codeLines_comment, codeLines_code,
      Layout.arrange_append, hlines, hsame, ← hlines, ih hr]

theorem undisturbed_of_keptLines (hi : l.indent ≠ "") (hf : Interleaved fragments)
    (h : keptLines l n fragments = (l.arrange n (codeLines fragments)).1) :
    Undisturbed l n fragments := by
  induction hf generalizing n with
  | nil => trivial
  | code text _ ih =>
    rw [keptLines_code, codeLines_code, Layout.arrange_append] at h
    exact ih (List.append_cancel_left h)
  | @documented doc text r hne _ ih =>
    obtain ⟨line, rest, hlines⟩ := List.exists_cons_of_ne_nil hne
    rw [keptLines_comment, keptLines_code, codeLines_comment, codeLines_code,
      Layout.arrange_append, hlines] at h
    -- the first line of the code tells at which level it stands
    have hfirst := (Layout.emit_eq_iff hi).1 (List.cons.inj h).1
    refine ⟨fun first hhead => ?_, ?_⟩
    · obtain rfl : line = first := by simpa [hlines] using hhead
      exact hfirst
    · rw [Layout.arrange_congr hfirst, ← hlines] at h
      exact ih (List.append_cancel_left h)

/--
The code of a unit is laid out as it is without comments exactly if no comment moves the code after
it, or levels have no text.
-/
theorem keptLines_iff (hf : Interleaved fragments) :
    keptLines l n fragments = (l.arrange n (codeLines fragments)).1 ↔
      l.indent = "" ∨ Undisturbed l n fragments := by
  constructor
  · intro h
    exact or_iff_not_imp_left.2 fun hi => undisturbed_of_keptLines hi hf h
  · rintro (hi | h)
    · rw [keptLines_of_indent hi, Layout.arrange_of_indent hi]
    · exact keptLines_of_undisturbed hf h

/-- Lines of code that no comment moves stand at levels at which they stand with the comments. -/
theorem mem_levels_of_undisturbed (hf : Interleaved fragments) (h : Undisturbed l n fragments)
    {m : Nat} (hm : m ∈ l.levels n (codeLines fragments)) :
    m ∈ l.levels n ((markedLines fragments).map (·.2)) := by
  rw [map_snd_markedLines]
  induction hf generalizing n with
  | nil => exact hm
  | code text _ ih =>
    rw [codeLines_code, Layout.levels_append, List.mem_append] at hm
    rw [List.flatMap_cons, Layout.levels_append, List.mem_append]
    exact hm.imp_right (ih h)
  | @documented doc text r hne _ ih =>
    obtain ⟨line, rest, hlines⟩ := List.exists_cons_of_ne_nil hne
    obtain ⟨hfirst, hr⟩ := h
    have hfirst := hfirst line (by simp [hlines])
    -- the code after the comment starts at the level that it has without it, and goes on from there
    rw [codeLines_comment, codeLines_code, Layout.levels_append, List.mem_append, hlines,
      ← Layout.levels_cons_congr hfirst, ← Layout.arrange_congr hfirst, ← hlines] at hm
    rw [List.flatMap_cons, List.flatMap_cons, Layout.levels_append, Layout.levels_append,
      List.mem_append, List.mem_append]
    refine .inr (hm.imp_right fun hm => ih ?_ hm)
    rw [hlines, Layout.arrange_congr hfirst, ← hlines]
    exact hr

/-- A comment made of a text in which only line feeds end lines keeps the level. -/
theorem arrange_comment {memory : Text.Memory} {indent doc : String} (h : IsDoc doc) (n : Nat) :
    ((layout memory indent).arrange n (Fragment.comment doc).lines).2 = n := by
  rw [Layout.arrange_of_depths (Layout.depths_of_neutral fun _ => neutral_of_mem_comment h)]

/-- Where only line feeds end the lines of the texts, no comment moves the code after it. -/
theorem undisturbed_of_isDoc {memory : Text.Memory} {indent : String}
    (h : ∀ doc, .comment doc ∈ fragments → IsDoc doc)
    (n : Nat) : Undisturbed (layout memory indent) n fragments := by
  induction fragments generalizing n with
  | nil => trivial
  | cons f r ih =>
    have hr := ih fun doc hd => h doc (List.mem_cons_of_mem f hd)
    cases f with
    | comment doc =>
      refine ⟨fun line _ => ?_, hr n⟩
      rw [arrange_comment (h doc List.mem_cons_self)]
    | code text => exact hr _

/-! ## Where comments stand -/

theorem Interleaved.append {xs ys : List Fragment} (hx : Interleaved xs) (hy : Interleaved ys) :
    Interleaved (xs ++ ys) := by
  induction hx with
  | nil => exact hy
  | code text _ ih => exact .code text ih
  | documented doc text hne _ ih => exact .documented doc text hne ih

theorem interleaved_flatMap {α : Type} {f : α → List Fragment} {xs : List α}
    (h : ∀ x ∈ xs, Interleaved (f x)) : Interleaved (xs.flatMap f) := by
  induction xs with
  | nil => exact .nil
  | cons x r ih =>
    obtain ⟨hx, hr⟩ := List.forall_mem_cons.1 h
    exact hx.append (ih hr)

theorem interleaved_code {r : List Fragment} (h : ∀ f ∈ r, f.isComment = false) :
    Interleaved r := by
  induction r with
  | nil => exact .nil
  | cons f r ih =>
    obtain ⟨hf, hr⟩ := List.forall_mem_cons.1 h
    obtain ⟨text, rfl⟩ := Fragment.code_of_notComment hf
    exact .code text (ih hr)

theorem lines_ne_nil {text : String} (c : Char) (h : c ∈ text.toList)
    (hc : (isLineBreak c || isBlank c) = false) : (Fragment.code text).lines ≠ [] := by
  rw [Bool.or_eq_false_iff] at hc
  obtain ⟨cs, hcs, hmem⟩ := exists_mem_lineChars h hc.1
  have hblank : isBlankText (.ofList cs) = false := by
    rw [isBlankText, String.toList_ofList, List.all_eq_false]
    exact ⟨c, hmem, by simp [hc.2]⟩
  exact List.ne_nil_of_mem
    (List.mem_filter.2 ⟨List.mem_map_of_mem hcs, by simp [hblank]⟩)

/-- A piece of code with a character that is not blank may have a comment before it. -/
theorem interleaved_ofDoc (doc : Option String) {text : String} {r : List Fragment} (c : Char)
    (h : c ∈ text.toList) (hc : (isLineBreak c || isBlank c) = false) (hr : Interleaved r) :
    Interleaved (Fragment.ofDoc doc ++ .code text :: r) := by
  cases doc with
  | none => exact .code text hr
  | some doc => exact .documented doc text (lines_ne_nil c h hc) hr

theorem interleaved_map_code (texts : List String) : Interleaved (texts.map .code) := by
  refine interleaved_code fun f hf => ?_
  obtain ⟨text, -, rfl⟩ := List.mem_map.1 hf
  rfl

theorem interleaved_methodFragments (header : String) (body : List String) :
    Interleaved (methodFragments header body) :=
  .code _ ((interleaved_map_code body).append (.code _ .nil))

theorem interleaved_constructorFragments (className : String) (k : Constructor) :
    Interleaved (k.fragments className) := by
  refine .code _ (.code _ (Interleaved.append (interleaved_code fun f hf => ?_) (.code _ .nil)))
  obtain ⟨a, -, rfl⟩ := List.mem_map.1 hf
  rfl

theorem interleaved_classFragments (u : ClassUnit) : Interleaved u.fragments := by
  have hfield (f : FieldDeclaration) : Interleaved f.fragments :=
    interleaved_ofDoc f.doc ';' (by simp) (by decide) .nil
  have hmessage (m : AbstractMethod) : Interleaved m.fragments :=
    interleaved_ofDoc m.doc ';' (by simp) (by decide) .nil
  -- every section is a run of members in which code follows each comment
  have hmembers : Interleaved u.memberFragments := by
    unfold ClassUnit.memberFragments
    refine (((((((interleaved_flatMap fun f _ => hfield f).append
      (interleaved_flatMap fun k _ => interleaved_constructorFragments u.heading.name k)).append
      (interleaved_flatMap fun a _ => ?_)).append
      (interleaved_flatMap fun m _ => hmessage m)).append
      (interleaved_flatMap fun m _ => ?_)).append
      (interleaved_methodFragments _ _)).append (interleaved_methodFragments _ _)).append
      (interleaved_methodFragments _ _)
    · exact .code _ (.code _ (.code _ .nil))
    · exact .code _ (.code _ (.code _ .nil))
  unfold ClassUnit.fragments
  rw [List.append_assoc, List.append_assoc, List.cons_append]
  refine interleaved_ofDoc u.heading.doc '\x7b' ?_ (by decide) ?_
  · simp [ClassUnit.header]
  · exact (interleaved_map_code _).append (hmembers.append (.code _ .nil))

theorem interleaved_valueFragments (vs : List EnumValue) : Interleaved (valueFragments vs) := by
  induction vs using valueFragments.induct with
  | case1 => exact .nil
  | case2 v => exact interleaved_ofDoc v.doc ';' (by simp) (by decide) .nil
  | case3 v w r ih => exact interleaved_ofDoc v.doc ',' (by simp) (by decide) ih

theorem interleaved_enumFragments (h : Heading) (vs : List EnumValue) :
    Interleaved (enumFragments h vs) := by
  have hvalues : Interleaved (valueSection vs) := by
    unfold valueSection
    split
    · exact .code _ .nil
    · exact interleaved_valueFragments vs
  unfold enumFragments
  rw [List.append_assoc, List.append_assoc, List.cons_append]
  refine interleaved_ofDoc h.doc '\x7b' (by simp) (by decide) ?_
  exact hvalues.append ((interleaved_map_code _).append (.code _ .nil))

end Typewright.Java
