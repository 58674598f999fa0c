import Mathlib.Data.List.Forall2
import Typewright.Java.Unit
import Typewright.Proofs.Java.Line
import Typewright.Proofs.Layout.Depth

/-!
# The outline of a class

What each fragment of a class is for, and the depth at which that has to stand: the class at depth
zero, its members at depth one, what is in their bodies further in.

- `ClassUnit.outline`: the fragments of a class with what they are for.
- `Nested`: lines stand where they have to from one depth to another, closing nothing unopened.
- `Nested.append`, `nested_flatMap`, `nested_memberParts`: how nested lines are put together.
-/

namespace Typewright.Java

/-! ## Parts -/

/-- What a fragment of a class is for. -/
inductive Part where
  | comment
  | classHeader
  /-- A line copied from the schema. -/
  | copied
  /-- The declaration of a field or of a message. -/
  | declaration
  /-- The header of a constructor or of a method. -/
  | memberHeader
  /-- A line in the body of a constructor or of a method. -/
  | statement
  | memberEnd
  | classEnd
  deriving DecidableEq

/-- Whether a part may stand at a depth. -/
def Part.StandsAt : Part → Nat → Prop
  | comment, n => n ≤ 1
  | classHeader, n => n = 0
  | copied, n => n = 1
  | declaration, n => n = 1
  | memberHeader, n => n = 1
  | statement, n => 2 ≤ n ∧ n ≤ 3
  | memberEnd, n => n = 1
  | classEnd, n => n = 0

theorem Part.StandsAt.le_three {p : Part} {n : Nat} (h : p.StandsAt n) : n ≤ 3 := by
  cases p <;> simp only [StandsAt] at h <;> omega

/-- A declaration, with the comment before it if it has one. -/
def declarationParts (fragments : List Fragment) : List (Part × Fragment) :=
  fragments.map fun f => (if f.isComment then .comment else .declaration, f)

/-- A constructor or a method: its header, its body and its end. -/
def memberParts : List Fragment → List (Part × Fragment)
  | [] => []
  | header :: r =>
    (.memberHeader, header) ::
      (r.dropLast.map ((.statement, ·)) ++ r.getLast?.toList.map ((.memberEnd, ·)))

/-- The fragments of a class with what they are for. -/
def ClassUnit.outline (u : ClassUnit) : List (Part × Fragment) :=
  (Fragment.ofDoc u.heading.doc).map ((.comment, ·)) ++
    (.classHeader, .code u.header) :: u.heading.extra.map (fun s => (.copied, .code s)) ++
    (u.fields.flatMap (fun f => declarationParts f.fragments) ++
      u.constructors.flatMap (fun k => memberParts (k.fragments u.heading.name)) ++
      u.accessors.flatMap (fun a => memberParts a.fragments) ++
      u.messages.flatMap (fun m => declarationParts m.fragments) ++
      u.copyMethods.flatMap (fun m => memberParts (m.fragments u.heading.name)) ++
      memberParts (methodFragments "public boolean equals(Object obj)" u.equalsBody) ++
      memberParts (methodFragments "public int hashCode()" u.hashCodeBody) ++
      memberParts (methodFragments "public String toString()" u.toStringBody)) ++
    [(.classEnd, .code "\x7d")]

/-- The fragments of an enumeration with what they are for. -/
def enumOutline (h : Heading) (vs : List EnumValue) : List (Part × Fragment) :=
  (Fragment.ofDoc h.doc).map ((.comment, ·)) ++
    (.classHeader, .code ("public enum " ++ h.name ++ " \x7b")) ::
      declarationParts (valueSection vs) ++
    h.extra.map (fun s => (.copied, .code s)) ++ [(.classEnd, .code "\x7d")]

theorem map_snd_declarationParts (fragments : List Fragment) :
    (declarationParts fragments).map Prod.snd = fragments := by
  simp [declarationParts, Function.comp_def]

theorem map_snd_memberParts (fragments : List Fragment) :
    (memberParts fragments).map Prod.snd = fragments := by
  cases fragments with
  | nil => rfl
  | cons header r =>
    rcases List.eq_nil_or_concat r with rfl | ⟨body, last, rfl⟩ <;>
      simp [memberParts, Function.comp_def]

theorem ClassUnit.map_snd_outline (u : ClassUnit) : u.outline.map Prod.snd = u.fragments := by
  simp [outline, fragments, memberFragments, Function.comp_def, List.map_flatMap,
    map_snd_declarationParts, map_snd_memberParts]

theorem map_snd_enumOutline (h : Heading) (vs : List EnumValue) :
    (enumOutline h vs).map Prod.snd = enumFragments h vs := by
  simp [enumOutline, enumFragments, Function.comp_def, map_snd_declarationParts]

/-! ## Lines of parts -/

/-- The lines of a part; a comment has some only if comments are written. -/
def partLines (comments : Bool) (x : Part × Fragment) : List (Part × String) :=
  if !comments && x.2.isComment then [] else x.2.lines.map ((x.1, ·))

/-- The lines of an outline, each with what it is for. -/
def outlineLines (comments : Bool) (xs : List (Part × Fragment)) : List (Part × String) :=
  xs.flatMap (partLines comments)

/--
The lines of an outline stand at depths that their parts may stand at, from the depth `n` to the
depth `m`, and none closes a block that is not open.
-/
def Nested (comments : Bool) (memory : Text.Memory) (indent : String) (n : Nat)
    (xs : List (Part × Fragment)) (m : Nat) : Prop :=
  ∃ ds, (layout memory indent).depths n ((outlineLines comments xs).map Prod.snd) = some (ds, m) ∧
    List.Forall₂ (fun x d => x.1.StandsAt d) (outlineLines comments xs) ds

variable {comments : Bool} {memory : Text.Memory} {indent : String} {n m k : Nat}

theorem opens_layout : (layout memory indent).opens = opensBlock := rfl

theorem closes_layout : (layout memory indent).closes = closesBlock := rfl

theorem marks_layout {s : String} {opens closes : Bool} (ho : opensBlock (Text.trim s) = opens)
    (hc : closesBlock (Text.trim s) = closes) : (layout memory indent).Marks s opens closes where
  opens_eq := by rw [opens_layout, ho]
  closes_eq := by rw [closes_layout, hc]

theorem neutral_of_mem_comment {doc line : String} (h : IsDoc doc)
    (hl : line ∈ (Fragment.comment doc).lines) : (layout memory indent).Marks line false false := by
  obtain ⟨ho, hc⟩ := isCommentLine_neutral (isCommentLine_of_mem_comment h hl)
  exact marks_layout ho hc

theorem nested_nil : Nested comments memory indent n [] n :=
  ⟨[], rfl, .nil⟩

theorem Nested.append {xs ys : List (Part × Fragment)} (hx : Nested comments memory indent n xs m)
    (hy : Nested comments memory indent m ys k) : Nested comments memory indent n (xs ++ ys) k := by
  obtain ⟨ds, hd, hds⟩ := hx
  obtain ⟨es, he, hes⟩ := hy
  refine ⟨ds ++ es, ?_, ?_⟩
  · rw [outlineLines, List.flatMap_append, List.map_append]
    exact Layout.depths_append hd he
  · rw [outlineLines, List.flatMap_append]
    exact List.rel_append hds hes

/-- What keeps the depth may be repeated. -/
theorem nested_flatMap {α : Type} {f : α → List (Part × Fragment)} {xs : List α}
    (h : ∀ x ∈ xs, Nested comments memory indent n (f x) n) :
    Nested comments memory indent n (xs.flatMap f) n := by
  induction xs with
  | nil => exact nested_nil
  | cons x r ih =>
    obtain ⟨hx, hr⟩ := List.forall_mem_cons.1 h
    rw [List.flatMap_cons]
    exact hx.append (ih hr)

/-- A line of code stands where its effect on blocks puts it. -/
theorem nested_line {p : Part} {s : String} {opens closes : Bool} (h : IsLine s opens closes)
    (hp : p.StandsAt n) :
    Nested comments memory indent (n + closes.toNat) [(p, .code s)] (n + opens.toNat) := by
  have hl : outlineLines comments [(p, .code s)] = [(p, s)] := by
    simp [outlineLines, partLines, Fragment.isComment, h.lines]
  rw [Nested, hl]
  exact ⟨[n], Layout.depths_cons_of_marks (marks_layout h.opens h.closes) rfl, .cons hp .nil⟩

variable {p : Part} {s : String}

theorem nested_simple (h : IsLine s false false) (hp : p.StandsAt n) :
    Nested comments memory indent n [(p, .code s)] n :=
  nested_line h hp

theorem nested_opening (h : IsLine s true false) (hp : p.StandsAt n) :
    Nested comments memory indent n [(p, .code s)] (n + 1) :=
  nested_line h hp

theorem nested_closing (h : IsLine s false true) (hp : p.StandsAt n) :
    Nested comments memory indent (n + 1) [(p, .code s)] n :=
  nested_line h hp

theorem nested_turning (h : IsLine s true true) (hp : p.StandsAt n) :
    Nested comments memory indent (n + 1) [(p, .code s)] (n + 1) :=
  nested_line h hp

/-- A comment keeps the depth, whether it is written or not. -/
theorem nested_comment {doc : String} (h : IsDoc doc) (hn : n ≤ 1) :
    Nested comments memory indent n [(.comment, .comment doc)] n := by
  cases comments with
  | false => exact ⟨[], rfl, .nil⟩
  | true =>
    have hl : outlineLines true [(.comment, .comment doc)] =
        (Fragment.comment doc).lines.map ((Part.comment, ·)) := by
      simp [outlineLines, partLines]
    refine ⟨(Fragment.comment doc).lines.map fun _ => n, ?_, ?_⟩
    · rw [hl, List.map_map]
      simpa [Function.comp_def] using Layout.depths_of_neutral fun _ => neutral_of_mem_comment h
    · rw [hl, List.forall₂_map_left_iff, List.forall₂_map_right_iff, List.forall₂_same]
      exact fun _ _ => hn

theorem nested_ofDoc {doc : Option String} (h : ∀ s ∈ doc, IsDoc s) (hn : n ≤ 1) :
    Nested comments memory indent n ((Fragment.ofDoc doc).map ((.comment, ·))) n := by
  cases doc with
  | none => exact nested_nil
  | some s => exact nested_comment (h s rfl) hn

/-- A declaration of one line, after its comment. -/
theorem nested_declarationParts {doc : Option String} (hd : ∀ s ∈ doc, IsDoc s)
    (h : IsLine s false false) :
    Nested comments memory indent 1 (declarationParts (Fragment.ofDoc doc ++ [.code s])) 1 := by
  have hparts : declarationParts (Fragment.ofDoc doc ++ [.code s]) =
      (Fragment.ofDoc doc).map ((.comment, ·)) ++ [(.declaration, .code s)] := by
    cases doc <;> rfl
  rw [hparts]
  exact (nested_ofDoc hd (Nat.le_refl 1)).append (nested_simple h rfl)

/-- The lines of a body. -/
def bodyParts (body : List String) : List (Part × Fragment) :=
  body.map fun s => (.statement, .code s)

theorem nested_bodyParts {body : List String} (h : ∀ s ∈ body, IsLine s false false) :
    Nested comments memory indent 2 (bodyParts body) 2 := by
  have hb : bodyParts body = body.flatMap fun s => [(.statement, .code s)] := by
    rw [bodyParts, List.map_eq_flatMap]
  rw [hb]
  exact nested_flatMap fun s hs => nested_simple (h s hs) ⟨Nat.le_refl 2, Nat.le_succ 2⟩

/-- A constructor or a method is nested if its body is. -/
theorem nested_memberParts {body : List String} (h : IsLine s true false)
    (hb : Nested comments memory indent 2 (bodyParts body) 2) :
    Nested comments memory indent 1
      (memberParts (.code s :: body.map .code ++ [.code "\x7d"])) 1 := by
  have hparts : memberParts (.code s :: body.map .code ++ [.code "\x7d"]) =
      (.memberHeader, .code s) :: (bodyParts body ++ [(.memberEnd, .code "\x7d")]) := by
    simp [memberParts, bodyParts]
  have hheader : Nested comments memory indent 1 [(.memberHeader, .code s)] 2 :=
    nested_opening h rfl
  have hend : Nested comments memory indent 2 [(.memberEnd, .code "\x7d")] 1 :=
    nested_closing isLine_closingBrace rfl
  rw [hparts]
  exact hheader.append (hb.append hend)

end Typewright.Java
