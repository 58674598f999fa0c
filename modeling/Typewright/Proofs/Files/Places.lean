import Mathlib.Data.List.Infix
import Typewright.Files.Tree
import Typewright.Proofs.Text.Lines

/-!
# Places and paths

Where a path leads is settled by its names alone; a tree only says whether it leads there. What is
written to a tree changes the place that was written to and no other, and making directories puts
them where nothing was.

- `Path.place`, `Path.trail`: the place that a path leads to, and the places on the way there.
- `FileTree.locate_ok`, `FileTree.write_ok`, `FileTree.makeDirectories_ok`: what is known when these
  succeed.
- `Path.place_join`, `Path.mem_trail_join`: where a path leads that goes on from a directory.
- `Path.LeadsDown`, `Path.GoesDown`: paths that lead from a directory to what is below it.

Places that are seen from the root and those seen from the working directory are told apart, as
nothing says where in the tree the working directory is.
-/

namespace Typewright

/-! ## Places -/

namespace Place

/-- A place is a directory or lies below it. -/
def IsWithin (p d : Place) : Prop :=
  p.origin = d.origin ∧ d.names <+: p.names

instance (p d : Place) : Decidable (p.IsWithin d) :=
  inferInstanceAs (Decidable (_ ∧ _))

/-- A place lies below a directory. -/
def IsBelow (p d : Place) : Prop :=
  p.IsWithin d ∧ p ≠ d

instance (p d : Place) : Decidable (p.IsBelow d) :=
  inferInstanceAs (Decidable (_ ∧ _))

variable {p q d : Place}

theorem IsWithin.refl (p : Place) : p.IsWithin p :=
  ⟨rfl, List.prefix_rfl⟩

theorem IsWithin.trans (hp : p.IsWithin q) (hq : q.IsWithin d) : p.IsWithin d :=
  ⟨hp.1.trans hq.1, hq.2.trans hp.2⟩

/-- The place that names lead to from a directory if none of them leads up. -/
def down (d : Place) (names : List String) : Place :=
  ⟨d.origin, d.names ++ names⟩

theorem isWithin_down (d : Place) (names : List String) : (d.down names).IsWithin d :=
  ⟨rfl, List.prefix_append _ _⟩

theorem down_injective (d : Place) : Function.Injective d.down := by
  intro ns ms h
  exact List.append_cancel_left (congrArg Place.names h)

theorem isBelow_down {names : List String} (h : names ≠ []) : (d.down names).IsBelow d := by
  refine ⟨isWithin_down d names, fun he => h ?_⟩
  have hn : d.names ++ names = d.names := congrArg Place.names he
  exact List.append_right_eq_self.1 hn

end Place

namespace FileTree

variable {t t' : FileTree} {p q x : Place} {e : Entry} {names : List String}

/-! ## What is at a place -/

theorem find?_setEntry (p q : Place) (e : Entry) (entries : List (Place × Entry)) :
    (setEntry p e entries).find? (·.1 = q) =
      if q = p then some (p, e) else entries.find? (·.1 = q) := by
  induction entries with
  | nil => simp [setEntry, eq_comm]
  | cons entry r ih =>
    obtain ⟨s, f⟩ := entry
    rw [setEntry]
    by_cases hs : s = p
    · subst hs
      by_cases hq : q = s
      · simp [hq]
      · simp [hq, Ne.symm hq]
    · rw [if_neg hs, List.find?_cons, ih, List.find?_cons]
      by_cases hq : s = q
      · subst hq
        simp [hs]
      · simp [hq]

theorem names_ne_nil (h : t.get? p ≠ some .directory) : p.names ≠ [] := by
  intro hn
  exact h (by rw [get?, hn]; rfl)

/-- A place that was no directory has what was put there; other places have what they had. -/
theorem get?_set (h : t.get? p ≠ some .directory) (e : Entry) (q : Place) :
    (t.set p e).get? q = if q = p then some e else t.get? q := by
  have hp := names_ne_nil h
  by_cases hq : q = p
  · subst hq
    simp [get?, set, find?_setEntry, hp]
  · simp [get?, set, find?_setEntry, hq]

/-! ## Ways through a tree -/

/-- The places on the way that names lead from a place, that one and the last included. -/
def trail (p : Place) : List String → List Place
  | [] => [p]
  | name :: r => p :: trail (step p name) r

theorem mem_trail_self (p : Place) (names : List String) : p ∈ trail p names := by
  cases names <;> simp [trail]

theorem foldl_step_mem_trail (p : Place) (names : List String) :
    names.foldl step p ∈ trail p names := by
  induction names generalizing p with
  | nil => simp [trail]
  | cons name r ih => exact List.mem_cons_of_mem p (ih (step p name))

theorem mem_trail_append {names' : List String} :
    x ∈ trail p (names ++ names') ↔ x ∈ trail p names ∨ x ∈ trail (names.foldl step p) names' := by
  induction names generalizing p with
  | nil =>
    have := mem_trail_self p names'
    simp only [List.nil_append, trail, List.mem_singleton, List.foldl_nil]
    exact ⟨.inr, fun h => h.elim (fun hx => hx ▸ this) id⟩
  | cons name r ih => simp [trail, ih, or_assoc]

theorem step_of_ne {name : String} (h : name ≠ "..") (p : Place) : step p name = p.down [name] :=
  if_neg h

theorem foldl_step_of_notMem (h : ".." ∉ names) (p : Place) :
    names.foldl step p = p.down names := by
  induction names generalizing p with
  | nil => simp [Place.down]
  | cons name r ih =>
    rw [List.mem_cons, not_or] at h
    rw [List.foldl_cons, step_of_ne (Ne.symm h.1), ih h.2]
    simp [Place.down]

theorem isWithin_of_mem_trail (h : ".." ∉ names) (hx : x ∈ trail p names) : x.IsWithin p := by
  induction names generalizing p with
  | nil => exact List.mem_singleton.1 hx ▸ .refl p
  | cons name r ih =>
    rw [List.mem_cons, not_or] at h
    rcases List.mem_cons.1 hx with rfl | hx
    · exact .refl x
    · rw [step_of_ne (Ne.symm h.1)] at hx
      exact (ih h.2 hx).trans (Place.isWithin_down p [name])

/-- What leads anywhere leads where its names do, through directories. -/
theorem follow_ok (h : t.follow p names = .ok q) :
    q = names.foldl step p ∧ ∀ x ∈ trail p names, x = q ∨ t.get? x = some .directory := by
  induction names generalizing p with
  | nil =>
    obtain rfl := Except.ok.inj h
    exact ⟨rfl, fun x hx => .inl (List.mem_singleton.1 hx)⟩
  | cons name r ih =>
    rw [follow] at h
    cases hp : t.get? p with
    | none => simp [hp] at h
    | some e =>
      cases e with
      | file content => simp [hp] at h
      | directory =>
        rw [hp] at h
        dsimp only at h
        split_ifs at h
        obtain ⟨hq, hr⟩ := ih h
        refine ⟨hq, fun x hx => ?_⟩
        rcases List.mem_cons.1 hx with rfl | hx
        · exact .inr hp
        · exact hr x hx

end FileTree

/-! ## Paths -/

namespace Path

/-- The place that a path leads to, if it leads to one. -/
def place (p : Path) : Place :=
  p.names.foldl FileTree.step (FileTree.startOf p)

/-- The places that a path leads through, the last included. -/
def trail (p : Path) : List Place :=
  FileTree.trail (FileTree.startOf p) p.names

/-- The path is relative and leads from a directory to what is below it. -/
def LeadsDown (p : Path) : Prop :=
  p.anchor = "" ∧ p.names ≠ [] ∧ ".." ∉ p.names

instance (p : Path) : Decidable p.LeadsDown :=
  inferInstanceAs (Decidable (_ ∧ _ ∧ _))

variable {d p q : Path} {x : Place}

theorem place_mem_trail (p : Path) : p.place ∈ p.trail :=
  FileTree.foldl_step_mem_trail _ _

theorem place_join (h : p.anchor = "") :
    (d.join p).place = p.names.foldl FileTree.step d.place := by
  rw [join, if_pos h, place, List.foldl_append]
  rfl

theorem mem_trail_join (h : p.anchor = "") :
    x ∈ (d.join p).trail ↔ x ∈ d.trail ∨ x ∈ FileTree.trail d.place p.names := by
  rw [join, if_pos h, trail, FileTree.mem_trail_append]
  rfl

theorem LeadsDown.place_join (h : p.LeadsDown) : (d.join p).place = d.place.down p.names := by
  rw [Path.place_join h.1, FileTree.foldl_step_of_notMem h.2.2]

theorem LeadsDown.eq_of_place_join (hp : p.LeadsDown) (hq : q.LeadsDown)
    (h : (d.join p).place = (d.join q).place) : p = q := by
  rw [hp.place_join, hq.place_join] at h
  obtain ⟨anchor, names⟩ := p
  obtain ⟨anchor', names'⟩ := q
  obtain rfl : anchor = "" := hp.1
  obtain rfl : anchor' = "" := hq.1
  obtain rfl : names = names' := d.place.down_injective h
  rfl

/-- A path leads through another, and then down. -/
structure GoesDown (d p : Path) : Prop where
  within : p.place.IsWithin d.place
  trail : ∀ x ∈ p.trail, x ∈ d.trail ∨ x.IsWithin d.place

theorem goesDown_join (ha : p.anchor = "") (h : ".." ∉ p.names) : d.GoesDown (d.join p) := by
  refine ⟨?_, fun x hx => ?_⟩
  · rw [place_join ha, FileTree.foldl_step_of_notMem h]
    exact Place.isWithin_down _ _
  · exact ((mem_trail_join ha).1 hx).imp_right fun hin => FileTree.isWithin_of_mem_trail h hin

theorem GoesDown.refl (d : Path) : d.GoesDown d :=
  ⟨.refl _, fun _ hx => .inl hx⟩

theorem GoesDown.trans (hp : d.GoesDown p) (hq : p.GoesDown q) : d.GoesDown q := by
  refine ⟨hq.within.trans hp.within, fun x hx => ?_⟩
  rcases hq.trail x hx with hx | hx
  · exact hp.trail x hx
  · exact .inr (hx.trans hp.within)

theorem anchorOf_eq_empty {cs : List Char} : anchorOf cs = "" ↔ cs.head? ≠ some '/' := by
  unfold anchorOf
  cases cs with
  | nil => simp
  | cons c r =>
    by_cases hc : c = '/'
    · subst hc
      simp only [List.takeWhile_cons, beq_self_eq_true, if_true, List.head?_cons]
      split <;> simp_all
    · simp [hc]

/-- A text without slash names a file in the directory that it is looked up from. -/
theorem ofText_of_notMem {s : String} (h : '/' ∉ s.toList) (hne : s ≠ "") (hdot : s ≠ ".") :
    ofText s = ⟨"", [s]⟩ := by
  have ha : anchorOf s.toList = "" :=
    anchorOf_eq_empty.2 fun hh => h (List.mem_of_mem_head? hh)
  have hs : Text.splitAt '/' s = [s] := by
    rw [Text.splitAt, Text.splitChars_of_notMem h]
    simp
  rw [ofText, ha, hs]
  simp [hne, hdot]

theorem subset_of_mem_names {s n : String} (h : n ∈ (ofText s).names) :
    ∀ c ∈ n.toList, c ∈ s.toList := by
  have hn : n ∈ Text.splitAt '/' s := (List.mem_filter.1 h).1
  obtain ⟨cs, hcs, rfl⟩ := List.mem_map.1 hn
  intro c hc
  rw [String.toList_ofList] at hc
  exact Text.mem_of_mem_splitChars hcs hc

end Path

namespace FileTree

variable {t t' : FileTree} {path : Path} {p q : Place} {names before : List String}

theorem locate_ok (h : t.locate path = .ok q) :
    q = path.place ∧ ∀ x ∈ path.trail, x = q ∨ t.get? x = some .directory := by
  unfold locate at h
  split_ifs at h
  exact follow_ok h

/-- What is written goes to the place that its path leads to, which was no directory. -/
theorem write_ok {content : List UInt8} (h : t.write path content = .ok t') :
    t.get? path.place ≠ some .directory ∧ t' = t.set path.place (.file content) := by
  unfold write at h
  cases hl : t.locate path with
  | error e => simp [hl] at h
  | ok place =>
    obtain ⟨rfl, -⟩ := locate_ok hl
    rw [hl] at h
    dsimp only at h
    split at h
    · cases h
    · next hd =>
      exact ⟨fun hg => hd hg, (Except.ok.inj h).symm⟩

/-! ## Making directories -/

/-- A tree is another with directories at some places, none of which was taken by a file. -/
structure Makes (t t' : FileTree) (places : List Place) : Prop where
  get? : ∀ q, t'.get? q = if q ∈ places then some .directory else t.get? q
  spared : ∀ q ∈ places, t.get? q = none ∨ t.get? q = some .directory

theorem Makes.of_directories {places : List Place} (h : ∀ q ∈ places, t.get? q = some .directory) :
    t.Makes t places := by
  refine ⟨fun q => ?_, fun q hq => .inr (h q hq)⟩
  split_ifs with hq
  · exact h q hq
  · rfl

/-- A directory that was there already need not be made. -/
theorem Makes.cons {places : List Place} (hp : t.get? p = some .directory)
    (h : t.Makes t' places) : t.Makes t' (p :: places) := by
  refine ⟨fun q => ?_, List.forall_mem_cons.2 ⟨.inr hp, h.spared⟩⟩
  rw [h.get?]
  by_cases hq : q = p
  · subst hq
    simp [hp]
  · simp [hq]

/-- A directory that was made first is among those that are made. -/
theorem Makes.of_set {places : List Place} (hn : t.get? p = none) (hp : p ∈ places)
    (h : (t.set p .directory).Makes t' places) : t.Makes t' places := by
  have hset := get?_set (t := t) (p := p) (by rw [hn]; simp) .directory
  refine ⟨fun q => ?_, fun q hq => ?_⟩
  · rw [h.get?]
    split_ifs with hq
    · rfl
    · have hne : q ≠ p := fun he => hq (he ▸ hp)
      rw [hset, if_neg hne]
  · by_cases he : q = p
    · exact .inl (he ▸ hn)
    · have hspared := h.spared q hq
      rwa [hset, if_neg he] at hspared

/-- Directories that are made one inside the other are all there in the end. -/
theorem makeChain_ok {anchor : String} (hp : t.get? p = some .directory)
    (h : t.makeChain anchor p before names = (t', none)) : t.Makes t' (trail p names) := by
  induction names generalizing t p before with
  | nil =>
    obtain ⟨rfl, -⟩ := Prod.mk.inj h
    exact .of_directories fun q hq => List.mem_singleton.1 hq ▸ hp
  | cons name r ih =>
    rw [makeChain] at h
    dsimp only at h
    split_ifs at h
    · simp at h
    cases hn : t.get? (step p name) with
    | some e =>
      cases e with
      | file content => simp [hn] at h
      | directory =>
        rw [hn] at h
        exact (ih hn h).cons hp
    -- the one made here is there for the rest, which is made below it
    | none =>
      rw [hn] at h
      have hmade : (t.set (step p name) .directory).get? (step p name) = some .directory := by
        rw [get?_set (by rw [hn]; simp), if_pos rfl]
      exact ((ih hmade h).of_set hn (mem_trail_self _ _)).cons hp

/-- Making a directory makes those that lead to it, and nothing else. -/
theorem makeDirectories_ok {most : Nat} (h : makeDirectories most t path = (t', none)) :
    t.Makes t' path.trail := by
  unfold makeDirectories at h
  cases hl : t.locate path with
  | ok place =>
    obtain ⟨rfl, htrail⟩ := locate_ok hl
    rw [hl] at h
    dsimp only at h
    cases hg : t.get? path.place with
    | none =>
      rw [hg] at h
      obtain ⟨rfl, -⟩ := Prod.mk.inj h
      refine .of_set hg path.place_mem_trail (.of_directories fun q hq => ?_)
      rw [get?_set (by rw [hg]; simp)]
      split_ifs with he
      · rfl
      · exact (htrail q hq).resolve_left he
    | some e =>
      cases e with
      | file content => simp [hg] at h
      | directory =>
        rw [hg] at h
        obtain ⟨rfl, -⟩ := Prod.mk.inj h
        exact .of_directories fun q hq => (htrail q hq).elim (fun he => he ▸ hg) id
  | error e =>
    rw [hl] at h
    cases e with
    -- only where something on the way is missing are the directories made one by one
    | noEntry =>
      dsimp only at h
      split_ifs at h
      · simp at h
      obtain ⟨rfl, herror⟩ := Prod.mk.inj h
      have hstart : t.get? (startOf path) = some .directory := rfl
      exact makeChain_ok hstart (Prod.ext rfl (by simpa using herror))
    | alreadyExists => simp at h
    | notDirectory => simp at h
    | isDirectory => simp at h
    | nameTooLong => simp at h

end FileTree

end Typewright
