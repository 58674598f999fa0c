import Mathlib.Data.List.Nodup
import Typewright.CommandLine.Run
import Typewright.Proofs.Files.Encoding
import Typewright.Proofs.Files.Places

/-!
# Where units are written

The name of a unit is read as a path from the directory that it is written to, so two names can lead
to one file, and a name can lead out of the directory. Of the units that are written to one file the
last one stays.

- `writeUnits_ok`: what is at every place once units are written.
- `FilesApart`: the names lead to different files below the directory.
- `Keeps`: each unit has a file of its own, and nothing else has changed.
- `Stores.keeps_iff`: the one comes with the other.
-/

namespace Typewright

namespace Units

variable {α : Type} {u : String × α} {us : Units α}

theorem perm_insertByName (u : String × α) (us : Units α) : (insertByName u us).Perm (u :: us) := by
  induction us with
  | nil => rfl
  | cons v r ih =>
    rw [insertByName]
    split_ifs
    · rfl
    · exact (ih.cons v).trans (.swap u v r)

theorem perm_sorted (us : Units α) : us.sorted.Perm us := by
  induction us with
  | nil => rfl
  | cons u r ih => exact (perm_insertByName u (sorted r)).trans (ih.cons u)

end Units

namespace CommandLine

/-- The place that a unit of a name is written to. -/
def unitPlace (directory : Path) (name : String) : Place :=
  (directory.join (.ofText name)).place

/-- What is written to a place: the last of the units that lead there. -/
def contentAt? (directory : Path) (units : Units String) (q : Place) : Option Entry :=
  units.reverse.findSome? fun u =>
    if unitPlace directory u.1 = q then (encodeText? u.2).map .file else none

/-- Files hold units in a directory, and apart from that and the directory are as they were. -/
structure Stores (before after : FileTree) (directory : Path) (units : Units String) : Prop where
  encodable : ∀ u ∈ units, ∃ bytes, encodeText? u.2 = some bytes
  spared : ∀ q ∈ directory.trail, before.get? q = none ∨ before.get? q = some .directory
  get? : ∀ q, after.get? q = (contentAt? directory units.sorted q).or
    (if q ∈ directory.trail then some .directory else before.get? q)

variable {m : Machine} {t t' before after : FileTree} {path directory output : Path}
    {u : String × String}
  {units : Units String} {q : Place} {bytes : List UInt8}

/-! ## What is at a place -/

theorem contentAt?_cons (directory : Path) (u : String × String) (units : Units String)
    (q : Place) :
    contentAt? directory (u :: units) q = (contentAt? directory units q).or
      (if unitPlace directory u.1 = q then (encodeText? u.2).map .file else none) := by
  rw [contentAt?, List.reverse_cons, List.findSome?_append, List.findSome?_singleton]
  rfl

theorem contentAt?_eq_none (h : ∀ u ∈ units, unitPlace directory u.1 ≠ q) :
    contentAt? directory units q = none := by
  rw [contentAt?, List.findSome?_eq_none_iff]
  intro u hu
  rw [if_neg (h u (List.mem_reverse.1 hu))]

/-- Where the places of units differ, each unit is what is written to its place. -/
theorem contentAt?_unitPlace (hn : (units.map fun u => unitPlace directory u.1).Nodup)
    (hu : u ∈ units) (hb : encodeText? u.2 = some bytes) :
    contentAt? directory units (unitPlace directory u.1) = some (.file bytes) := by
  induction units with
  | nil => cases hu
  | cons v r ih =>
    rw [List.map_cons, List.nodup_cons] at hn
    rw [contentAt?_cons]
    rcases List.mem_cons.1 hu with rfl | hu
    · have hr : contentAt? directory r (unitPlace directory u.1) = none :=
        contentAt?_eq_none fun w hw he => hn.1 (List.mem_map.2 ⟨w, hw, he⟩)
      rw [hr, if_pos rfl, hb]
      rfl
    · rw [ih hn.2 hu]
      rfl

theorem writeText_ok {text : String} (h : writeText path t text = (t', none)) :
    ∃ bytes, encodeText? text = some bytes ∧ t.get? path.place ≠ some .directory ∧
      t' = t.set path.place (.file bytes) := by
  unfold writeText at h
  split at h
  · simp at h
  dsimp only at h
  cases hw : t.write path ((encodeText? text).getD []) with
  | error e => simp [hw] at h
  | ok t₁ =>
    rw [hw] at h
    obtain ⟨rfl, hfault⟩ := Prod.mk.inj h
    cases hb : encodeText? text with
    | none => simp [hb] at hfault
    | some bytes =>
      rw [hb] at hw
      exact ⟨bytes, rfl, FileTree.write_ok hw⟩

section

-- The equation is found without looking into the files.
attribute [local irreducible] writeText

theorem writeAll_cons (directory : Path) (t : FileTree) (name text : String) (r : Units String) :
    writeAll directory t ((name, text) :: r) =
      match writeText (directory.join (.ofText name)) t text with
      | (t', none) => writeAll directory t' r
      | (t', some failure) => (t', some failure) :=
  rfl

end

theorem writeAll_ok (h : writeAll directory t units = (t', none)) :
    (∀ u ∈ units, ∃ bytes, encodeText? u.2 = some bytes) ∧
      ∀ q, t'.get? q = (contentAt? directory units q).or (t.get? q) := by
  induction units generalizing t with
  | nil =>
    obtain ⟨rfl, -⟩ : t = t' ∧ none = none := Prod.mk.inj h
    exact ⟨by simp, fun q => rfl⟩
  | cons u r ih =>
    obtain ⟨name, text⟩ := u
    rw [writeAll_cons] at h
    cases hw : writeText (directory.join (.ofText name)) t text with
    | mk t₁ failure =>
      cases failure with
      | some failure => simp [hw] at h
      | none =>
        rw [hw] at h
        obtain ⟨bytes, hb, hd, rfl⟩ := writeText_ok hw
        obtain ⟨hencodable, hget⟩ := ih h
        refine ⟨List.forall_mem_cons.2 ⟨⟨bytes, hb⟩, hencodable⟩, fun q => ?_⟩
        -- a later unit in the same place wins, so the rest is asked before this one
        rw [hget, FileTree.get?_set hd, contentAt?_cons, Option.or_assoc, hb]
        by_cases hq : q = unitPlace directory name
        · subst hq
          simp [unitPlace]
        · have hq' : q ≠ (directory.join (.ofText name)).place := hq
          simp [hq', Ne.symm hq]

/-- Units that are written are stored. -/
theorem writeUnits_ok (h : writeUnits m directory t units = (t', none)) :
    Stores t t' directory units := by
  unfold writeUnits at h
  split at h
  · simp at h
  cases hm : t.makeDirectories m.directoryDepth directory with
  | mk t₁ failure =>
    cases failure with
    | some failure => cases failure <;> simp [hm] at h
    | none =>
      rw [hm] at h
      obtain ⟨hmade, hspared⟩ := FileTree.makeDirectories_ok hm
      obtain ⟨hencodable, hget⟩ := writeAll_ok h
      refine ⟨fun u hu => hencodable u ((Units.perm_sorted units).mem_iff.2 hu), hspared,
        fun q => ?_⟩
      rw [hget, hmade]

/-! ## Files of their own -/

/-- Units go to different files, all of them below a directory. -/
def FilesApart (directory : Path) (units : Units String) : Prop :=
  (∀ u ∈ units, (unitPlace directory u.1).IsBelow directory.place) ∧
    (units.map fun u => unitPlace directory u.1).Nodup

instance (directory : Path) (units : Units String) : Decidable (FilesApart directory units) :=
  inferInstanceAs (Decidable (_ ∧ _))

/--
Each unit has a file of its own below the target, which is within the output directory. Nothing else
has changed outside of that, except that missing directories lead there.
-/
structure Keeps (before after : FileTree) (output target : Path) (units : Units String) :
    Prop where
  within : target.place.IsWithin output.place
  apart : FilesApart target units
  stored : ∀ u ∈ units, ∃ bytes, after.get? (unitPlace target u.1) = some (.file bytes) ∧
    encodeText? u.2 = some bytes ∧ decodeText? bytes = some u.2
  frame : ∀ q, after.get? q ≠ before.get? q → q.IsWithin output.place ∨
    q ∈ output.trail ∧ before.get? q = none ∧ after.get? q = some .directory

/-- Names that lead down to different places are those of units that go to different files. -/
theorem filesApart_of_leadsDown (directory : Path)
    (hd : ∀ n ∈ units.names, (Path.ofText n).LeadsDown)
    (hn : (units.names.map Path.ofText).Nodup) : FilesApart directory units := by
  refine ⟨fun u hu => ?_, ?_⟩
  · have hu := hd u.1 (List.mem_map_of_mem hu)
    rw [unitPlace, hu.place_join]
    exact Place.isBelow_down hu.2.1
  · have hplaces : (units.map fun u => unitPlace directory u.1) =
        (units.names.map Path.ofText).map fun p => (directory.join p).place := by
      simp [Units.names, unitPlace, Function.comp_def]
    rw [hplaces]
    refine List.Nodup.map_on (fun p hp p' hp' he => ?_) hn
    obtain ⟨n, hn, rfl⟩ := List.mem_map.1 hp
    obtain ⟨n', hn', rfl⟩ := List.mem_map.1 hp'
    exact (hd n hn).eq_of_place_join (hd n' hn') he

/-- Units that are stored have files of their own exactly if they go to different files. -/
theorem Stores.keeps_iff (h : Stores before after directory units)
    (ho : output.GoesDown directory) :
    Keeps before after output directory units ↔ FilesApart directory units := by
  refine ⟨fun hk => hk.apart, fun ha => ⟨ho.within, ha, fun u hu => ?_, fun q hq => ?_⟩⟩
  -- units are written in the order of their names, but each place has one of them at most
  · have hperm := Units.perm_sorted units
    have hsorted : (units.sorted.map fun u => unitPlace directory u.1).Nodup :=
      (hperm.map _).nodup_iff.2 ha.2
    obtain ⟨bytes, hb⟩ := h.encodable u hu
    refine ⟨bytes, ?_, hb, decodeText?_of_encodeText? hb⟩
    rw [h.get?, contentAt?_unitPlace hsorted (hperm.mem_iff.2 hu) hb, Option.some_or]
  · by_cases hplace : ∃ u ∈ units, unitPlace directory u.1 = q
    · obtain ⟨u, hu, rfl⟩ := hplace
      exact .inl ((ha.1 u hu).1.trans ho.within)
    · have hnone : contentAt? directory units.sorted q = none :=
        contentAt?_eq_none fun u hu he =>
          hplace ⟨u, (Units.perm_sorted units).mem_iff.1 hu, he⟩
      rw [h.get?, hnone, Option.none_or] at hq ⊢
      split_ifs at hq ⊢ with htrail
      · rcases ho.trail q htrail with hout | hin
        · exact .inr ⟨hout, (h.spared q htrail).resolve_right (Ne.symm hq), rfl⟩
        · exact .inl hin
      · exact absurd rfl hq

end CommandLine

end Typewright
