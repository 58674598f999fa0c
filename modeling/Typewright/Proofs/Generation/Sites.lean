import Mathlib.Data.List.Duplicate
import Mathlib.Data.List.Forall2
import Typewright.Proofs.Layout.Again
import Typewright.Proofs.Schema.Site

/-!
# Generation site by site

The units of a definition and of all below it are those of its sites in order. What can go wrong at
a site goes wrong for the whole, and besides only that two sites have units of one name.

- `Generator.unitsOf_ok`, `Generator.unitsOfAll_ok`: the units, if there are any.
- `Generator.generate_eq_map`: putting units into their package does nothing but to add its line.
- `Generator.generate_ok`: the units of a schema before and after they are put into its package.
- `Generator.unitsOf_error`, `Generator.unitsOfAll_error`: why there are none.
-/

namespace Typewright

namespace Units

theorem duplicate_of_merge {α : Type} {target units : Units α} {n : String}
    (h : (merge target units).2 = some n) : List.Duplicate n (target.names ++ units.names) := by
  induction units generalizing target with
  | nil => simp [merge] at h
  | cons u r ih =>
    obtain ⟨name, value⟩ := u
    rw [merge] at h
    split_ifs at h with ht
    · obtain rfl := Option.some.inj h
      have hone : [name].Sublist (names ((name, value) :: r)) := by simp
      exact List.duplicate_iff_sublist.2 ((List.singleton_sublist.2 ht).append hone)
    · simpa using ih h

end Units

namespace Generator

variable {g : Generator}

/-- The unit of the definition at a site. -/
def unitAt (g : Generator) (x : Site) : Except GenerationFailure (Units String) :=
  g.unitOf x.parent? x.inherited x.definition

def namesAt (g : Generator) (xs : List Site) : List String :=
  xs.map fun x => g.unitName x.definition.name

theorem unitOf_ok {superclass : Option String} {inherited : List Field} {d : Definition}
    {us : Units String} (h : g.unitOf superclass inherited d = .ok us) :
    ∃ fragments text, g.fragmentsOf superclass inherited d = .ok fragments ∧
      g.unitText fragments = .ok text ∧ us = [(g.unitName d.name, text)] := by
  obtain ⟨fragments, hf, h⟩ := Fallible.bind_ok h
  obtain ⟨text, ht, h⟩ := Fallible.bind_ok h
  exact ⟨fragments, text, Fallible.mapError_ok hf, Fallible.mapError_ok ht,
    (Except.ok.inj h).symm⟩

theorem unitAt_ok {x : Site} {us : Units String} (h : g.unitAt x = .ok us) :
    ∃ text, us = [(g.unitName x.definition.name, text)] := by
  obtain ⟨_, text, -, -, h⟩ := unitOf_ok h
  exact ⟨text, h⟩

/-- Units one for each site. -/
def UnitsAt (g : Generator) (xs : List Site) (us : Units String) : Prop :=
  List.Forall₂ (fun x u => g.unitAt x = .ok [u]) xs us

theorem UnitsAt.names {xs : List Site} {us : Units String} (h : g.UnitsAt xs us) :
    us.names = g.namesAt xs := by
  induction h with
  | nil => rfl
  | cons hu _ ih =>
    obtain ⟨text, hu⟩ := unitAt_ok hu
    rw [List.singleton_inj] at hu
    rw [Units.names_cons, ih, hu]; rfl

theorem UnitsAt.exists_of_mem {xs : List Site} {us : Units String} (h : g.UnitsAt xs us) {x : Site}
    (hx : x ∈ xs) : ∃ u, g.unitAt x = .ok [u] := by
  obtain ⟨i, hi, rfl⟩ := List.mem_iff_getElem.1 hx
  exact ⟨_, h.get hi (h.length_eq ▸ hi)⟩

/-! ## Merging -/

theorem merged_ok {target units all : Units String} (h : merged target units = .ok all) :
    all = target ++ units ∧ (∀ n ∈ units.names, n ∉ target.names) ∧ units.names.Nodup := by
  unfold merged at h
  cases hm : (target.merge units).2 with
  | some n =>
    have hp : target.merge units = ((target.merge units).1, some n) := by rw [← hm]
    rw [hp] at h
    cases h
  | none =>
    have hp : target.merge units = (target ++ units, none) :=
      Prod.ext (Units.merge_eq_append hm) hm
    rw [hp] at h
    exact ⟨(Except.ok.inj h).symm, (Units.merge_eq_none_iff _ _).1 hm⟩

theorem merged_error {target units : Units String} {e : GenerationFailure}
    (h : merged target units = .error e) :
    ∃ n, e = .error (.collision n) ∧ List.Duplicate n (target.names ++ units.names) := by
  unfold merged at h
  split at h
  · cases h
  · next n hm =>
    exact ⟨n, (Except.error.inj h).symm, Units.duplicate_of_merge (by rw [hm])⟩

/-! ## The units that are made -/

mutual

/-- The units of a definition and of all below it are those of its sites, and named apart. -/
theorem unitsOf_ok (around : List Definition) :
    ∀ {d : Definition} {us : Units String},
      g.unitsOf (parentName around) (fieldsAround around) d = .ok us →
        g.UnitsAt (d.sites around) us ∧ us.names.Nodup
  | .enumeration h vs, us, hus => by
    obtain ⟨text, rfl⟩ := unitAt_ok (x := ⟨.enumeration h vs, around⟩) hus
    exact ⟨.cons hus .nil, by simp⟩
  | .record h fs, us, hus => by
    obtain ⟨text, rfl⟩ := unitAt_ok (x := ⟨.record h fs, around⟩) hus
    exact ⟨.cons hus .nil, by simp⟩
  | .protocol h fs ms ds, us, hus => by
    rw [unitsOf] at hus
    obtain ⟨own, hown, hus⟩ := Fallible.bind_ok hus
    obtain ⟨text, rfl⟩ := unitAt_ok (x := ⟨.protocol h fs ms ds, around⟩) hown
    rw [← fieldsAround_protocol] at hus
    obtain ⟨new, rfl, hnew, hnames⟩ := unitsOfAll_ok (.protocol h fs ms ds :: around) (by simp) hus
    exact ⟨.cons hown hnew, hnames⟩

/-- The units of several definitions are added to those so far, all of them named apart. -/
theorem unitsOfAll_ok (around : List Definition) :
    ∀ {ds : List Definition} {sofar us : Units String}, sofar.names.Nodup →
      g.unitsOfAll (parentName around) (fieldsAround around) sofar ds = .ok us →
        ∃ new, us = sofar ++ new ∧ g.UnitsAt (Definition.sitesAll around ds) new ∧ us.names.Nodup
  | [], sofar, us, hn, hus => by
    obtain rfl := Except.ok.inj hus
    exact ⟨[], (List.append_nil _).symm, .nil, hn⟩
  | d :: r, sofar, us, hn, hus => by
    rw [unitsOfAll] at hus
    obtain ⟨units, hunits, hus⟩ := Fallible.bind_ok hus
    obtain ⟨all, hall, hus⟩ := Fallible.bind_ok hus
    obtain ⟨hd, hdn⟩ := unitsOf_ok around hunits
    obtain ⟨rfl, hnew, -⟩ := merged_ok hall
    have halln : (sofar ++ units).names.Nodup := by
      rw [Units.names_append]
      exact hn.append hdn fun n hs hu => hnew n hu hs
    obtain ⟨new, rfl, hr, hrn⟩ := unitsOfAll_ok around halln hus
    exact ⟨units ++ new, List.append_assoc .., List.rel_append hd hr, hrn⟩

end

/-! ## The package -/

/-- A unit with the line of its package before it. -/
def packaged (g : Generator) (space : String) (unit : String × String) : String × String :=
  (unit.1, "package " ++ (g.settings.spaceFor space).text ++ ";\n" ++ unit.2)

theorem packaged_eq (g : Generator) (space name text : String) :
    g.packaged space (name, text) = (name, g.packageLine space ++ "\n" ++ text) := by
  have hl : "package " ++ (g.settings.spaceFor space).text ++ (";" ++ "\n") =
      g.packageLine space ++ "\n" := String.append_assoc.symm
  rw [← hl]
  rfl

theorem inPackage_of_unitAt {space : String} {x : Site} {u : String × String}
    (h : g.unitAt x = .ok [u]) :
    g.inPackage (g.packageLine space) u = .ok (g.packaged space u) := by
  obtain ⟨fragments, text, -, ht, hu⟩ := unitOf_ok h
  obtain rfl := List.singleton_inj.1 hu
  rw [inPackage_unitText ht, packaged_eq]

theorem inPackage_of_unitsAt {space : String} {xs : List Site} {us : Units String}
    (h : g.UnitsAt xs us) :
    us.mapM (g.inPackage (g.packageLine space)) = .ok (us.map (g.packaged space)) := by
  rw [Fallible.mapM_ok_iff, List.forall₂_map_right_iff, List.forall₂_same]
  intro u hu
  obtain ⟨i, hi, rfl⟩ := List.mem_iff_getElem.1 hu
  exact inPackage_of_unitAt (h.get (h.length_eq ▸ hi) hi)

/-- Generation is that of the definitions, with the line of the package put before each unit. -/
theorem generate_eq_map (g : Generator) (s : Schema) :
    g.generate s =
      List.map (g.packaged s.space) <$> g.unitsOfAll none [] [] s.definitions := by
  rw [generate]
  cases h : g.unitsOfAll none [] [] s.definitions with
  | error e => rfl
  | ok us =>
    obtain ⟨new, rfl, hnew, -⟩ := unitsOfAll_ok [] (by simp) h
    exact inPackage_of_unitsAt hnew

theorem generate_error_iff {s : Schema} {e : GenerationFailure} :
    g.generate s = .error e ↔ g.unitsOfAll none [] [] s.definitions = .error e := by
  rw [generate_eq_map]
  cases g.unitsOfAll none [] [] s.definitions <;> simp

/-- The units of a schema are those of its sites, named apart, each put into the package. -/
theorem generate_ok {s : Schema} {units : Units String} (h : g.generate s = .ok units) :
    ∃ us, g.UnitsAt s.sites us ∧ us.names.Nodup ∧
      us.mapM (g.inPackage (g.packageLine s.space)) = .ok units := by
  obtain ⟨us, hus, h⟩ := Fallible.bind_ok h
  obtain ⟨new, rfl, hnew, hnames⟩ := unitsOfAll_ok [] (by simp) hus
  exact ⟨us, hnew, hnames, h⟩

/-! ## Why there are no units -/

mutual

/-- A definition fails with the failure of one of its sites, or at a name that two of them bear. -/
theorem unitsOf_error (around : List Definition) :
    ∀ {d : Definition} {e : GenerationFailure},
      g.unitsOf (parentName around) (fieldsAround around) d = .error e →
        (∃ x ∈ d.sites around, g.unitAt x = .error e) ∨
          ∃ n, e = .error (.collision n) ∧ List.Duplicate n (g.namesAt (d.sites around))
  | .enumeration h vs, e, he => .inl ⟨_, List.mem_cons_self, he⟩
  | .record h fs, e, he => .inl ⟨_, List.mem_cons_self, he⟩
  | .protocol h fs ms ds, e, he => by
    rw [unitsOf] at he
    rcases Fallible.bind_error he with hown | ⟨own, hown, he⟩
    · exact .inl ⟨⟨.protocol h fs ms ds, around⟩, List.mem_cons_self, hown⟩
    obtain ⟨text, rfl⟩ := unitAt_ok (x := ⟨.protocol h fs ms ds, around⟩) hown
    rw [← fieldsAround_protocol] at he
    rcases unitsOfAll_error (.protocol h fs ms ds :: around) he with ⟨x, hx, hxe⟩ | hdup
    · exact .inl ⟨x, List.mem_cons_of_mem _ hx, hxe⟩
    · exact .inr hdup

/-- Several definitions fail in the same ways, or at a name that a unit so far bears. -/
theorem unitsOfAll_error (around : List Definition) :
    ∀ {ds : List Definition} {sofar : Units String} {e : GenerationFailure},
      g.unitsOfAll (parentName around) (fieldsAround around) sofar ds = .error e →
        (∃ x ∈ Definition.sitesAll around ds, g.unitAt x = .error e) ∨
          ∃ n, e = .error (.collision n) ∧
            List.Duplicate n (sofar.names ++ g.namesAt (Definition.sitesAll around ds))
  | [], sofar, e, he => by cases he
  | d :: r, sofar, e, he => by
    rw [unitsOfAll] at he
    have hnames : g.namesAt (Definition.sitesAll around (d :: r)) =
        g.namesAt (d.sites around) ++ g.namesAt (Definition.sitesAll around r) := List.map_append
    rw [hnames]
    rcases Fallible.bind_error he with hunits | ⟨units, hunits, he⟩
    · rcases unitsOf_error around hunits with ⟨x, hx, hxe⟩ | ⟨n, rfl, hdup⟩
      · exact .inl ⟨x, List.mem_append_left _ hx, hxe⟩
      · refine .inr ⟨n, rfl, hdup.mono_sublist ?_⟩
        exact (List.sublist_append_left _ _).trans (List.sublist_append_right _ _)
    rw [← (unitsOf_ok around hunits).1.names]
    rcases Fallible.bind_error he with hall | ⟨all, hall, he⟩
    · obtain ⟨n, rfl, hdup⟩ := merged_error hall
      refine .inr ⟨n, rfl, hdup.mono_sublist ?_⟩
      rw [← List.append_assoc]
      exact List.sublist_append_left _ _
    obtain ⟨rfl, -, -⟩ := merged_ok hall
    rcases unitsOfAll_error around he with ⟨x, hx, hxe⟩ | ⟨n, rfl, hdup⟩
    · exact .inl ⟨x, List.mem_append_right _ hx, hxe⟩
    · rw [Units.names_append, List.append_assoc] at hdup
      exact .inr ⟨n, rfl, hdup⟩

end

end Generator

end Typewright
