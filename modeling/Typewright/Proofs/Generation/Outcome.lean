import Mathlib.Data.List.Count
import Typewright.Proofs.Generation.Fitting
import Typewright.Proofs.Schema.Reading

/-!
# The outcome of generation

Whether a schema has units is decided by the schema: its definitions have to be named apart, and no
class may lack a default at the base version. Only the indentation can come in between, where that
of a level or of a line is longer than a text can be.

- `Generator.generate_error`: what a failure is about.
- `Generator.exists_generate`: a schema has units where nothing is in the way.
- `Generator.generate_outcome`: the outcome for every indentation and memory.
-/

namespace Typewright

/-- No class of the schema has a field, inherited or its own, for which a default is missing. -/
def Schema.IsComplete (s : Schema) : Prop :=
  ∀ w ∈ s.walk, w.1.isClass → ∀ f ∈ w.2 ++ w.1.fields, ¬ f.MissingAt .zero

instance (s : Schema) : Decidable s.IsComplete :=
  inferInstanceAs (Decidable (∀ w ∈ s.walk, _ → _))

/-- The definitions of the schema have different names. -/
def Schema.NamedApart (s : Schema) : Prop :=
  (s.walk.map (·.1.name)).Nodup

instance (s : Schema) : Decidable s.NamedApart :=
  inferInstanceAs (Decidable (List.Nodup _))

/-- The failure names a class of the schema and a field of it for which a default is missing. -/
def Schema.BlamesDefault (s : Schema) (e : GenerationFailure) : Prop :=
  ∃ w ∈ s.walk, w.1.isClass ∧ ∃ f ∈ w.2 ++ w.1.fields, f.MissingAt .zero ∧
    e = .error (.missingDefault ⟨f, w.1.name, .zero⟩)

/-- The failure names the unit of two definitions of the schema. -/
def Generator.BlamesUnit (g : Generator) (s : Schema) (e : GenerationFailure) : Prop :=
  ∃ n, List.Duplicate n (s.walk.map (·.1.name)) ∧ e = .error (.collision (g.unitName n))

namespace Generator

variable {g : Generator} {s : Schema} {x : Site} {e : GenerationFailure} {d : Defect}
  {fragments : List Java.Fragment}

/-! ## One site -/

/-- A site fails at the text of its definition only if it is not for a default. -/
theorem unitAt_defect_iff :
    g.unitAt x = .error (.defect d) ↔
      ∃ fragments, g.fragmentsOf x.parent? x.inherited x.definition = .ok fragments ∧
        g.Hinders fragments d := by
  simp only [← unitText_error_iff]
  constructor
  · intro h
    obtain hf | ⟨fragments, hf, h⟩ := Fallible.bind_error h
    · obtain ⟨m, -, heq⟩ := Fallible.mapError_error hf
      cases heq
    · obtain ht | ⟨text, -, h⟩ := Fallible.bind_error h
      · obtain ⟨d', hd, heq⟩ := Fallible.mapError_error ht
        cases heq
        exact ⟨fragments, Fallible.mapError_ok hf, hd⟩
      · cases h
  · rintro ⟨fragments, hf, ht⟩
    rw [unitAt, unitOf, hf, Fallible.mapError_of_ok]
    simp only [bind, Except.bind, ht, Fallible.mapError_of_error]

/-- A site fails at a default that its class lacks, or at the text of its definition. -/
theorem unitAt_error (hn : ∀ f ∈ x.inherited ++ x.definition.fields, f.since.IsNonneg)
    (h : g.unitAt x = .error e) :
    (x.definition.isClass ∧ ∃ f ∈ x.inherited ++ x.definition.fields, f.MissingAt .zero ∧
        e = .error (.missingDefault ⟨f, x.definition.name, .zero⟩)) ∨
      ∃ d, e = .defect d ∧ g.unitAt x = .error (.defect d) := by
  obtain hf | ⟨fragments, -, h'⟩ := Fallible.bind_error h
  · obtain ⟨m, hm, rfl⟩ := Fallible.mapError_error hf
    obtain ⟨hd, hp⟩ := fragmentsOf_error hm
    obtain ⟨f, hfind, rfl⟩ := (planConstructors_error_iff hn).1 hp
    have hmiss := List.find?_some hfind
    exact .inl ⟨hd, f, List.mem_of_find?_eq_some hfind, by simpa using hmiss, rfl⟩
  · obtain ht | ⟨text, -, h'⟩ := Fallible.bind_error h'
    · obtain ⟨d, -, rfl⟩ := Fallible.mapError_error ht
      exact .inr ⟨d, rfl, h⟩
    · cases h'

/-- A site has a unit exactly if its definition has source text that can be laid out. -/
theorem exists_unitAt_iff :
    (∃ us, g.unitAt x = .ok us) ↔
      ∃ fragments, g.fragmentsOf x.parent? x.inherited x.definition = .ok fragments ∧
        g.Fits fragments := by
  simp only [← exists_unitText_iff]
  constructor
  · rintro ⟨us, h⟩
    obtain ⟨fragments, text, hf, ht, -⟩ := unitOf_ok h
    exact ⟨fragments, hf, text, ht⟩
  · rintro ⟨fragments, hf, text, ht⟩
    refine ⟨[(g.unitName x.definition.name, text)], ?_⟩
    rw [unitAt, unitOf, hf, Fallible.mapError_of_ok]
    simp only [bind, Except.bind, ht, Fallible.mapError_of_ok]
    rfl

/-- A definition has source text unless it is a class that lacks a default at the base version. -/
theorem exists_fragmentsOf_iff (hn : ∀ f ∈ x.inherited ++ x.definition.fields, f.since.IsNonneg) :
    (∃ fragments, g.fragmentsOf x.parent? x.inherited x.definition = .ok fragments) ↔
      (x.definition.isClass → ∀ f ∈ x.inherited ++ x.definition.fields, ¬ f.MissingAt .zero) := by
  constructor
  · rintro ⟨fragments, hf⟩ hd
    obtain ⟨u, hu⟩ := exists_classOf_of_fragmentsOf hd hf
    obtain ⟨plans, hp, -, -⟩ := Java.exists_plans_of_classOf hu
    exact (exists_planConstructors_iff hn).1 ⟨plans, hp⟩
  · intro h
    cases hf : g.fragmentsOf x.parent? x.inherited x.definition with
    | ok fragments => exact ⟨fragments, rfl⟩
    | error m =>
      obtain ⟨hd, hp⟩ := fragmentsOf_error hf
      obtain ⟨plans, hplans⟩ := (exists_planConstructors_iff hn).2 (h hd)
      cases hp.symm.trans hplans

/-- A class that lacks a default at the base version has no unit. -/
theorem not_missing_of_unitAt_ok (hn : ∀ f ∈ x.inherited ++ x.definition.fields, f.since.IsNonneg)
    {us : Units String} (h : g.unitAt x = .ok us) (hd : x.definition.isClass) :
    ∀ f ∈ x.inherited ++ x.definition.fields, ¬ f.MissingAt .zero := by
  obtain ⟨fragments, text, hf, -, -⟩ := unitOf_ok h
  exact (exists_fragmentsOf_iff hn).1 ⟨fragments, hf⟩ hd

/-- In a schema that has units, every definition that becomes a class has one. -/
theorem exists_classOf_of_generate {units : Units String} (h : g.generate s = .ok units)
    (hx : x ∈ s.sites) (hd : x.definition.isClass) :
    ∃ u, Java.classOf g.containers x.parent? x.inherited x.definition = some (.ok u) := by
  obtain ⟨us, hus, -, -⟩ := generate_ok h
  obtain ⟨u, hu⟩ := hus.exists_of_mem hx
  obtain ⟨fragments, text, hf, -, -⟩ := unitOf_ok hu
  exact exists_classOf_of_fragmentsOf hd hf

/-! ## Names of units -/

theorem unitName_injective (g : Generator) : Function.Injective g.unitName := by
  intro m n h
  rw [unitName, unitName, ← String.toList_inj, String.toList_append, String.toList_append] at h
  exact String.toList_inj.1 (List.append_cancel_right h)

theorem namesAt_sites (g : Generator) (s : Schema) :
    g.namesAt s.sites = (s.walk.map (·.1.name)).map g.unitName := by
  rw [namesAt, Schema.walk_eq_sites]
  simp

theorem nodup_namesAt_iff (g : Generator) (s : Schema) :
    (g.namesAt s.sites).Nodup ↔ s.NamedApart := by
  rw [namesAt_sites, List.nodup_map_iff g.unitName_injective, Schema.NamedApart]

theorem exists_duplicate_of_namesAt {n : String} (h : List.Duplicate n (g.namesAt s.sites)) :
    ∃ m, n = g.unitName m ∧ List.Duplicate m (s.walk.map (·.1.name)) := by
  rw [namesAt_sites] at h
  obtain ⟨m, -, rfl⟩ := List.mem_map.1 h.mem
  refine ⟨m, rfl, List.duplicate_iff_two_le_count.2 ?_⟩
  rw [← List.count_map_of_injective _ _ g.unitName_injective]
  exact List.duplicate_iff_two_le_count.1 h

/-! ## Schemas that have units -/

theorem namedApart_of_unitsAt {us : Units String} (h : g.UnitsAt s.sites us)
    (hn : us.names.Nodup) : s.NamedApart := by
  rw [h.names] at hn
  exact (nodup_namesAt_iff g s).1 hn

theorem isComplete_of_unitsAt (hn : s.IsNonneg) {us : Units String} (h : g.UnitsAt s.sites us) :
    s.IsComplete := by
  intro w hw hd
  rw [Schema.walk_eq_sites] at hw
  obtain ⟨x, hx, rfl⟩ := List.mem_map.1 hw
  obtain ⟨u, hu⟩ := h.exists_of_mem hx
  exact not_missing_of_unitAt_ok (Schema.forall_inherited hn hx) hu hd

theorem fitsAll_of_unitsAt {us : Units String} (h : g.UnitsAt s.sites us) : g.FitsAll s := by
  intro x hx fragments hf
  obtain ⟨u, hu⟩ := h.exists_of_mem hx
  obtain ⟨fragments', hf', hfits⟩ := exists_unitAt_iff.1 ⟨_, hu⟩
  obtain rfl := Except.ok.inj (hf.symm.trans hf')
  exact hfits

/-- The failure is what keeps the text of a definition of the schema from being laid out. -/
def BlamesText (g : Generator) (s : Schema) (e : GenerationFailure) : Prop :=
  ∃ x ∈ s.sites, ∃ fragments d,
    g.fragmentsOf x.parent? x.inherited x.definition = .ok fragments ∧ g.Hinders fragments d ∧
      e = .defect d

/-- What a failure is about: a default, a name, or the text of a definition. -/
theorem generate_error (hn : s.IsNonneg) (h : g.generate s = .error e) :
    s.BlamesDefault e ∨ g.BlamesUnit s e ∨ g.BlamesText s e := by
  obtain ⟨x, hx, hxe⟩ | ⟨n, rfl, hdup⟩ := unitsOfAll_error [] (generate_error_iff.1 h)
  · obtain ⟨hd, f, hf, hm, rfl⟩ | ⟨d, rfl, hd⟩ := unitAt_error (Schema.forall_inherited hn hx) hxe
    · exact .inl ⟨_, Schema.mem_walk_of_mem_sites hx, hd, f, hf, hm, rfl⟩
    · obtain ⟨fragments, hf, hh⟩ := unitAt_defect_iff.1 hd
      exact .inr (.inr ⟨x, hx, fragments, d, hf, hh, rfl⟩)
  · obtain ⟨m, rfl, hm⟩ := exists_duplicate_of_namesAt hdup
    exact .inr (.inl ⟨m, hm, rfl⟩)

theorem not_blamesText (hf : g.FitsAll s) : ¬g.BlamesText s e := by
  rintro ⟨x, hx, fragments, d, hfragments, hd, -⟩
  exact fits_iff.1 (hf x hx fragments hfragments) d hd

/-- A schema whose definitions are named apart, lack no default and can be laid out has units. -/
theorem exists_generate (hn : s.IsNonneg) (ha : s.NamedApart) (hc : s.IsComplete)
    (hf : g.FitsAll s) : ∃ units, g.generate s = .ok units := by
  refine Fallible.exists_ok_iff.2 fun e h => ?_
  obtain ⟨w, hw, hd, f, hmem, hm, -⟩ | ⟨n, hdup, -⟩ | ht := generate_error hn h
  · exact hc w hw hd f hmem hm
  · exact hdup.not_nodup ha
  · exact not_blamesText hf ht

/-- A schema that lacks no default but has definitions of one name fails at one of these. -/
theorem exists_collision (hn : s.IsNonneg) (hc : s.IsComplete) (ha : ¬ s.NamedApart)
    (hf : g.FitsAll s) :
    ∃ n, List.Duplicate n (s.walk.map (·.1.name)) ∧
      g.generate s = .error (.error (.collision (g.unitName n))) := by
  cases h : g.generate s with
  | ok units =>
    obtain ⟨us, hus, hnames, -⟩ := generate_ok h
    exact absurd (namedApart_of_unitsAt hus hnames) ha
  | error e =>
    obtain ⟨w, hw, hd, f, hmem, hm, -⟩ | ⟨n, hdup, rfl⟩ | ht := generate_error hn h
    · exact absurd hm (hc w hw hd f hmem)
    · exact ⟨n, hdup, rfl⟩
    · exact absurd ht (not_blamesText hf)

/-! ## Where a level of indentation cannot be made -/

theorem exists_unitAt_error (h : g.settings.LacksLevel g.memory d) (x : Site) :
    ∃ e, g.unitAt x = .error e := by
  cases hx : g.unitAt x with
  | error e => exact ⟨e, rfl⟩
  | ok us =>
    obtain ⟨fragments, -, hf⟩ := exists_unitAt_iff.1 ⟨us, hx⟩
    exact absurd (.level h) (fits_iff.1 hf d)

/-- A definition that has no unit itself has none below it either. -/
theorem unitsOf_of_unitAt_error {d : Definition} {around : List Definition}
    (h : g.unitAt ⟨d, around⟩ = .error e) :
    g.unitsOf (parentName around) (fieldsAround around) d = .error e := by
  cases d with
  | enumeration hd vs => exact h
  | record hd fs => exact h
  | protocol hd fs ms ds =>
    have h' : g.unitOf (parentName around) (fieldsAround around) (.protocol hd fs ms ds) =
        .error e := h
    rw [unitsOf, h']; rfl

theorem generate_of_unitAt_error {first : Definition} {rest : List Definition}
    (hs : s.definitions = first :: rest) (h : g.unitAt ⟨first, []⟩ = .error e) :
    g.generate s = .error e := by
  have hu : g.unitsOf none [] first = .error e := unitsOf_of_unitAt_error h
  rw [generate_error_iff, hs, unitsOfAll, hu]; rfl

/-- Then nothing can be generated, and it is a definition by itself that fails. -/
theorem generate_of_lacksLevel (hn : s.IsNonneg) (hl : g.settings.LacksLevel g.memory d)
    (hs : s.definitions ≠ []) :
    ∃ e, g.generate s = .error e ∧ (e = .defect d ∨ s.BlamesDefault e) := by
  obtain ⟨first, rest, hdefs⟩ := List.exists_cons_of_ne_nil hs
  obtain ⟨e, he⟩ := exists_unitAt_error hl ⟨first, []⟩
  have hx := Schema.mem_sites_first hdefs
  refine ⟨e, generate_of_unitAt_error hdefs he, ?_⟩
  obtain ⟨hd, f, hf, hm, rfl⟩ | ⟨d', rfl, hd'⟩ :=
    unitAt_error (Schema.forall_inherited hn hx) he
  · exact .inr ⟨_, Schema.mem_walk_of_mem_sites hx, hd, f, hf, hm, rfl⟩
  · obtain ⟨fragments, -, hl' | ⟨hlayout, -⟩⟩ := unitAt_defect_iff.1 hd'
    · exact .inl (congrArg _ (hl'.unique hl))
    · cases hlayout.symm.trans (layout_error_iff.2 hl)

/-- A level of indentation that is counted cannot be made only if the count is out of range. -/
theorem count_of_lacksLevel
    (hset : g.settings.useTabs.isTruthy ∨ ∃ n, Settings.countOf g.settings.indentSize = .ok n)
    (h : g.settings.LacksLevel g.memory d) :
    ∃ n fault, Settings.countOf g.settings.indentSize = .ok n ∧ d = .repetition fault ∧
      (n < -Text.wordLimit ∨ g.memory.capacity < n) := by
  have hw := g.memory.capacity_lt
  cases h with
  | notCount ht hi =>
    obtain ⟨n, hn⟩ := hset.resolve_left (by simp [ht])
    exact absurd hn (hi n)
  | @countTooLarge n _ hi hn => exact ⟨n, _, hi, rfl, by omega⟩
  | @outOfMemory n _ hi hm _ => exact ⟨n, _, hi, rfl, .inr hm⟩

theorem exists_fault_of_hinders
    (hset : g.settings.useTabs.isTruthy ∨ ∃ n, Settings.countOf g.settings.indentSize = .ok n)
    (h : g.Hinders fragments d) : ∃ fault, d = .repetition fault := by
  cases h with
  | level hl =>
    obtain ⟨n, fault, -, rfl, -⟩ := count_of_lacksLevel hset hl
    exact ⟨fault, rfl⟩
  | line => exact ⟨_, rfl⟩

/-! ## Every indentation -/

/--
A schema has units exactly if its definitions are named apart, no class lacks a default, and the
text of the definitions can be laid out. A failure names the default or the unit that is at fault,
or is the refusal of the first indentation in a definition that cannot be made. If it is that of a
level, the count is out of range; then only the empty schema has units, and any other fails with
that or with a default.
-/
theorem generate_outcome
    (hset : g.settings.useTabs.isTruthy ∨ ∃ n, Settings.countOf g.settings.indentSize = .ok n)
    (hn : s.IsNonneg) :
    ((∃ units, g.generate s = .ok units) ↔ s.NamedApart ∧ s.IsComplete ∧ g.FitsAll s) ∧
      (∀ e, g.generate s = .error e → s.BlamesDefault e ∨ g.BlamesUnit s e ∨
        g.BlamesText s e ∧ ∃ fault, e = .defect (.repetition fault)) ∧
      ∀ d, g.settings.LacksLevel g.memory d →
        (∃ n fault, Settings.countOf g.settings.indentSize = .ok n ∧ d = .repetition fault ∧
          (n < -Text.wordLimit ∨ g.memory.capacity < n)) ∧
        (s.definitions = [] → g.generate s = .ok []) ∧
        (s.definitions ≠ [] →
          ∃ e, g.generate s = .error e ∧ (e = .defect d ∨ s.BlamesDefault e)) := by
  refine ⟨⟨?_, ?_⟩, ?_, fun d hl => ⟨count_of_lacksLevel hset hl, ?_, ?_⟩⟩
  · rintro ⟨units, h⟩
    obtain ⟨us, hus, hnames, -⟩ := generate_ok h
    exact ⟨namedApart_of_unitsAt hus hnames, isComplete_of_unitsAt hn hus, fitsAll_of_unitsAt hus⟩
  · rintro ⟨ha, hc, hf⟩
    exact exists_generate hn ha hc hf
  · intro e h
    obtain hd | hu | ⟨x, hx, fragments, d, hf, hh, rfl⟩ := generate_error hn h
    · exact .inl hd
    · exact .inr (.inl hu)
    · obtain ⟨fault, rfl⟩ := exists_fault_of_hinders hset hh
      exact .inr (.inr ⟨⟨x, hx, fragments, _, hf, hh, rfl⟩, fault, rfl⟩)
  · intro hs
    rw [generate, hs]; rfl
  · exact generate_of_lacksLevel hn hl

/-- The Java generator that indents by a number of blanks and has no other setting. -/
def counted (n : Int) : Generator :=
  ⟨.ample, .java, ⟨.null, .int n, .bool false, .bool true, .obj []⟩, .standard⟩

/-- Three levels of four blanks fit, so that every plain schema does. -/
theorem fitsAll_counted (hs : s.IsPlain) : (counted 4).FitsAll s := by
  have hi : (counted 4).settings.indent (counted 4).memory = .ok "    " := rfl
  exact fitsAll_of_isPlain hi (by decide) (by decide) hs

theorem exists_generate_counted (hn : s.IsNonneg) (ha : s.NamedApart) (hc : s.IsComplete)
    (hs : s.IsPlain) : ∃ units, (counted 4).generate s = .ok units :=
  exists_generate hn ha hc (fitsAll_counted hs)

end Generator

/-- A protocol with a field, and in it a record with a newer one and an enumeration. -/
def Schema.nested : Schema :=
  ⟨"n", [.protocol ⟨"P", none, []⟩ [.ofInt "a" [0] none] [] [
    .record ⟨"R", none, []⟩ [.ofInt "b" [1] (some "1")],
    .enumeration ⟨"E", none, []⟩ [⟨"V", none⟩]]]⟩

namespace Generator

theorem exists_generate_nested : ∃ units, (counted 4).generate Schema.nested = .ok units :=
  exists_generate_counted (by decide) (by decide) (by decide) (by decide)

theorem generate_outcome_nested :
    Schema.nested.IsNonneg ∧ Schema.nested.NamedApart ∧ Schema.nested.IsComplete ∧
      (counted 4).FitsAll Schema.nested ∧
      ∃ units, (counted 4).generate Schema.nested = .ok units := by
  have hn : Schema.nested.IsNonneg := by decide
  have ha : Schema.nested.NamedApart := by decide
  have hc : Schema.nested.IsComplete := by decide
  have hf := fitsAll_counted (s := .nested) (by decide)
  exact ⟨hn, ha, hc, hf, (generate_outcome (.inr ⟨4, rfl⟩) hn).1.2 ⟨ha, hc, hf⟩⟩

/-- A count that fills more than a word keeps a schema without fault from having units. -/
theorem generate_counted_wordLimit :
    Schema.nested.IsNonneg ∧ Schema.nested.NamedApart ∧ Schema.nested.IsComplete ∧
      (counted Text.wordLimit).generate Schema.nested =
        .error (.defect (.repetition .countTooLarge)) :=
  ⟨by decide, by decide, by decide, rfl⟩

end Generator

end Typewright
