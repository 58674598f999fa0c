import Typewright.Proofs.Generation.Outcome
import Typewright.Report

/-!
# Reports of a generator

A generator is made with settings as they were given; only those of containers are checked then. The
others show what they are worth when a schema is reported: the namespace when the schema is
reviewed, and the indentation when the text of a definition is laid out. Where they are of no use,
there is no report but a defect. Which definition shows it depends on how far generation comes
before it fails in a way that is reported.

- `Settings.NamesSpace`, `Schema.AsksForLevel`: what the settings have to give, and when.
- `Generator.ComesTo`: the definitions that generation comes to.
- `Generator.generate_defect_iff`: generation brings up a defect only for want of indentation.
- `Generator.report_outcome`: when there is a report, and the defect when there is none.
-/

namespace Typewright

/-- The namespace of the settings, if one is set, is a text. -/
def Settings.NamesSpace (c : Settings) : Prop :=
  c.space.isTruthy → ∃ name, c.space = .str name

/-- There is a first definition, and it does not lack a default if it becomes a class. -/
def Schema.AsksForLevel (s : Schema) : Prop :=
  ∃ first rest, s.definitions = first :: rest ∧
    (first.isClass → ∀ f ∈ first.fields, ¬ f.MissingAt .zero)

namespace Generator

variable {g : Generator} {s : Schema} {d : Defect}

/-! ## Review -/

theorem packageWarnings_error_iff {rules : NameRules} {space : Json} :
    Review.packageWarnings rules space = .error d ↔
      (∀ name, space ≠ .str name) ∧ d = .noMember space "split" := by
  cases space <;> simp [Review.packageWarnings, @eq_comm _ d]

/-- A schema cannot be reviewed where the namespace is set to something other than a text. -/
theorem review_error_iff :
    g.review s = .error d ↔ ¬ g.settings.NamesSpace ∧ d = .noMember g.settings.space "split" := by
  have hreview : g.review s = .error d ↔
      Review.packageWarnings Java.nameRules (g.settings.spaceFor s.space) = .error d := by
    constructor
    · intro h
      obtain h | ⟨package, -, h⟩ := Fallible.bind_error h
      · exact h
      · cases h
    · intro h
      rw [review, h]
      rfl
  rw [hreview, packageWarnings_error_iff, Settings.spaceFor, Settings.NamesSpace]
  by_cases ht : g.settings.space.isTruthy
  · simp [ht]
  · simp [ht]

/-! ## The sites that generation comes to -/

/--
Generation comes to a site when it goes through definitions, given the names of the units so far: it
is at the first of them, or goes on into what that holds once that has a unit, or goes on after it
once everything there has units, named apart from each other and from those so far.
-/
inductive ComesTo (g : Generator) :
    (around : List Definition) → (sofar : List String) → List Definition → Site → Prop
  | here {around : List Definition} {sofar : List String} {d : Definition} {r : List Definition} :
      ComesTo g around sofar (d :: r) ⟨d, around⟩
  | inside {around : List Definition} {sofar : List String} {h : Heading} {fs : List Field}
      {ms : List Message} {ds r : List Definition} {x : Site}
      (hown : ∃ us, g.unitAt ⟨.protocol h fs ms ds, around⟩ = .ok us)
      (hx : ComesTo g (.protocol h fs ms ds :: around) [g.unitName h.name] ds x) :
      ComesTo g around sofar (.protocol h fs ms ds :: r) x
  | after {around : List Definition} {sofar : List String} {d : Definition} {r : List Definition}
      {x : Site} (hd : ∀ y ∈ d.sites around, ∃ us, g.unitAt y = .ok us)
      (hn : (sofar ++ g.namesAt (d.sites around)).Nodup)
      (hx : ComesTo g around (sofar ++ g.namesAt (d.sites around)) r x) :
      ComesTo g around sofar (d :: r) x

variable {around ds : List Definition} {sofar : Units String} {x : Site}

/-- A definition whose sites all have units, named apart, has the units of its sites. -/
theorem exists_unitsOf_of_nodup {d : Definition}
    (hd : ∀ y ∈ d.sites around, ∃ us, g.unitAt y = .ok us)
    (hn : (g.namesAt (d.sites around)).Nodup) :
    ∃ us, g.unitsOf (parentName around) (fieldsAround around) d = .ok us ∧
      us.names = g.namesAt (d.sites around) := by
  cases h : g.unitsOf (parentName around) (fieldsAround around) d with
  | ok us => exact ⟨us, rfl, (unitsOf_ok around h).1.names⟩
  | error e =>
    obtain ⟨y, hy, he⟩ | ⟨n, -, hdup⟩ := unitsOf_error around h
    · obtain ⟨us, hus⟩ := hd y hy
      cases hus.symm.trans he
    · exact absurd hn hdup.not_nodup

theorem merged_of_nodup {units : Units String} (h : (sofar.names ++ units.names).Nodup) :
    merged sofar units = .ok (sofar ++ units) := by
  have hm : (sofar.merge units).2 = none := by
    obtain ⟨-, hunits, hapart⟩ := List.nodup_append.1 h
    exact (Units.merge_eq_none_iff _ _).2 ⟨fun n hn hs => hapart n hs n hn rfl, hunits⟩
  rw [merged, show sofar.merge units = (sofar ++ units, none) from
    Prod.ext (Units.merge_eq_append hm) hm]

/-- What goes wrong at a site that generation comes to goes wrong for the whole. -/
theorem unitsOfAll_of_comesTo {names : List String} {e : GenerationFailure}
    (hx : g.ComesTo around names ds x) (he : g.unitAt x = .error e) (hs : sofar.names = names) :
    g.unitsOfAll (parentName around) (fieldsAround around) sofar ds = .error e := by
  -- the induction is on the way to the site; the names so far are those of the units so far
  induction hx generalizing sofar with
  | here => rw [unitsOfAll, unitsOf_of_unitAt_error he]; rfl
  | @inside around _ h fs ms ds r x hown _ ih =>
    obtain ⟨own, hown⟩ := hown
    obtain ⟨text, rfl⟩ := unitAt_ok hown
    have hunits : g.unitsOf (parentName around) (fieldsAround around) (.protocol h fs ms ds) =
        .error e := by
      have hown : g.unitOf (parentName around) (fieldsAround around) (.protocol h fs ms ds) = _ :=
        hown
      rw [unitsOf, hown, ← fieldsAround_protocol]
      exact ih he rfl
    rw [unitsOfAll, hunits]; rfl
  | after hd hn _ ih =>
    obtain ⟨units, hunits, hnames⟩ := exists_unitsOf_of_nodup hd (List.Nodup.of_append_right hn)
    have hmerged : merged sofar units = .ok (sofar ++ units) :=
      merged_of_nodup (by rw [hs, hnames]; exact hn)
    rw [unitsOfAll, hunits]
    simp only [bind, Except.bind, hmerged]
    exact ih he (by rw [Units.names_append, hs, hnames])

mutual

/-- A defect in the units of a definition is that of the site itself, or comes up below it. -/
theorem exists_of_unitsOf_defect (around : List Definition) :
    ∀ {e : Definition}, g.unitsOf (parentName around) (fieldsAround around) e = .error (.defect d) →
      ∀ names r, ∃ x, g.ComesTo around names (e :: r) x ∧ g.unitAt x = .error (.defect d)
  | .enumeration h vs, he, _, _ => ⟨_, .here, he⟩
  | .record h fs, he, _, _ => ⟨_, .here, he⟩
  | .protocol h fs ms ds, he, _, _ => by
    rw [unitsOf] at he
    obtain hown | ⟨own, hown, he⟩ := Fallible.bind_error he
    · exact ⟨⟨.protocol h fs ms ds, around⟩, .here, hown⟩
    obtain ⟨text, rfl⟩ := unitAt_ok (x := ⟨.protocol h fs ms ds, around⟩) hown
    rw [← fieldsAround_protocol] at he
    obtain ⟨x, hx, hxe⟩ := exists_of_unitsOfAll_defect (.protocol h fs ms ds :: around) (by simp) he
    exact ⟨x, .inside ⟨_, hown⟩ hx, hxe⟩

/-- A defect in the units of several definitions comes up at a site that generation comes to. -/
theorem exists_of_unitsOfAll_defect (around : List Definition) :
    ∀ {ds : List Definition} {sofar : Units String}, sofar.names.Nodup →
      g.unitsOfAll (parentName around) (fieldsAround around) sofar ds = .error (.defect d) →
        ∃ x, g.ComesTo around sofar.names ds x ∧ g.unitAt x = .error (.defect d)
  | [], _, _, he => by cases he
  | e :: r, sofar, hs, he => by
    rw [unitsOfAll] at he
    obtain hunits | ⟨units, hunits, he⟩ := Fallible.bind_error he
    · exact exists_of_unitsOf_defect around hunits sofar.names r
    obtain hall | ⟨all, hall, he⟩ := Fallible.bind_error he
    · obtain ⟨n, heq, -⟩ := merged_error hall
      cases heq
    obtain ⟨hd, hdn⟩ := unitsOf_ok around hunits
    obtain ⟨rfl, hnew, -⟩ := merged_ok hall
    have hn : (sofar ++ units).names.Nodup := by
      rw [Units.names_append]
      exact hs.append hdn fun n hn hu => hnew n hu hn
    obtain ⟨x, hx, hxe⟩ := exists_of_unitsOfAll_defect around hn he
    rw [Units.names_append, hd.names] at hx hn
    refine ⟨x, .after (fun y hy => ?_) hn hx, hxe⟩
    obtain ⟨u, hu⟩ := hd.exists_of_mem hy
    exact ⟨_, hu⟩

end

/-! ## Generation -/

/-- Generation brings up a defect exactly if it comes to a definition that cannot be laid out. -/
theorem generate_defect_iff :
    g.generate s = .error (.defect d) ↔
      ∃ x, g.ComesTo [] [] s.definitions x ∧
        ∃ fragments, g.fragmentsOf x.parent? x.inherited x.definition = .ok fragments ∧
          g.Hinders fragments d := by
  simp only [generate_error_iff, ← unitAt_defect_iff]
  constructor
  · exact exists_of_unitsOfAll_defect [] (by simp)
  · rintro ⟨x, hx, he⟩
    exact unitsOfAll_of_comesTo hx he rfl

/-- Where no definition has a unit, generation does not come further than to the first. -/
theorem eq_first_of_comesTo (h : ∀ x, ∃ e, g.unitAt x = .error e)
    (hx : g.ComesTo [] [] s.definitions x) : ∃ first rest, s.definitions = first :: rest ∧
      x = ⟨first, []⟩ := by
  have hno (y : Site) : ¬∃ us, g.unitAt y = .ok us := by
    rintro ⟨us, hus⟩
    obtain ⟨e, he⟩ := h y
    cases hus.symm.trans he
  generalize s.definitions = ds at hx
  cases hx with
  | here => exact ⟨_, _, rfl, rfl⟩
  | inside hown => exact absurd hown (hno _)
  | after hd =>
    obtain ⟨below, hsites⟩ := Definition.exists_sites_eq_cons [] _
    exact absurd (hd _ (hsites ▸ List.mem_cons_self)) (hno _)

theorem mem_sites_of_comesTo {names : List String} (hx : g.ComesTo around names ds x) :
    x ∈ Definition.sitesAll around ds := by
  rw [Definition.sitesAll_eq_flatMap]
  induction hx with
  | here =>
    rw [List.flatMap_cons, Definition.sites_eq_cons]
    exact List.mem_append_left _ List.mem_cons_self
  | inside _ _ ih =>
    rw [List.flatMap_cons, Definition.sites_eq_cons, Definition.sitesAll_eq_flatMap]
    exact List.mem_append_left _ (List.mem_cons_of_mem _ ih)
  | after _ _ _ ih => exact List.mem_append_right _ ih

/--
For want of a level generation brings up a defect exactly if the first definition asks for one.
-/
theorem exists_comesTo_iff (hn : s.IsNonneg) (hl : g.settings.LacksLevel g.memory d) :
    (∃ x, g.ComesTo [] [] s.definitions x ∧
      ∃ fragments, g.fragmentsOf x.parent? x.inherited x.definition = .ok fragments) ↔
      s.AsksForLevel := by
  constructor
  · rintro ⟨x, hx, hf⟩
    obtain ⟨first, rest, hs, rfl⟩ := eq_first_of_comesTo (exists_unitAt_error hl) hx
    have hfields := Schema.forall_inherited hn (Schema.mem_sites_first hs)
    exact ⟨first, rest, hs, (exists_fragmentsOf_iff hfields).1 hf⟩
  · rintro ⟨first, rest, hs, hf⟩
    have hfields := Schema.forall_inherited hn (Schema.mem_sites_first hs)
    exact ⟨⟨first, []⟩, hs ▸ .here, (exists_fragmentsOf_iff hfields).2 hf⟩

/-! ## Reports -/

/-- There is no report of a schema that cannot be reviewed or brings up a defect in generation. -/
theorem report_error_iff :
    (g.report s).2 = .error d ↔
      g.review s = .error d ∨ (∃ ws, g.review s = .ok ws) ∧ g.generate s = .error (.defect d) := by
  unfold report
  cases g.review s with
  | error d' => simp
  | ok ws =>
    cases g.generate s with
    | ok us => simp
    | error f => cases f <;> simp

/-- The defects that a generator brings up when a schema is reported. -/
inductive Obstructs (g : Generator) (s : Schema) : Defect → Prop
  | space (hs : ¬ g.settings.NamesSpace) : Obstructs g s (.noMember g.settings.space "split")
  | level {d : Defect} (hs : g.settings.NamesSpace) (hl : g.settings.LacksLevel g.memory d)
      (hf : s.AsksForLevel) : Obstructs g s d
  | line {x : Site} {fragments : List Java.Fragment} {l : Layout} {fault : Text.RepeatFault}
      (hs : g.settings.NamesSpace) (hx : g.ComesTo [] [] s.definitions x)
      (hf : g.fragmentsOf x.parent? x.inherited x.definition = .ok fragments)
      (hl : g.layout = .ok l) (h : l.Refuses 0 (g.unitLines fragments) fault) :
      Obstructs g s (.repetition fault)

theorem report_error_iff_obstructs (hn : s.IsNonneg) :
    (g.report s).2 = .error d ↔ g.Obstructs s d := by
  have hreview : (∃ ws, g.review s = .ok ws) ↔ g.settings.NamesSpace := by
    rw [Fallible.exists_ok_iff]
    simp [review_error_iff]
  rw [report_error_iff, review_error_iff, hreview, generate_defect_iff]
  constructor
  · rintro (⟨hs, rfl⟩ | ⟨hs, x, hx, fragments, hf, hl | ⟨hl, h⟩⟩)
    · exact .space hs
    · exact .level hs hl ((exists_comesTo_iff hn hl).1 ⟨x, hx, fragments, hf⟩)
    · exact .line hs hx hf hl h
  · rintro (hs | ⟨hs, hl, hf⟩ | ⟨hs, hx, hf, hl, h⟩)
    · exact .inl ⟨hs, rfl⟩
    · obtain ⟨x, hx, fragments, hf⟩ := (exists_comesTo_iff hn hl).2 hf
      exact .inr ⟨hs, x, hx, fragments, hf, .level hl⟩
    · exact .inr ⟨hs, _, hx, _, hf, .line hl h⟩

/-- Every definition with source text that generation comes to can be indented line by line. -/
def FitsComingTo (g : Generator) (s : Schema) : Prop :=
  ∀ x, g.ComesTo [] [] s.definitions x → ∀ fragments l,
    g.fragmentsOf x.parent? x.inherited x.definition = .ok fragments → g.layout = .ok l →
      ∀ n ∈ l.levels 0 (g.unitLines fragments), l.Indents n

/--
A generator that could be made reports a schema unless something obstructs it: the namespace is set
to something other than a text, the first definition asks for a level of indentation that cannot be
made, or a definition that generation comes to has a line that cannot be indented.
-/
theorem report_outcome {m : Text.Memory} {c : Settings} {document : Json}
    (hg : ofSettings m .java c = .ok g) (hs : Schema.ofJson document = .ok s) :
    ((∃ r, (g.report s).2 = .ok r) ↔
      c.NamesSpace ∧ (c.HasLevel m ∨ ¬ s.AsksForLevel) ∧ g.FitsComingTo s) ∧
      ∀ d, (g.report s).2 = .error d ↔ g.Obstructs s d := by
  have hn : s.IsNonneg := Schema.isNonneg_of_ofJson hs
  obtain ⟨containers, -, heq⟩ := Fallible.bind_ok hg
  obtain rfl := Except.ok.inj heq
  refine ⟨?_, fun d => report_error_iff_obstructs hn⟩
  rw [Fallible.exists_ok_iff, Settings.hasLevel_iff]
  simp only [ne_eq, report_error_iff_obstructs hn]
  constructor
  · intro h
    have hspace : c.NamesSpace := by
      by_contra hc
      exact h _ (.space hc)
    refine ⟨hspace, or_iff_not_imp_right.2 fun hf d hl => ?_, fun x hx fragments l hf hl => ?_⟩
    · exact h d (.level hspace hl (not_not.1 hf))
    · by_contra hi
      push Not at hi
      obtain ⟨fault, hfault⟩ := Layout.exists_refuses_iff.2 hi
      exact h _ (.line hspace hx hf hl hfault)
  -- each of the three obstructions is excluded by the part of the condition that names it
  · rintro ⟨hspace, hlevel, hfits⟩ d (hc | ⟨-, hl, hf⟩ | ⟨-, hx, hf, hl, h⟩)
    · exact hc hspace
    · exact hlevel.elim (fun h => h d hl) (fun h => h hf)
    · obtain ⟨n, hn, hi⟩ := Layout.exists_refuses_iff.1 ⟨_, h⟩
      exact hi (hfits _ hx _ _ hf hl n hn)

theorem fitsComingTo_of_fitsAll (h : g.FitsAll s) : g.FitsComingTo s := by
  intro x hx fragments l hf hl
  obtain ⟨l', hl', hi⟩ := h x (mem_sites_of_comesTo hx) fragments hf
  obtain rfl := Except.ok.inj (hl.symm.trans hl')
  exact hi

theorem report_outcome_task :
    ofSettings .ample .java (counted 4).settings = .ok (counted 4) ∧
      Schema.ofJson taskDocument = .ok Schema.task ∧
      ∃ r, ((counted 4).report Schema.task).2 = .ok r := by
  have hg : ofSettings .ample .java (counted 4).settings = .ok (counted 4) := rfl
  have hs : Schema.ofJson taskDocument = .ok Schema.task := rfl
  have hlevel : (counted 4).settings.HasLevel .ample := .inr ⟨4, rfl, by decide, by decide⟩
  have hspace : (counted 4).settings.NamesSpace := fun h => by cases h
  have hfits := fitsComingTo_of_fitsAll (fitsAll_counted (s := .task) (by decide))
  exact ⟨hg, hs, (report_outcome hg hs).1.2 ⟨hspace, .inl hlevel, hfits⟩⟩

/-- An indentation that is no count does not keep a generator from being made, but a report. -/
theorem report_obstructed :
    ∃ g s, ofJson .ample .java (.obj [("indent_size", .str "2")]) = .ok g ∧
      Schema.ofJson (.obj [("namespace", .str "n"), ("types", .arr [.obj [("name", .str "E"),
        ("type", .str "enumeration"), ("symbols", .arr [.str "V"])]])]) = .ok s ∧
      (g.report s).2 = .error (.notCount (.str "2")) :=
  ⟨_, _, rfl, rfl, rfl⟩

end Generator

end Typewright
