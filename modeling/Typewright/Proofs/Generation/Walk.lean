import Typewright.Proofs.Generation.Outcome
import Typewright.Proofs.Layout.Again
import Typewright.Report

/-!
# Generation along the walk

Generation goes its own way through the definitions of a schema, with its own account of what each
inherits. It makes one unit at each step of the walk, in the order of the walk, out of what the walk
reports there.

- `Generator.Renders`: a unit is what comes of the definition at a site.
- `Generator.generate_walk`: the units of a schema are what comes of its sites.
-/

namespace Typewright

namespace Generator

variable {g : Generator} {s : Schema} {units : Units String}

/--
The unit is that of the definition at a site, with the protocol immediately around it as its parent
and the fields of all the protocols around it to inherit, below the line of its package.
-/
def Renders (g : Generator) (space : String) (x : Site) (unit : String × String) : Prop :=
  ∃ text, g.unitOf x.parent? x.inherited x.definition =
      .ok [(g.unitName x.definition.name, text)] ∧
    unit = (g.unitName x.definition.name, g.packageLine space ++ "\n" ++ text)

/-- Putting a unit into its package keeps it as it was below the line of the package. -/
theorem renders_of_inPackage {space : String} {x : Site} {u v : String × String}
    (hu : g.unitAt x = .ok [u]) (hv : g.inPackage (g.packageLine space) u = .ok v) :
    g.Renders space x v := by
  obtain ⟨fragments, text, -, ht, hus⟩ := unitOf_ok hu
  obtain rfl := List.singleton_inj.1 hus
  rw [inPackage_unitText ht] at hv
  exact ⟨text, hu, (Except.ok.inj hv).symm⟩

theorem renders_of_unitsAt {space : String} {xs : List Site} {us vs : Units String}
    (hu : g.UnitsAt xs us) (hv : us.mapM (g.inPackage (g.packageLine space)) = .ok vs) :
    List.Forall₂ (g.Renders space) xs vs := by
  rw [Fallible.mapM_ok_iff] at hv
  induction hu generalizing vs with
  | nil =>
    cases hv
    exact .nil
  | cons hx _ ih =>
    cases hv with
    | cons hu hr => exact .cons (renders_of_inPackage hx hu) (ih hr)

theorem names_of_renders {space : String} {xs : List Site}
    (h : List.Forall₂ (g.Renders space) xs units) : units.names = g.namesAt xs := by
  induction h with
  | nil => rfl
  | cons hu _ ih =>
    obtain ⟨text, -, rfl⟩ := hu
    rw [Units.names_cons, ih]; rfl

theorem renders_of_generate (h : g.generate s = .ok units) :
    List.Forall₂ (g.Renders s.space) s.sites units := by
  obtain ⟨us, hus, -, hv⟩ := generate_ok h
  exact renders_of_unitsAt hus hv

/-- The unit of a site is among the units of the schema, with the line of its package before it. -/
theorem mem_of_generate (h : g.generate s = .ok units) {x : Site} (hx : x ∈ s.sites) :
    ∃ text, g.unitAt x = .ok [(g.unitName x.definition.name, text)] ∧
      (g.unitName x.definition.name, g.packageLine s.space ++ "\n" ++ text) ∈ units := by
  have hr := renders_of_generate h
  obtain ⟨i, hi, rfl⟩ := List.mem_iff_getElem.1 hx
  obtain ⟨text, hu, hunit⟩ := hr.get hi (hr.length_eq ▸ hi)
  exact ⟨text, hu, hunit ▸ List.getElem_mem _⟩

theorem length_of_generate (h : g.generate s = .ok units) : s.walk.length = units.length := by
  rw [Schema.walk_eq_sites, List.length_map]
  exact (renders_of_generate h).length_eq

/-- A schema that has units is reported with them, if it can be reviewed. -/
theorem report_of_generate (h : g.generate s = .ok units) {warnings : List SchemaWarning}
    (hw : g.review s = .ok warnings) :
    (g.report s).2 =
      .ok (.generated units warnings s.walk.length (g.settings.spaceFor s.space)) := by
  rw [report, hw]
  simp only [h]

/--
The units of a schema bear the names of the definitions in the order of the walk, as many as the
report counts definitions. What the walk reports as inherited at a site are the fields of the
protocols around it, which hold one another down to the definition, and with these the unit there is
made.
-/
theorem generate_walk (h : g.generate s = .ok units) :
    units.names = s.walk.map (fun w => g.unitName w.1.name) ∧
      (∀ warnings, g.review s = .ok warnings →
        (g.report s).2 =
          .ok (.generated units warnings units.length (g.settings.spaceFor s.space))) ∧
      s.walk = s.sites.map (fun x => (x.definition, fieldsAround x.around)) ∧
      (∀ x ∈ s.sites, Definition.IsPath s.definitions (x.definition :: x.around)) ∧
      List.Forall₂ (g.Renders s.space) s.sites units := by
  have hr := renders_of_generate h
  refine ⟨?_, fun warnings hw => ?_, Schema.walk_eq_sites s,
    fun x => Schema.isPath_of_mem_sites, hr⟩
  · rw [names_of_renders hr, namesAt_sites, List.map_map]; rfl
  · rw [report_of_generate h hw, length_of_generate h]

theorem generate_walk_nested :
    ∃ units, (counted 4).generate Schema.nested = .ok units ∧
      units.names = ["P.java", "R.java", "E.java"] ∧
      List.Forall₂ ((counted 4).Renders "n") Schema.nested.sites units := by
  obtain ⟨units, h⟩ := exists_generate_nested
  obtain ⟨hnames, -, -, -, hr⟩ := generate_walk h
  exact ⟨units, h, hnames, hr⟩

end Generator

end Typewright
