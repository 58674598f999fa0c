import Typewright.Proofs.CommandLine.Endings
import Typewright.Proofs.CommandLine.Writing
import Typewright.Proofs.Generation.Walk
import Typewright.Proofs.Review

/-!
# Where a run stores units

A run that succeeds and is not dry has stored the units of its schema. The names of definitions and
the namespace come from the schema as they are, and are read as paths. So a schema decides whether
its units have files of their own in the output directory.

- `deliver_ok`: what is known when units are delivered.
- `goesDown_unitDirectory`: a namespace of relative parts leads into the output directory.
- `filesApart_of_generate`: names without slashes lead to files of their own.
- `run_stores`: what a run leaves behind, and when units have files of their own.
- `run_climbs`: two units that go to one file outside of the output directory.
-/

namespace Typewright

namespace CommandLine

open Generator (exists_space_of_review)

variable {h : Host} {m : Machine} {t t' : FileTree} {reply : Except Web.TransportFault Web.Reply}
  {words : List String} {verbose : Bool} {o : GenerateOptions} {g : Generator} {schema : Schema}
  {s : Session} {units : Units String} {output directory : Path} {space : String} {dirs : Bool}

/-! ## The directory -/

/-- The namespace has no part that is an absolute path. -/
def IsRelative (space : String) : Prop :=
  ∀ part ∈ Text.splitAt '.' space, (Path.ofText part).anchor = ""

instance (space : String) : Decidable (IsRelative space) :=
  inferInstanceAs (Decidable (∀ part ∈ Text.splitAt '.' space, _))

theorem notMem_names_of_part {part : String} (h : part ∈ Text.splitAt '.' space) :
    ".." ∉ (Path.ofText part).names := by
  obtain ⟨cs, hcs, rfl⟩ := List.mem_map.1 h
  intro hup
  have hpoint := Path.subset_of_mem_names hup '.' (by decide)
  rw [String.toList_ofList] at hpoint
  exact Text.notMem_of_mem_splitChars hcs hpoint

theorem goesDown_foldl {parts : List String} (h : ∀ part ∈ parts,
    (Path.ofText part).anchor = "" ∧ ".." ∉ (Path.ofText part).names) :
    output.GoesDown (parts.foldl (fun p n => p.join (.ofText n)) output) := by
  induction parts generalizing output with
  | nil => exact .refl output
  | cons part r ih =>
    obtain ⟨⟨ha, hup⟩, hr⟩ := List.forall_mem_cons.1 h
    exact (Path.goesDown_join ha hup).trans (ih hr)

/-- A namespace of relative parts leads into the output directory. -/
theorem goesDown_unitDirectory (h : unitDirectory output (.str space) dirs = .ok directory)
    (hs : dirs → IsRelative space) : output.GoesDown directory := by
  cases dirs with
  | false =>
    obtain rfl : output = directory := Except.ok.inj h
    exact .refl output
  | true =>
    obtain rfl : (Text.splitAt '.' space).foldl (fun p n => p.join (.ofText n)) output =
        directory := Except.ok.inj h
    exact goesDown_foldl fun part hp => ⟨hs rfl part hp, notMem_names_of_part hp⟩

/-! ## The names of units -/

theorem ofText_unitName {name : String} (ht : g.target = .java) (hn : '/' ∉ name.toList) :
    Path.ofText (g.unitName name) = ⟨"", [g.unitName name]⟩ ∧ g.unitName name ≠ ".." := by
  have hlist : (g.unitName name).toList = name.toList ++ [ '.', 'j', 'a', 'v', 'a'] := by
    rw [Generator.unitName, ht, String.toList_append]
    rfl
  have hlength : ∀ other : String, other.toList.length < 5 → g.unitName name ≠ other := by
    rintro other hlt rfl
    rw [hlist, List.length_append] at hlt
    exact absurd hlt (by simp)
  refine ⟨Path.ofText_of_notMem ?_ (hlength "" (by decide)) (hlength "." (by decide)),
    hlength ".." (by decide)⟩
  rw [hlist, List.mem_append, not_or]
  exact ⟨hn, by decide⟩

/-- The units of definitions without slashes in their names go to different files. -/
theorem filesApart_of_generate (ht : g.target = .java) (h : g.generate schema = .ok units)
    (hs : ∀ w ∈ schema.walk, '/' ∉ w.1.name.toList) (directory : Path) :
    FilesApart directory units := by
  have hnames : units.names = (schema.walk.map (·.1.name)).map g.unitName := by
    rw [Generator.names_of_renders (Generator.renders_of_generate h), Generator.namesAt_sites]
  -- a unit has the name of a definition with an ending: without slashes, one step down
  have hplain : ∀ n ∈ units.names, Path.ofText n = ⟨"", [n]⟩ ∧ n ≠ ".." := by
    intro n hn
    rw [hnames, List.map_map] at hn
    obtain ⟨w, hw, rfl⟩ := List.mem_map.1 hn
    exact ofText_unitName ht (hs w hw)
  refine filesApart_of_leadsDown directory (fun n hn => ?_) ?_
  · obtain ⟨hpath, hup⟩ := hplain n hn
    rw [hpath]
    exact ⟨rfl, by simp, by simpa using Ne.symm hup⟩
  · obtain ⟨us, hus, hapart, -⟩ := Generator.generate_ok h
    have hnodup : units.names.Nodup := by
      rw [hnames]
      exact (Generator.namedApart_of_unitsAt hus hapart).map g.unitName_injective
    refine List.Nodup.map_on (fun n hn m hm he => ?_) hnodup
    rw [(hplain n hn).1, (hplain m hm).1] at he
    simpa using he

/-! ## A run -/

theorem storeUnits_ok {space : Json} (hs : storeUnits m t o units space = (t', .ok directory)) :
    ∃ name, o.outputDirectory = some name ∧
      unitDirectory (.ofText name) space o.spaceDirectories = .ok directory ∧
      Stores t t' directory units := by
  unfold storeUnits at hs
  cases hd : o.directory space with
  | error d => simp [hd] at hs
  | ok directory' =>
    rw [hd] at hs
    dsimp only at hs
    cases hw : writeUnits m directory' t units with
    | mk t₁ failure =>
      cases failure with
      | some failure => cases failure <;> simp [hw] at hs
      | none =>
        rw [hw] at hs
        obtain ⟨rfl, hdirectory⟩ := Prod.mk.inj hs
        obtain rfl := Except.ok.inj hdirectory
        unfold GenerateOptions.directory at hd
        cases hname : o.outputDirectory with
        | none => simp [hname] at hd
        | some name =>
          rw [hname] at hd
          exact ⟨name, rfl, hd, writeUnits_ok hw⟩

/-- What is delivered with success is stored, unless it is only shown. -/
theorem deliver_ok (hr : (deliver h verbose o g schema s).result = .ok 0) (hd : o.dryRun = false) :
    ∃ warnings units name directory, g.review schema = .ok warnings ∧
      g.generate schema = .ok units ∧ o.outputDirectory = some name ∧
      unitDirectory (.ofText name) (g.settings.spaceFor schema.space) o.spaceDirectories =
        .ok directory ∧
      Stores s.files (deliver h verbose o g schema s).session.files directory units := by
  unfold deliver at hr ⊢
  cases hreport : (g.report schema).2 with
  | error d =>
    rw [hreport] at hr
    exact absurd hr (failWith_spares h.console s (.defect d)).2
  | ok report =>
    rw [hreport] at hr
    cases report with
    | failed e => cases Session.result_endingWith hr
    | generated units warnings count space =>
      obtain ⟨hw, hu, -, rfl⟩ := Generator.report_generated_iff.1 hreport
      dsimp only at hr ⊢
      rw [hd] at hr ⊢
      simp only [Bool.false_eq_true, if_false] at hr ⊢
      cases hs : storeUnits h.toMachine s.files o units (g.settings.spaceFor schema.space) with
      | mk t' stored =>
        rw [hs] at hr
        cases stored with
        | error failure => exact absurd hr (failWith_spares h.console ⟨t', s.shown⟩ failure).2
        | ok directory =>
          obtain ⟨name, hname, hdir, hstores⟩ := storeUnits_ok hs
          refine ⟨warnings, units, name, directory, hw, hu, hname, hdir, ?_⟩
          -- nothing is done to the files after that, whether or not the console refuses something
          obtain hnext | ⟨hfiles, -⟩ := Session.showing_cases h.console ⟨t', s.shown⟩
            (finish h.console verbose g units warnings count (g.settings.spaceFor schema.space))
            [storedDisplay units directory]
          · dsimp only
            rw [hnext, files_finish]
            exact hstores
          · exact hfiles.symm ▸ hstores

theorem target_of_generator {language : String}
    (hg : o.generator m .builtin t language = .ok g) : g.target = .java := by
  obtain ⟨st, -, hg⟩ := Fallible.bind_ok hg
  obtain ⟨e, he, hg⟩ := Fallible.bind_ok (Fallible.mapError_ok hg)
  obtain ⟨name, -, he⟩ := Fallible.bind_ok he
  have htarget : e.target = .java := by
    cases hf : Registry.builtin.entries.find? (·.name == name) with
    | none => simp [hf] at he
    | some e' =>
      rw [hf] at he
      obtain rfl := Except.ok.inj he
      have hmem := List.mem_of_find?_eq_some hf
      obtain rfl := List.mem_singleton.1 hmem
      rfl
  obtain ⟨s, -, hg⟩ := Fallible.bind_ok (Fallible.mapError_ok hg)
  obtain ⟨containers, -, hg⟩ := Fallible.bind_ok hg
  obtain rfl := Except.ok.inj hg
  exact htarget

/--
A run that succeeds and is not dry has generated units and stored them: at each place there is now
the last unit whose name leads there, a directory that had to be made, or what was there before. If
no part of a namespace that directories are made for is absolute, then each unit has a file of its
own in its directory within the output directory, and nothing else has changed but missing
directories that lead there, exactly if the names of units lead to different files below their
directory. Names without slashes do.
-/
theorem run_stores (hwords : Invocation.ofWords words = .ok ⟨verbose, false, some o⟩)
    (hdry : o.dryRun = false) (hrun : (run h .builtin t reply words).exitCode = .ok 0) :
    ∃ g source schema warnings units name space directory,
      Attempts h .builtin t reply words verbose o g source schema ∧
      g.review schema = .ok warnings ∧ g.generate schema = .ok units ∧
      g.settings.spaceFor schema.space = .str space ∧ o.outputDirectory = some name ∧
      unitDirectory (.ofText name) (.str space) o.spaceDirectories = .ok directory ∧
      Stores t ((run h .builtin t reply words).files t) directory units ∧
      ((o.spaceDirectories → IsRelative space) →
        (Keeps t ((run h .builtin t reply words).files t) (.ofText name) directory units ↔
          FilesApart directory units)) ∧
      ((∀ w ∈ schema.walk, '/' ∉ w.1.name.toList) → FilesApart directory units) := by
  rw [run_of_words hwords] at hrun
  obtain ⟨g, source, schema, hprepared, hdeliver⟩ | ⟨-, hfailed⟩ :=
    generate_cases h .builtin t reply verbose o
  · have hok : (deliver h verbose o g schema (loadedSession t source)).result = .ok 0 :=
      hdeliver ▸ hrun
    obtain ⟨warnings, units, name, directory, hw, hu, hname, hdir, hstores⟩ := deliver_ok hok hdry
    obtain ⟨space, hspace⟩ := exists_space_of_review hw
    rw [hspace] at hdir
    obtain ⟨language, -, -, hg⟩ := hprepared.generator
    have hattempts : Attempts h .builtin t reply words verbose o g source schema :=
      ⟨hprepared, hwords⟩
    rw [hattempts.run_eq]
    exact ⟨g, source, schema, warnings, units, name, space, directory, hattempts, hw, hu, hspace,
      hname, hdir, hstores, fun hs => hstores.keeps_iff (goesDown_unitDirectory hdir hs),
      fun hs => filesApart_of_generate (target_of_generator hg) hu hs directory⟩
  · exact absurd hrun hfailed

/-- A unit that is stored in the directory of its namespace. -/
theorem run_stores_enumeration :
    let words := ["generate", "--url", "http://h/s.json", "-o", "out", "--namespace-dirs"]
    let ended := run (.ample 3) .builtin .empty (enumerationsReply ["E"]) words
    ended.exitCode = .ok 0 ∧
      ∃ units, Generator.standard.generate (enumerations ["E"]) = .ok units ∧
        units.names = ["E.java"] ∧
        Keeps .empty (ended.files .empty) (.ofText "out") (.ofText "out/n") units := by
  intro words ended
  have hwords : Invocation.ofWords words = .ok ⟨false, false, some
      { webOptions with outputDirectory := some "out", spaceDirectories := true }⟩ :=
    rfl
  have hload : GenerateOptions.load (.ample 3) .empty (enumerationsReply ["E"])
      { webOptions with outputDirectory := some "out", spaceDirectories := true } =
        .ok ("http://h/s.json", enumerations ["E"]) := by
    cbv
  have hattempts := attempts_of_defaults rfl hwords rfl rfl rfl hload rfl
  have hrun : ended.exitCode = .ok 0 := by
    have hended : ended = _ := hattempts.run_eq
    rw [hended]
    rfl
  obtain ⟨g, source, schema, warnings, units, name, space, directory, h, -, hu, hspace, hname,
    hdir, -, hkeeps, hapart⟩ := run_stores hwords rfl hrun
  obtain ⟨-, -, rfl, rfl, rfl⟩ := hattempts.unique h
  obtain rfl : "out" = name := Option.some.inj hname
  obtain rfl : "n" = space := Json.str.inj hspace
  obtain rfl : .ofText "out/n" = directory := Except.ok.inj hdir
  refine ⟨hrun, units, hu, ?_, (hkeeps fun _ => by decide).2 (hapart (by decide))⟩
  rw [Generator.names_of_renders (Generator.renders_of_generate hu)]
  rfl

/--
Two units whose names lead to one file outside of the output directory: the run succeeds, but one of
them is gone, and the other is where nothing should have changed.
-/
theorem run_climbs :
    let ended := run (.ample 3) .builtin .empty (enumerationsReply ["../A", "./../A"])
      ["generate", "--url", "http://h/s.json", "-o", "out"]
    ended.exitCode = .ok 0 ∧
      ∃ units, Generator.standard.generate (enumerations ["../A", "./../A"]) = .ok units ∧
        units.names = ["../A.java", "./../A.java"] ∧
        unitPlace (.ofText "out") "../A.java" = unitPlace (.ofText "out") "./../A.java" ∧
        ¬ (unitPlace (.ofText "out") "../A.java").IsWithin (Path.ofText "out").place ∧
        (ended.files .empty).get? (unitPlace (.ofText "out") "../A.java") =
          (encodeText? "package n;\npublic enum ./../A \x7b\n    ;\n\x7d\n").map .file ∧
        ¬ Keeps .empty (ended.files .empty) (.ofText "out") (.ofText "out") units := by
  intro ended
  have hwords : Invocation.ofWords ["generate", "--url", "http://h/s.json", "-o", "out"] =
      .ok ⟨false, false, some { webOptions with outputDirectory := some "out" }⟩ :=
    rfl
  have hload : GenerateOptions.load (.ample 3) .empty (enumerationsReply ["../A", "./../A"])
      { webOptions with outputDirectory := some "out" } =
        .ok ("http://h/s.json", enumerations ["../A", "./../A"]) := by
    cbv
  have hattempts := attempts_of_defaults rfl hwords rfl rfl rfl hload rfl
  have hended : ended = _ := hattempts.run_eq
  refine ⟨?_, _, rfl, rfl, by decide, by decide, ?_, fun hkeeps => ?_⟩
  · rw [hended]
    rfl
  · rw [hended]
    rfl
  · exact absurd hkeeps.apart.2 (by decide)

end CommandLine

end Typewright
