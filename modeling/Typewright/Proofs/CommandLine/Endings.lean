import Typewright.CommandLine.Run
import Typewright.Proofs.Generation.Outcome
import Typewright.Proofs.Settings.Precedence

/-!
# How runs end

A run that finds a schema and a generator for it delivers what comes of generating the schema. Any
other run ends before that, and leaves the files alone. The console can end a run wherever something
is to be shown: what it refuses is not shown, and nothing comes after it.

- `Session.showing_cases`: everything is shown, or the console refuses something.
- `Attempts`: a run that gets as far as generating a schema.
- `generate_cases`: a command delivers, or it does not succeed and leaves the files alone.
- `run_cases`: a run gets that far, or it leaves the files alone.
- `Delivers`: a run that generates units.
- `run_spares`: only such a run can change files.
- `run_refused`: a run that fails to generate units, and cannot even say so.
- `generator_of_defaults`: the generator for options that set nothing.
-/

namespace Typewright

namespace Generator

variable {g : Generator} {s : Schema} {units : Units String} {warnings : List SchemaWarning}
  {count : Nat} {space : Json} {e : GenerationError}

/-- A schema is reported with units exactly if it can be reviewed and has them. -/
theorem report_generated_iff :
    (g.report s).2 = .ok (.generated units warnings count space) ↔
      g.review s = .ok warnings ∧ g.generate s = .ok units ∧ count = s.walk.length ∧
        space = g.settings.spaceFor s.space := by
  unfold report
  cases g.review s with
  | error d => simp
  | ok ws =>
    cases g.generate s with
    | ok us => simp; tauto
    | error f => cases f <;> simp

/-- A schema is reported as failed exactly if it can be reviewed and generating it fails. -/
theorem report_failed_iff :
    (g.report s).2 = .ok (.failed e) ↔
      (∃ warnings, g.review s = .ok warnings) ∧ g.generate s = .error (.error e) := by
  unfold report
  cases g.review s with
  | error d => simp
  | ok ws =>
    cases g.generate s with
    | ok us => simp
    | error f => cases f <;> simp

/-- The generator of Java source with the settings of the language. -/
def standard : Generator where
  memory := .ample
  target := .java
  settings := {
    space := .null
    indentSize := .int 4
    useTabs := .bool false
    addComments := .bool true
    custom := .obj Java.Containers.standard.toMembers }
  containers := .standard

end Generator

theorem Settings.layered_defaults (m : Machine) (t : FileTree) :
    Settings.layered m t "java" (.obj []) (.str "") = .ok Generator.standard.settings := by
  have hfile : fileLayer m t (.str "") = .ok [] := rfl
  have hover : overrideLayer (.obj []) = .ok [] := rfl
  rw [layered, hfile, hover, defaultsFor_java (by decide)]
  rfl

namespace CommandLine

/-! ## What is shown -/

namespace Session

variable {c : Console} {s : Session} {next : Session → Ending} {ds : List Display} {d : Display}
  {code : Nat} {t : FileTree} {shown : List Display}

theorem showing_of_none (h : c.refuses? shown d = none) :
    Session.showing c ⟨t, shown⟩ next (d :: ds) =
      Session.showing c ⟨t, shown ++ [d]⟩ next ds := by
  simp only [showing, h]

theorem showing_of_some {reason : String} (h : c.refuses? shown d = some reason) :
    Session.showing c ⟨t, shown⟩ next (d :: ds) = ⟨⟨t, shown⟩, .error (.unshowable reason)⟩ := by
  simp only [showing, h]

/-- Everything is shown, or the console refuses something: then the files are as they were. -/
theorem showing_cases (c : Console) (s : Session) (next : Session → Ending) (ds : List Display) :
    s.showing c next ds = next ⟨s.files, s.shown ++ ds⟩ ∨
      (s.showing c next ds).session.files = s.files ∧
        ∃ reason, (s.showing c next ds).result = .error (.unshowable reason) := by
  obtain ⟨t, shown⟩ := s
  induction ds generalizing shown with
  | nil => exact .inl (by rw [List.append_nil]; rfl)
  | cons d r ih =>
    cases h : c.refuses? shown d with
    | none =>
      rw [showing_of_none h]
      simpa using ih (shown ++ [d])
    | some reason =>
      rw [showing_of_some h]
      exact .inr ⟨rfl, reason, rfl⟩

theorem files_endingWith (c : Console) (s : Session) (ds : List Display) (code : Nat) :
    (s.endingWith c ds code).session.files = s.files := by
  obtain h | ⟨h, -⟩ := showing_cases c s (fun s => ⟨s, .ok code⟩) ds
  · rw [endingWith, h]
  · exact h

/-- A command that ends with what it shows ends with its exit code, unless that is refused. -/
theorem result_endingWith (h : (s.endingWith c ds code).result = .ok 0) : code = 0 := by
  unfold endingWith at h
  obtain hs | ⟨-, reason, hs⟩ := showing_cases c s (fun s => ⟨s, .ok code⟩) ds
  · exact Except.ok.inj (hs ▸ h)
  · cases hs.symm.trans h

end Session

variable {h : Host} {r : Registry} {t : FileTree} {reply : Except Web.TransportFault Web.Reply}
  {words : List String} {verbose : Bool} {o : GenerateOptions} {g : Generator} {source : String}
  {schema : Schema} {s : Session} {e : GenerationError}

/-! ## Before anything is delivered -/

/-- The options lead to a schema that is said to be loaded, and to a generator for it. -/
structure Prepares (h : Host) (r : Registry) (t : FileTree)
    (reply : Except Web.TransportFault Web.Reply) (o : GenerateOptions) (g : Generator)
    (source : String) (schema : Schema) : Prop where
  loaded : o.load h t reply = .ok (source, schema)
  shown : h.console.refuses? [] (loadedDisplay source) = none
  generator : ∃ language, o.language = some language ∧ r.isSupported language ∧
    o.generator h.toMachine r t language = .ok g

/-- A run gets as far as generating a schema. -/
structure Attempts (h : Host) (r : Registry) (t : FileTree)
    (reply : Except Web.TransportFault Web.Reply) (words : List String) (verbose : Bool)
    (o : GenerateOptions) (g : Generator) (source : String) (schema : Schema) : Prop
    extends Prepares h r t reply o g source schema where
  words : Invocation.ofWords words = .ok ⟨verbose, false, some o⟩

def loadedSession (t : FileTree) (source : String) : Session :=
  ⟨t, [loadedDisplay source]⟩

theorem failWith_spares (c : Console) (s : Session) (failure : CommandFailure) :
    (failWith c s failure).session.files = s.files ∧ (failWith c s failure).result ≠ .ok 0 := by
  cases failure with
  | error message =>
    exact ⟨s.files_endingWith c _ 1, fun hr => by cases Session.result_endingWith hr⟩
  | defect d => exact ⟨rfl, fun hr => by cases hr⟩

/-- A command for a known language delivers, or it does not succeed and leaves the files alone. -/
theorem generateIn_cases (h : Host) {language : String} (hl : o.language = some language)
    (hr : r.isSupported language) :
    (∃ g source schema, Prepares h r t reply o g source schema ∧
        generateIn h r t reply verbose o language =
          deliver h verbose o g schema (loadedSession t source)) ∨
      ((generateIn h r t reply verbose o language).session.files = t ∧
        (generateIn h r t reply verbose o language).result ≠ .ok 0) := by
  unfold generateIn
  cases hload : o.load h t reply with
  | error failure => exact .inr (failWith_spares h.console _ failure)
  | ok loaded =>
    obtain ⟨source, schema⟩ := loaded
    dsimp only
    cases hshown : h.console.refuses? [] (loadedDisplay source) with
    | some reason =>
      rw [Session.showing_of_some hshown]
      exact .inr ⟨rfl, by simp⟩
    | none =>
      rw [Session.showing_of_none hshown, Session.showing]
      cases hg : o.generator h.toMachine r t language with
      | error failure => exact .inr (failWith_spares h.console _ failure)
      | ok g => exact .inl ⟨g, source, schema, ⟨hload, hshown, language, hl, hr, hg⟩, rfl⟩

/-- A command delivers, or it does not succeed and leaves the files alone. -/
theorem generate_cases (h : Host) (r : Registry) (t : FileTree)
    (reply : Except Web.TransportFault Web.Reply) (verbose : Bool) (o : GenerateOptions) :
    (∃ g source schema, Prepares h r t reply o g source schema ∧
        generate h r t reply verbose o = deliver h verbose o g schema (loadedSession t source)) ∨
      ((generate h r t reply verbose o).session.files = t ∧
        (generate h r t reply verbose o).result ≠ .ok 0) := by
  unfold generate
  cases hl : o.language with
  | none => exact .inr ⟨rfl, by simp⟩
  | some language =>
    dsimp only
    cases hr : r.isSupported language with
    | false =>
      exact .inr ⟨Session.files_endingWith h.console _ _ 1,
        fun hr => by cases Session.result_endingWith hr⟩
    | true => exact generateIn_cases h hl hr

theorem run_of_words (hw : Invocation.ofWords words = .ok ⟨verbose, false, some o⟩) :
    run h r t reply words = .ended (logFor verbose) (generate h r t reply verbose o) := by
  rw [run, hw]
  rfl

theorem Attempts.run_eq (ha : Attempts h r t reply words verbose o g source schema) :
    run h r t reply words =
      .ended (logFor verbose) (deliver h verbose o g schema (loadedSession t source)) := by
  obtain ⟨language, hl, hr, hg⟩ := ha.generator
  rw [run_of_words ha.words, generate, hl]
  simp only [hr, Bool.not_true, Bool.false_eq_true, if_false]
  rw [generateIn, ha.loaded]
  dsimp only
  rw [Session.showing_of_none ha.shown, Session.showing, hg]
  rfl

/-- A run attempts one thing at most. -/
theorem Attempts.unique {verbose' : Bool} {o' : GenerateOptions} {g' : Generator}
    {source' : String} {schema' : Schema}
    (ha : Attempts h r t reply words verbose o g source schema)
    (ha' : Attempts h r t reply words verbose' o' g' source' schema') :
    verbose = verbose' ∧ o = o' ∧ g = g' ∧ source = source' ∧ schema = schema' := by
  have hwords := ha.words.symm.trans ha'.words
  simp only [Except.ok.injEq, Invocation.mk.injEq, Option.some.injEq, true_and] at hwords
  obtain ⟨rfl, rfl⟩ := hwords
  have hloaded := ha.loaded.symm.trans ha'.loaded
  rw [Except.ok.injEq, Prod.mk.injEq] at hloaded
  obtain ⟨language, hl, -, hg⟩ := ha.generator
  obtain ⟨language', hl', -, hg'⟩ := ha'.generator
  obtain rfl := Option.some.inj (hl.symm.trans hl')
  exact ⟨rfl, rfl, Except.ok.inj (hg.symm.trans hg'), hloaded⟩

theorem files_listLanguages (c : Console) (r : Registry) (t : FileTree) :
    (listLanguages c r t).session.files = t := by
  unfold listLanguages
  cases r.allInfo <;> exact Session.files_endingWith c ⟨t, []⟩ _ _

/-- A run gets as far as generating a schema, or it leaves the files alone. -/
theorem run_cases (h : Host) (r : Registry) (t : FileTree)
    (reply : Except Web.TransportFault Web.Reply) (words : List String) :
    (∃ verbose o g source schema, Attempts h r t reply words verbose o g source schema) ∨
      (run h r t reply words).files t = t := by
  unfold run
  cases hw : Invocation.ofWords words with
  | error stop => exact .inr rfl
  | ok i =>
    obtain ⟨verbose, list, command⟩ := i
    cases list with
    | true => exact .inr (files_listLanguages h.console r t)
    | false =>
      cases command with
      | none => exact .inr rfl
      | some o =>
        rcases generate_cases h r t reply verbose o with ⟨g, source, schema, hp, -⟩ | ⟨hf, -⟩
        · exact .inl ⟨verbose, o, g, source, schema, hp, hw⟩
        · exact .inr hf

/-! ## What is delivered -/

/-- Where generating a schema fails, nothing is delivered but the error. -/
theorem deliver_of_error {warnings : List SchemaWarning} (hw : g.review schema = .ok warnings)
    (he : g.generate schema = .error (.error e)) :
    deliver h verbose o g schema s = s.endingWith h.console [failureDisplay e] 1 := by
  rw [deliver, Generator.report_failed_iff.2 ⟨⟨warnings, hw⟩, he⟩]

theorem files_finish {c : Console} {units : Units String} {warnings : List SchemaWarning}
    {count : Nat} {space : Json} :
    (finish c verbose g units warnings count space s).session.files = s.files :=
  Session.files_endingWith c s _ 0

/-- Files are changed only to store the units of a schema. -/
theorem files_deliver (h : Host) (verbose : Bool) (o : GenerateOptions) (g : Generator)
    (schema : Schema) (s : Session) :
    (∃ units warnings, o.dryRun = false ∧ g.review schema = .ok warnings ∧
        g.generate schema = .ok units) ∨
      (deliver h verbose o g schema s).session.files = s.files := by
  unfold deliver
  cases hr : (g.report schema).2 with
  | error d => exact .inr (failWith_spares h.console s (.defect d)).1
  | ok report =>
    cases report with
    | failed e => exact .inr (s.files_endingWith h.console _ 1)
    | generated units warnings count space =>
      cases hd : o.dryRun with
      -- with nothing stored, only the console can end the run early
      | true =>
        refine .inr ?_
        dsimp only
        rw [if_pos rfl]
        obtain hs | ⟨hs, -⟩ := Session.showing_cases h.console s
          (finish h.console verbose g units warnings count space)
          (unitDisplays g.target.language units)
        · rw [hs, files_finish]
        · exact hs
      | false =>
        obtain ⟨hw, hu, -, -⟩ := Generator.report_generated_iff.1 hr
        exact .inl ⟨units, warnings, rfl, hw, hu⟩

/-- A run generates units from a schema. -/
def Delivers (h : Host) (r : Registry) (t : FileTree) (reply : Except Web.TransportFault Web.Reply)
    (words : List String) (o : GenerateOptions) (units : Units String) : Prop :=
  ∃ verbose g source schema warnings, Attempts h r t reply words verbose o g source schema ∧
    g.review schema = .ok warnings ∧ g.generate schema = .ok units

/--
A run that does not generate units leaves the files alone, and so does one that only shows them. A
run that fails to generate units for a schema leaves the files alone and shows no unit: it shows
what was loaded and the error, and exits with one, unless the console refuses the error.
-/
theorem run_spares (h : Host) (r : Registry) (t : FileTree)
    (reply : Except Web.TransportFault Web.Reply) (words : List String) :
    ((∀ o units, Delivers h r t reply words o units → o.dryRun) →
        (run h r t reply words).files t = t) ∧
      ∀ verbose o g source schema warnings e,
        Attempts h r t reply words verbose o g source schema →
        g.review schema = .ok warnings → g.generate schema = .error (.error e) →
        (run h r t reply words).files t = t ∧
          (h.console.refuses? [loadedDisplay source] (failureDisplay e) = none →
            (run h r t reply words).exitCode = .ok 1 ∧
              (run h r t reply words).shown = [loadedDisplay source, failureDisplay e]) ∧
          ∀ reason, h.console.refuses? [loadedDisplay source] (failureDisplay e) = some reason →
            (run h r t reply words).exitCode = .error (.unshowable reason) ∧
              (run h r t reply words).shown = [loadedDisplay source] := by
  refine ⟨fun hdry => ?_, ?_⟩
  · obtain ⟨verbose, o, g, source, schema, ha⟩ | hfiles := run_cases h r t reply words
    · obtain ⟨units, warnings, hd, hw, hu⟩ | hfiles :=
        files_deliver h verbose o g schema (loadedSession t source)
      · have := hdry o units ⟨verbose, g, source, schema, warnings, ha, hw, hu⟩
        simp [hd] at this
      · rw [ha.run_eq]
        exact hfiles
    · exact hfiles
  · intro verbose o g source schema warnings e ha hw he
    rw [ha.run_eq, deliver_of_error hw he]
    refine ⟨Session.files_endingWith h.console (loadedSession t source) _ 1, fun hshown => ?_,
      fun reason hrefused => ?_⟩
    · rw [loadedSession, Session.endingWith, Session.showing_of_none hshown]
      exact ⟨rfl, rfl⟩
    · rw [loadedSession, Session.endingWith, Session.showing_of_some hrefused]
      exact ⟨rfl, rfl⟩

/-! ## Runs without settings -/

/-- Options that set nothing lead to the generator with the settings of the language. -/
theorem generator_of_defaults (depth : Nat) (t : FileTree) (ho : o.overrides = [])
    (hc : o.config = "") :
    o.generator (.ample depth) .builtin t "java" = .ok Generator.standard := by
  have hresolve : Registry.builtin.resolve "java" = .ok "java" := rfl
  have hset : o.settings (.ample depth) .builtin t "java" = .ok Generator.standard.settings := by
    refine Fallible.bind_ok_iff.2 ⟨"java", Fallible.mapError_ok_iff.2 hresolve, ?_⟩
    rw [ho, hc]
    exact Fallible.mapError_ok_iff.2 (Settings.layered_defaults (.ample depth) t)
  have hcreate : Registry.builtin.createFrom (.ample depth) "java" Generator.standard.settings =
      .ok Generator.standard := rfl
  exact Fallible.bind_ok_iff.2 ⟨_, hset, Fallible.mapError_ok_iff.2 hcreate⟩

theorem attempts_of_defaults {depth : Nat} (hm : h.toMachine = .ample depth)
    (hw : Invocation.ofWords words = .ok ⟨verbose, false, some o⟩)
    (hl : o.language = some "java") (ho : o.overrides = []) (hc : o.config = "")
    (hload : o.load h t reply = .ok (source, schema))
    (hs : h.console.refuses? [] (loadedDisplay source) = none) :
    Attempts h .builtin t reply words verbose o Generator.standard source schema :=
  ⟨⟨hload, hs, "java", hl, rfl, hm ▸ generator_of_defaults depth t ho hc⟩, hw⟩

/-- The options for a document on the web, of which nothing else is asked. -/
def webOptions : GenerateOptions :=
  { GenerateOptions.start with url := some "http://h/s.json" }

/-- A schema of enumerations without values. -/
def enumerations (names : List String) : Schema :=
  ⟨"n", names.map fun n => .enumeration ⟨n, none, []⟩ []⟩

/-- A reply with the document of a schema of enumerations without values. -/
def enumerationsReply (names : List String) : Except Web.TransportFault Web.Reply :=
  let entries := names.map fun n => "\x7b\"name\":\"" ++ n ++ "\",\"type\":\"enumeration\"\x7d"
  .ok ⟨200, [], "\x7b\"namespace\":\"n\",\"types\":[" ++ Text.join "," entries ++ "]\x7d"⟩

theorem generate_enumerations_twice {n : String}
    (hf : Generator.standard.FitsAll (enumerations [n, n])) :
    Generator.standard.generate (enumerations [n, n]) =
      .error (.error (.collision (Generator.standard.unitName n))) := by
  have hwalk : (enumerations [n, n]).walk = [(.enumeration ⟨n, none, []⟩ [], []),
      (.enumeration ⟨n, none, []⟩ [], [])] := rfl
  have hn : (enumerations [n, n]).IsNonneg := by
    simp [Schema.IsNonneg, hwalk, Definition.fields]
  have hc : (enumerations [n, n]).IsComplete := by
    simp [Schema.IsComplete, hwalk, Definition.isClass]
  have ha : ¬ (enumerations [n, n]).NamedApart := by simp [Schema.NamedApart, hwalk]
  obtain ⟨m, hdup, he⟩ := Generator.exists_collision hn hc ha hf
  obtain rfl : m = n := by simpa [hwalk, Definition.name, Definition.heading] using hdup.mem
  exact he

/--
A run that shows units changes nothing, and neither does one that finds a second unit of a name.
-/
theorem run_spares_twice :
    (∀ reply, (run (.ample 3) .builtin .empty reply
        ["generate", "--url", "http://h/s.json", "--dry-run"]).files .empty = .empty) ∧
      let ended := run (.ample 3) .builtin .empty (enumerationsReply ["E", "E"])
        ["generate", "--url", "http://h/s.json"]
      ended.exitCode = .ok 1 ∧ ended.files .empty = .empty ∧
        ended.shown =
          [.text "📄 Loaded: http://h/s.json", failureDisplay (.collision "E.java")] := by
  refine ⟨fun reply => (run_spares _ _ _ _ _).1 ?_, ?_⟩
  · rintro o units ⟨verbose, g, source, schema, warnings, ha, -⟩
    have hwords : Invocation.ofWords ["generate", "--url", "http://h/s.json", "--dry-run"] =
        .ok ⟨false, false, some { webOptions with dryRun := true }⟩ :=
      rfl
    have ho := hwords.symm.trans ha.words
    simp only [Except.ok.injEq, Invocation.mk.injEq, Option.some.injEq] at ho
    rw [← ho.2.2]
  · have hload : webOptions.load (.ample 3) .empty (enumerationsReply ["E", "E"]) =
        .ok ("http://h/s.json", enumerations ["E", "E"]) := by
      cbv
    have hattempts : Attempts (.ample 3) .builtin .empty (enumerationsReply ["E", "E"])
        ["generate", "--url", "http://h/s.json"] false webOptions .standard "http://h/s.json"
        (enumerations ["E", "E"]) := attempts_of_defaults rfl rfl rfl rfl rfl hload rfl
    have hi : Generator.standard.settings.indent .ample = .ok "    " := rfl
    have hfits : Generator.standard.FitsAll (enumerations ["E", "E"]) :=
      Generator.fitsAll_of_isPlain hi (by decide) (by decide) (by decide)
    obtain ⟨hfiles, hended, -⟩ := (run_spares _ _ _ _ _).2 _ _ _ _ _ _ _ hattempts rfl
      (generate_enumerations_twice hfits)
    obtain ⟨hcode, hshown⟩ := hended rfl
    exact ⟨hcode, hfiles, hshown⟩

/-- A host whose console refuses a text with a closing tag that nothing in it can open. -/
def closingHost : Host :=
  { Host.ample 3 with console := ⟨fun _ d => match d with
      | .text s =>
        if "[/x]".toList <:+: s.toList then
          some "closing tag '[/x]' at position 92 doesn't match any open tag"
        else none
      | _ => none⟩ }

theorem closingHost_refuses (shown : List Display) {s : String}
    (hs : "[/x]".toList <:+: s.toList) :
    closingHost.console.refuses? shown (.text s) =
      some "closing tag '[/x]' at position 92 doesn't match any open tag" :=
  if_pos hs

/-- Two definitions of a name that reads as a closing tag: the run ends without an exit code. -/
theorem run_refused :
    let ended := run closingHost .builtin .empty (enumerationsReply ["[/x]", "[/x]"])
      ["generate", "--url", "http://h/s.json"]
    Attempts closingHost .builtin .empty (enumerationsReply ["[/x]", "[/x]"])
        ["generate", "--url", "http://h/s.json"] false webOptions .standard "http://h/s.json"
        (enumerations ["[/x]", "[/x]"]) ∧
      Generator.standard.generate (enumerations ["[/x]", "[/x]"]) =
        .error (.error (.collision "[/x].java")) ∧
      ended.exitCode =
        .error (.unshowable "closing tag '[/x]' at position 92 doesn't match any open tag") ∧
      ended.shown = [.text "📄 Loaded: http://h/s.json"] := by
  have hload : webOptions.load closingHost .empty (enumerationsReply ["[/x]", "[/x]"]) =
      .ok ("http://h/s.json", enumerations ["[/x]", "[/x]"]) := by
    cbv
  have hattempts : Attempts closingHost .builtin .empty (enumerationsReply ["[/x]", "[/x]"])
      ["generate", "--url", "http://h/s.json"] false webOptions .standard "http://h/s.json"
      (enumerations ["[/x]", "[/x]"]) :=
    attempts_of_defaults rfl rfl rfl rfl rfl hload (by decide)
  have hfits : Generator.standard.FitsAll (enumerations ["[/x]", "[/x]"]) := by
    refine List.forall_mem_cons.2 ⟨fun fragments hf => ⟨_, rfl, ?_⟩,
      List.forall_mem_singleton.2 fun fragments hf => ⟨_, rfl, ?_⟩⟩
    all_goals
      obtain rfl := Except.ok.inj hf
      decide +kernel
  have he : Generator.standard.generate (enumerations ["[/x]", "[/x]"]) =
      .error (.error (.collision "[/x].java")) := generate_enumerations_twice hfits
  have hrefused : closingHost.console.refuses? [loadedDisplay "http://h/s.json"]
      (failureDisplay (.collision "[/x].java")) =
        some "closing tag '[/x]' at position 92 doesn't match any open tag" :=
    closingHost_refuses [loadedDisplay "http://h/s.json"] (by decide +kernel)
  have hreview : Generator.standard.review (enumerations ["[/x]", "[/x]"]) = .ok _ := rfl
  refine ⟨hattempts, he, ?_⟩
  rw [hattempts.run_eq, deliver_of_error hreview he, loadedSession, Session.endingWith,
    Session.showing_of_some hrefused]
  exact ⟨rfl, rfl⟩

end CommandLine

end Typewright
