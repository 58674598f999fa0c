import Typewright.Proofs.Fallible
import Typewright.Proofs.Registry.Consistent
import Typewright.Registry.Request

/-!
# Runs of registrations

A registration changes the two maps of a registry in place, write by write, and can stop anywhere on
its way. Here it is run in that order, on a registry that keeps what was written before a refusal.

- `Registration.perform`: a request to register, carried out.
- `Registration.runOn_perform`: on a consistent registry it is `Registry.registerFrom`, and a
  refusal leaves the registry as it was.
- `Registry.registrations_sound`: what holds of the registry after any run of requests, and what its
  queries say then.
-/

namespace Typewright

/-! ## Steps that write in place -/

/-- A step that changes the registry in place. -/
abbrev Registry.Step (ε α : Type) : Type :=
  ExceptT ε (StateM Registry) α

namespace Registry.Step

variable {ε ε' α β : Type}

/-- How a step that starts at a registry ends, and the registry that it leaves. -/
def runOn (x : Step ε α) (r : Registry) : Except ε α × Registry :=
  (StateT.run (ExceptT.run x) r).run

theorem runOn_bind (x : Step ε α) (f : α → Step ε β) (r : Registry) :
    (x >>= f).runOn r =
      match x.runOn r with
      | (.ok a, r') => (f a).runOn r'
      | (.error e, r') => (.error e, r') := by
  unfold runOn ExceptT.run StateT.run Id.run
  simp only [bind, ExceptT.bind, ExceptT.mk, StateT.bind, ExceptT.bindCont]
  cases x r with
  | mk outcome r' => cases outcome <;> rfl

theorem runOn_bind_ok {x : Step ε α} {a : α} {r r' : Registry} (h : x.runOn r = (.ok a, r'))
    (f : α → Step ε β) : (x >>= f).runOn r = (f a).runOn r' := by
  rw [runOn_bind, h]

theorem runOn_bind_error {x : Step ε α} {e : ε} {r r' : Registry} (h : x.runOn r = (.error e, r'))
    (f : α → Step ε β) : (x >>= f).runOn r = (.error e, r') := by
  rw [runOn_bind, h]

theorem runOn_liftM (x : Except ε α) (r : Registry) : runOn (liftM x) r = (x, r) := by
  cases x <;> rfl

theorem runOn_modify (f : Registry → Registry) (r : Registry) :
    runOn (modify f : Step ε Unit) r = (.ok (), f r) :=
  rfl

theorem runOn_forM_modify (f : α → Registry → Registry) (xs : List α) (r : Registry) :
    runOn (xs.forM fun x => (modify (f x) : Step ε Unit)) r =
      (.ok (), xs.foldl (fun r x => f x r) r) := by
  induction xs generalizing r with
  | nil => rfl
  | cons x xs ih => exact ih (f x r)

/-- The step with its refusals reworded. -/
def rewording (f : ε → ε') (x : Step ε α) : Step ε' α :=
  ExceptT.mk fun r => pure ((x.runOn r).1.mapError f, (x.runOn r).2)

theorem runOn_rewording (f : ε → ε') (x : Step ε α) (r : Registry) :
    (x.rewording f).runOn r = ((x.runOn r).1.mapError f, (x.runOn r).2) :=
  rfl

end Registry.Step

/-! ## One registration, write by write -/

namespace Registry

/-- The registry with an entry written under its primary name. -/
def putEntry (e : RegistryEntry) (r : Registry) : Registry :=
  { r with entries :=
      if r.entries.any (·.name == e.name) then
        r.entries.map fun e' => if e'.name == e.name then e else e'
      else r.entries ++ [e] }

/-- The registry with a name written. -/
def putName (owner key : String) (r : Registry) : Registry :=
  { r with names :=
      if r.names.any (·.1 == key) then
        r.names.map fun p => if p.1 == key then (key, owner) else p
      else r.names ++ [(key, owner)] }

/-- Refuses a name that is taken. -/
def claim (key : String) : Step RegistryError Unit := do
  match (← get).names.lookup key with
  | some owner => throw (.nameTaken key owner)
  | none => return

/-- Registers a target: all its names are claimed before anything is written. -/
def registering (language : String) (target : Target) (aliases : List String) :
    Step RegistryError Unit := do
  let e := newEntry language target aliases
  e.keys.forM claim
  modify (putEntry e)
  e.keys.forM fun key => modify (putName e.name key)

end Registry

/-- A request to register a target; what is to be registered need not be one. -/
structure Registration where
  language : Json
  target : Option Target
  aliases : Json

/-- Carries out a request. -/
def Registration.perform (q : Registration) : Registry.Step RequestFailure Unit := do
  let some target := q.target | throw (.error .notGenerator)
  let language ← liftM ((Registry.nameOf q.language).mapError RequestFailure.defect)
  let aliases ← liftM ((Registry.aliasesOf q.aliases).mapError RequestFailure.defect)
  (Registry.registering language target aliases).rewording .error

/-- The registry after a run of requests, refused ones included. -/
def Registry.after (qs : List Registration) : Registry :=
  qs.foldl (fun r q => (q.perform.runOn r).2) .empty

namespace Registry

variable {r r' : Registry} {e : RegistryEntry} {language : String} {target : Target}
  {aliases : List String}

theorem runOn_claim (key : String) (r : Registry) :
    (claim key).runOn r =
      match r.names.lookup key with
      | some owner => (.error (.nameTaken key owner), r)
      | none => (.ok (), r) := by
  have hget : (get : Step RegistryError Registry).runOn r = (.ok r, r) := rfl
  unfold claim
  rw [Step.runOn_bind_ok hget]
  cases r.names.lookup key <;> rfl

theorem runOn_forM_claim (ks : List String) (r : Registry) :
    Step.runOn (ks.forM claim) r =
      match r.conflict? ks with
      | some e => (.error e, r)
      | none => (.ok (), r) := by
  induction ks with
  | nil => rfl
  | cons key ks ih =>
    show Step.runOn (claim key >>= fun _ => ks.forM claim) r = _
    rw [Step.runOn_bind, runOn_claim, conflict?, List.findSome?_cons]
    cases r.names.lookup key with
    | none => exact ih
    | some owner => rfl

theorem putEntry_eq (h : ∀ e' ∈ r.entries, e'.name ≠ e.name) :
    putEntry e r = { r with entries := r.entries ++ [e] } := by
  have : r.entries.any (·.name == e.name) = false := by simpa [List.any_eq_false] using h
  rw [putEntry, this]; rfl

theorem putName_eq {owner key : String} (h : key ∉ r.keys) :
    putName owner key r = { r with names := r.names ++ [(key, owner)] } := by
  have : r.names.any (·.1 == key) = false := by
    rw [List.any_eq_false]
    intro p hp hk
    exact h (List.mem_map.2 ⟨p, hp, eq_of_beq hk⟩)
  rw [putName, this]; rfl

theorem foldl_putName {owner : String} {ks : List String} (hn : ks.Nodup)
    (hfree : ∀ key ∈ ks, key ∉ r.keys) :
    ks.foldl (fun r key => putName owner key r) r =
      { r with names := r.names ++ ks.map fun key => (key, owner) } := by
  induction ks generalizing r with
  | nil => simp
  | cons key ks ih =>
    obtain ⟨hkey, hn⟩ := List.nodup_cons.1 hn
    obtain ⟨hfirst, hrest⟩ := List.forall_mem_cons.1 hfree
    rw [List.foldl_cons, putName_eq hfirst, ih hn fun k hk hmem => ?_]
    · simp
    · -- a later name is free still: it is neither an old one nor the one just written
      rw [keys, List.map_append, List.mem_append] at hmem
      rcases hmem with hmem | hmem
      · exact hrest k hk hmem
      · obtain rfl : k = key := List.mem_singleton.1 hmem
        exact hkey hk

/-- A registration that is refused has written nothing, and one that is not has added its entry. -/
theorem runOn_registering (hr : ∀ e ∈ r.entries, e.name ∈ r.keys) :
    (registering language target aliases).runOn r =
      match r.register language target aliases with
      | .ok r' => (.ok (), r')
      | .error e => (.error e, r) := by
  -- all names are claimed before anything is written
  have hclaims := runOn_forM_claim (newEntry language target aliases).keys r
  rw [register_eq]
  unfold registering
  cases hc : r.conflict? (newEntry language target aliases).keys with
  | some e =>
    rw [hc] at hclaims
    exact Step.runOn_bind_error hclaims _
  | none =>
    rw [hc] at hclaims
    have hfree := conflict?_eq_none_iff.1 hc
    have hfresh : ∀ e ∈ r.entries, e.name ≠ (newEntry language target aliases).name :=
      fun e he hname => hfree _ List.mem_cons_self (hname ▸ hr e he)
    have hnames : ∀ key ∈ (newEntry language target aliases).keys,
        key ∉ keys { r with entries := r.entries ++ [newEntry language target aliases] } := hfree
    rw [Step.runOn_bind_ok hclaims, Step.runOn_bind_ok (Step.runOn_modify _ r),
      Step.runOn_forM_modify, putEntry_eq hfresh, foldl_putName (nodup_keys_newEntry ..) hnames]
    rfl

end Registry

namespace Registration

variable {r r' : Registry} {q : Registration}

/-- Where the primary names of the entries are taken, a request ends as `registerFrom` does. -/
theorem runOn_perform (hr : ∀ e ∈ r.entries, e.name ∈ r.keys) (q : Registration) :
    q.perform.runOn r =
      match r.registerFrom q.language q.target q.aliases with
      | .ok r' => (.ok (), r')
      | .error e => (.error e, r) := by
  obtain ⟨language, target, aliases⟩ := q
  unfold perform Registry.registerFrom
  cases target with
  | none => rfl
  | some target =>
    dsimp only
    rw [Registry.Step.runOn_bind, Registry.Step.runOn_liftM]
    cases Registry.nameOf language with
    | error d => rfl
    | ok language =>
      show (liftM _ >>= fun aliases => _ : Registry.Step RequestFailure Unit).runOn r = _
      rw [Registry.Step.runOn_bind, Registry.Step.runOn_liftM]
      cases Registry.aliasesOf aliases with
      | error d => rfl
      | ok aliases =>
        show (Registry.Step.rewording _ _).runOn r = _
        rw [Registry.Step.runOn_rewording, Registry.runOn_registering hr]
        show _ = match (r.register language target aliases).mapError RequestFailure.error with
          | Except.ok r' => (Except.ok (), r')
          | Except.error e => (Except.error e, r)
        cases r.register language target aliases <;> rfl

theorem consistent_registerFrom (hr : r.Consistent)
    (h : r.registerFrom q.language q.target q.aliases = .ok r') : r'.Consistent := by
  obtain ⟨language, target, aliases⟩ := q
  unfold Registry.registerFrom at h
  cases target with
  | none => cases h
  | some target =>
    obtain ⟨language, -, h⟩ := Fallible.bind_ok h
    obtain ⟨aliases, -, h⟩ := Fallible.bind_ok h
    exact Registry.consistent_register hr (Fallible.mapError_ok h)

theorem consistent_runOn (hr : r.Consistent) (q : Registration) :
    (q.perform.runOn r).2.Consistent := by
  rw [runOn_perform hr.name_mem_keys]
  cases h : r.registerFrom q.language q.target q.aliases with
  | error e => exact hr
  | ok r' => exact consistent_registerFrom hr h

end Registration

namespace Registry

/-- So does a run of requests. -/
theorem consistent_foldl {r : Registry} (hr : r.Consistent) (qs : List Registration) :
    (qs.foldl (fun r q => (q.perform.runOn r).2) r).Consistent := by
  induction qs generalizing r with
  | nil => exact hr
  | cons q qs ih => exact ih (Registration.consistent_runOn hr q)

/-- After any run of requests the two maps say the same, and queries go by them. -/
theorem registrations_sound (qs : List Registration) :
    (after qs).Sound ∧
      (∀ language, (∃ name, (after qs).resolve language = .ok name) ↔
        (after qs).isSupported language = true) ∧
      (∀ language name, (after qs).resolve language = .ok name →
        ∃ e ∈ (after qs).entries, e.name = name ∧ (after qs).entryOf language = .ok e) ∧
      (∀ language other, Text.lower language = Text.lower other →
        (after qs).isSupported language = (after qs).isSupported other ∧
          ∀ name, (after qs).resolve language = .ok name ↔ (after qs).resolve other = .ok name) ∧
      ∀ q : Registration,
        q.perform.runOn (after qs) =
          match (after qs).registerFrom q.language q.target q.aliases with
          | .ok r' => (.ok (), r')
          | .error e => (.error e, after qs) := by
  have h : (after qs).Consistent := consistent_foldl consistent_empty qs
  refine ⟨h.sound, fun language => ?_, fun language name hres => h.entryOf_ok hres,
    fun language other hlower => ?_, Registration.runOn_perform h.name_mem_keys⟩
  · simp only [resolve_ok_iff, isSupported, Option.isSome_iff_exists]
  · simp only [resolve_ok_iff, isSupported, hlower, implies_true, and_self]

/-- A run with a refused request in it: an alias of a new language is the name of an old one. -/
def sampleRun : List Registration :=
  [⟨.str "java", some .java, .arr [.str "JVM"]⟩,
    ⟨.str "Kotlin", some .java, .arr [.str "kt", .str "Java"]⟩,
    ⟨.str "Scala", some .java, .arr [.str "SC", .str "scala", .str "dotty", .str "sc"]⟩]

theorem registrations_sound_sampleRun :
    (after sampleRun).entries.map (fun e => (e.name, e.aliases)) =
        [("java", ["jvm"]), ("scala", ["dotty", "sc"])] ∧
      (after sampleRun).isSupported "kotlin" = false ∧
      (∃ name, (after sampleRun).resolve "Dotty" = .ok name) ∧
      (after sampleRun).names.lookup "jvm" = some "java" := by
  have hentries : (after sampleRun).entries.map (fun e => (e.name, e.aliases)) =
      [("java", ["jvm"]), ("scala", ["dotty", "sc"])] := by decide +kernel
  obtain ⟨hsound, hsupported, -, -, -⟩ := registrations_sound sampleRun
  refine ⟨hentries, by decide +kernel, (hsupported "Dotty").2 (by decide +kernel), ?_⟩
  exact hsound.alias_leads ⟨"java", .java, ["jvm"]⟩ (by decide +kernel) "jvm" (by decide)

end Registry

end Typewright
