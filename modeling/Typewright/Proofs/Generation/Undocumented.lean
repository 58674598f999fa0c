import Typewright.Proofs.Generation.Comments

/-!
# Generation without comments

A generator that writes no comments makes nothing of the documentation of a schema. Taking all the
documentation out of the schema beforehand has no effect, but on the field that a missing default
is reported for.

- `Schema.withoutDocs`: a schema without its documentation.
- `planConstructors_withoutDocs`, `Java.fragments_withoutDocs`: what that comes to for constructors
  and for classes.
- `Generator.unitsOf_withoutDocs`: the units of a definition and of all below it.
- `Generator.generate_undocumented`: schemas that differ only in their documentation.
-/

namespace Typewright

/-! ## Schemas without documentation -/

/-- The field without its documentation. -/
def Field.withoutDoc (f : Field) : Field :=
  { f with doc := none }

def Parameter.withoutDoc (p : Parameter) : Parameter :=
  { p with doc := none }

def Message.withoutDocs (m : Message) : Message :=
  { m with parameters := m.parameters.map Parameter.withoutDoc, doc := none }

def EnumValue.withoutDoc (v : EnumValue) : EnumValue :=
  { v with doc := none }

def Heading.withoutDoc (h : Heading) : Heading :=
  { h with doc := none }

namespace Definition

mutual

/-- The definition without documentation, of its own and of all below it. -/
def withoutDocs : Definition → Definition
  | .enumeration h vs => .enumeration h.withoutDoc (vs.map EnumValue.withoutDoc)
  | .record h fs => .record h.withoutDoc (fs.map Field.withoutDoc)
  | .protocol h fs ms ds =>
    .protocol h.withoutDoc (fs.map Field.withoutDoc) (ms.map Message.withoutDocs)
      (withoutDocsAll ds)

def withoutDocsAll : List Definition → List Definition
  | [] => []
  | d :: ds => withoutDocs d :: withoutDocsAll ds

end

theorem withoutDocsAll_eq_map (ds : List Definition) : withoutDocsAll ds = ds.map withoutDocs := by
  induction ds with
  | nil => rfl
  | cons d r ih => rw [withoutDocsAll, ih, List.map_cons]

theorem name_withoutDocs (d : Definition) : d.withoutDocs.name = d.name := by
  cases d <;> rfl

end Definition

def Schema.withoutDocs (s : Schema) : Schema :=
  { s with definitions := s.definitions.map Definition.withoutDocs }

/-! ## Constructors -/

def FieldValue.withoutDoc : FieldValue → FieldValue
  | .given f => .given f.withoutDoc
  | .defaulted f e => .defaulted f.withoutDoc e

def ConstructorPlan.withoutDocs (p : ConstructorPlan) : ConstructorPlan :=
  { p with
    parameters := p.parameters.map Field.withoutDoc
    superValues := p.superValues.map FieldValue.withoutDoc
    ownValues := p.ownValues.map FieldValue.withoutDoc }

def MissingDefault.withoutDoc (m : MissingDefault) : MissingDefault :=
  { m with field := m.field.withoutDoc }

theorem valueAt_withoutDoc (owner : String) (era : Version) (f : Field) :
    valueAt owner era f.withoutDoc =
      FieldValue.withoutDoc <$> (valueAt owner era f).mapError MissingDefault.withoutDoc := by
  obtain ⟨name, type, since, default, doc⟩ := f
  unfold valueAt Field.withoutDoc
  dsimp only
  split_ifs
  · rfl
  · cases default <;> rfl

theorem mapM_valueAt_withoutDoc (owner : String) (era : Version) (fs : List Field) :
    (fs.map Field.withoutDoc).mapM (valueAt owner era) =
      List.map FieldValue.withoutDoc <$>
        (fs.mapM (valueAt owner era)).mapError MissingDefault.withoutDoc := by
  rw [List.mapM_map]
  exact Fallible.mapM_mapError fun f => valueAt_withoutDoc owner era f

theorem providedAt_withoutDoc (era : Version) (fs : List Field) :
    providedAt era (fs.map Field.withoutDoc) = (providedAt era fs).map Field.withoutDoc := by
  unfold providedAt
  rw [List.filter_map]
  rfl

theorem eras_withoutDoc (fs : List Field) : eras (fs.map Field.withoutDoc) = eras fs := by
  unfold eras
  rw [List.map_map]
  rfl

theorem planAt_withoutDocs (owner : String) (inherited own : List Field) (era : Version) :
    planAt owner (inherited.map Field.withoutDoc) (own.map Field.withoutDoc) era =
      ConstructorPlan.withoutDocs <$>
        (planAt owner inherited own era).mapError MissingDefault.withoutDoc := by
  unfold planAt
  rw [mapM_valueAt_withoutDoc, mapM_valueAt_withoutDoc, ← List.map_append, providedAt_withoutDoc]
  cases inherited.mapM (valueAt owner era) with
  | error m => rfl
  | ok superValues =>
    cases own.mapM (valueAt owner era) with
    | error m => rfl
    | ok ownValues => rfl

/-- The plans for fields without documentation, or the default that is missing there. -/
theorem planConstructors_withoutDocs (owner : String) (inherited own : List Field) :
    planConstructors owner (inherited.map Field.withoutDoc) (own.map Field.withoutDoc) =
      List.map ConstructorPlan.withoutDocs <$>
        (planConstructors owner inherited own).mapError MissingDefault.withoutDoc := by
  unfold planConstructors
  rw [← List.map_append, List.isEmpty_map, eras_withoutDoc]
  split_ifs
  · rfl
  · exact Fallible.mapM_mapError fun era => planAt_withoutDocs owner inherited own era

/-! ## Source text -/

namespace Java

/-- The fragments of code of a unit. -/
def codeFragments (fragments : List Fragment) : List Fragment :=
  fragments.filter fun f => !f.isComment

@[simp] theorem codeFragments_append (fs gs : List Fragment) :
    codeFragments (fs ++ gs) = codeFragments fs ++ codeFragments gs :=
  List.filter_append ..

@[simp] theorem codeFragments_code (text : String) (fs : List Fragment) :
    codeFragments (.code text :: fs) = .code text :: codeFragments fs := rfl

@[simp] theorem codeFragments_nil : codeFragments [] = [] := rfl

@[simp] theorem ofDoc_none : Fragment.ofDoc none = [] := rfl

@[simp] theorem codeFragments_ofDoc (doc : Option String) :
    codeFragments (Fragment.ofDoc doc) = [] := by
  cases doc <;> rfl

@[simp] theorem codeFragments_map_code {α : Type} (f : α → String) (xs : List α) :
    codeFragments (xs.map fun x => .code (f x)) = xs.map fun x => .code (f x) := by
  simp [codeFragments, Fragment.isComment]

@[simp] theorem codeFragments_map (texts : List String) :
    codeFragments (texts.map .code) = texts.map .code :=
  codeFragments_map_code id texts

@[simp] theorem codeFragments_methodFragments (header : String) (body : List String) :
    codeFragments (methodFragments header body) = methodFragments header body := by
  simp [methodFragments]

theorem codeFragments_flatMap {α : Type} (f : α → List Fragment) (xs : List α) :
    codeFragments (xs.flatMap f) = xs.flatMap fun x => codeFragments (f x) := by
  simp [codeFragments, List.filter_flatMap]

def ClassUnit.withoutDocs (u : ClassUnit) : ClassUnit :=
  { u with
    heading := u.heading.withoutDoc
    fields := u.fields.map fun f => { f with doc := none }
    messages := u.messages.map fun m => { m with doc := none } }

/-- The source text of a class without documentation is the code of the class. -/
theorem fragments_withoutDocs (u : ClassUnit) :
    u.withoutDocs.fragments = codeFragments u.fragments := by
  have hheader : u.withoutDocs.header = u.header := rfl
  have hfields : u.withoutDocs.fields.flatMap (·.fragments) =
      codeFragments (u.fields.flatMap (·.fragments)) := by
    simp [ClassUnit.withoutDocs, codeFragments_flatMap, FieldDeclaration.fragments,
      List.flatMap_map]
  have hmessages : u.withoutDocs.messages.flatMap (·.fragments) =
      codeFragments (u.messages.flatMap (·.fragments)) := by
    simp [ClassUnit.withoutDocs, codeFragments_flatMap, AbstractMethod.fragments,
      List.flatMap_map]
  have hmembers : u.withoutDocs.memberFragments = codeFragments u.memberFragments := by
    rw [ClassUnit.memberFragments, hfields, hmessages]
    simp [ClassUnit.memberFragments, ClassUnit.withoutDocs, Heading.withoutDoc,
      codeFragments_flatMap, Constructor.fragments, Accessor.fragments, CopyMethod.fragments]
  rw [ClassUnit.fragments, hheader, hmembers]
  simp [ClassUnit.fragments, ClassUnit.withoutDocs, Heading.withoutDoc]

theorem enumFragments_withoutDocs (h : Heading) (vs : List EnumValue) :
    enumFragments h.withoutDoc (vs.map EnumValue.withoutDoc) =
      codeFragments (enumFragments h vs) := by
  have hvalues : valueFragments (vs.map EnumValue.withoutDoc) =
      codeFragments (valueFragments vs) := by
    induction vs using valueFragments.induct with
    | case1 => rfl
    | case2 v => simp [valueFragments, EnumValue.withoutDoc]
    | case3 v w r ih =>
      rw [List.map_cons] at ih
      simp [valueFragments, EnumValue.withoutDoc, ← ih]
  have hsection : valueSection (vs.map EnumValue.withoutDoc) = codeFragments (valueSection vs) := by
    unfold valueSection
    rw [List.isEmpty_map, hvalues]
    split_ifs <;> rfl
  rw [enumFragments, hsection]
  simp [enumFragments, Heading.withoutDoc]

theorem ofPlan_withoutDocs (c : Containers) (p : ConstructorPlan) :
    Constructor.ofPlan c p.withoutDocs = Constructor.ofPlan c p := by
  have hparameters (f : Field) : parameterOf c f.withoutDoc = parameterOf c f := rfl
  have hvalue (v : FieldValue) : valueExpression v.withoutDoc = valueExpression v := by
    cases v <;> rfl
  have hfield (v : FieldValue) : v.withoutDoc.field.name = v.field.name := by
    cases v <;> rfl
  simp [Constructor.ofPlan, ConstructorPlan.withoutDocs, Function.comp_def, hparameters, hvalue,
    hfield]

theorem hasLazyField_withoutDoc (fs : List Field) :
    hasLazyField (fs.map Field.withoutDoc) = hasLazyField fs := by
  simp [hasLazyField, Field.withoutDoc, Function.comp_def]

theorem equalsBody_withoutDoc (name : String) (fs : List Field) :
    equalsBody name (fs.map Field.withoutDoc) = equalsBody name fs := by
  unfold equalsBody comparison
  rw [hasLazyField_withoutDoc, List.map_map]
  rfl

theorem hashCodeBody_withoutDoc (fs : List Field) :
    hashCodeBody (fs.map Field.withoutDoc) = hashCodeBody fs := by
  unfold hashCodeBody hashExpression
  rw [hasLazyField_withoutDoc, List.foldl_map]
  rfl

theorem toStringBody_withoutDoc (name : String) (fs : List Field) :
    toStringBody name (fs.map Field.withoutDoc) = toStringBody name fs := by
  unfold toStringBody
  rw [hasLazyField_withoutDoc]
  cases fs with
  | nil => rfl
  | cons f r =>
    simp only [List.map_cons, List.map_map]
    rfl

theorem ofMessage_withoutDocs (c : Containers) (m : Message) :
    AbstractMethod.ofMessage c m.withoutDocs =
      { AbstractMethod.ofMessage c m with doc := none } := by
  have hlines : (m.parameters.map Parameter.withoutDoc).flatMap parameterDocLines = [] := by
    simp [List.flatMap_eq_nil_iff, parameterDocLines, docLines, Parameter.withoutDoc]
  have hdoc : messageDoc m.withoutDocs = none := by
    unfold messageDoc Message.withoutDocs
    rw [hlines]
    rfl
  rw [AbstractMethod.ofMessage, hdoc]
  simp [AbstractMethod.ofMessage, Message.withoutDocs, Parameter.withoutDoc, Function.comp_def]

/-- What the classes of records and protocols have in common is made without documentation. -/
theorem shared_withoutDocs (c : Containers) (h : Heading) (superclass : Option String)
    (visibility : String) (inherited own : List Field) (plans : List ConstructorPlan) :
    ClassUnit.shared c h.withoutDoc superclass visibility (inherited.map Field.withoutDoc)
        (own.map Field.withoutDoc) (plans.map ConstructorPlan.withoutDocs) =
      (ClassUnit.shared c h superclass visibility inherited own plans).withoutDocs := by
  have hconstructors : (plans.map ConstructorPlan.withoutDocs).map (Constructor.ofPlan c) =
      plans.map (Constructor.ofPlan c) := by
    simp [Function.comp_def, ofPlan_withoutDocs]
  unfold ClassUnit.shared
  rw [hconstructors, ← List.map_append, equalsBody_withoutDoc, hashCodeBody_withoutDoc,
    toStringBody_withoutDoc, List.map_map, List.map_map]
  simp only [ClassUnit.withoutDocs, List.map_map]
  rfl

theorem ofField_withoutDoc (c : Containers) (all : List Field) (f : Field) :
    CopyMethod.ofField c (all.map Field.withoutDoc) f.withoutDoc = CopyMethod.ofField c all f := by
  unfold CopyMethod.ofField
  rw [List.map_map]
  rfl

theorem ofRecord_withoutDocs (c : Containers) (superclass : Option String)
    (inherited : List Field) (h : Heading) (own : List Field) :
    ClassUnit.ofRecord c superclass (inherited.map Field.withoutDoc) h.withoutDoc
        (own.map Field.withoutDoc) =
      ClassUnit.withoutDocs <$>
        (ClassUnit.ofRecord c superclass inherited h own).mapError MissingDefault.withoutDoc := by
  have hcopies : ((inherited ++ own).map Field.withoutDoc).map
      (CopyMethod.ofField c ((inherited ++ own).map Field.withoutDoc)) =
      (inherited ++ own).map (CopyMethod.ofField c (inherited ++ own)) := by
    rw [List.map_map]
    exact List.map_congr_left fun f _ => ofField_withoutDoc c (inherited ++ own) f
  unfold ClassUnit.ofRecord
  rw [← List.map_append, hcopies]
  have hname : h.withoutDoc.name = h.name := rfl
  rw [hname, planConstructors_withoutDocs]
  cases planConstructors h.name inherited own with
  | error m => rfl
  | ok plans =>
    show Except.ok _ = Except.ok _
    rw [shared_withoutDocs]
    rfl

theorem ofProtocol_withoutDocs (c : Containers) (superclass : Option String)
    (inherited : List Field) (h : Heading) (own : List Field) (messages : List Message) :
    ClassUnit.ofProtocol c superclass (inherited.map Field.withoutDoc) h.withoutDoc
        (own.map Field.withoutDoc) (messages.map Message.withoutDocs) =
      ClassUnit.withoutDocs <$>
        (ClassUnit.ofProtocol c superclass inherited h own messages).mapError
          MissingDefault.withoutDoc := by
  have hmessages : (messages.map Message.withoutDocs).map (AbstractMethod.ofMessage c) =
      (messages.map (AbstractMethod.ofMessage c)).map fun m => { m with doc := none } := by
    simp [Function.comp_def, ofMessage_withoutDocs]
  have hname : h.withoutDoc.name = h.name := rfl
  unfold ClassUnit.ofProtocol
  rw [hmessages, hname, planConstructors_withoutDocs]
  cases planConstructors h.name inherited own with
  | error m => rfl
  | ok plans =>
    show Except.ok _ = Except.ok _
    rw [shared_withoutDocs]
    rfl

end Java

/-! ## Units -/

/-- The failure, where the field of a missing default is without documentation. -/
def GenerationFailure.withoutDocs : GenerationFailure → GenerationFailure
  | .error (.missingDefault m) => .error (.missingDefault m.withoutDoc)
  | e => e

namespace Generator

open Java

variable {g : Generator} {superclass : Option String} {inherited : List Field}

/-- The source text of a definition without documentation is the code of the definition. -/
theorem fragmentsOf_withoutDocs (d : Definition) :
    g.fragmentsOf superclass (inherited.map Field.withoutDoc) d.withoutDocs =
      codeFragments <$>
        (g.fragmentsOf superclass inherited d).mapError MissingDefault.withoutDoc := by
  cases d with
  | enumeration h vs =>
    rw [Definition.withoutDocs, fragmentsOf, enumFragments_withoutDocs]
    rfl
  | record h fs =>
    rw [Definition.withoutDocs, fragmentsOf, ofRecord_withoutDocs, fragmentsOf]
    cases ClassUnit.ofRecord g.containers superclass inherited h fs with
    | error m => rfl
    | ok u => exact congrArg Except.ok (fragments_withoutDocs u)
  | protocol h fs ms ds =>
    rw [Definition.withoutDocs, fragmentsOf, ofProtocol_withoutDocs, fragmentsOf]
    cases ClassUnit.ofProtocol g.containers superclass inherited h fs ms with
    | error m => rfl
    | ok u => exact congrArg Except.ok (fragments_withoutDocs u)

theorem merged_mapError (sofar units : Units String) :
    (merged sofar units).mapError GenerationFailure.withoutDocs = merged sofar units := by
  cases h : merged sofar units with
  | error e =>
    obtain ⟨n, rfl, -⟩ := merged_error h
    rfl
  | ok all => rfl

/-- The units of several definitions, if the units of each are such. -/
theorem unitsOfAll_withoutDocs (superclass : Option String) (inherited : List Field)
    {ds : List Definition}
    (h : ∀ d ∈ ds, g.unitsOf superclass (inherited.map Field.withoutDoc) d.withoutDocs =
      (g.unitsOf superclass inherited d).mapError GenerationFailure.withoutDocs)
    (sofar : Units String) :
    g.unitsOfAll superclass (inherited.map Field.withoutDoc) sofar (ds.map .withoutDocs) =
      (g.unitsOfAll superclass inherited sofar ds).mapError GenerationFailure.withoutDocs := by
  induction ds generalizing sofar with
  | nil => rfl
  | cons d r ih =>
    obtain ⟨hd, hr⟩ := List.forall_mem_cons.1 h
    rw [List.map_cons, unitsOfAll, hd, unitsOfAll]
    cases g.unitsOf superclass inherited d with
    | error e => rfl
    | ok units =>
      -- Merging fails at names only, and these are in no documentation.
      have hm := merged_mapError sofar units
      show (merged sofar units >>= _) = (merged sofar units >>= _).mapError _
      cases hall : merged sofar units with
      | error e =>
        rw [hall] at hm
        exact hm.symm
      | ok all => exact ih hr all

section Uncommented

variable (hc : g.settings.showsComments = false)
include hc

theorem unitText_codeFragments (fragments : List Fragment) :
    g.unitText (codeFragments fragments) = g.unitText fragments := by
  simp [unitText, unitLines, shown, hc, codeFragments]

theorem unitOf_withoutDocs (d : Definition) :
    g.unitOf superclass (inherited.map Field.withoutDoc) d.withoutDocs =
      (g.unitOf superclass inherited d).mapError GenerationFailure.withoutDocs := by
  unfold unitOf
  rw [fragmentsOf_withoutDocs, d.name_withoutDocs]
  cases g.fragmentsOf superclass inherited d with
  | error m => rfl
  | ok fragments =>
    show ((g.unitText (codeFragments fragments)).mapError _ >>= _) = _
    rw [unitText_codeFragments hc]
    show _ = ((g.unitText fragments).mapError _ >>= _).mapError _
    cases g.unitText fragments <;> rfl

/-- The units of a definition and of all below it are the same without documentation. -/
theorem unitsOf_withoutDocs (d : Definition) :
    g.unitsOf superclass (inherited.map Field.withoutDoc) d.withoutDocs =
      (g.unitsOf superclass inherited d).mapError GenerationFailure.withoutDocs := by
  induction d using Definition.induction generalizing superclass inherited with
  | step d ih =>
    have hown : g.unitOf superclass (inherited.map Field.withoutDoc) d.withoutDocs =
        (g.unitOf superclass inherited d).mapError GenerationFailure.withoutDocs :=
      unitOf_withoutDocs hc d
    cases d with
    | enumeration h vs => exact hown
    | record h fs => exact hown
    | protocol h fs ms ds =>
      rw [Definition.withoutDocs] at hown ⊢
      rw [unitsOf, hown, unitsOf]
      cases g.unitOf superclass inherited (.protocol h fs ms ds) with
      | error e => rfl
      | ok own =>
        rw [← List.map_append, Definition.withoutDocsAll_eq_map]
        exact unitsOfAll_withoutDocs _ _ (fun e he => ih e he) own

/-- A schema without documentation has the same units, or the same failure. -/
theorem generate_withoutDocs (s : Schema) :
    g.generate s.withoutDocs = (g.generate s).mapError GenerationFailure.withoutDocs := by
  have hall : g.unitsOfAll none [] [] s.withoutDocs.definitions =
      (g.unitsOfAll none [] [] s.definitions).mapError GenerationFailure.withoutDocs :=
    unitsOfAll_withoutDocs none [] (fun d _ => unitsOf_withoutDocs hc d) []
  rw [generate_eq_map, hall, generate_eq_map]
  cases g.unitsOfAll none [] [] s.definitions <;> rfl

end Uncommented

/--
Schemas that differ only in their documentation have the same units, or the same failure but for the
documentation of the field that lacks a default.
-/
theorem generate_undocumented (hc : g.settings.showsComments = false) {s t : Schema}
    (h : s.withoutDocs = t.withoutDocs) :
    (g.generate s).mapError GenerationFailure.withoutDocs =
      (g.generate t).mapError GenerationFailure.withoutDocs := by
  rw [← generate_withoutDocs hc, ← generate_withoutDocs hc, h]

end Generator

/-- The protocol with unbalanced braces in its documentation, documented anew. -/
def Definition.redocumented : Definition :=
  .protocol ⟨"P", none, []⟩
    [{ Field.ofInt "a" [0] none with doc := some "" }, .ofInt "b" [1] (some "1")]
    [⟨"m", ⟨"int", .single, false⟩, [⟨"x", ⟨"int", .repeated, false⟩, none⟩], some "\x7d"⟩] []

theorem Generator.generate_undocumented_documented :
    ∃ units, (counted 4).withoutComments.generate ⟨"n", [.documented]⟩ = .ok units ∧
      (counted 4).withoutComments.generate ⟨"n", [.redocumented]⟩ = .ok units := by
  have hi : (counted 4).withoutComments.settings.indent .ample = .ok "    " := rfl
  have hfits : (counted 4).withoutComments.FitsAll ⟨"n", [.documented]⟩ :=
    fitsAll_of_isPlain hi (by decide) (by decide) (by decide)
  obtain ⟨units, h⟩ := exists_generate (s := ⟨"n", [.documented]⟩) (by decide) (by decide)
    (by decide) hfits
  have hsame := generate_undocumented (g := (counted 4).withoutComments) rfl
    (s := ⟨"n", [.documented]⟩) (t := ⟨"n", [.redocumented]⟩) rfl
  rw [h] at hsame
  exact ⟨units, h, Fallible.mapError_ok hsame.symm⟩

end Typewright
