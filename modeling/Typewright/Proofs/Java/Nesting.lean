import Typewright.Proofs.Constructor.Plans
import Typewright.Proofs.Generation.Classes
import Typewright.Proofs.Identifier
import Typewright.Proofs.Java.Outline

/-!
# Nested classes

The members of a class are nested blocks at depth one: nothing that a name, a type, a default or a
comment holds opens or closes a block, as long as none but the comments have several lines.

- `Field.IsPlain`, `Message.IsPlain`, `Containers.IsPlain`: what stays in one line.
- `nested_equalsBody`, `nested_hashCodeBody`, `nested_toStringBody`: the structural methods.
- `nested_shared`: the members that all classes have.
- `nested_classOf`, `nested_enumOutline`: the units of plain definitions.
-/

namespace Typewright

open Text

/-- A field of which each part stays in one line, save the documentation. -/
structure Field.IsPlain (f : Field) : Prop where
  name : IsName f.name
  type : NoBreak f.type.name
  default : ∀ e ∈ f.default, NoBreak e

instance (f : Field) : Decidable f.IsPlain :=
  decidable_of_iff (IsName f.name ∧ NoBreak f.type.name ∧ ∀ e ∈ f.default, NoBreak e)
    ⟨fun ⟨hn, ht, hd⟩ => ⟨hn, ht, hd⟩, fun h => ⟨h.name, h.type, h.default⟩⟩

/-- A parameter of which each part stays in one line, save the documentation. -/
structure Parameter.IsPlain (p : Parameter) : Prop where
  name : IsName p.name
  type : NoBreak p.type.name
  doc : ∀ s ∈ p.doc, Java.IsDoc s

instance (p : Parameter) : Decidable p.IsPlain :=
  decidable_of_iff (IsName p.name ∧ NoBreak p.type.name ∧ ∀ s ∈ p.doc, Java.IsDoc s)
    ⟨fun ⟨hn, ht, hd⟩ => ⟨hn, ht, hd⟩, fun h => ⟨h.name, h.type, h.doc⟩⟩

/-- A value of an enumeration that stays in one line, save the documentation. -/
structure EnumValue.IsPlain (v : EnumValue) : Prop where
  name : IsName v.name
  doc : ∀ s ∈ v.doc, Java.IsDoc s

instance (v : EnumValue) : Decidable v.IsPlain :=
  decidable_of_iff (IsName v.name ∧ ∀ s ∈ v.doc, Java.IsDoc s)
    ⟨fun ⟨hn, hd⟩ => ⟨hn, hd⟩, fun h => ⟨h.name, h.doc⟩⟩

/-- A message of which each part stays in one line, save the documentation. -/
structure Message.IsPlain (m : Message) : Prop where
  name : IsName m.name
  response : NoBreak m.response.name
  parameters : ∀ p ∈ m.parameters, p.IsPlain
  doc : ∀ s ∈ m.doc, Java.IsDoc s

instance (m : Message) : Decidable m.IsPlain :=
  decidable_of_iff (IsName m.name ∧ NoBreak m.response.name ∧ (∀ p ∈ m.parameters, p.IsPlain) ∧
      ∀ s ∈ m.doc, Java.IsDoc s)
    ⟨fun ⟨hn, hr, hp, hd⟩ => ⟨hn, hr, hp, hd⟩, fun h => ⟨h.name, h.response, h.parameters, h.doc⟩⟩

namespace Java

/-- Containers that stay in one line. -/
structure Containers.IsPlain (c : Containers) : Prop where
  lazyType : NoBreak c.lazyType
  optionalType : NoBreak c.optionalType
  serializableType : NoBreak c.serializableType

instance (c : Containers) : Decidable c.IsPlain :=
  decidable_of_iff (NoBreak c.lazyType ∧ NoBreak c.optionalType ∧ NoBreak c.serializableType)
    ⟨fun ⟨hl, ho, hs⟩ => ⟨hl, ho, hs⟩,
      fun h => ⟨h.lazyType, h.optionalType, h.serializableType⟩⟩

variable {c : Containers} {comments : Bool} {memory : Text.Memory} {indent : String}

/-! ## Types -/

theorem noBreak_box {n : String} (h : NoBreak n) : NoBreak (box n) := by
  have hall : ∀ p ∈ primitives, NoBreak p.2 := by decide
  unfold box
  cases hl : primitives.lookup n with
  | none => exact h
  | some v =>
    obtain ⟨l₁, l₂, hp, -⟩ := List.lookup_eq_some_iff.1 hl
    exact hall (n, v) (by rw [hp]; simp)

theorem noBreak_accessorType (hc : c.IsPlain) {t : TypeRef} (h : NoBreak t.name) :
    NoBreak (t.accessorType c) := by
  unfold TypeRef.accessorType
  cases t.arity
  · exact h
  · simp only [noBreak_append_iff, h, true_and]; decide
  · simp only [noBreak_append_iff, hc.optionalType, noBreak_box h, true_and, and_true]; decide

theorem noBreak_storageType (hc : c.IsPlain) {t : TypeRef} (h : NoBreak t.name) :
    NoBreak (t.storageType c) := by
  have ha := noBreak_accessorType hc h
  unfold TypeRef.storageType TypeRef.boxedType
  split
  · simp only [noBreak_append_iff, hc.lazyType, noBreak_box ha, true_and, and_true]; decide
  · exact ha

/-! ## Fields and messages -/

theorem nested_field (hc : c.IsPlain) {f : Field} (hf : f.IsPlain) (hd : ∀ s ∈ f.doc, IsDoc s)
    {visibility : String} (hv : visibility = "private" ∨ visibility = "protected") :
    Nested comments memory indent 1
      (declarationParts (FieldDeclaration.ofField c visibility f).fragments) 1 := by
  have ht := noBreak_storageType hc hf.type
  refine nested_declarationParts hd (isLine_append 'p' ';' ?_ ?_ rfl (by decide))
  · rcases hv with rfl | rfl <;>
      simp only [FieldDeclaration.ofField, noBreak_append_iff, ht, hf.name.noBreak, and_true] <;>
      decide
  · rcases hv with rfl | rfl <;> simp [FieldDeclaration.ofField]

theorem noBreak_of_mem_docLines {doc : Option String} (h : ∀ s ∈ doc, IsDoc s) :
    ∀ line ∈ docLines doc, NoBreak line := by
  intro line hl
  unfold docLines at hl
  split at hl
  · cases hl
  · next s =>
    split at hl
    · cases hl
    · exact (h s rfl).noBreak_of_mem_splitAt hl

theorem noBreak_of_mem_parameterDocLines {p : Parameter} (hn : NoBreak p.name)
    (hd : ∀ s ∈ p.doc, IsDoc s) : ∀ line ∈ parameterDocLines p, NoBreak line := by
  intro line hl
  have hlines := noBreak_of_mem_docLines hd
  unfold parameterDocLines at hl
  split at hl
  · cases hl
  · next first rest hd =>
    rw [hd] at hlines
    obtain ⟨hfirst, hrest⟩ := List.forall_mem_cons.1 hlines
    rcases List.mem_cons.1 hl with rfl | hl
    · simp only [noBreak_append_iff, hn, hfirst, and_true]; decide
    · exact hrest line hl

theorem isDoc_join {lines : List String} (h : ∀ line ∈ lines, NoBreak line) :
    IsDoc (join "\n" lines) := by
  induction lines with
  | nil => simp [IsDoc]
  | cons s r ih =>
    obtain ⟨hs, hr⟩ := List.forall_mem_cons.1 h
    have hdoc : IsDoc s := fun c hc hb => by simp [hs c hc] at hb
    cases r with
    | nil => exact hdoc
    | cons t r =>
      intro c hc hb
      rw [join_cons_cons] at hc
      simp only [String.toList_append, List.mem_append] at hc
      rcases hc with (hc | hc) | hc
      · exact hdoc c hc hb
      · simpa using hc
      · exact ih hr c hc hb

theorem isDoc_messageDoc {m : Message} (hd : ∀ s ∈ m.doc, IsDoc s)
    (hp : ∀ p ∈ m.parameters, NoBreak p.name ∧ ∀ s ∈ p.doc, IsDoc s) :
    ∀ s ∈ messageDoc m, IsDoc s := by
  have hlines :
      ∀ line ∈ docLines m.doc ++ m.parameters.flatMap parameterDocLines, NoBreak line := by
    intro line hl
    rcases List.mem_append.1 hl with hl | hl
    · exact noBreak_of_mem_docLines hd line hl
    · obtain ⟨p, hmem, hl⟩ := List.mem_flatMap.1 hl
      exact noBreak_of_mem_parameterDocLines (hp p hmem).1 (hp p hmem).2 line hl
  intro s hs
  unfold messageDoc at hs
  split at hs
  · cases hs
  · obtain rfl := Option.some.inj hs
    exact isDoc_join hlines

theorem noBreak_bindingText {bs : List Binding} (h : ∀ b ∈ bs, NoBreak b.type ∧ NoBreak b.name) :
    NoBreak (bindingText bs) := by
  refine noBreak_join (by decide) fun s hs => ?_
  obtain ⟨b, hb, rfl⟩ := List.mem_map.1 hs
  simp only [Binding.text, noBreak_append_iff, h b hb, and_true, true_and]
  decide

theorem nested_message (hc : c.IsPlain) {m : Message} (h : m.IsPlain) :
    Nested comments memory indent 1
      (declarationParts (AbstractMethod.ofMessage c m).fragments) 1 := by
  have hp : NoBreak (bindingText (AbstractMethod.ofMessage c m).parameters) := by
    refine noBreak_bindingText fun b hb => ?_
    obtain ⟨p, hp, rfl⟩ := List.mem_map.1 hb
    have := h.parameters p hp
    exact ⟨noBreak_storageType hc this.type, this.name.noBreak⟩
  have hr := noBreak_storageType hc h.response
  have hn := h.name.noBreak
  have hd : ∀ s ∈ messageDoc m, IsDoc s :=
    isDoc_messageDoc h.doc fun p hp => ⟨(h.parameters p hp).name.noBreak, (h.parameters p hp).doc⟩
  refine nested_declarationParts hd (isLine_append 'p' ';' ?_ ?_ rfl (by decide))
  · simp only [noBreak_append_iff, hp, and_true]
    simp only [AbstractMethod.ofMessage, hr, hn, and_true]
    decide
  · simp

/-! ## Constructors and methods -/

theorem noBreak_argumentText {es : List Expression} (h : ∀ e ∈ es, NoBreak e.text) :
    NoBreak (argumentText es) := by
  refine noBreak_join (by decide) fun s hs => ?_
  obtain ⟨e, he, rfl⟩ := List.mem_map.1 hs
  exact h e he

theorem isLine_named {name rest : String} (hn : IsName name) (hr : NoBreak rest)
    (hb : rest.toList.getLast? = some ';') : IsLine (name ++ rest) false false := by
  obtain ⟨a, ha, hblank, hslash, hstar, hbrace⟩ := hn.exists_head
  have hsemicolon : isBlank ';' = false := by decide
  have hab : areEnds a ';' := by simp [areEnds, hblank, hslash, hstar, hsemicolon]
  have hline := isLine_append a ';' (noBreak_append_iff.2 ⟨hn.noBreak, hr⟩) ha hb hab
  rwa [beq_eq_false_iff_ne.2 hbrace] at hline

theorem noBreak_valueExpression {f : Field} (hf : f.IsPlain) (era : Version) :
    NoBreak (valueExpression (valueFor era f)).text := by
  unfold valueFor
  split
  · simp only [valueExpression, Expression.text, parameterName, noBreak_append_iff, hf.name.noBreak,
      and_true]
    decide
  · cases hd : f.default with
    | none => exact (by decide : NoBreak "")
    | some e => exact hf.default e hd

theorem isLine_assignment {f : Field} (hf : f.IsPlain) (era : Version) :
    IsLine (Assignment.text ⟨f.name, valueExpression (valueFor era f)⟩) false false := by
  have ht : Assignment.text ⟨f.name, valueExpression (valueFor era f)⟩ =
      f.name ++ (" = " ++ (valueExpression (valueFor era f)).text ++ ";") := by
    simp only [Assignment.text, String.append_assoc]
  rw [ht]
  refine isLine_named hf.name ?_ ?_
  · simp only [noBreak_append_iff, noBreak_valueExpression hf era, and_true]
    decide
  · rw [String.toList_append]
    exact List.getLast?_concat

section

variable {className : String} {inherited own : List Field}

theorem noBreak_parameters_planFor (hc : c.IsPlain) (hf : ∀ f ∈ inherited ++ own, f.IsPlain)
    (era : Version) :
    NoBreak (bindingText (Constructor.ofPlan c (planFor inherited own era)).parameters) := by
  refine noBreak_bindingText fun b hb => ?_
  obtain ⟨f, hmem, rfl⟩ := List.mem_map.1 hb
  have hplain := hf f (List.mem_of_mem_filter hmem)
  refine ⟨noBreak_storageType hc hplain.type, ?_⟩
  simp only [parameterOf, parameterName, noBreak_append_iff, hplain.name.noBreak, and_true]
  decide

theorem noBreak_superArguments_planFor (hf : ∀ f ∈ inherited ++ own, f.IsPlain)
    (era : Version) :
    NoBreak (argumentText (Constructor.ofPlan c (planFor inherited own era)).superArguments) := by
  refine noBreak_argumentText fun e he => ?_
  simp only [Constructor.ofPlan, planFor, List.map_map, List.mem_map] at he
  obtain ⟨f, hmem, rfl⟩ := he
  exact noBreak_valueExpression (hf f (List.mem_append_left own hmem)) era

theorem isLine_of_mem_assignments_planFor (hf : ∀ f ∈ inherited ++ own, f.IsPlain)
    {era : Version} {a : Assignment}
    (ha : a ∈ (Constructor.ofPlan c (planFor inherited own era)).assignments) :
    IsLine a.text false false := by
  simp only [Constructor.ofPlan, planFor, List.map_map, List.mem_map] at ha
  obtain ⟨f, hmem, rfl⟩ := ha
  simpa using isLine_assignment (hf f (List.mem_append_right inherited hmem)) era

theorem nested_constructor (hc : c.IsPlain) (hn : IsName className)
    (hf : ∀ f ∈ inherited ++ own, f.IsPlain) {plans : List ConstructorPlan}
    (hp : planConstructors className inherited own = .ok plans) {p : ConstructorPlan}
    (hmem : p ∈ plans) :
    Nested comments memory indent 1
      (memberParts ((Constructor.ofPlan c p).fragments className)) 1 := by
  obtain ⟨era, -, hera, -⟩ := exists_era_of_mem hp hmem
  have hplan : Constructor.ofPlan c p = .ofPlan c (planFor inherited own era) := by rw [hera]; rfl
  rw [hplan]
  generalize hk : Constructor.ofPlan c (planFor inherited own era) = k
  have hheader : IsLine ("public " ++ className ++ "(" ++ bindingText k.parameters ++ ") \x7b")
      true false := by
    refine isLine_append 'p' '\x7b' ?_ (by simp) rfl (by decide)
    simp only [noBreak_append_iff, hn.noBreak, ← hk, noBreak_parameters_planFor hc hf, and_true]
    decide
  have hcall : IsLine ("super(" ++ argumentText k.superArguments ++ ");") false false := by
    refine isLine_append 's' ';' ?_ (by simp) rfl (by decide)
    simp only [noBreak_append_iff, ← hk, noBreak_superArguments_planFor hf, and_true]
    decide
  have hfragments : k.fragments className =
      .code ("public " ++ className ++ "(" ++ bindingText k.parameters ++ ") \x7b") ::
        (("super(" ++ argumentText k.superArguments ++ ");") ::
          k.assignments.map Assignment.text).map .code ++ [.code "\x7d"] := by
    simp [Constructor.fragments, Function.comp_def]
  rw [hfragments]
  refine nested_memberParts hheader (nested_bodyParts ?_)
  refine List.forall_mem_cons.2 ⟨hcall, List.forall_mem_map.2 fun a ha => ?_⟩
  exact isLine_of_mem_assignments_planFor hf (hk ▸ ha)

theorem nested_statement {s : String} (h : IsLine s false false) :
    Nested comments memory indent 2 (bodyParts [s]) 2 :=
  nested_simple h ⟨Nat.le_refl 2, Nat.le_succ 2⟩

theorem nested_method {header statement : String} (hh : IsLine header true false)
    (hs : IsLine statement false false) :
    Nested comments memory indent 1
      (memberParts [.code header, .code statement, .code "\x7d"]) 1 :=
  nested_memberParts hh (nested_statement hs)

theorem nested_accessor (hc : c.IsPlain) {f : Field} (hf : f.IsPlain) :
    Nested comments memory indent 1 (memberParts (Accessor.ofField c f).fragments) 1 := by
  have ht := noBreak_accessorType hc hf.type
  have hn := hf.name.noBreak
  refine nested_method (isLine_append 'p' '\x7b' ?_ (by simp) rfl (by decide))
    (isLine_append 'r' ';' ?_ (by simp) rfl (by decide))
  · simp only [Accessor.ofField, noBreak_append_iff, ht, hn, and_true]
    decide
  · unfold Accessor.ofField
    split <;> simp only [Expression.text, noBreak_append_iff, hn, and_true] <;> decide

theorem nested_copyMethod (hc : c.IsPlain) (hn : IsName className) {all : List Field}
    (hall : ∀ f ∈ all, f.IsPlain) {f : Field} (hf : f.IsPlain) :
    Nested comments memory indent 1
      (memberParts ((CopyMethod.ofField c all f).fragments className)) 1 := by
  have ht := noBreak_storageType hc hf.type
  have hargs : NoBreak (argumentText (CopyMethod.ofField c all f).arguments) := by
    refine noBreak_argumentText fun e he => ?_
    obtain ⟨x, hx, rfl⟩ := List.mem_map.1 he
    have hx := (hall x hx).name.noBreak
    split <;> simp only [Expression.text, noBreak_append_iff, hx, and_true]
    decide
  refine nested_method (isLine_append 'p' '\x7b' ?_ (by simp) rfl (by decide))
    (isLine_append 'r' ';' ?_ (by simp) rfl (by decide))
  · simp only [CopyMethod.ofField, noBreak_append_iff, ht, hn.noBreak, hf.name.noBreak,
      hf.name.noBreak_upperFirst, and_true]
    decide
  · simp only [noBreak_append_iff, hn.noBreak, hargs, and_true]
    decide

/-! ## Structural methods -/

theorem noBreak_arraysMethod {name : String} (h : NoBreak name) : NoBreak (arraysMethod name) :=
  noBreak_append_iff.2 ⟨noBreak_ofList (by decide), h⟩

theorem noBreak_testText {fs : List Field} (hf : ∀ f ∈ fs, f.IsPlain) :
    NoBreak (testText (comparison fs)) := by
  have htests : ∀ t ∈ (comparison fs).map Test.text, NoBreak t := by
    intro t ht
    simp only [comparison, List.map_map, List.mem_map] at ht
    obtain ⟨f, hmem, rfl⟩ := ht
    have hn := (hf f hmem).name.noBreak
    have hequal : NoBreak (arraysMethod "equals") := noBreak_arraysMethod (by decide)
    have hdeep : NoBreak (arraysMethod "deepEquals") := noBreak_arraysMethod (by decide)
    simp only [Function.comp_apply, fieldEquality]
    split <;>
      simp only [Test.text, Call.text, noBreak_append_iff, hn, hequal, hdeep, and_true,
        true_and] <;>
      decide
  unfold testText
  split
  · decide
  · exact noBreak_join (by decide) htests

theorem noBreak_hashExpression {fs : List Field} (hf : ∀ f ∈ fs, f.IsPlain) :
    NoBreak (hashExpression fs).text := by
  have hfold {sum : HashTerm} (hs : NoBreak sum.text) :
      NoBreak (fs.foldl (fun sum f => .mixed sum (fieldHash f)) sum).text := by
    induction fs generalizing sum with
    | nil => exact hs
    | cons f r ih =>
      obtain ⟨hplain, hr⟩ := List.forall_mem_cons.1 hf
      have hn := hplain.name.noBreak
      have hhash : NoBreak (arraysMethod "hashCode") := noBreak_arraysMethod (by decide)
      have hdeep : NoBreak (arraysMethod "deepHashCode") := noBreak_arraysMethod (by decide)
      have hh : NoBreak (fieldHash f).text := by
        unfold fieldHash
        split <;>
          simp only [HashTerm.text, noBreak_append_iff, hn, hhash, hdeep, noBreak_box hplain.type,
            and_true, true_and] <;>
          decide
      refine ih hr ?_
      simp only [HashTerm.text, noBreak_append_iff, hs, hh, and_true]
      decide
  exact hfold (by decide)

/-- Each branch of the comparison stands further in than the lines around it. -/
theorem nested_equalsBody (hn : IsName className) {fs : List Field} (hf : ∀ f ∈ fs, f.IsPlain) :
    Nested comments memory indent 2 (bodyParts (equalsBody className fs)) 2 := by
  unfold equalsBody
  split
  · exact nested_statement (isLine_ofList 'r' '.' (by decide) rfl rfl (by decide))
  -- the branches one after another, each piece with the level that it leaves to the next
  have hclass := hn.noBreak
  have hif : Nested comments memory indent 2 (bodyParts ["if (this == obj) \x7b"]) 3 :=
    nested_opening (isLine_ofList 'i' '\x7b' (by decide) rfl rfl (by decide))
      ⟨Nat.le_refl 2, Nat.le_succ 2⟩
  have htrue : Nested comments memory indent 3 (bodyParts ["return true;"]) 3 :=
    nested_simple (isLine_ofList 'r' ';' (by decide) rfl rfl (by decide))
      ⟨Nat.le_succ 2, Nat.le_refl 3⟩
  have hother : Nested comments memory indent 3
      (bodyParts ["\x7d else if (!(obj instanceof " ++ className ++ ")) \x7b"]) 3 := by
    refine nested_turning (isLine_append '\x7d' '\x7b' ?_ (by simp) rfl (by decide))
      ⟨Nat.le_refl 2, Nat.le_succ 2⟩
    simp only [noBreak_append_iff, hclass, and_true]
    exact ⟨noBreak_ofList (by decide), by decide⟩
  have hfalse : Nested comments memory indent 3 (bodyParts ["return false;"]) 3 :=
    nested_simple (isLine_ofList 'r' ';' (by decide) rfl rfl (by decide))
      ⟨Nat.le_succ 2, Nat.le_refl 3⟩
  have helse : Nested comments memory indent 3 (bodyParts ["\x7d else \x7b"]) 3 :=
    nested_turning (isLine_ofList '\x7d' '\x7b' (by decide) rfl rfl (by decide))
      ⟨Nat.le_refl 2, Nat.le_succ 2⟩
  have hcast : Nested comments memory indent 3
      (bodyParts [className ++ " o = (" ++ className ++ ")obj;"]) 3 := by
    have ht : className ++ " o = (" ++ className ++ ")obj;" =
        className ++ (" o = (" ++ className ++ ")obj;") := by
      simp only [String.append_assoc]
    rw [ht]
    refine nested_simple (isLine_named hn ?_ ?_) ⟨Nat.le_succ 2, Nat.le_refl 3⟩
    · simp only [noBreak_append_iff, hclass, and_true]
      decide
    · rw [String.toList_append, List.getLast?_append]
      rfl
  have hreturn : Nested comments memory indent 3
      (bodyParts ["return " ++ testText (comparison fs) ++ ";"]) 3 := by
    refine nested_simple (isLine_append 'r' ';' ?_ (by simp) rfl (by decide))
      ⟨Nat.le_succ 2, Nat.le_refl 3⟩
    simp only [noBreak_append_iff, noBreak_testText hf, and_true]
    decide
  have hend : Nested comments memory indent 3 (bodyParts ["\x7d"]) 2 :=
    nested_closing isLine_closingBrace ⟨Nat.le_refl 2, Nat.le_succ 2⟩
  exact hif.append (htrue.append (hother.append (hfalse.append (helse.append (hcast.append
    (hreturn.append hend))))))

/-- The line of a fallback, which is written in two pieces. -/
theorem nested_fallback {cs ds : List Char} (hc : cs.all fun c => !isLineBreak c)
    (hd : ds.all fun c => !isLineBreak c) (ha : cs.head? = some 'r') (hb : ds.getLast? = some '.') :
    Nested comments memory indent 2 (bodyParts [.ofList cs ++ .ofList ds]) 2 := by
  have hn := noBreak_append_iff.2 ⟨noBreak_ofList hc, noBreak_ofList hd⟩
  refine nested_statement (isLine_append 'r' '.' hn ?_ ?_ (by decide))
  · rw [String.toList_ofList, ha]
  · rw [String.toList_ofList, hb]

theorem nested_hashCodeBody {fs : List Field} (hf : ∀ f ∈ fs, f.IsPlain) :
    Nested comments memory indent 2 (bodyParts (hashCodeBody fs)) 2 := by
  unfold hashCodeBody
  split
  · exact nested_fallback (by decide) (by decide) rfl rfl
  · refine nested_statement (isLine_append 'r' ';' ?_ (by simp) rfl (by decide))
    simp only [noBreak_append_iff, noBreak_hashExpression hf, and_true]
    decide

theorem nested_toStringBody (hn : IsName className) {fs : List Field}
    (hf : ∀ f ∈ fs, f.IsPlain) :
    Nested comments memory indent 2 (bodyParts (toStringBody className fs)) 2 := by
  have hclass := hn.noBreak
  unfold toStringBody
  split
  · exact nested_fallback (by decide) (by decide) rfl rfl
  split
  · refine nested_statement (isLine_append 'r' ';' ?_ (by simp) rfl (by decide))
    simp only [noBreak_append_iff, hclass, and_true]
    decide
  · have hfields : ∀ t ∈ fs.map fieldText, NoBreak t := by
      intro t ht
      obtain ⟨f, hmem, rfl⟩ := List.mem_map.1 ht
      simp only [fieldText, noBreak_append_iff, (hf f hmem).name.noBreak, and_true]
      decide
    have hjoin : NoBreak (join " + \", \" + " (fs.map fieldText)) :=
      noBreak_join (by decide) hfields
    refine nested_statement (isLine_append 'r' ';' ?_ (by simp) rfl (by decide))
    simp only [noBreak_append_iff, hclass, hjoin, and_true]
    decide

end

/-! ## Classes -/

theorem isLine_header {u : ClassUnit} (hn : IsName u.heading.name)
    (hm : u.modifier = "final" ∨ u.modifier = "abstract")
    (hp : ∀ p ∈ u.superclass, IsName p) (hs : NoBreak u.serializableType) :
    IsLine u.header true false := by
  have hancestry : NoBreak u.ancestry := by
    unfold ClassUnit.ancestry
    split
    · simp only [noBreak_append_iff, hs, and_true]; decide
    · simp only [noBreak_append_iff, hs, and_true]; decide
    · next p _ heq =>
      simp only [noBreak_append_iff, (hp p heq).noBreak, and_true]; decide
  unfold ClassUnit.header
  refine isLine_append 'p' '\x7b' ?_ (by simp) rfl (by decide)
  rcases hm with hm | hm <;> rw [hm] <;>
    simp only [noBreak_append_iff, hn.noBreak, hancestry, and_true] <;> decide

theorem nested_methodFragments {cs : List Char} (h : cs.all fun c => !isLineBreak c)
    (hp : cs.head? = some 'p') {body : List String}
    (hb : Nested comments memory indent 2 (bodyParts body) 2) :
    Nested comments memory indent 1 (memberParts (methodFragments (.ofList cs) body)) 1 := by
  refine nested_memberParts (isLine_append 'p' '\x7b' ?_ ?_ rfl (by decide)) hb
  · exact noBreak_append_iff.2 ⟨noBreak_ofList h, by decide⟩
  · rw [String.toList_ofList, hp]

theorem nested_outline {u : ClassUnit} (hd : ∀ s ∈ u.heading.doc, IsDoc s)
    (hextra : u.heading.extra = []) (hheader : IsLine u.header true false)
    (hfields : ∀ f ∈ u.fields, Nested comments memory indent 1 (declarationParts f.fragments) 1)
    (hconstructors : ∀ k ∈ u.constructors,
      Nested comments memory indent 1 (memberParts (k.fragments u.heading.name)) 1)
    (haccessors : ∀ a ∈ u.accessors, Nested comments memory indent 1 (memberParts a.fragments) 1)
    (hmessages : ∀ m ∈ u.messages, Nested comments memory indent 1 (declarationParts m.fragments) 1)
    (hcopies : ∀ m ∈ u.copyMethods,
      Nested comments memory indent 1 (memberParts (m.fragments u.heading.name)) 1)
    (hequals : Nested comments memory indent 2 (bodyParts u.equalsBody) 2)
    (hhash : Nested comments memory indent 2 (bodyParts u.hashCodeBody) 2)
    (htext : Nested comments memory indent 2 (bodyParts u.toStringBody) 2) :
    Nested comments memory indent 0 u.outline 0 := by
  have hopen : Nested comments memory indent 0 [(.classHeader, .code u.header)] 1 :=
    nested_opening hheader rfl
  have hend : Nested comments memory indent 1 [(.classEnd, .code "\x7d")] 0 :=
    nested_closing isLine_closingBrace rfl
  have hequals : Nested comments memory indent 1
      (memberParts (methodFragments "public boolean equals(Object obj)" u.equalsBody)) 1 :=
    nested_methodFragments (by decide) rfl hequals
  have hhash : Nested comments memory indent 1
      (memberParts (methodFragments "public int hashCode()" u.hashCodeBody)) 1 :=
    nested_methodFragments (by decide) rfl hhash
  have htext : Nested comments memory indent 1
      (memberParts (methodFragments "public String toString()" u.toStringBody)) 1 :=
    nested_methodFragments (by decide) rfl htext
  -- every section of members starts and ends one level in
  have hmembers := (((((((nested_flatMap hfields).append (nested_flatMap hconstructors)).append
    (nested_flatMap haccessors)).append (nested_flatMap hmessages)).append
    (nested_flatMap hcopies)).append hequals).append hhash).append htext
  rw [ClassUnit.outline, hextra]
  exact (((nested_ofDoc hd (Nat.zero_le 1)).append hopen).append hmembers).append hend

end Java

/-! ## Definitions -/

/--
A definition of which each part stays in one line, save the documentation; so do the superclass and
the fields that it inherits. It has no lines to copy.
-/
structure Definition.IsPlain (superclass : Option String) (inherited : List Field)
    (d : Definition) : Prop where
  name : IsName d.name
  superclass : ∀ p ∈ superclass, IsName p
  fields : ∀ f ∈ inherited ++ d.fields, f.IsPlain
  messages : ∀ m ∈ d.messages, m.IsPlain
  doc : ∀ s ∈ d.heading.doc, Java.IsDoc s
  fieldDocs : ∀ f ∈ d.fields, ∀ s ∈ f.doc, Java.IsDoc s
  extra : d.heading.extra = []

instance (superclass : Option String) (inherited : List Field) (d : Definition) :
    Decidable (d.IsPlain superclass inherited) :=
  decidable_of_iff (IsName d.name ∧ (∀ p ∈ superclass, IsName p) ∧
      (∀ f ∈ inherited ++ d.fields, f.IsPlain) ∧ (∀ m ∈ d.messages, m.IsPlain) ∧
      (∀ s ∈ d.heading.doc, Java.IsDoc s) ∧ (∀ f ∈ d.fields, ∀ s ∈ f.doc, Java.IsDoc s) ∧
      d.heading.extra = [])
    ⟨fun ⟨hn, hs, hf, hm, hd, hfd, he⟩ => ⟨hn, hs, hf, hm, hd, hfd, he⟩,
      fun h => ⟨h.name, h.superclass, h.fields, h.messages, h.doc, h.fieldDocs, h.extra⟩⟩

namespace Java

variable {c : Containers} {comments : Bool} {memory : Text.Memory} {indent : String}
  {superclass : Option String} {inherited : List Field} {d : Definition}

/-- What the classes of records and protocols have in common is nested. -/
theorem nested_shared (hc : c.IsPlain) (hd : d.IsPlain superclass inherited)
    {plans : List ConstructorPlan} (hp : planConstructors d.name inherited d.fields = .ok plans)
    {visibility modifier : String} (hv : visibility = "private" ∨ visibility = "protected")
    (hm : modifier = "final" ∨ modifier = "abstract") {messages : List AbstractMethod}
    (hmessages : ∀ m ∈ messages, Nested comments memory indent 1 (declarationParts m.fragments) 1)
    {copies : List CopyMethod}
    (hcopies : ∀ m ∈ copies, Nested comments memory indent 1 (memberParts (m.fragments d.name)) 1) :
    Nested comments memory indent 0
      ({ ClassUnit.shared c d.heading superclass visibility inherited d.fields plans with
        modifier := modifier, messages := messages,
        copyMethods := copies } : ClassUnit).outline 0 := by
  have hown : ∀ f ∈ d.fields, f.IsPlain := fun f hf => hd.fields f (List.mem_append_right _ hf)
  refine nested_outline hd.doc hd.extra
    (isLine_header hd.name hm hd.superclass hc.serializableType) ?_ ?_ ?_ hmessages hcopies
    (nested_equalsBody hd.name hd.fields) (nested_hashCodeBody hd.fields)
    (nested_toStringBody hd.name hd.fields)
  · intro x hx
    obtain ⟨f, hf, rfl⟩ := List.mem_map.1 hx
    exact nested_field hc (hown f hf) (hd.fieldDocs f hf) hv
  · intro x hx
    obtain ⟨p, hmem, rfl⟩ := List.mem_map.1 hx
    exact nested_constructor hc hd.name hd.fields hp hmem
  · intro x hx
    obtain ⟨f, hf, rfl⟩ := List.mem_map.1 hx
    exact nested_accessor hc (hown f hf)

/-- The class of a plain definition is nested. -/
theorem nested_classOf (hc : c.IsPlain) (hd : d.IsPlain superclass inherited) {u : ClassUnit}
    (hu : classOf c superclass inherited d = some (.ok u)) :
    Nested comments memory indent 0 u.outline 0 := by
  cases d with
  | enumeration h vs => cases hu
  | record h own =>
    obtain ⟨plans, hp, hu⟩ := Fallible.bind_ok (Option.some.inj hu)
    obtain rfl := Except.ok.inj hu
    refine nested_shared hc hd hp (.inl rfl) (.inl rfl) (by simp [ClassUnit.shared]) ?_
    intro x hx
    obtain ⟨f, hf, rfl⟩ := List.mem_map.1 hx
    exact nested_copyMethod hc hd.name hd.fields (hd.fields f hf)
  | protocol h own ms ds =>
    obtain ⟨plans, hp, hu⟩ := Fallible.bind_ok (Option.some.inj hu)
    obtain rfl := Except.ok.inj hu
    refine nested_shared hc hd hp (.inr rfl) (.inr rfl) ?_ (by simp [ClassUnit.shared])
    intro x hx
    obtain ⟨m, hmem, rfl⟩ := List.mem_map.1 hx
    exact nested_message hc (hd.messages m hmem)

/-- A value with the mark after it, which is a comma or the semicolon after the last. -/
theorem nested_value {v : EnumValue} (hv : v.IsPlain) {mark : String}
    (hm : mark = "," ∨ mark = ";") :
    Nested comments memory indent 1
      (declarationParts (Fragment.ofDoc v.doc ++ [.code (v.name ++ mark)])) 1 := by
  obtain ⟨a, ha, hblank, hslash, hstar, hbrace⟩ := hv.name.exists_head
  have hn := hv.name.noBreak
  have hline : ∀ b, mark.toList.getLast? = some b → isBlank b = false → NoBreak mark →
      IsLine (v.name ++ mark) (b == '\x7b') false := by
    intro b hb hnb hmark
    have hab : areEnds a b := by simp [areEnds, hblank, hslash, hstar, hnb]
    have hends := isLine_append a b (noBreak_append_iff.2 ⟨hn, hmark⟩) ha hb hab
    rwa [beq_eq_false_iff_ne.2 hbrace] at hends
  refine nested_declarationParts hv.doc ?_
  rcases hm with rfl | rfl
  · exact hline ',' rfl (by decide) (by decide)
  · exact hline ';' rfl (by decide) (by decide)

theorem nested_valueFragments {vs : List EnumValue} (hv : ∀ v ∈ vs, v.IsPlain) :
    Nested comments memory indent 1 (declarationParts (valueFragments vs)) 1 := by
  induction vs with
  | nil => exact nested_nil
  | cons v r ih =>
    obtain ⟨hfirst, hr⟩ := List.forall_mem_cons.1 hv
    cases r with
    | nil => exact nested_value hfirst (.inr rfl)
    | cons w r =>
      have hparts : declarationParts (valueFragments (v :: w :: r)) =
          declarationParts (Fragment.ofDoc v.doc ++ [.code (v.name ++ ",")]) ++
            declarationParts (valueFragments (w :: r)) := by
        simp [valueFragments, declarationParts]
      rw [hparts]
      exact (nested_value hfirst (.inl rfl)).append (ih hr)

/-- The text of a plain enumeration is nested. -/
theorem nested_enumOutline {h : Heading} {vs : List EnumValue} (hn : IsName h.name)
    (hd : ∀ s ∈ h.doc, IsDoc s) (hextra : h.extra = []) (hv : ∀ v ∈ vs, v.IsPlain) :
    Nested comments memory indent 0 (enumOutline h vs) 0 := by
  have hheader : IsLine ("public enum " ++ h.name ++ " \x7b") true false := by
    refine isLine_append 'p' '\x7b' ?_ (by simp) rfl (by decide)
    simp only [noBreak_append_iff, hn.noBreak, and_true]
    decide
  have hopen : Nested comments memory indent 0
      [(.classHeader, .code ("public enum " ++ h.name ++ " \x7b"))] 1 :=
    nested_opening hheader rfl
  have hend : Nested comments memory indent 1 [(.classEnd, .code "\x7d")] 0 :=
    nested_closing isLine_closingBrace rfl
  have hvalues : Nested comments memory indent 1 (declarationParts (valueSection vs)) 1 := by
    unfold valueSection
    split
    · exact nested_simple (isLine_ofList ';' ';' (by decide) rfl rfl (by decide)) rfl
    · exact nested_valueFragments hv
  have hall := (((nested_ofDoc hd (Nat.zero_le 1)).append hopen).append hvalues).append hend
  rw [enumOutline, hextra]
  simpa using hall

end Java

end Typewright
