import Typewright.Proofs.Schema.Grammar
import Typewright.Proofs.TypeRef
import Typewright.Proofs.Version.Order

/-!
# Schemas that are read

What is read from a document is well formed, however deep it is: names are there, types are such as
can be spelled and versions have no negative numbers. Of the values of enumerations this holds as
long as none of them is given by an empty text.

- `Definition.IsWellFormed`, `Schema.IsWellFormed`: the parts of a definition, and a schema of such
  definitions.
- `Definition.everywhere_isWellFormed`: reading gives well-formed definitions.
- `Schema.isWellFormed_of_read`: reading gives a well-formed schema, and one whose values all have
  names exactly if the document names them all.
-/

namespace Typewright

/-! ## Well-formed parts -/

/--
A field with a name, a proper type and a version without negative numbers. That a version has no
zeros at its end and a type is not both repeated and optional is part of what these are.
-/
structure Field.IsWellFormed (f : Field) : Prop where
  name_ne : f.name ≠ ""
  type : f.type.IsProper
  since : f.since.IsNonneg

/-- An argument with a name and a proper type. -/
structure Parameter.IsWellFormed (p : Parameter) : Prop where
  name_ne : p.name ≠ ""
  type : p.type.IsProper

/-- A message with a name and a proper response, and with such arguments. -/
structure Message.IsWellFormed (m : Message) : Prop where
  name_ne : m.name ≠ ""
  response : m.response.IsProper
  parameters : ∀ p ∈ m.parameters, p.IsWellFormed

/-- A definition with a name, and with such fields and messages. -/
structure Definition.IsWellFormed (d : Definition) : Prop where
  name_ne : d.name ≠ ""
  fields : ∀ f ∈ d.fields, f.IsWellFormed
  messages : ∀ m ∈ d.messages, m.IsWellFormed

/-- The values of a definition have names. -/
def Definition.ValuesNamed (d : Definition) : Prop :=
  ∀ v ∈ d.values, v.name ≠ ""

namespace Schema

/-- A schema with a namespace, and with well-formed definitions at all depths. -/
structure IsWellFormed (s : Schema) : Prop where
  space_ne : s.space ≠ ""
  definitions : ∀ w ∈ s.walk, w.1.IsWellFormed

/-- The values of all enumerations of the schema have names. -/
def ValuesNamed (s : Schema) : Prop :=
  ∀ w ∈ s.walk, w.1.ValuesNamed

/-- No version in the schema has negative numbers. -/
def IsNonneg (s : Schema) : Prop :=
  ∀ w ∈ s.walk, ∀ f ∈ w.1.fields, f.since.IsNonneg

end Schema

instance (f : Field) : Decidable f.IsWellFormed :=
  decidable_of_iff (f.name ≠ "" ∧ f.type.IsProper ∧ f.since.IsNonneg)
    ⟨fun ⟨h, ht, hs⟩ => ⟨h, ht, hs⟩, fun ⟨h, ht, hs⟩ => ⟨h, ht, hs⟩⟩

instance (p : Parameter) : Decidable p.IsWellFormed :=
  decidable_of_iff (p.name ≠ "" ∧ p.type.IsProper) ⟨fun ⟨h, ht⟩ => ⟨h, ht⟩, fun ⟨h, ht⟩ => ⟨h, ht⟩⟩

instance (m : Message) : Decidable m.IsWellFormed :=
  decidable_of_iff (m.name ≠ "" ∧ m.response.IsProper ∧ ∀ p ∈ m.parameters, p.IsWellFormed)
    ⟨fun ⟨h, hr, hp⟩ => ⟨h, hr, hp⟩, fun ⟨h, hr, hp⟩ => ⟨h, hr, hp⟩⟩

instance (d : Definition) : Decidable d.IsWellFormed :=
  decidable_of_iff
    (d.name ≠ "" ∧ (∀ f ∈ d.fields, f.IsWellFormed) ∧ ∀ m ∈ d.messages, m.IsWellFormed)
    ⟨fun ⟨h, hf, hm⟩ => ⟨h, hf, hm⟩, fun ⟨h, hf, hm⟩ => ⟨h, hf, hm⟩⟩

instance (d : Definition) : Decidable d.ValuesNamed :=
  inferInstanceAs (Decidable (∀ v ∈ d.values, _))

instance (s : Schema) : Decidable s.IsWellFormed :=
  decidable_of_iff (s.space ≠ "" ∧ ∀ w ∈ s.walk, w.1.IsWellFormed)
    ⟨fun ⟨h, hd⟩ => ⟨h, hd⟩, fun ⟨h, hd⟩ => ⟨h, hd⟩⟩

instance (s : Schema) : Decidable s.ValuesNamed :=
  inferInstanceAs (Decidable (∀ w ∈ s.walk, _))

instance (s : Schema) : Decidable s.IsNonneg :=
  inferInstanceAs (Decidable (∀ w ∈ s.walk, _))

/-! ## What is read -/

theorem TypeRef.isProper_of_ofJson {j : Json} {t : TypeRef} (h : TypeRef.ofJson j = .ok t) :
    t.IsProper := by
  unfold TypeRef.ofJson at h
  split at h
  · split at h
    · next ht =>
      obtain rfl := Except.ok.inj h
      exact isProper_of_ofText? ht
    · cases h
  · cases h

variable {owner : String} {j : Json}

theorem Field.isWellFormed_of_ofJson {f : Field} (h : Field.ofJson owner j = .ok f) :
    f.IsWellFormed := by
  obtain ⟨ms, -, hf⟩ := Field.ofJson_ok_iff.1 h
  obtain ⟨type, -, ht⟩ := hf.type
  exact ⟨hf.name.2, TypeRef.isProper_of_ofJson ht, Version.isNonneg_of_ofJson hf.since⟩

theorem Parameter.isWellFormed_of_ofJson {message : String} {p : Parameter}
    (h : Parameter.ofJson owner message j = .ok p) : p.IsWellFormed := by
  obtain ⟨ms, -, hp⟩ := Parameter.ofJson_ok_iff.1 h
  obtain ⟨type, -, ht⟩ := hp.type
  exact ⟨hp.name.2, TypeRef.isProper_of_ofJson ht⟩

theorem Message.isWellFormed_of_ofJson {m : Message} (h : Message.ofJson owner j = .ok m) :
    m.IsWellFormed := by
  obtain ⟨ms, -, hm⟩ := Message.ofJson_ok_iff.1 h
  obtain ⟨response, -, ht⟩ := hm.response
  exact ⟨hm.name.2, TypeRef.isProper_of_ofJson ht,
    hm.parameters.forall fun _ _ => Parameter.isWellFormed_of_ofJson⟩

namespace Definition

variable {d : Definition}

/-- A definition that is read and all below it have an entry of their own. -/
theorem everywhere_isReadFrom (h : Definition.ofJson j = .ok d) :
    d.Everywhere fun e => ∃ ms, e.IsReadFrom ms := by
  induction d using Definition.induction generalizing j with
  | step d ih =>
    obtain ⟨ms, -, hread⟩ := ofJson_ok_iff.1 h
    refine .intro ⟨ms, hread⟩ fun e he => ?_
    cases d with
    | enumeration hd vs => cases he
    | record hd fs => cases he
    | protocol hd fs messages ds =>
      obtain ⟨-, -, -, -, items, -, hds⟩ := hread
      obtain ⟨entry, -, hentry⟩ := Fallible.exists_of_mem_mapM hds he
      exact ih e he hentry

theorem IsReadFrom.isWellFormed {ms : List (String × Json)} (h : d.IsReadFrom ms) :
    d.IsWellFormed := by
  cases d with
  | enumeration hd vs =>
    exact ⟨h.1.name.2, List.forall_mem_nil _, List.forall_mem_nil _⟩
  | record hd fs =>
    obtain ⟨hheading, -, hfs⟩ := h
    exact ⟨hheading.name.2, hfs.forall fun _ _ => Field.isWellFormed_of_ofJson,
      List.forall_mem_nil _⟩
  | protocol hd fs messages ds =>
    obtain ⟨hheading, -, hfs, hmessages, -⟩ := h
    exact ⟨hheading.name.2, hfs.forall fun _ _ => Field.isWellFormed_of_ofJson,
      hmessages.forall fun _ _ => Message.isWellFormed_of_ofJson⟩

/-- A definition that is read is well formed, and so are all below it. -/
theorem everywhere_isWellFormed (h : Definition.ofJson j = .ok d) :
    d.Everywhere IsWellFormed :=
  (everywhere_isReadFrom h).imp fun _ ⟨_, he⟩ => he.isWellFormed

end Definition

namespace Schema

variable {s : Schema}

theorem walk_isWellFormed (h : Schema.ofJson j = .ok s) : ∀ w ∈ s.walk, w.1.IsWellFormed := by
  obtain ⟨ms, -, -, -, hds⟩ := ofJson_ok_iff.1 h
  exact forall_mem_walk_iff.2 (hds.forall fun _ _ => Definition.everywhere_isWellFormed)

/-- No version in a schema that is read from a document has negative numbers. -/
theorem isNonneg_of_ofJson (h : Schema.ofJson j = .ok s) : s.IsNonneg :=
  fun w hw f hf => ((walk_isWellFormed h w hw).fields f hf).since

end Schema

/-! ## The values of enumerations -/

/-- A value of an enumeration whose name is there: a text that is not empty, or a named object. -/
def Grammar.IsNamedSymbol : Json → Prop
  | .str s => s ≠ ""
  | .obj ms => Grammar.IsNamed ms
  | _ => False

theorem Grammar.exists_namedSymbol_iff (owner : String) (j : Json) :
    (∃ v, EnumValue.ofJson owner j = .ok v ∧ v.name ≠ "") ↔ IsNamedSymbol j := by
  simp only [EnumValue.ofJson_ok_iff]
  constructor
  · rintro ⟨v, ⟨rfl, -⟩ | ⟨ms, rfl, hname, -⟩, hne⟩
    · exact hne
    · exact ⟨v.name, hname⟩
  · intro h
    cases j with
    | str s => exact ⟨⟨s, none⟩, .inl ⟨rfl, rfl⟩, h⟩
    | obj ms =>
      obtain ⟨name, hname⟩ := h
      exact ⟨⟨name, docText? (Json.lookup "doc" ms)⟩, .inr ⟨ms, rfl, hname, rfl⟩, hname.2⟩
    | _ => exact h.elim

open Grammar in
/-- A schema that is read is well formed. All its values have names exactly if all symbols do. -/
theorem Schema.isWellFormed_of_read {s : Schema} (h : Schema.ofJson j = .ok s) :
    s.IsWellFormed ∧ (s.ValuesNamed ↔ IsDocument IsNamedSymbol j) := by
  refine ⟨⟨?_, walk_isWellFormed h⟩, ?_⟩
  · obtain ⟨ms, -, -, hspace, -⟩ := ofJson_ok_iff.1 h
    exact hspace
  · -- a document is read as one schema at most, so the schema of the grammar is this one
    rw [← exists_schema_iff exists_namedSymbol_iff, ValuesNamed, forall_mem_walk_iff]
    simp only [h, Except.ok.injEq, exists_eq_left']
    rfl

/-- A document of a protocol with a message and with an enumeration below it. -/
def taskDocument : Json :=
  .obj [("namespace", .str "task"),
    ("types", .arr [.obj [("name", .str "Task"), ("type", .str "interface"),
      ("fields", .arr [.obj [("name", .str "due"), ("type", .str " lazy  Date ? "),
        ("since", .str "1.0")]]),
      ("messages", .arr [.obj [("name", .str "run"), ("response", .str "Int*"),
        ("request", .arr [.obj [("name", .str "at"), ("type", .str "Date")]])]]),
      ("types", .arr [.obj [("name", .str "State"), ("type", .str "enumeration"),
        ("symbols", .arr [.str "Open", .obj [("name", .str "Done")]])]])]])]

def Schema.task : Schema :=
  ⟨"task", [.protocol ⟨"Task", none, []⟩
    [⟨"due", ⟨"Date", .optional, true⟩, .ofParts [1], none, none⟩]
    [⟨"run", ⟨"Int", .repeated, false⟩, [⟨"at", ⟨"Date", .single, false⟩, none⟩], none⟩]
    [.enumeration ⟨"State", none, []⟩ [⟨"Open", none⟩, ⟨"Done", none⟩]]]⟩

theorem Schema.isWellFormed_task :
    Schema.ofJson taskDocument = .ok Schema.task ∧ Schema.task.IsWellFormed ∧
      (Schema.task.ValuesNamed ↔ Grammar.IsDocument Grammar.IsNamedSymbol taskDocument) :=
  ⟨rfl, Schema.isWellFormed_of_read rfl⟩

/-- A document with a value of an enumeration given by an empty text. -/
def blankSymbolDocument : Json :=
  .obj [("namespace", .str "n"), ("types", .arr [.obj [("name", .str "E"),
    ("type", .str "enumeration"), ("symbols", .arr [.str ""])]])]

/-- That document is read, and the value has an empty name. -/
theorem Schema.exists_unnamed_value :
    ∃ s, Schema.ofJson blankSymbolDocument = .ok s ∧ ¬ s.ValuesNamed :=
  ⟨⟨"n", [.enumeration ⟨"E", none, []⟩ [⟨"", none⟩]]⟩, rfl, by decide⟩

end Typewright
