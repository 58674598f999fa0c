import Typewright.Proofs.Schema.Readers
import Typewright.Proofs.Schema.Site

/-!
# The grammar of schema documents

Which documents describe a schema, told from the entries alone. The readers accept these and refuse
all others with a fault.

- `Grammar.IsDocument`, `Grammar.IsDefinition`: the grammar, for a choice of what can be a symbol of
  an enumeration.
- `Grammar.exists_definition_iff`: the definitions whose values have a property are those that are
  read from symbols of their own kind.
- `Schema.ofJson_total`: a document gives a schema if it is in the grammar, and else a fault.
-/

namespace Typewright

open Json (lookup)

namespace Grammar

variable {ms : List (String × Json)} {key owner : String} {j : Json}

/-! ## Entries -/

/-- The members give a name. -/
def IsNamed (ms : List (String × Json)) : Prop :=
  ∃ name, Json.Names ms name

/-- The key is missing, or there is a list under it whose items all have the property. -/
def HoldsOnly (p : Json → Prop) (key : String) (ms : List (String × Json)) : Prop :=
  ∃ items, Json.itemsAt? key ms = some items ∧ ∀ j ∈ items, p j

/-- The value spells a type reference. -/
def IsType (j : Json) : Prop :=
  ∃ t, TypeRef.ofJson j = .ok t

/-- The members have a type reference under the key. -/
def HasType (key : String) (ms : List (String × Json)) : Prop :=
  ∃ j, lookup key ms = some j ∧ IsType j

/-- The value names a version. -/
def IsVersion (j : Json) : Prop :=
  ∃ v, Version.ofJson j = .ok v

/-- What can be asked for as lines to copy: nothing, a text or a list. -/
def IsExtra : Option Json → Prop
  | none | some .null | some (.str _) | some (.arr _) => True
  | some _ => False

/-- A value of an enumeration: a text, or an object with a name. -/
def IsSymbol : Json → Prop
  | .str _ => True
  | .obj ms => IsNamed ms
  | _ => False

/-- A field: an object with a name and a type, whose version is missing or names one. -/
def IsField : Json → Prop
  | .obj ms => IsNamed ms ∧ HasType "type" ms ∧ IsVersion ((lookup "since" ms).getD .null)
  | _ => False

/-- An argument of a message: an object with a name and a type. -/
def IsParameter : Json → Prop
  | .obj ms => IsNamed ms ∧ HasType "type" ms
  | _ => False

/-- A message: an object with a name, a response and perhaps a list of arguments. -/
def IsMessage : Json → Prop
  | .obj ms => IsNamed ms ∧ HasType "response" ms ∧ HoldsOnly IsParameter "request" ms
  | _ => False

/-- The members have what every definition needs. -/
def IsHeading (ms : List (String × Json)) : Prop :=
  IsNamed ms ∧ IsExtra (lookup "extra" ms)

/-- A definition with all below it, where enumerations have symbols of a given kind. -/
inductive IsDefinition (symbol : Json → Prop) : Json → Prop
  | enumeration {ms : List (String × Json)} (heading : IsHeading ms)
      (kind : lookup "type" ms = some (.str "enumeration"))
      (symbols : HoldsOnly symbol "symbols" ms) : IsDefinition symbol (.obj ms)
  | record {ms : List (String × Json)} (heading : IsHeading ms)
      (kind : lookup "type" ms = some (.str "record"))
      (fields : HoldsOnly IsField "fields" ms) : IsDefinition symbol (.obj ms)
  | protocol {ms : List (String × Json)} {children : List Json} (heading : IsHeading ms)
      (kind : lookup "type" ms = some (.str "protocol") ∨
        lookup "type" ms = some (.str "interface"))
      (fields : HoldsOnly IsField "fields" ms) (messages : HoldsOnly IsMessage "messages" ms)
      (types : Json.itemsAt? "types" ms = some children)
      (below : ∀ j ∈ children, IsDefinition symbol j) : IsDefinition symbol (.obj ms)

/-- A document: an object with a namespace and perhaps a list of definitions. -/
def IsDocument (symbol : Json → Prop) : Json → Prop
  | .obj ms =>
    (∃ space, lookup "namespace" ms = some (.str space) ∧ space ≠ "") ∧
      HoldsOnly (IsDefinition symbol) "types" ms
  | _ => False

/-! ## What the readers accept -/

theorem exists_readsItems_iff {α : Type} {read : Json → Read α} {p : α → Prop} {q : Json → Prop}
    (h : ∀ j, (∃ x, read j = .ok x ∧ p x) ↔ q j) :
    (∃ xs, ReadsItems read key ms xs ∧ ∀ x ∈ xs, p x) ↔ HoldsOnly q key ms := by
  simp only [ReadsItems, HoldsOnly, ← h, ← Fallible.exists_mapM_ok_iff]
  constructor
  · rintro ⟨xs, ⟨items, hitems, hxs⟩, hp⟩
    exact ⟨items, hitems, xs, hxs, hp⟩
  · rintro ⟨items, hitems, xs, hxs, hp⟩
    exact ⟨xs, ⟨items, hitems, hxs⟩, hp⟩

/-- The same where nothing is asked of the values. -/
theorem exists_readsItems_iff_of_total {α : Type} {read : Json → Read α} {q : Json → Prop}
    (h : ∀ j, (∃ x, read j = .ok x) ↔ q j) :
    (∃ xs, ReadsItems read key ms xs) ↔ HoldsOnly q key ms := by
  have hall : (∃ xs, ReadsItems read key ms xs ∧ ∀ x ∈ xs, True) ↔ HoldsOnly q key ms :=
    exists_readsItems_iff fun j => by simpa using h j
  simpa using hall

theorem exists_symbol_iff (owner : String) :
    (∃ v, EnumValue.ofJson owner j = .ok v) ↔ IsSymbol j := by
  simp only [EnumValue.ofJson_ok_iff]
  constructor
  · rintro ⟨v, ⟨rfl, -⟩ | ⟨ms, rfl, hname, -⟩⟩
    · trivial
    · exact ⟨v.name, hname⟩
  · intro h
    cases j with
    | str s => exact ⟨⟨s, none⟩, .inl ⟨rfl, rfl⟩⟩
    | obj ms =>
      obtain ⟨name, hname⟩ := h
      exact ⟨⟨name, docText? (lookup "doc" ms)⟩, .inr ⟨ms, rfl, hname, rfl⟩⟩
    | _ => exact h.elim

theorem exists_field_iff (owner : String) : (∃ f, Field.ofJson owner j = .ok f) ↔ IsField j := by
  simp only [Field.ofJson_ok_iff]
  constructor
  · rintro ⟨f, ms, rfl, hf⟩
    obtain ⟨type, htype, ht⟩ := hf.type
    exact ⟨⟨f.name, hf.name⟩, ⟨type, htype, f.type, ht⟩, f.since, hf.since⟩
  · intro h
    cases j with
    | obj ms =>
      obtain ⟨⟨name, hname⟩, ⟨type, htype, t, ht⟩, since, hsince⟩ := h
      exact ⟨⟨name, t, since, _, _⟩, ms, rfl, hname, ⟨type, htype, ht⟩, hsince, rfl, rfl⟩
    | _ => exact h.elim

theorem exists_parameter_iff (owner message : String) :
    (∃ p, Parameter.ofJson owner message j = .ok p) ↔ IsParameter j := by
  simp only [Parameter.ofJson_ok_iff]
  constructor
  · rintro ⟨p, ms, rfl, hp⟩
    obtain ⟨type, htype, ht⟩ := hp.type
    exact ⟨⟨p.name, hp.name⟩, type, htype, p.type, ht⟩
  · intro h
    cases j with
    | obj ms =>
      obtain ⟨⟨name, hname⟩, type, htype, t, ht⟩ := h
      exact ⟨⟨name, t, _⟩, ms, rfl, hname, ⟨type, htype, ht⟩, rfl⟩
    | _ => exact h.elim

theorem exists_request_iff (owner message : String) :
    (∃ ps, ReadsItems (Parameter.ofJson owner message) "request" ms ps) ↔
      HoldsOnly IsParameter "request" ms :=
  exists_readsItems_iff_of_total fun _ => exists_parameter_iff owner message

theorem exists_message_iff (owner : String) :
    (∃ m, Message.ofJson owner j = .ok m) ↔ IsMessage j := by
  simp only [Message.ofJson_ok_iff]
  constructor
  · rintro ⟨m, ms, rfl, hm⟩
    obtain ⟨response, hresponse, ht⟩ := hm.response
    exact ⟨⟨m.name, hm.name⟩, ⟨response, hresponse, m.response, ht⟩,
      (exists_request_iff owner m.name).1 ⟨m.parameters, hm.parameters⟩⟩
  · intro h
    cases j with
    | obj ms =>
      obtain ⟨⟨name, hname⟩, ⟨response, hresponse, t, ht⟩, hrequest⟩ := h
      obtain ⟨ps, hps⟩ := (exists_request_iff owner name).2 hrequest
      exact ⟨⟨name, t, ps, _⟩, ms, rfl, hname, ⟨response, hresponse, ht⟩, hps, rfl⟩
    | _ => exact h.elim

/-! ## Definitions -/

theorem exists_fields_iff (owner : String) :
    (∃ fs, ReadsItems (Field.ofJson owner) "fields" ms fs) ↔ HoldsOnly IsField "fields" ms :=
  exists_readsItems_iff_of_total fun _ => exists_field_iff owner

theorem exists_messages_iff (owner : String) :
    (∃ messages, ReadsItems (Message.ofJson owner) "messages" ms messages) ↔
      HoldsOnly IsMessage "messages" ms :=
  exists_readsItems_iff_of_total fun _ => exists_message_iff owner

theorem exists_extraLines_iff {extra : Option Json} :
    (∃ lines, extraLines owner extra = .ok lines) ↔ IsExtra extra := by
  unfold extraLines IsExtra
  split <;> simp

theorem exists_heading_iff : (∃ h : Heading, h.IsReadFrom ms) ↔ IsHeading ms := by
  constructor
  · rintro ⟨h, hname, -, hextra⟩
    exact ⟨⟨h.name, hname⟩, exists_extraLines_iff.1 ⟨h.extra, hextra⟩⟩
  · rintro ⟨⟨name, hname⟩, hextra⟩
    obtain ⟨extra, hextra⟩ := exists_extraLines_iff.2 hextra
    exact ⟨⟨name, docText? (lookup "doc" ms), extra⟩, hname, rfl, hextra⟩

theorem kind_enumeration_iff {kind : Option Json} :
    Kind.ofJson? kind = some .enumeration ↔ kind = some (.str "enumeration") := by
  unfold Kind.ofJson?
  split <;> simp_all

theorem kind_record_iff {kind : Option Json} :
    Kind.ofJson? kind = some .record ↔ kind = some (.str "record") := by
  unfold Kind.ofJson?
  split <;> simp_all

theorem kind_protocol_iff {kind : Option Json} :
    Kind.ofJson? kind = some .protocol ↔
      kind = some (.str "protocol") ∨ kind = some (.str "interface") := by
  unfold Kind.ofJson?
  split <;> simp_all

variable {symbol : Json → Prop} {P : EnumValue → Prop}

/-- The entry of a definition describes one, if the symbols of its values have the property. -/
theorem isDefinition_of_ofJson
    (hsymbol : ∀ owner j, (∃ v, EnumValue.ofJson owner j = .ok v ∧ P v) ↔ symbol j) {d : Definition}
    (hd : Definition.ofJson j = .ok d) (hP : d.Everywhere fun e => ∀ v ∈ e.values, P v) :
    IsDefinition symbol j := by
  -- The entry of a definition holds the entries of those below it, so the definition leads.
  induction d using Definition.induction generalizing j with
  | step d ih =>
    obtain ⟨ms, rfl, hread⟩ := Definition.ofJson_ok_iff.1 hd
    clear hd
    obtain ⟨hhere, hbelow⟩ := Definition.everywhere_iff.1 hP
    cases d with
    | enumeration h vs =>
      obtain ⟨hheading, hk, hvs⟩ := hread
      exact .enumeration (exists_heading_iff.1 ⟨h, hheading⟩) (kind_enumeration_iff.1 hk)
        ((exists_readsItems_iff (hsymbol h.name)).1 ⟨vs, hvs, hhere⟩)
    | record h fs =>
      obtain ⟨hheading, hk, hfs⟩ := hread
      exact .record (exists_heading_iff.1 ⟨h, hheading⟩) (kind_record_iff.1 hk)
        ((exists_fields_iff h.name).1 ⟨fs, hfs⟩)
    | protocol h fs messages ds =>
      obtain ⟨hheading, hk, hfs, hmessages, items, hitems, hds⟩ := hread
      refine .protocol (exists_heading_iff.1 ⟨h, hheading⟩) (kind_protocol_iff.1 hk)
        ((exists_fields_iff h.name).1 ⟨fs, hfs⟩)
        ((exists_messages_iff h.name).1 ⟨messages, hmessages⟩)
        hitems fun e he => ?_
      obtain ⟨d, hd, hmem⟩ := (Fallible.exists_mapM_ok_iff (p := (· ∈ ds))).1
        ⟨ds, hds, fun _ => id⟩ e he
      exact ih d hmem hd (hbelow d hmem)

/-- An entry that describes a definition is read as one, whose values have the property. -/
theorem exists_ofJson_of_isDefinition
    (hsymbol : ∀ owner j, (∃ v, EnumValue.ofJson owner j = .ok v ∧ P v) ↔ symbol j)
    (h : IsDefinition symbol j) :
    ∃ d, Definition.ofJson j = .ok d ∧ d.Everywhere fun e => ∀ v ∈ e.values, P v := by
  -- a protocol is read by what the induction gives for the entries in it
  induction h with
  | enumeration hheading hk hsymbols =>
    obtain ⟨h, hheading⟩ := exists_heading_iff.2 hheading
    obtain ⟨vs, hvs, hP⟩ := (exists_readsItems_iff (hsymbol h.name)).2 hsymbols
    exact ⟨.enumeration h vs,
      Definition.ofJson_ok_iff.2 ⟨_, rfl, hheading, kind_enumeration_iff.2 hk, hvs⟩,
      .intro hP (List.forall_mem_nil _)⟩
  | record hheading hk hfields =>
    obtain ⟨h, hheading⟩ := exists_heading_iff.2 hheading
    obtain ⟨fs, hfs⟩ := (exists_fields_iff h.name).2 hfields
    exact ⟨.record h fs,
      Definition.ofJson_ok_iff.2 ⟨_, rfl, hheading, kind_record_iff.2 hk, hfs⟩,
      .intro (List.forall_mem_nil _) (List.forall_mem_nil _)⟩
  | protocol hheading hk hfields hmessages hitems _ ih =>
    obtain ⟨h, hheading⟩ := exists_heading_iff.2 hheading
    obtain ⟨fs, hfs⟩ := (exists_fields_iff h.name).2 hfields
    obtain ⟨messages, hmessages⟩ := (exists_messages_iff h.name).2 hmessages
    obtain ⟨ds, hds, hP⟩ := Fallible.exists_mapM_ok_iff.2 ih
    exact ⟨.protocol h fs messages ds,
      Definition.ofJson_ok_iff.2
        ⟨_, rfl, hheading, kind_protocol_iff.2 hk, hfs, hmessages, _, hitems, hds⟩,
      .intro (List.forall_mem_nil _) hP⟩

/-- An entry describes a definition whose values all have a property if its symbols do so. -/
theorem exists_definition_iff
    (hsymbol : ∀ owner j, (∃ v, EnumValue.ofJson owner j = .ok v ∧ P v) ↔ symbol j) :
    (∃ d, Definition.ofJson j = .ok d ∧ d.Everywhere fun e => ∀ v ∈ e.values, P v) ↔
      IsDefinition symbol j :=
  ⟨fun ⟨_, hd, hP⟩ => isDefinition_of_ofJson hsymbol hd hP, exists_ofJson_of_isDefinition hsymbol⟩

theorem exists_schema_iff
    (hsymbol : ∀ owner j, (∃ v, EnumValue.ofJson owner j = .ok v ∧ P v) ↔ symbol j) :
    (∃ s, Schema.ofJson j = .ok s ∧
      ∀ d ∈ s.definitions, d.Everywhere fun e => ∀ v ∈ e.values, P v) ↔ IsDocument symbol j := by
  have hdefinitions (ms : List (String × Json)) :
      (∃ ds, ReadsItems Definition.ofJson "types" ms ds ∧
        ∀ d ∈ ds, d.Everywhere fun e => ∀ v ∈ e.values, P v) ↔
        HoldsOnly (IsDefinition symbol) "types" ms :=
    exists_readsItems_iff fun _ => exists_definition_iff hsymbol
  simp only [Schema.ofJson_ok_iff]
  constructor
  · rintro ⟨s, ⟨ms, rfl, hspace, hne, hds⟩, hP⟩
    exact ⟨⟨s.space, hspace, hne⟩, (hdefinitions ms).1 ⟨s.definitions, hds, hP⟩⟩
  · intro h
    cases j with
    | obj ms =>
      obtain ⟨⟨space, hspace, hne⟩, htypes⟩ := h
      obtain ⟨ds, hds, hP⟩ := (hdefinitions ms).2 htypes
      exact ⟨⟨space, ds⟩, ⟨ms, rfl, hspace, hne, hds⟩, hP⟩
    | _ => exact h.elim

theorem exists_schema_iff_isDocument :
    (∃ s, Schema.ofJson j = .ok s) ↔ IsDocument IsSymbol j := by
  have hsymbol (owner : String) (j : Json) :
      (∃ v, EnumValue.ofJson owner j = .ok v ∧ True) ↔ IsSymbol j := by
    simpa using exists_symbol_iff owner
  have h := exists_schema_iff (j := j) hsymbol
  simpa [Definition.everywhere_of_forall] using h

end Grammar

open Grammar in
/-- A document gives a schema exactly if it is in the grammar, and any other gives a fault. -/
theorem Schema.ofJson_total (j : Json) :
    ((∃ s, Schema.ofJson j = .ok s) ↔ IsDocument IsSymbol j) ∧
      ((∃ fault, Schema.ofJson j = .error fault) ↔ ¬ IsDocument IsSymbol j) := by
  refine ⟨exists_schema_iff_isDocument, ?_⟩
  rw [← exists_schema_iff_isDocument]
  cases Schema.ofJson j <;> simp

end Typewright
