import Typewright.Proofs.Schema.Reading
import Typewright.Proofs.Version.Text

/-!
# Writing schemas as documents

A schema is written as the document that describes it. Parts that can be left out are left out where
they are empty, or else written all the same. Either way the document gives the schema back.

- `Schema.toJson`, `Definition.toJson`, `Field.toJson`, `Message.toJson`: one writer per noun.
- `Definition.ofJson_toJson`: a definition is read back with all below it.
- `Schema.toJson_roundTrip`: a schema is read back from its document.
-/

namespace Typewright

open Json (lookup)

namespace Json

/-- The members that are there, in order. -/
def given (ms : List (String × Option Json)) : List (String × Json) :=
  ms.filterMap fun m => m.2.map (m.1, ·)

/-- A list as a member, which is left out if it is empty, unless everything is written. -/
def listed (full : Bool) (items : List Json) : Option Json :=
  if full || !items.isEmpty then some (.arr items) else none

@[simp] theorem lookup_given_nil (key : String) : lookup key (given []) = none := rfl

@[simp] theorem lookup_given_cons (key k : String) (v : Option Json)
    (ms : List (String × Option Json)) :
    lookup key (given ((k, v) :: ms)) =
      if k = key then v.or (lookup key (given ms)) else lookup key (given ms) := by
  cases v with
  | none => simp [given]
  | some j => simp [given, lookup]

theorem itemsAt?_of_listed {full : Bool} {key : String} {ms : List (String × Json)}
    {items : List Json} (h : lookup key ms = listed full items) : itemsAt? key ms = some items := by
  unfold itemsAt?
  rw [h, listed]
  split_ifs with hl
  · rfl
  · obtain ⟨-, hnil⟩ : full = false ∧ items = [] := by simpa using hl
    rw [hnil]

end Json

/-! ## Writers -/

def EnumValue.toJson (v : EnumValue) : Json :=
  .obj (Json.given [("name", some (.str v.name)), ("doc", v.doc.map .str)])

/-- A version as a member, which is left out if it is the base version. -/
def Version.listed (full : Bool) (v : Version) : Option Json :=
  if full || v ≠ .zero then some (.str v.text) else none

def Field.toJson (full : Bool) (f : Field) : Json :=
  .obj (Json.given [("name", some (.str f.name)), ("type", some (.str f.type.spelling)),
    ("since", f.since.listed full), ("default", f.default.map .str), ("doc", f.doc.map .str)])

def Parameter.toJson (p : Parameter) : Json :=
  .obj (Json.given [("name", some (.str p.name)), ("type", some (.str p.type.spelling)),
    ("doc", p.doc.map .str)])

def Message.toJson (full : Bool) (m : Message) : Json :=
  .obj (Json.given [("name", some (.str m.name)), ("response", some (.str m.response.spelling)),
    ("request", Json.listed full (m.parameters.map Parameter.toJson)), ("doc", m.doc.map .str)])

/-- The members that every definition has, with the text for its kind. -/
def Heading.members (full : Bool) (kind : String) (h : Heading) : List (String × Option Json) :=
  [("name", some (.str h.name)), ("type", some (.str kind)), ("doc", h.doc.map .str),
    ("extra", Json.listed full (h.extra.map .str))]

namespace Definition

mutual

def toJson (full : Bool) : Definition → Json
  | .enumeration h vs =>
    .obj (Json.given (h.members full "enumeration" ++
      [("symbols", Json.listed full (vs.map EnumValue.toJson))]))
  | .record h fs =>
    .obj (Json.given (h.members full "record" ++
      [("fields", Json.listed full (fs.map (Field.toJson full)))]))
  | .protocol h fs ms ds =>
    .obj (Json.given (h.members full "protocol" ++
      [("fields", Json.listed full (fs.map (Field.toJson full))),
        ("messages", Json.listed full (ms.map (Message.toJson full))),
        ("types", Json.listed full (toJsonAll full ds))]))

def toJsonAll (full : Bool) : List Definition → List Json
  | [] => []
  | d :: ds => toJson full d :: toJsonAll full ds

end

theorem toJsonAll_eq_map (full : Bool) (ds : List Definition) :
    toJsonAll full ds = ds.map (toJson full) := by
  induction ds with
  | nil => rfl
  | cons d r ih => rw [toJsonAll, ih, List.map_cons]

end Definition

def Schema.toJson (full : Bool) (s : Schema) : Json :=
  .obj (Json.given [("namespace", some (.str s.space)),
    ("types", Json.listed full (s.definitions.map (Definition.toJson full)))])

/-! ## Reading what is written -/

variable {full : Bool} {owner : String}

theorem docText?_map (doc : Option String) : docText? (doc.map .str) = doc := by
  cases doc <;> rfl

theorem defaultText?_map (default : Option String) : defaultText? (default.map .str) = default := by
  cases default <;> rfl

theorem extraLines_listed (extra : List String) :
    extraLines owner (Json.listed full (extra.map .str)) = .ok extra := by
  unfold Json.listed
  split_ifs with h
  · simp only [extraLines, List.map_map]
    exact congrArg Except.ok (List.map_id _)
  · obtain ⟨-, hnil⟩ : full = false ∧ extra = [] := by simpa using h
    rw [hnil]
    rfl

theorem TypeRef.ofJson_spelling {t : TypeRef} (h : t.IsProper) :
    TypeRef.ofJson (.str t.spelling) = .ok t := by
  rw [TypeRef.ofJson, ofText?_spelling h]

theorem Version.ofJson_listed {v : Version} (hn : v.IsNonneg) (hd : v.IsShort) :
    Version.ofJson ((v.listed full).getD .null) = .ok v := by
  unfold listed
  split_ifs with h
  · simp only [Option.getD_some, Version.ofJson, Json.text, ofText?_text hn hd]
  · obtain ⟨-, hzero⟩ : full = false ∧ v = .zero := by simpa using h
    rw [hzero]
    rfl

theorem readsItems_of_listed {α : Type} (full : Bool) {read : Json → Read α} {write : α → Json}
    {key : String} {ms : List (String × Json)} {xs : List α}
    (h : lookup key ms = Json.listed full (xs.map write)) (hx : ∀ x ∈ xs, read (write x) = .ok x) :
    ReadsItems read key ms xs :=
  ⟨xs.map write, Json.itemsAt?_of_listed h, Fallible.mapM_map_ok hx⟩

theorem EnumValue.ofJson_toJson {v : EnumValue} (h : v.name ≠ "") :
    EnumValue.ofJson owner v.toJson = .ok v := by
  refine EnumValue.ofJson_ok_iff.2 (.inr ⟨_, rfl, ⟨?_, h⟩, ?_⟩)
  · simp
  · simp [docText?_map]

theorem Field.ofJson_toJson {f : Field} (h : f.IsWellFormed) (hd : f.since.IsShort) :
    Field.ofJson owner (f.toJson full) = .ok f := by
  refine Field.ofJson_ok_iff.2 ⟨_, rfl, ⟨?_, h.name_ne⟩, ?_, ?_, ?_, ?_⟩
  · simp
  · exact ⟨.str f.type.spelling, by simp, TypeRef.ofJson_spelling h.type⟩
  · simpa using Version.ofJson_listed h.since hd
  · simp [defaultText?_map]
  · simp [docText?_map]

theorem Parameter.ofJson_toJson {message : String} {p : Parameter} (h : p.IsWellFormed) :
    Parameter.ofJson owner message p.toJson = .ok p := by
  refine Parameter.ofJson_ok_iff.2 ⟨_, rfl, ⟨?_, h.name_ne⟩, ?_, ?_⟩
  · simp
  · exact ⟨.str p.type.spelling, by simp, TypeRef.ofJson_spelling h.type⟩
  · simp [docText?_map]

theorem Message.ofJson_toJson {m : Message} (h : m.IsWellFormed) :
    Message.ofJson owner (m.toJson full) = .ok m := by
  refine Message.ofJson_ok_iff.2 ⟨_, rfl, ⟨?_, h.name_ne⟩, ?_, ?_, ?_⟩
  · simp
  · exact ⟨.str m.response.spelling, by simp, TypeRef.ofJson_spelling h.response⟩
  · exact readsItems_of_listed full (by simp) fun p hp =>
      Parameter.ofJson_toJson (h.parameters p hp)
  · simp [docText?_map]

/-- The heading of a definition is read from its members, whatever follows under other keys. -/
theorem Heading.isReadFrom_members {h : Heading} (hne : h.name ≠ "") (kind : String)
    {rest : List (String × Option Json)} (hdoc : lookup "doc" (Json.given rest) = none)
    (hextra : lookup "extra" (Json.given rest) = none) :
    h.IsReadFrom (Json.given (h.members full kind ++ rest)) := by
  refine ⟨⟨?_, hne⟩, ?_, ?_⟩
  · simp [members]
  · simp [members, hdoc, docText?_map]
  · simp [members, hextra, extraLines_listed]

/-- A definition all of whose parts are well formed, named and with literal versions. -/
structure Definition.IsWritable (d : Definition) : Prop extends d.IsWellFormed where
  valuesNamed : d.ValuesNamed
  short : ∀ f ∈ d.fields, f.since.IsShort

/-- A definition is read back from what is written of it and of all below it. -/
theorem Definition.ofJson_toJson (full : Bool) {d : Definition} (h : d.Everywhere IsWritable) :
    Definition.ofJson (d.toJson full) = .ok d := by
  induction d using Definition.induction with
  | step d ih =>
    obtain ⟨hp, hbelow⟩ := everywhere_iff.1 h
    have hfields : ∀ f ∈ d.fields, Field.ofJson d.name (f.toJson full) = .ok f :=
      fun f hf => Field.ofJson_toJson (hp.fields f hf) (hp.short f hf)
    have hmessages : ∀ m ∈ d.messages, Message.ofJson d.name (m.toJson full) = .ok m :=
      fun m hm => Message.ofJson_toJson (hp.messages m hm)
    -- The keys of a definition differ, so each member is found wherever it stands.
    cases d with
    | enumeration hd vs =>
      refine ofJson_ok_iff.2 ⟨_, rfl, Heading.isReadFrom_members hp.name_ne _ ?_ ?_, ?_, ?_⟩
      · simp
      · simp
      · simp [Heading.members, Kind.ofJson?]
      · exact readsItems_of_listed full (by simp [Heading.members]) fun v hv =>
          EnumValue.ofJson_toJson (hp.valuesNamed v hv)
    | record hd fs =>
      refine ofJson_ok_iff.2 ⟨_, rfl, Heading.isReadFrom_members hp.name_ne _ ?_ ?_, ?_, ?_⟩
      · simp
      · simp
      · simp [Heading.members, Kind.ofJson?]
      · exact readsItems_of_listed full (by simp [Heading.members]) hfields
    | protocol hd fs ms ds =>
      refine ofJson_ok_iff.2
        ⟨_, rfl, Heading.isReadFrom_members hp.name_ne _ ?_ ?_, ?_, ?_, ?_, ?_⟩
      · simp
      · simp
      · simp [Heading.members, Kind.ofJson?]
      · exact readsItems_of_listed full (by simp [Heading.members]) hfields
      · exact readsItems_of_listed full (by simp [Heading.members]) hmessages
      · exact readsItems_of_listed full (by simp [Heading.members, toJsonAll_eq_map]) fun e he =>
          ih e he (hbelow e he)

/-- The numbers of all versions in the schema are short enough to be literals. -/
def Schema.IsShort (s : Schema) : Prop :=
  ∀ w ∈ s.walk, ∀ f ∈ w.1.fields, f.since.IsShort

instance (s : Schema) : Decidable s.IsShort :=
  inferInstanceAs (Decidable (∀ w ∈ s.walk, _))

/-- A schema is read back from the document that is written of it. -/
theorem Schema.toJson_roundTrip (full : Bool) {s : Schema} (hw : s.IsWellFormed)
    (hv : s.ValuesNamed) (hd : s.IsShort) : Schema.ofJson (s.toJson full) = .ok s := by
  have hwalk : ∀ w ∈ s.walk, w.1.IsWritable := fun w hmem =>
    { hw.definitions w hmem with valuesNamed := hv w hmem, short := hd w hmem }
  have hall := forall_mem_walk_iff.1 hwalk
  refine ofJson_ok_iff.2 ⟨_, rfl, ?_, hw.space_ne, ?_⟩
  · simp
  · exact readsItems_of_listed full (by simp) fun d hmem =>
      Definition.ofJson_toJson full (hall d hmem)

/-- A schema with empty documentation, an empty default and an empty line to copy. -/
def Schema.survey : Schema :=
  ⟨"survey", [.protocol ⟨"Item", some "", [""]⟩
    [⟨"marks", ⟨"Mark", .repeated, false⟩, .zero, none, some "a\nb"⟩]
    [⟨"read", ⟨"lazy", .single, false⟩, [⟨"at", ⟨"Date", .optional, true⟩, some "when"⟩], none⟩]
    [.protocol ⟨"Part", none, []⟩ [] [] [.record ⟨"Leaf", none, ["int n;", ""]⟩
        [⟨"size", ⟨"int", .single, false⟩, .ofParts [1, 0, 2], some "", none⟩]],
      .enumeration ⟨"Mark", none, []⟩ [⟨"Low", none⟩, ⟨"High", some ""⟩]]]⟩

theorem Schema.toJson_roundTrip_survey :
    survey.IsWellFormed ∧ survey.ValuesNamed ∧ survey.IsShort ∧
      Schema.ofJson (survey.toJson false) = .ok survey ∧
      Schema.ofJson (survey.toJson true) = .ok survey := by
  have hw : survey.IsWellFormed := by decide
  have hv : survey.ValuesNamed := by decide
  have hd : survey.IsShort := by decide
  exact ⟨hw, hv, hd, toJson_roundTrip false hw hv hd, toJson_roundTrip true hw hv hd⟩

end Typewright
