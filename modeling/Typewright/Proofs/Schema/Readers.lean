import Typewright.Proofs.Fallible
import Typewright.Schema.Document

/-!
# What the readers of documents give

Each reader gives a value exactly if the members of an entry describe it. What they describe does
not depend on the order in which the reader looks at them.

- `EnumValue.ofJson_ok_iff`, `Field.ofJson_ok_iff`, `Message.ofJson_ok_iff`: the entries of a
  definition.
- `Definition.ofJson_ok_iff`: a definition with those that it holds.
- `Schema.ofJson_ok_iff`: a whole document.
-/

namespace Typewright

open Json (lookup)

/-! ## Members -/

/-- The items of the list under a key, none if the key is missing. -/
def Json.itemsAt? (key : String) (ms : List (String × Json)) : Option (List Json) :=
  match lookup key ms with
  | none => some []
  | some (.arr items) => some items
  | some _ => none

/-- The members give a name, which is not empty. -/
def Json.Names (ms : List (String × Json)) (name : String) : Prop :=
  lookup "name" ms = some (.str name) ∧ name ≠ ""

/-- The expression that an entry gives to stand for a field. -/
def defaultText? : Option Json → Option String
  | none | some .null => none
  | some j => some j.text

/-- The values are read from the list under a key, item by item. -/
def ReadsItems {α : Type} (read : Json → Read α) (key : String) (ms : List (String × Json))
    (xs : List α) : Prop :=
  ∃ items, Json.itemsAt? key ms = some items ∧ items.mapM read = .ok xs

variable {ms : List (String × Json)} {key owner name : String} {j : Json}

/-- What holds of all that is read from entries holds of the values that are read. -/
theorem ReadsItems.forall {α : Type} {read : Json → Read α} {xs : List α} {p : α → Prop}
    (h : ReadsItems read key ms xs) (hp : ∀ j x, read j = .ok x → p x) : ∀ x ∈ xs, p x := by
  obtain ⟨items, -, h⟩ := h
  intro x hx
  obtain ⟨j, -, hj⟩ := Fallible.exists_of_mem_mapM h hx
  exact hp j x hj

theorem nameOf_ok_iff {place : NamedPlace} : nameOf place ms = .ok name ↔ Json.Names ms name := by
  unfold nameOf Json.Names
  split
  · next s h =>
    rw [h]
    split_ifs with hs
    · simp [hs]
    · simp only [Except.ok.injEq, Option.some.injEq, Json.str.injEq, iff_self_and]
      rintro rfl
      exact hs
  · next h =>
    simp only [reduceCtorEq, false_iff, not_and]
    exact fun hname => (h name hname).elim

theorem listOf_ok_iff {items : List Json} :
    listOf key owner ms = .ok items ↔ Json.itemsAt? key ms = some items := by
  unfold listOf Json.itemsAt?
  cases lookup key ms with
  | none => simp
  | some j => cases j <;> simp

theorem listOf_mapM_ok_iff {α : Type} {read : Json → Read α} {xs : List α} :
    (listOf key owner ms >>= fun items => items.mapM read) = .ok xs ↔
      ReadsItems read key ms xs := by
  simp only [Fallible.bind_ok_iff, listOf_ok_iff, ReadsItems]

/-! ## The entries of a definition -/

theorem EnumValue.ofJson_ok_iff {v : EnumValue} :
    EnumValue.ofJson owner j = .ok v ↔
      j = .str v.name ∧ v.doc = none ∨
        ∃ ms, j = .obj ms ∧ Json.Names ms v.name ∧ v.doc = docText? (lookup "doc" ms) := by
  obtain ⟨name, doc⟩ := v
  cases j with
  | str s => simp [EnumValue.ofJson, eq_comm]
  | obj ms =>
    simp only [EnumValue.ofJson, Fallible.bind_ok_iff, nameOf_ok_iff, reduceCtorEq, false_and,
      false_or, Json.obj.injEq, exists_eq_left']
    constructor
    · rintro ⟨_, hname, h⟩
      cases h
      exact ⟨hname, rfl⟩
    · rintro ⟨hname, rfl⟩
      exact ⟨name, hname, rfl⟩
  | _ => simp [EnumValue.ofJson]

/-- The members describe a field. -/
structure Field.IsReadFrom (ms : List (String × Json)) (f : Field) : Prop where
  name : Json.Names ms f.name
  type : ∃ type, lookup "type" ms = some type ∧ TypeRef.ofJson type = .ok f.type
  since : Version.ofJson ((lookup "since" ms).getD .null) = .ok f.since
  default : f.default = defaultText? (lookup "default" ms)
  doc : f.doc = docText? (lookup "doc" ms)

theorem Field.ofJson_ok_iff {f : Field} :
    Field.ofJson owner j = .ok f ↔ ∃ ms, j = .obj ms ∧ f.IsReadFrom ms := by
  constructor
  · intro h
    unfold Field.ofJson at h
    split at h
    · next ms =>
      obtain ⟨name, hname, h⟩ := Fallible.bind_ok h
      split at h
      · cases h
      · next type htype =>
        obtain ⟨t, ht, h⟩ := Fallible.bind_ok h
        obtain ⟨since, hsince, h⟩ := Fallible.bind_ok h
        obtain rfl := Except.ok.inj h
        exact ⟨ms, rfl, nameOf_ok_iff.1 hname, ⟨type, htype, ht⟩, hsince, rfl, rfl⟩
    · cases h
  · rintro ⟨ms, rfl, hname, ⟨type, htype, ht⟩, hsince, hdefault, hdoc⟩
    obtain ⟨name, _, since, default, doc⟩ := f
    subst hdefault hdoc
    rw [Field.ofJson, nameOf_ok_iff.2 hname]
    simp only [Fallible.bind_ok_iff, Except.ok.injEq, exists_eq_left', htype, ht, hsince]
    rfl

structure Parameter.IsReadFrom (ms : List (String × Json)) (p : Parameter) : Prop where
  name : Json.Names ms p.name
  type : ∃ type, lookup "type" ms = some type ∧ TypeRef.ofJson type = .ok p.type
  doc : p.doc = docText? (lookup "doc" ms)

theorem Parameter.ofJson_ok_iff {p : Parameter} :
    Parameter.ofJson owner name j = .ok p ↔ ∃ ms, j = .obj ms ∧ p.IsReadFrom ms := by
  constructor
  · intro h
    unfold Parameter.ofJson at h
    split at h
    · next ms =>
      split at h
      · cases h
      · next type htype =>
        obtain ⟨name, hname, h⟩ := Fallible.bind_ok h
        obtain ⟨t, ht, h⟩ := Fallible.bind_ok h
        obtain rfl := Except.ok.inj h
        exact ⟨ms, rfl, nameOf_ok_iff.1 hname, ⟨type, htype, ht⟩, rfl⟩
    · cases h
  · rintro ⟨ms, rfl, hname, ⟨type, htype, ht⟩, hdoc⟩
    obtain ⟨_, _, doc⟩ := p
    subst hdoc
    simp only [Parameter.ofJson, htype, nameOf_ok_iff.2 hname, ht, Fallible.bind_ok_iff,
      Except.ok.injEq, exists_eq_left']
    rfl

structure Message.IsReadFrom (owner : String) (ms : List (String × Json)) (m : Message) : Prop where
  name : Json.Names ms m.name
  response : ∃ response, lookup "response" ms = some response ∧
    TypeRef.ofJson response = .ok m.response
  parameters : ReadsItems (Parameter.ofJson owner m.name) "request" ms m.parameters
  doc : m.doc = docText? (lookup "doc" ms)

theorem Message.ofJson_ok_iff {m : Message} :
    Message.ofJson owner j = .ok m ↔ ∃ ms, j = .obj ms ∧ m.IsReadFrom owner ms := by
  constructor
  · intro h
    unfold Message.ofJson at h
    split at h
    · next ms =>
      obtain ⟨name, hname, h⟩ := Fallible.bind_ok h
      split at h
      · cases h
      · next response hresponse =>
        obtain ⟨entries, hentries, h⟩ := Fallible.bind_ok h
        obtain ⟨parameters, hparameters, h⟩ := Fallible.bind_ok h
        obtain ⟨t, ht, h⟩ := Fallible.bind_ok h
        obtain rfl := Except.ok.inj h
        exact ⟨ms, rfl, nameOf_ok_iff.1 hname, ⟨response, hresponse, ht⟩,
          ⟨entries, listOf_ok_iff.1 hentries, hparameters⟩, rfl⟩
    · cases h
  · rintro ⟨ms, rfl, hname, ⟨response, hresponse, ht⟩, ⟨entries, hentries, hparameters⟩, hdoc⟩
    obtain ⟨_, _, _, doc⟩ := m
    subst hdoc
    simp only [Message.ofJson, hresponse, nameOf_ok_iff.2 hname, listOf_ok_iff.2 hentries,
      hparameters, ht, Fallible.bind_ok_iff, Except.ok.injEq, exists_eq_left']
    rfl

/-! ## Definitions -/

structure Heading.IsReadFrom (ms : List (String × Json)) (h : Heading) : Prop where
  name : Json.Names ms h.name
  doc : h.doc = docText? (lookup "doc" ms)
  extra : extraLines h.name (lookup "extra" ms) = .ok h.extra

/-- The members describe a definition. -/
def Definition.IsReadFrom (ms : List (String × Json)) : Definition → Prop
  | .enumeration h vs =>
    h.IsReadFrom ms ∧ Kind.ofJson? (lookup "type" ms) = some .enumeration ∧
      ReadsItems (EnumValue.ofJson h.name) "symbols" ms vs
  | .record h fs =>
    h.IsReadFrom ms ∧ Kind.ofJson? (lookup "type" ms) = some .record ∧
      ReadsItems (Field.ofJson h.name) "fields" ms fs
  | .protocol h fs messages ds =>
    h.IsReadFrom ms ∧ Kind.ofJson? (lookup "type" ms) = some .protocol ∧
      ReadsItems (Field.ofJson h.name) "fields" ms fs ∧
      ReadsItems (Message.ofJson h.name) "messages" ms messages ∧
      ReadsItems Definition.ofJson "types" ms ds

namespace Definition

theorem listOfJson_eq_mapM (js : List Json) : listOfJson js = js.mapM Definition.ofJson := by
  induction js with
  | nil => rfl
  | cons j r ih => rw [listOfJson, ih, List.mapM_cons]

theorem childrenOf_eq (owner : String) (ms : List (String × Json)) :
    childrenOf owner ms =
      listOf "types" owner ms >>= fun items => items.mapM Definition.ofJson := by
  induction ms with
  | nil => rfl
  | cons m r ih =>
    obtain ⟨k, v⟩ := m
    by_cases hk : k = "types"
    · cases v with
      | arr items =>
        simp only [childrenOf, listOf, Json.lookup, if_pos hk, listOfJson_eq_mapM]
        rfl
      | _ =>
        simp only [childrenOf, listOf, Json.lookup, if_pos hk]
        rfl
    · have hl : listOf "types" owner ((k, v) :: r) = listOf "types" owner r := by
        simp only [listOf, Json.lookup, if_neg hk]
      rw [hl, ← ih, childrenOf.eq_def]
      exact if_neg hk

theorem childrenOf_ok_iff {ds : List Definition} :
    childrenOf owner ms = .ok ds ↔ ReadsItems Definition.ofJson "types" ms ds := by
  rw [childrenOf_eq, listOf_mapM_ok_iff]

variable {h : Heading} {d : Definition}

/-- A definition that is read has a heading, and is of one of the kinds. -/
theorem exists_heading_of_ofJson (hd : Definition.ofJson (.obj ms) = .ok d) :
    ∃ h : Heading, h.IsReadFrom ms ∧ ∃ kind, Kind.ofJson? (lookup "type" ms) = some kind := by
  rw [Definition.ofJson] at hd
  obtain ⟨name, hname, hd⟩ := Fallible.bind_ok hd
  obtain ⟨extra, hextra, hd⟩ := Fallible.bind_ok hd
  refine ⟨⟨name, docText? (lookup "doc" ms), extra⟩, ⟨nameOf_ok_iff.1 hname, rfl, hextra⟩, ?_⟩
  cases hk : Kind.ofJson? (lookup "type" ms) with
  | some kind => exact ⟨kind, rfl⟩
  | none =>
    simp only [hk, reduceCtorEq, if_false] at hd
    obtain ⟨entries, -, hd⟩ := Fallible.bind_ok hd
    obtain ⟨fields, -, hd⟩ := Fallible.bind_ok hd
    cases hd

theorem ofJson_enumeration_iff (hh : h.IsReadFrom ms)
    (hk : Kind.ofJson? (lookup "type" ms) = some .enumeration) :
    Definition.ofJson (.obj ms) = .ok d ↔
      ∃ vs, d = .enumeration h vs ∧ ReadsItems (EnumValue.ofJson h.name) "symbols" ms vs := by
  obtain ⟨hname, hdoc, hextra⟩ := hh
  obtain ⟨name, doc, extra⟩ := h
  subst hdoc
  simp only [Definition.ofJson, Fallible.bind_ok_iff, nameOf_ok_iff.2 hname, hextra, hk,
    Except.ok.injEq, exists_eq_left', if_true, ReadsItems, listOf_ok_iff]
  constructor
  · rintro ⟨items, hitems, vs, hvs, hd⟩
    exact ⟨vs, (Except.ok.inj hd).symm, items, hitems, hvs⟩
  · rintro ⟨vs, rfl, items, hitems, hvs⟩
    exact ⟨items, hitems, vs, hvs, rfl⟩

theorem ofJson_record_iff (hh : h.IsReadFrom ms)
    (hk : Kind.ofJson? (lookup "type" ms) = some .record) :
    Definition.ofJson (.obj ms) = .ok d ↔
      ∃ fs, d = .record h fs ∧ ReadsItems (Field.ofJson h.name) "fields" ms fs := by
  obtain ⟨hname, hdoc, hextra⟩ := hh
  obtain ⟨name, doc, extra⟩ := h
  subst hdoc
  simp only [Definition.ofJson, Fallible.bind_ok_iff, nameOf_ok_iff.2 hname, hextra, hk,
    Except.ok.injEq, exists_eq_left', Option.some.injEq, reduceCtorEq, if_false, ReadsItems,
    listOf_ok_iff]
  constructor
  · rintro ⟨items, hitems, fs, hfs, hd⟩
    exact ⟨fs, (Except.ok.inj hd).symm, items, hitems, hfs⟩
  · rintro ⟨fs, rfl, items, hitems, hfs⟩
    exact ⟨items, hitems, fs, hfs, rfl⟩

theorem ofJson_protocol_iff (hh : h.IsReadFrom ms)
    (hk : Kind.ofJson? (lookup "type" ms) = some .protocol) :
    Definition.ofJson (.obj ms) = .ok d ↔
      ∃ fs messages ds, d = .protocol h fs messages ds ∧
        ReadsItems (Field.ofJson h.name) "fields" ms fs ∧
        ReadsItems (Message.ofJson h.name) "messages" ms messages ∧
        ReadsItems Definition.ofJson "types" ms ds := by
  obtain ⟨hname, hdoc, hextra⟩ := hh
  obtain ⟨name, doc, extra⟩ := h
  subst hdoc
  simp only [Definition.ofJson, Fallible.bind_ok_iff, nameOf_ok_iff.2 hname, hextra, hk,
    Except.ok.injEq, exists_eq_left', Option.some.injEq, reduceCtorEq, if_false,
    childrenOf_ok_iff, listOf_ok_iff]
  constructor
  · rintro ⟨items, hitems, fs, hfs, ds, hds, entries, hentries, messages, hmessages, hd⟩
    exact ⟨fs, messages, ds, (Except.ok.inj hd).symm, ⟨items, hitems, hfs⟩,
      ⟨entries, hentries, hmessages⟩, hds⟩
  · rintro ⟨fs, messages, ds, rfl, ⟨items, hitems, hfs⟩, ⟨entries, hentries, hmessages⟩, hds⟩
    exact ⟨items, hitems, fs, hfs, ds, hds, entries, hentries, messages, hmessages, rfl⟩

theorem ofJson_ok_iff : Definition.ofJson j = .ok d ↔ ∃ ms, j = .obj ms ∧ d.IsReadFrom ms := by
  constructor
  · intro hd
    cases j with
    | obj ms =>
      obtain ⟨h, hh, kind, hk⟩ := exists_heading_of_ofJson hd
      refine ⟨ms, rfl, ?_⟩
      cases kind with
      | enumeration =>
        obtain ⟨vs, rfl, hvs⟩ := (ofJson_enumeration_iff hh hk).1 hd
        exact ⟨hh, hk, hvs⟩
      | record =>
        obtain ⟨fs, rfl, hfs⟩ := (ofJson_record_iff hh hk).1 hd
        exact ⟨hh, hk, hfs⟩
      | protocol =>
        obtain ⟨fs, messages, ds, rfl, hparts⟩ := (ofJson_protocol_iff hh hk).1 hd
        exact ⟨hh, hk, hparts⟩
    | _ => cases hd
  · rintro ⟨ms, rfl, hd⟩
    cases d with
    | enumeration h vs =>
      obtain ⟨hh, hk, hvs⟩ := hd
      exact (ofJson_enumeration_iff hh hk).2 ⟨vs, rfl, hvs⟩
    | record h fs =>
      obtain ⟨hh, hk, hfs⟩ := hd
      exact (ofJson_record_iff hh hk).2 ⟨fs, rfl, hfs⟩
    | protocol h fs messages ds =>
      obtain ⟨hh, hk, hparts⟩ := hd
      exact (ofJson_protocol_iff hh hk).2 ⟨fs, messages, ds, rfl, hparts⟩

end Definition

/-! ## Documents -/

theorem Schema.ofJson_obj_ok_iff {s : Schema} {space : String}
    (hspace : lookup "namespace" ms = some (.str space)) (hne : space ≠ "") :
    Schema.ofJson (.obj ms) = .ok s ↔
      s.space = space ∧ ReadsItems Definition.ofJson "types" ms s.definitions := by
  obtain ⟨space', ds⟩ := s
  simp only [Schema.ofJson, hspace, if_neg hne, Definition.listOfJson_eq_mapM, ReadsItems,
    Json.itemsAt?]
  cases lookup "types" ms with
  | none => simp [pure, Except.pure, eq_comm]
  | some types =>
    cases types with
    | arr items =>
      simp only [Fallible.bind_ok_iff, pure, Except.pure, Except.ok.injEq, Schema.mk.injEq,
        Option.some.injEq, exists_eq_left']
      constructor
      · rintro ⟨_, hds, rfl, rfl⟩
        exact ⟨rfl, hds⟩
      · rintro ⟨rfl, hds⟩
        exact ⟨ds, hds, rfl, rfl⟩
    | _ => simp

theorem Schema.ofJson_ok_iff {s : Schema} :
    Schema.ofJson j = .ok s ↔ ∃ ms, j = .obj ms ∧ lookup "namespace" ms = some (.str s.space) ∧
      s.space ≠ "" ∧ ReadsItems Definition.ofJson "types" ms s.definitions := by
  constructor
  · intro h
    cases j with
    | obj ms =>
      obtain ⟨space, hspace, hne⟩ :
          ∃ space, lookup "namespace" ms = some (.str space) ∧ space ≠ "" := by
        rw [Schema.ofJson] at h
        split at h
        · next space hspace =>
          split_ifs at h with hne
          exact ⟨space, hspace, hne⟩
        · cases h
      obtain ⟨rfl, hds⟩ := (Schema.ofJson_obj_ok_iff hspace hne).1 h
      exact ⟨ms, rfl, hspace, hne, hds⟩
    | _ => cases h
  · rintro ⟨ms, rfl, hspace, hne, hds⟩
    exact (Schema.ofJson_obj_ok_iff hspace hne).2 ⟨rfl, hds⟩

end Typewright
