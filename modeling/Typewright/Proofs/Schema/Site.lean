import Typewright.Schema.Basic

/-!
# Sites

The site of a definition is the definition together with the protocols around it. The walk of a
schema visits its sites in order, and reports at each the fields of the protocols around.

- `Schema.sites`: the sites of a schema, protocols before what they hold.
- `Schema.walk_eq_sites`: the walk is the list of sites, seen through the fields they inherit.
- `Definition.Everywhere`, `Schema.forall_mem_walk_iff`: a property of all definitions of the walk.
- `Schema.isPath_of_mem_sites`: the protocols around a site hold one another down to the definition.
- `Schema.mem_sites_of_suffix`: each of them has a site of its own.
-/

namespace Typewright

/-- A definition and the protocols around it, the immediate one first. -/
structure Site where
  definition : Definition
  around : List Definition

/-- The fields of protocols around a definition, those of the outermost first. -/
def fieldsAround (around : List Definition) : List Field :=
  around.reverse.flatMap (·.fields)

/-- The name of the immediate protocol among those around a definition. -/
def parentName (around : List Definition) : Option String :=
  around.head?.map (·.name)

@[simp] theorem fieldsAround_nil : fieldsAround [] = [] := rfl

@[simp] theorem fieldsAround_cons (d : Definition) (around : List Definition) :
    fieldsAround (d :: around) = fieldsAround around ++ d.fields := by
  simp [fieldsAround]

theorem fieldsAround_protocol (h : Heading) (fs : List Field) (ms : List Message)
    (ds around : List Definition) :
    fieldsAround (.protocol h fs ms ds :: around) = fieldsAround around ++ fs :=
  fieldsAround_cons _ _

theorem mem_fieldsAround {f : Field} {around : List Definition} :
    f ∈ fieldsAround around ↔ ∃ p ∈ around, f ∈ p.fields := by
  simp [fieldsAround]

namespace Site

/-- The fields that the definition at a site inherits. -/
def inherited (x : Site) : List Field :=
  fieldsAround x.around

def parent? (x : Site) : Option String :=
  parentName x.around

end Site

namespace Definition

def children : Definition → List Definition
  | .protocol _ _ _ ds => ds
  | _ => []

def values : Definition → List EnumValue
  | .enumeration _ vs => vs
  | _ => []

def messages : Definition → List Message
  | .protocol _ _ ms _ => ms
  | _ => []

mutual

/-- The sites of a definition and of all below it, where some protocols are around it. -/
def sites (around : List Definition) : Definition → List Site
  | .protocol h fs ms ds =>
    ⟨.protocol h fs ms ds, around⟩ :: sitesAll (.protocol h fs ms ds :: around) ds
  | .record h fs => [⟨.record h fs, around⟩]
  | .enumeration h vs => [⟨.enumeration h vs, around⟩]

def sitesAll (around : List Definition) : List Definition → List Site
  | [] => []
  | d :: ds => sites around d ++ sitesAll around ds

end

theorem sitesAll_eq_flatMap (around ds : List Definition) :
    sitesAll around ds = ds.flatMap (sites around) := by
  induction ds with
  | nil => rfl
  | cons d r ih => rw [sitesAll, ih, List.flatMap_cons]

theorem sites_eq_cons (around : List Definition) (d : Definition) :
    sites around d = ⟨d, around⟩ :: sitesAll (d :: around) d.children := by
  cases d <;> rfl

theorem exists_sites_eq_cons (around : List Definition) (d : Definition) :
    ∃ below, sites around d = ⟨d, around⟩ :: below := by
  cases d <;> exact ⟨_, rfl⟩

mutual

theorem walk_eq_sites (around : List Definition) :
    ∀ d, walk (fieldsAround around) d = (sites around d).map fun x => (x.definition, x.inherited)
  | .enumeration _ _ => rfl
  | .record _ _ => rfl
  | .protocol h fs ms ds => by
    have hd := walkAll_eq_sitesAll (.protocol h fs ms ds :: around) ds
    rw [walk, sites, List.map_cons, ← hd, fieldsAround_protocol]; rfl

theorem walkAll_eq_sitesAll (around : List Definition) :
    ∀ ds, walkAll (fieldsAround around) ds =
      (sitesAll around ds).map fun x => (x.definition, x.inherited)
  | [] => rfl
  | d :: ds => by
    rw [walkAll, sitesAll, List.map_append, walk_eq_sites around d, walkAll_eq_sitesAll around ds]

end

/--
The chain leads from a top-level definition, which stands last, to the definition that stands first:
each is held by the one after it.
-/
def IsPath (top : List Definition) : List Definition → Prop
  | [] => True
  | [d] => d ∈ top
  | d :: p :: r => d ∈ p.children ∧ IsPath top (p :: r)

theorem isPath_cons {top around : List Definition} {p d : Definition}
    (h : IsPath top (p :: around)) (hd : d ∈ p.children) : IsPath top (d :: p :: around) :=
  ⟨hd, h⟩

theorem exists_mem_children_of_isPath {top around : List Definition} {d : Definition}
    (h : IsPath top (d :: around)) : ∀ p ∈ around, ∃ e, e ∈ p.children := by
  induction around generalizing d with
  | nil => simp
  | cons p r ih => exact List.forall_mem_cons.2 ⟨⟨d, h.1⟩, ih h.2⟩

mutual

/-- What holds of the path to a definition holds of the paths to all below it. -/
theorem isPath_of_mem_sites {top around : List Definition} :
    ∀ {d : Definition}, IsPath top (d :: around) → ∀ {x : Site}, x ∈ sites around d →
      IsPath top (x.definition :: x.around)
  | .enumeration _ _, h, x, hx => by
    rw [sites, List.mem_singleton] at hx
    subst hx
    exact h
  | .record _ _, h, x, hx => by
    rw [sites, List.mem_singleton] at hx
    subst hx
    exact h
  | .protocol hd fs ms ds, h, x, hx => by
    rw [sites, List.mem_cons] at hx
    rcases hx with rfl | hx
    · exact h
    · exact isPath_of_mem_sitesAll (fun d hmem => isPath_cons h hmem) hx

theorem isPath_of_mem_sitesAll {top around : List Definition} :
    ∀ {ds : List Definition}, (∀ d ∈ ds, IsPath top (d :: around)) → ∀ {x : Site},
      x ∈ sitesAll around ds → IsPath top (x.definition :: x.around)
  | [], _, x, hx => by simp [sitesAll] at hx
  | d :: ds, h, x, hx => by
    rw [sitesAll, List.mem_append] at hx
    rcases hx with hx | hx
    · exact isPath_of_mem_sites (h d List.mem_cons_self) hx
    · exact isPath_of_mem_sitesAll (fun e he => h e (List.mem_cons_of_mem d he)) hx

end

mutual

/-- A protocol around a site has a site of its own, unless it was around from the start. -/
theorem mem_sites_of_suffix {around : List Definition} :
    ∀ {d : Definition} {x : Site}, x ∈ sites around d → ∀ {p : Definition} {rest : List Definition},
      p :: rest <:+ x.around → p :: rest <:+ around ∨ ⟨p, rest⟩ ∈ sites around d
  | .enumeration _ _, x, hx, p, rest, hp => by
    rw [sites, List.mem_singleton] at hx
    subst hx
    exact .inl hp
  | .record _ _, x, hx, p, rest, hp => by
    rw [sites, List.mem_singleton] at hx
    subst hx
    exact .inl hp
  | .protocol h fs ms ds, x, hx, p, rest, hp => by
    rw [sites, List.mem_cons] at hx
    rcases hx with rfl | hx
    · exact .inl hp
    rcases mem_sitesAll_of_suffix hx hp with hp | hp
    · rcases List.suffix_cons_iff.1 hp with heq | hp
      · obtain ⟨rfl, rfl⟩ := List.cons.inj heq
        exact .inr List.mem_cons_self
      · exact .inl hp
    · exact .inr (List.mem_cons_of_mem _ hp)

theorem mem_sitesAll_of_suffix {around : List Definition} :
    ∀ {ds : List Definition} {x : Site}, x ∈ sitesAll around ds →
      ∀ {p : Definition} {rest : List Definition},
        p :: rest <:+ x.around → p :: rest <:+ around ∨ ⟨p, rest⟩ ∈ sitesAll around ds
  | [], x, hx, _, _, _ => by simp [sitesAll] at hx
  | d :: ds, x, hx, p, rest, hp => by
    rw [sitesAll, List.mem_append] at hx ⊢
    rcases hx with hx | hx
    · exact (mem_sites_of_suffix hx hp).imp_right .inl
    · exact (mem_sitesAll_of_suffix hx hp).imp_right .inr

end

end Definition

namespace Definition

mutual

/-- What holds of a definition if it does of all that the definition holds, holds of every one. -/
@[elab_as_elim]
theorem induction {P : Definition → Prop} (step : ∀ d, (∀ e ∈ d.children, P e) → P d) : ∀ d, P d
  | .enumeration h vs => step (.enumeration h vs) fun _ he => by cases he
  | .record h fs => step (.record h fs) fun _ he => by cases he
  | .protocol h fs ms ds => step (.protocol h fs ms ds) (induction_all step ds)

theorem induction_all {P : Definition → Prop} (step : ∀ d, (∀ e ∈ d.children, P e) → P d) :
    ∀ ds : List Definition, ∀ e ∈ ds, P e
  | [] => fun _ he => by cases he
  | d :: ds => List.forall_mem_cons.2 ⟨induction step d, induction_all step ds⟩

end

/-- The definition and all below it have a property. -/
inductive Everywhere (p : Definition → Prop) : Definition → Prop
  | intro {d : Definition} (here : p d) (below : ∀ e ∈ d.children, Everywhere p e) :
      Everywhere p d

variable {p : Definition → Prop}

theorem everywhere_iff {d : Definition} :
    Everywhere p d ↔ p d ∧ ∀ e ∈ d.children, Everywhere p e :=
  ⟨fun ⟨here, below⟩ => ⟨here, below⟩, fun ⟨here, below⟩ => ⟨here, below⟩⟩

theorem Everywhere.imp {q : Definition → Prop} (hpq : ∀ e, p e → q e) {d : Definition}
    (h : Everywhere p d) : Everywhere q d := by
  induction h with
  | intro here _ ih => exact .intro (hpq _ here) ih

theorem everywhere_of_forall (h : ∀ d, p d) (d : Definition) : Everywhere p d := by
  induction d using Definition.induction with
  | step d ih => exact .intro (h d) ih

/-- The definition and all below it are those at its sites. -/
theorem forall_mem_sites_iff {d : Definition} {around : List Definition} :
    (∀ x ∈ sites around d, p x.definition) ↔ Everywhere p d := by
  induction d using Definition.induction generalizing around with
  | step d ih =>
    rw [everywhere_iff, sites_eq_cons, List.forall_mem_cons, sitesAll_eq_flatMap]
    simp only [List.forall_mem_flatMap]
    exact and_congr_right fun _ => forall₂_congr fun e he => ih e he

end Definition

namespace Schema

def sites (s : Schema) : List Site :=
  Definition.sitesAll [] s.definitions

/-- The walk of a schema visits its sites, and reports the fields they inherit. -/
theorem walk_eq_sites (s : Schema) :
    s.walk = s.sites.map fun x => (x.definition, x.inherited) :=
  Definition.walkAll_eq_sitesAll [] s.definitions

/-- The definitions of the walk are the definitions of the schema and all below them. -/
theorem forall_mem_walk_iff {s : Schema} {p : Definition → Prop} :
    (∀ w ∈ s.walk, p w.1) ↔ ∀ d ∈ s.definitions, d.Everywhere p := by
  simp only [walk_eq_sites, List.forall_mem_map, sites, Definition.sitesAll_eq_flatMap,
    List.forall_mem_flatMap, Definition.forall_mem_sites_iff]

theorem isPath_of_mem_sites {s : Schema} {x : Site} (h : x ∈ s.sites) :
    Definition.IsPath s.definitions (x.definition :: x.around) :=
  Definition.isPath_of_mem_sitesAll (fun _ hd => hd) h

/-- A protocol around a site of a schema has a site of its own. -/
theorem mem_sites_of_suffix {s : Schema} {x : Site} (hx : x ∈ s.sites) {p : Definition}
    {rest : List Definition} (h : p :: rest <:+ x.around) : ⟨p, rest⟩ ∈ s.sites := by
  rcases Definition.mem_sitesAll_of_suffix hx h with h | h
  · simp at h
  · exact h

theorem mem_sites_first {s : Schema} {first : Definition} {rest : List Definition}
    (h : s.definitions = first :: rest) : ⟨first, []⟩ ∈ s.sites := by
  obtain ⟨below, hb⟩ := Definition.exists_sites_eq_cons [] first
  rw [sites, h, Definition.sitesAll, hb]
  exact List.mem_cons_self

theorem mem_walk_of_mem_sites {s : Schema} {x : Site} (hx : x ∈ s.sites) :
    (x.definition, x.inherited) ∈ s.walk := by
  rw [walk_eq_sites]
  exact List.mem_map_of_mem hx

/-- The fields that a definition inherits are fields of definitions of the schema. -/
theorem forall_inherited {s : Schema} {P : Field → Prop}
    (h : ∀ w ∈ s.walk, ∀ f ∈ w.1.fields, P f) {x : Site} (hx : x ∈ s.sites) :
    ∀ f ∈ x.inherited ++ x.definition.fields, P f := by
  intro f hf
  rcases List.mem_append.1 hf with hf | hf
  · obtain ⟨p, hp, hf⟩ := mem_fieldsAround.1 hf
    obtain ⟨pre, rest, hpre⟩ := List.append_of_mem hp
    have hsite := mem_sites_of_suffix hx ⟨pre, hpre.symm⟩
    exact h _ (mem_walk_of_mem_sites hsite) f hf
  · exact h _ (mem_walk_of_mem_sites hx) f hf

end Schema

end Typewright
