import Typewright.Proofs.Json.Members
import Typewright.Settings.Layers

/-!
# Layers of settings

What layers of settings give when they are laid over each other. The settings of all languages are
taken from the layer above if it has them, and so are the entries of the custom tables, one by one.
The settings that the outcome gives have a custom table of its entries and, on top of these, of its
members that are no settings of all languages.

- `Settings.overlay_of_lookup`: a layer is laid over another by setting its members.
- `Settings.LaidOver`: what two layers give together.
- `Settings.exists_overlay`: a layer can be laid over another.
- `Settings.ofMembers_eq`, `Settings.lookup_setMembers_othersOf`: the settings of a layer.
-/

namespace Typewright

open Json

namespace Settings

variable {below above members : List (String × Json)}

/-! ## Layers -/

/-- The entries of the custom table of a layer. -/
def customOf (layer : List (String × Json)) : List (String × Json) :=
  match lookup "custom" layer with
  | some (.obj entries) => entries
  | _ => []

/-- The custom setting of a layer, if it has one, is a table. -/
def HasCustomTable (layer : List (String × Json)) : Prop :=
  ∀ j, lookup "custom" layer = some j → ∃ entries, j = .obj entries

/-- A layer names each setting once, and its custom table, if it has one, each entry. -/
structure IsLayer (layer : List (String × Json)) : Prop where
  distinct : Distinct layer
  custom : ∀ j, lookup "custom" layer = some j → ∃ entries, j = .obj entries ∧ Distinct entries

theorem customOf_of_lookup {layer entries : List (String × Json)}
    (h : lookup "custom" layer = some (.obj entries)) : customOf layer = entries := by
  rw [customOf, h]

theorem customOf_of_none {layer : List (String × Json)} (h : lookup "custom" layer = none) :
    customOf layer = [] := by
  rw [customOf, h]

theorem IsLayer.distinct_customOf {layer : List (String × Json)} (h : IsLayer layer) :
    Distinct (customOf layer) := by
  cases hc : lookup "custom" layer with
  | none =>
    rw [customOf_of_none hc]
    exact distinct_nil
  | some j =>
    obtain ⟨entries, rfl, hd⟩ := h.custom j hc
    rw [customOf_of_lookup hc]
    exact hd

/-- The members of an object that was read are a layer, if the custom setting is a table. -/
theorem isLayer_of_proper {layer : List (String × Json)} (hp : Proper (.obj layer))
    (hc : HasCustomTable layer) : IsLayer layer := by
  cases hp with
  | obj hd hm =>
    refine ⟨hd, fun j hj => ?_⟩
    obtain ⟨entries, rfl⟩ := hc j hj
    cases hm _ (mem_of_lookup hj) with
    | obj hd' _ => exact ⟨entries, rfl, hd'⟩

/-! ## One layer over another -/

/-- Members that two layers give together: those of the one above come before those below. -/
structure LaidOver (below above members : List (String × Json)) : Prop where
  layer : IsLayer members
  shared : ∀ k, k ≠ "custom" → lookup k members = (lookup k above).or (lookup k below)
  custom : ∀ k, lookup k (customOf members) =
    (lookup k (customOf above)).or (lookup k (customOf below))

/-- The custom setting after that of a layer above was laid over what is below. -/
def customOver (below : Option Json) : Json → Except Defect Json
  | .obj entries =>
    match below with
    | none => .ok (.obj entries)
    | some (.obj table) => .ok (.obj (setMembers table entries))
    | some other => .error (.noMember other "update")
  | j => .ok j

theorem overlayOne_of_ne {name : String} (h : name ≠ "custom") (value : Json) :
    overlayOne below name value = .ok (setMember name value below) := by
  unfold overlayOne
  split
  · next heq => exact absurd rfl h
  · rfl

theorem overlayOne_custom (below : List (String × Json)) (value : Json) :
    overlayOne below "custom" value =
      (setMember "custom" · below) <$> customOver (lookup "custom" below) value := by
  cases value with
  | obj entries =>
    simp only [overlayOne, customOver]
    cases lookup "custom" below with
    | none => rfl
    | some j => cases j <;> rfl
  | _ => rfl

theorem overlay_of_lookup_none (h : lookup "custom" above = none) :
    overlay below above = .ok (setMembers below above) := by
  induction above generalizing below with
  | nil => rfl
  | cons m r ih =>
    obtain ⟨name, value⟩ := m
    rw [lookup] at h
    split_ifs at h with hn
    rw [overlay, overlayOne_of_ne hn]
    exact ih h

/-- A layer is laid over another by setting its members, the custom one as what the two give. -/
theorem overlay_of_lookup (hd : Distinct above) {value : Json}
    (h : lookup "custom" above = some value) :
    overlay below above = (fun j => setMembers below (setMember "custom" j above)) <$>
      customOver (lookup "custom" below) value := by
  induction above generalizing below with
  | nil => cases h
  | cons m r ih =>
    obtain ⟨name, other⟩ := m
    obtain ⟨hfirst, hr⟩ := distinct_cons.1 hd
    rw [lookup] at h
    split_ifs at h with hn
    · -- The custom member comes once, so what follows it is set as it is.
      subst hn
      obtain rfl := Option.some.inj h
      have hnone := lookup_eq_none_iff.2 hfirst
      rw [overlay, overlayOne_custom]
      cases customOver (lookup "custom" below) other with
      | error d => rfl
      | ok j =>
        simp only [setMember, if_true, setMembers_cons]
        exact overlay_of_lookup_none hnone
    · have hc := lookup_setMember_of_ne (Ne.symm hn) other below
      rw [overlay, overlayOne_of_ne hn, ← hc]
      simp only [setMember, hn, if_false, setMembers_cons]
      exact ih hr h

theorem exists_customOver (hb : IsLayer below) {entries : List (String × Json)}
    (hd : Distinct entries) :
    ∃ table, customOver (lookup "custom" below) (.obj entries) = .ok (.obj table) ∧
      Distinct table ∧
      ∀ k, lookup k table = (lookup k entries).or (lookup k (customOf below)) := by
  cases hc : lookup "custom" below with
  | none =>
    refine ⟨entries, rfl, hd, fun k => ?_⟩
    rw [customOf_of_none hc]
    simp [lookup]
  | some j =>
    obtain ⟨table, rfl, ht⟩ := hb.custom j hc
    refine ⟨setMembers table entries, rfl, distinct_setMembers ht entries, fun k => ?_⟩
    rw [customOf_of_lookup hc, lookup_setMembers hd]

/-- A layer can be laid over another. -/
theorem exists_overlay (hb : IsLayer below) (ha : IsLayer above) :
    ∃ members, overlay below above = .ok members ∧ LaidOver below above members := by
  cases hc : lookup "custom" above with
  | none =>
    have hcustom : lookup "custom" (setMembers below above) = lookup "custom" below := by
      rw [lookup_setMembers ha.distinct, hc, Option.none_or]
    refine ⟨_, overlay_of_lookup_none hc, ⟨⟨distinct_setMembers hb.distinct above, ?_⟩, ?_, ?_⟩⟩
    · rw [hcustom]
      exact hb.custom
    · exact fun k _ => lookup_setMembers ha.distinct
    · intro k
      rw [customOf_of_none hc, customOf, hcustom, customOf]
      rfl
  | some j =>
    obtain ⟨entries, rfl, hd⟩ := ha.custom j hc
    obtain ⟨table, htable, ht, hentries⟩ := exists_customOver hb hd
    have hset : Distinct (setMember "custom" (.obj table) above) :=
      distinct_setMember ha.distinct _
    -- the joined table replaces the custom member, and is what is found under that name
    have hcustom : lookup "custom" (setMembers below (setMember "custom" (.obj table) above)) =
        some (.obj table) := by
      rw [lookup_setMembers hset, lookup_setMember_self, Option.some_or]
    refine ⟨setMembers below (setMember "custom" (.obj table) above), ?_,
      ⟨⟨distinct_setMembers hb.distinct _, fun j hj => ?_⟩, fun k hk => ?_, fun k => ?_⟩⟩
    · rw [overlay_of_lookup ha.distinct hc, htable]
      rfl
    · rw [hcustom] at hj
      exact ⟨table, (Option.some.inj hj).symm, ht⟩
    · rw [lookup_setMembers hset, lookup_setMember_of_ne hk]
    · rw [customOf_of_lookup hcustom, hentries, customOf_of_lookup hc]

/-! ## The settings that members give -/

/-- The custom setting that a layer gives. -/
theorem getD_custom {layer : List (String × Json)} (h : IsLayer layer) :
    (lookup "custom" layer).getD (.obj []) = .obj (customOf layer) := by
  cases hc : lookup "custom" layer with
  | none => rw [customOf_of_none hc, Option.getD_none]
  | some j =>
    obtain ⟨entries, rfl, -⟩ := h.custom j hc
    rw [customOf_of_lookup hc, Option.getD_some]

theorem tableOrEmpty_obj (ms : List (String × Json)) :
    (Json.obj ms).tableOrEmpty = .ok (Table.ofMembers ms) := by
  cases ms with
  | nil => rfl
  | cons m r => rfl

/-- The members of a layer that are no settings of all languages. -/
def othersOf (layer : List (String × Json)) : List (String × Json) :=
  layer.filter fun m => !names.contains m.1

theorem filter_ofMembers (layer : List (String × Json)) :
    (Table.ofMembers layer).filter (fun e => !names.contains e.name) =
      Table.ofMembers (othersOf layer) := by
  rw [Table.ofMembers, List.filter_map]
  rfl

/-- The settings that the members of a layer give; some of the members go into the custom table. -/
theorem ofMembers_eq (h : IsLayer members) :
    ofMembers members = .ok
      { space := (lookup "namespace" members).getD .null
        indentSize := (lookup "indent_size" members).getD (.int 4)
        useTabs := (lookup "use_tabs" members).getD (.bool false)
        addComments := (lookup "add_comments" members).getD (.bool true)
        custom := .obj (setMembers (customOf members) (othersOf members)) } := by
  have hput := Table.members_putAll h.distinct_customOf (othersOf members)
  rw [ofMembers, ofTable, filter_ofMembers, Table.members_ofMembers h.distinct, getD_custom h,
    tableOrEmpty_obj]
  generalize othersOf members = others at hput
  cases others with
  | nil => rfl
  | cons m r =>
    rw [← hput]
    rfl

/-- In the custom table those members come before the entries. -/
theorem lookup_setMembers_othersOf (h : IsLayer members) {k : String} (hk : k ∉ names) :
    lookup k (setMembers (customOf members) (othersOf members)) =
      (lookup k members).or (lookup k (customOf members)) := by
  have hd : Distinct (othersOf members) := h.distinct.sublist (List.filter_sublist.map _)
  have hp : (!names.contains k) = true := by simpa using hk
  rw [lookup_setMembers hd, othersOf, lookup_filter (p := fun n => !names.contains n) hp]

end Settings

end Typewright
