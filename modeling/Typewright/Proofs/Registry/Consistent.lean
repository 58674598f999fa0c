import Mathlib.Data.List.Flatten
import Mathlib.Data.List.Nodup
import Mathlib.Data.List.Pairwise
import Typewright.Proofs.Text.Case
import Typewright.Registry.Basic

/-!
# Consistent registries

The map of names of a registry has, entry by entry, the primary name and the aliases, all in lower
case and none twice.

- `Registry.Consistent`: the invariant; `consistent_empty` and `consistent_register` carry it.
- `Registry.register_ok_iff`: which registrations succeed, and what they add.
- `Registry.Sound`: what the two maps say of each other; `Registry.Consistent.sound` that the
  invariant has it all.
- `Registry.resolve_ok_iff`: which names lead where.
-/

namespace Typewright

/-- The names that lead to an entry. -/
def RegistryEntry.keys (e : RegistryEntry) : List String :=
  e.name :: e.aliases

def RegistryEntry.bindings (e : RegistryEntry) : List (String × String) :=
  e.keys.map fun key => (key, e.name)

theorem RegistryEntry.map_fst_bindings (e : RegistryEntry) : e.bindings.map (·.1) = e.keys := by
  simp [bindings, Function.comp_def]

namespace Registry

variable {r r' : Registry} {e : RegistryEntry} {key owner name : String} {ks : List String}

def keys (r : Registry) : List String :=
  r.names.map (·.1)

/-- The entry that a registration adds. -/
def newEntry (language : String) (target : Target) (aliases : List String) : RegistryEntry :=
  ⟨Text.lower language, target, aliasKeys (Text.lower language) aliases⟩

/-! ## Names in a map -/

theorem lookup_eq_none_iff {names : List (String × String)} :
    names.lookup key = none ↔ key ∉ names.map (·.1) := by
  induction names with
  | nil => simp
  | cons p rest ih =>
    obtain ⟨k, o⟩ := p
    by_cases hk : key = k
    · simp [hk]
    · rw [List.lookup_cons, show (key == k) = false by simpa using hk, ih]
      simp [hk]

/-- Where no name stands twice, the map gives what it has. -/
theorem lookup_eq_some_iff {names : List (String × String)} (hn : (names.map (·.1)).Nodup) :
    names.lookup key = some owner ↔ (key, owner) ∈ names := by
  induction names with
  | nil => simp
  | cons p rest ih =>
    obtain ⟨k, o⟩ := p
    obtain ⟨hk, hn⟩ := List.nodup_cons.1 hn
    by_cases h : key = k
    · subst h
      have : (key, owner) ∉ rest := fun hmem => hk (List.mem_map.2 ⟨_, hmem, rfl⟩)
      simp [this, eq_comm]
    · rw [List.lookup_cons, show (key == k) = false by simpa using h, ih hn]
      simp [h]

theorem conflict?_eq_none_iff : r.conflict? ks = none ↔ ∀ key ∈ ks, key ∉ r.keys := by
  simp only [conflict?, List.findSome?_eq_none_iff, Option.map_eq_none_iff, lookup_eq_none_iff,
    keys]

/-! ## The entry of a registration -/

theorem nodup_aliasKeys (aliases : List String) : (aliasKeys name aliases).Nodup :=
  (Text.nodup_sortedSet _).filter _

theorem isSorted_aliasKeys (aliases : List String) : Text.IsSorted (aliasKeys name aliases) :=
  (Text.isSorted_sortedSet _).filter _

theorem mem_aliasKeys {aliases : List String} :
    key ∈ aliasKeys name aliases ↔ (∃ a ∈ aliases, Text.lower a = key) ∧ key ≠ name := by
  simp [aliasKeys, Text.mem_sortedSet]

theorem nodup_keys_newEntry (language : String) (target : Target) (aliases : List String) :
    (newEntry language target aliases).keys.Nodup :=
  List.nodup_cons.2 ⟨fun h => (mem_aliasKeys.1 h).2 rfl, nodup_aliasKeys aliases⟩

theorem lower_of_mem_newEntry {language : String} {target : Target} {aliases : List String}
    (h : key ∈ (newEntry language target aliases).keys) : Text.lower key = key := by
  rcases List.mem_cons.1 h with rfl | h
  · exact Text.lower_lower language
  · obtain ⟨⟨a, -, rfl⟩, -⟩ := mem_aliasKeys.1 h
    exact Text.lower_lower a

theorem register_eq (r : Registry) (language : String) (target : Target) (aliases : List String) :
    r.register language target aliases =
      match r.conflict? (newEntry language target aliases).keys with
      | some e => .error e
      | none =>
        .ok ⟨r.entries ++ [newEntry language target aliases],
          r.names ++ (newEntry language target aliases).bindings⟩ :=
  rfl

/-- A registration succeeds if its names are free, and adds its entry at the end. -/
theorem register_ok_iff {language : String} {target : Target} {aliases : List String} :
    r.register language target aliases = .ok r' ↔
      (∀ key ∈ (newEntry language target aliases).keys, key ∉ r.keys) ∧
        r' = ⟨r.entries ++ [newEntry language target aliases],
          r.names ++ (newEntry language target aliases).bindings⟩ := by
  rw [← conflict?_eq_none_iff, register_eq]
  split
  · next h => simp [h]
  · next h => simp [h, eq_comm]

/-! ## The invariant -/

/-- The map of names is what the entries make of it. -/
structure Consistent (r : Registry) : Prop where
  names_eq : r.names = r.entries.flatMap (·.bindings)
  /-- No name is taken twice. -/
  nodup : r.keys.Nodup
  lower : ∀ key ∈ r.keys, Text.lower key = key
  sorted : ∀ e ∈ r.entries, Text.IsSorted e.aliases

theorem consistent_empty : empty.Consistent :=
  ⟨rfl, List.nodup_nil, by simp [keys, empty], by simp [empty]⟩

/-- A registration that succeeds keeps the invariant. -/
theorem consistent_register {language : String} {target : Target} {aliases : List String}
    (hr : r.Consistent) (h : r.register language target aliases = .ok r') : r'.Consistent := by
  obtain ⟨hfree, rfl⟩ := register_ok_iff.1 h
  have hkeys : keys ⟨r.entries ++ [newEntry language target aliases],
      r.names ++ (newEntry language target aliases).bindings⟩ =
        r.keys ++ (newEntry language target aliases).keys := by
    rw [keys, List.map_append, RegistryEntry.map_fst_bindings]; rfl
  refine ⟨by simp [hr.names_eq], ?_, fun key hkey => ?_, fun e he => ?_⟩
  · rw [hkeys, List.nodup_append']
    exact ⟨hr.nodup, nodup_keys_newEntry .., fun key hkey hnew => hfree key hnew hkey⟩
  · rw [hkeys, List.mem_append] at hkey
    exact hkey.elim (hr.lower key) lower_of_mem_newEntry
  · rcases List.mem_append.1 he with he | he
    · exact hr.sorted e he
    · obtain rfl := List.mem_singleton.1 he
      exact isSorted_aliasKeys aliases

namespace Consistent

theorem keys_eq (h : r.Consistent) : r.keys = r.entries.flatMap (·.keys) := by
  rw [keys, h.names_eq, List.map_flatMap]
  exact List.flatMap_congr fun e _ => e.map_fst_bindings

theorem mem_names_iff (h : r.Consistent) :
    (key, owner) ∈ r.names ↔ ∃ e ∈ r.entries, key ∈ e.keys ∧ e.name = owner := by
  simp [h.names_eq, RegistryEntry.bindings]

/-- A name leads to an entry exactly when it is one of its names. -/
theorem lookup_iff (h : r.Consistent) :
    r.names.lookup key = some owner ↔ ∃ e ∈ r.entries, key ∈ e.keys ∧ e.name = owner :=
  (lookup_eq_some_iff h.nodup).trans h.mem_names_iff

theorem nodup_flatMap (h : r.Consistent) : (r.entries.flatMap (·.keys)).Nodup :=
  h.keys_eq ▸ h.nodup

theorem nodup_keys_of_mem (h : r.Consistent) (he : e ∈ r.entries) : e.keys.Nodup :=
  (List.nodup_flatMap.1 h.nodup_flatMap).1 e he

theorem name_mem_keys (h : r.Consistent) (e : RegistryEntry) (he : e ∈ r.entries) :
    e.name ∈ r.keys :=
  h.keys_eq ▸ List.mem_flatMap.2 ⟨e, he, List.mem_cons_self⟩

/-- No name belongs to two entries. -/
theorem eq_of_mem_keys {e' : RegistryEntry} (h : r.Consistent) (he : e ∈ r.entries)
    (he' : e' ∈ r.entries) (hk : key ∈ e.keys) (hk' : key ∈ e'.keys) : e = e' := by
  by_contra hne
  have : Std.Symm (Function.onFun List.Disjoint RegistryEntry.keys) :=
    ⟨fun _ _ hd _ ha hb => hd hb ha⟩
  exact (List.nodup_flatMap.1 h.nodup_flatMap).2.forall he he' hne hk hk'

/-- The entry that is found under a primary name is the one with that name. -/
theorem find?_name (h : r.Consistent) (he : e ∈ r.entries) :
    r.entries.find? (·.name == e.name) = some e := by
  cases hf : r.entries.find? (·.name == e.name) with
  | none => simpa using List.find?_eq_none.1 hf e he
  | some e' =>
    have hname : e'.name = e.name := by simpa using List.find?_some hf
    rw [h.eq_of_mem_keys (List.mem_of_find?_eq_some hf) he (hname ▸ List.mem_cons_self)
      List.mem_cons_self]

end Consistent

/-! ## What the maps say of each other -/

/-- What the map of names says of the entries, and the entries of it. -/
structure Sound (r : Registry) : Prop where
  key_lower : ∀ key owner, r.names.lookup key = some owner → Text.lower key = key
  /-- A primary name maps to itself. -/
  name_leads : ∀ e ∈ r.entries, r.names.lookup e.name = some e.name
  /-- An alias maps to the primary name of its entry. -/
  alias_leads : ∀ e ∈ r.entries, ∀ a ∈ e.aliases, r.names.lookup a = some e.name
  /-- Nothing else is in the map. -/
  key_iff : ∀ key, (r.names.lookup key).isSome ↔ ∃ e ∈ r.entries, key = e.name ∨ key ∈ e.aliases
  /-- No name belongs to two entries. -/
  one_entry : ∀ e ∈ r.entries, ∀ e' ∈ r.entries, ∀ key,
    (key = e.name ∨ key ∈ e.aliases) → (key = e'.name ∨ key ∈ e'.aliases) → e = e'
  /-- A name maps to nothing that is not registered. -/
  owner_registered : ∀ key owner, r.names.lookup key = some owner → ∃ e ∈ r.entries, e.name = owner
  alias_sorted : ∀ e ∈ r.entries, Text.IsSorted e.aliases
  alias_nodup : ∀ e ∈ r.entries, e.aliases.Nodup
  alias_ne_name : ∀ e ∈ r.entries, e.name ∉ e.aliases
  /-- No primary name has two entries, and no name two owners. -/
  maps : (r.entries.map (·.name)).Nodup ∧ (r.names.map (·.1)).Nodup

theorem Consistent.sound (h : r.Consistent) : r.Sound where
  key_lower key owner hk := by
    obtain ⟨e, he, hkey, -⟩ := h.lookup_iff.1 hk
    exact h.lower key (h.keys_eq ▸ List.mem_flatMap.2 ⟨e, he, hkey⟩)
  name_leads e he := h.lookup_iff.2 ⟨e, he, List.mem_cons_self, rfl⟩
  alias_leads e he a ha := h.lookup_iff.2 ⟨e, he, List.mem_cons_of_mem _ ha, rfl⟩
  key_iff key := by
    rw [Option.isSome_iff_exists]
    constructor
    · rintro ⟨owner, hk⟩
      obtain ⟨e, he, hkey, -⟩ := h.lookup_iff.1 hk
      exact ⟨e, he, List.mem_cons.1 hkey⟩
    · rintro ⟨e, he, hkey⟩
      exact ⟨e.name, h.lookup_iff.2 ⟨e, he, List.mem_cons.2 hkey, rfl⟩⟩
  one_entry e he e' he' key hk hk' :=
    h.eq_of_mem_keys he he' (List.mem_cons.2 hk) (List.mem_cons.2 hk')
  owner_registered key owner hk := by
    obtain ⟨e, he, -, howner⟩ := h.lookup_iff.1 hk
    exact ⟨e, he, howner⟩
  alias_sorted := h.sorted
  alias_nodup e he := (List.nodup_cons.1 (h.nodup_keys_of_mem he)).2
  alias_ne_name e he := (List.nodup_cons.1 (h.nodup_keys_of_mem he)).1
  maps := by
    refine ⟨h.nodup_flatMap.sublist ?_, h.nodup⟩
    rw [List.map_eq_flatMap]
    exact List.Sublist.flatMap_right r.entries fun e _ =>
      (List.nil_sublist e.aliases).cons_cons e.name

/-! ## Looking names up -/

theorem resolve_ok_iff {language : String} :
    r.resolve language = .ok name ↔ r.names.lookup (Text.lower language) = some name := by
  unfold resolve
  split
  · next h => simp [h]
  · next h => simp [h]

/-- A name that resolves leads to an entry that is there. -/
theorem Consistent.entryOf_ok (h : r.Consistent) {language : String}
    (hres : r.resolve language = .ok name) :
    ∃ e ∈ r.entries, e.name = name ∧ r.entryOf language = .ok e := by
  obtain ⟨e, he, -, rfl⟩ := h.lookup_iff.1 (resolve_ok_iff.1 hres)
  refine ⟨e, he, rfl, ?_⟩
  simp only [entryOf, hres, bind, Except.bind, h.find?_name he]
  rfl

end Registry

end Typewright
