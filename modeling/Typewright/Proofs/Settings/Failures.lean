import Typewright.Proofs.Files.Documents
import Typewright.Proofs.Settings.Precedence

/-!
# Failures of settings

How the layers of a language fail to give settings. A file that is missing, misnamed, unreadable or
no object of JSON is reported as such. What is not reported are the defects: bytes in the file that
hold no text or no document of a depth that can be followed, and a custom setting that is no table
where one is needed. It is needed below a table of the layer above and where settings of no language
have to be collected in it.

- `Json.MakesTable`, `Json.exists_tableOrEmpty_iff`: the values that make a table.
- `Settings.overlay_error_iff`, `Settings.Joined.of_overlay`: one layer over another.
- `Settings.Escapes`: what fails and is not reported.
- `Settings.layered_outcome`: the settings, a reported fault or a defect.
-/

namespace Typewright

namespace Json

/-! ## Values that make a table -/

/-- A value that makes an entry of a table: two items, the first of which can be a key. -/
inductive MakesEntry : Json → Prop
  | list {k v : Json} (hl : ∀ items, k ≠ .arr items) (ho : ∀ ms, k ≠ .obj ms) :
      MakesEntry (.arr [k, v])
  | text {s k v : String} (h : Text.pieces s = [k, v]) : MakesEntry (.str s)
  | object (m n : String × Json) : MakesEntry (.obj [m, n])

/-- A value that is a table, makes one or counts as not set. -/
inductive MakesTable : Json → Prop
  | unset {j : Json} (h : j.isTruthy = false) : MakesTable j
  | object (ms : List (String × Json)) : MakesTable (.obj ms)
  | list {items : List Json} (h : ∀ item ∈ items, MakesEntry item) : MakesTable (.arr items)

theorem exists_keyOf_iff {j : Json} :
    (∃ k, keyOf j = .ok k) ↔ (∀ items, j ≠ .arr items) ∧ ∀ ms, j ≠ .obj ms := by
  cases j <;> simp [keyOf]

theorem exists_entryOf_iff {j : Json} : (∃ e, entryOf j = .ok e) ↔ MakesEntry j := by
  constructor
  · rintro ⟨e, h⟩
    unfold entryOf at h
    split at h
    · obtain ⟨k, hk, -⟩ := Fallible.bind_ok h
      obtain ⟨hl, ho⟩ := exists_keyOf_iff.1 ⟨k, hk⟩
      exact .list hl ho
    · cases h
    · split at h
      · next hp => exact .text hp
      · cases h
    · exact .object _ _
    · cases h
    · cases h
  · rintro (⟨hl, ho⟩ | h | ⟨⟨k, x⟩, ⟨v, y⟩⟩)
    · obtain ⟨⟨key, name⟩, hk⟩ := exists_keyOf_iff.2 ⟨hl, ho⟩
      simp only [entryOf, hk]
      exact ⟨_, rfl⟩
    · simp only [entryOf, h]
      exact ⟨_, rfl⟩
    · exact ⟨_, rfl⟩

theorem exists_entries_iff {items : List Json} :
    (∃ entries, items.mapM entryOf = .ok entries) ↔ ∀ item ∈ items, MakesEntry item := by
  have h := @Fallible.exists_mapM_ok_iff Defect Json Entry entryOf (fun _ => True) items
  simpa [exists_entryOf_iff] using h

theorem exists_tableOrEmpty_iff {j : Json} : (∃ t, j.tableOrEmpty = .ok t) ↔ MakesTable j := by
  by_cases ht : j.isTruthy
  swap
  · have hj : j.isTruthy = false := by simpa using ht
    rw [tableOrEmpty, hj]
    exact iff_of_true ⟨[], rfl⟩ (.unset hj)
  rw [tableOrEmpty, if_pos ht]
  constructor
  · rintro ⟨t, h⟩
    unfold tableOf at h
    split at h
    · exact .object _
    · next items =>
      obtain ⟨entries, hm, -⟩ := Fallible.bind_ok h
      exact .list (exists_entries_iff.1 ⟨entries, hm⟩)
    · next s =>
      split_ifs at h with hs
      exact .unset (by simp [hs, isTruthy])
    · cases h
  · rintro (h | ms | h)
    · rw [h] at ht
      cases ht
    · exact ⟨_, rfl⟩
    · obtain ⟨entries, hm⟩ := exists_entries_iff.2 h
      simp only [tableOf, hm]
      exact ⟨_, rfl⟩

end Json

namespace Settings

open Json

variable {m : Machine} {t : FileTree} {language : String}
    {below above members : List (String × Json)}
variable {d : Defect} {e : ConfigError}

/-! ## One layer over another -/

/-- A layer has a setting that is none of all languages. -/
def HasOthers (layer : List (String × Json)) : Prop :=
  ∃ k, k ∉ names ∧ lookup k layer ≠ none

/-- What is known of members that two layers give, of whatever kind their custom settings are. -/
structure Joined (below above members : List (String × Json)) : Prop where
  distinct : Distinct members
  others : HasOthers members ↔ HasOthers above ∨ HasOthers below
  custom : ∀ j, (∀ ms, j ≠ .obj ms) → (lookup "custom" members = some j ↔
    (lookup "custom" above).or (lookup "custom" below) = some j)

theorem customOver_error_iff {r : Option Json} {value : Json} :
    customOver r value = .error d ↔
      ∃ entries j, value = .obj entries ∧ r = some j ∧ (∀ ms, j ≠ .obj ms) ∧
        d = .noMember j "update" := by
  unfold customOver
  cases value with
  | obj entries =>
    cases r with
    | none => simp
    | some j => cases j <;> simp [eq_comm]
  | _ => simp

/-- Only tables are laid over each other; anything else takes the place of what was there. -/
theorem customOver_ok {r : Option Json} {value j : Json} (h : customOver r value = .ok j) :
    j = value ∨ (∃ ms, j = .obj ms) ∧ ∃ ms, value = .obj ms := by
  unfold customOver at h
  split at h
  · right
    split at h
    · exact ⟨⟨_, (Except.ok.inj h).symm⟩, _, rfl⟩
    · exact ⟨⟨_, (Except.ok.inj h).symm⟩, _, rfl⟩
    · cases h
  · exact .inl (Except.ok.inj h).symm

/--
A layer cannot be laid over another if it has a custom table and the one below something else.
-/
theorem overlay_error_iff (ha : Distinct above) :
    overlay below above = .error d ↔
      ∃ entries j, lookup "custom" above = some (.obj entries) ∧ lookup "custom" below = some j ∧
        (∀ ms, j ≠ .obj ms) ∧ d = .noMember j "update" := by
  cases hc : lookup "custom" above with
  | none => simp [overlay_of_lookup_none hc]
  | some value =>
    rw [overlay_of_lookup ha hc]
    constructor
    · intro h
      obtain ⟨entries, j, rfl, hj⟩ := customOver_error_iff.1 (Fallible.map_error h)
      exact ⟨entries, j, rfl, hj⟩
    · rintro ⟨entries, j, hv, hj⟩
      rw [customOver_error_iff.2 ⟨entries, j, Option.some.inj hv, hj⟩]
      rfl

theorem hasOthers_iff_of_lookup (h : ∀ k, k ≠ "custom" →
    lookup k members = (lookup k above).or (lookup k below)) :
    HasOthers members ↔ HasOthers above ∨ HasOthers below := by
  simp only [HasOthers, ← exists_or, ← and_or_left]
  refine exists_congr fun k => and_congr_right fun hk => ?_
  have hne : k ≠ "custom" := fun hc => hk (hc ▸ by decide)
  rw [h k hne]
  cases lookup k above <;> simp

theorem Joined.of_overlay (hb : Distinct below) (ha : Distinct above)
    (h : overlay below above = .ok members) : Joined below above members := by
  cases hc : lookup "custom" above with
  | none =>
    rw [overlay_of_lookup_none hc] at h
    obtain rfl := Except.ok.inj h
    refine ⟨distinct_setMembers hb above, hasOthers_iff_of_lookup fun k _ => ?_, fun j _ => ?_⟩
    · exact lookup_setMembers ha
    · rw [lookup_setMembers ha]
  | some value =>
    rw [overlay_of_lookup ha hc] at h
    obtain ⟨j, hj, rfl⟩ := Fallible.map_ok h
    have hset : Distinct (setMember "custom" j above) := distinct_setMember ha j
    refine ⟨distinct_setMembers hb _, hasOthers_iff_of_lookup fun k hk => ?_, fun i hi => ?_⟩
    · rw [lookup_setMembers hset, lookup_setMember_of_ne hk]
    · rw [lookup_setMembers hset, lookup_setMember_self, hc, Option.some_or, Option.some_or]
      obtain rfl | ⟨⟨ms, rfl⟩, ms', rfl⟩ := customOver_ok hj
      · rfl
      · simp [Ne.symm (hi _)]

/-! ## The settings that members give -/

theorem hasOthers_iff : HasOthers members ↔ othersOf members ≠ [] := by
  have hex : HasOthers members ↔ ∃ m ∈ members, m.1 ∉ names := by
    constructor
    · rintro ⟨k, hk, hl⟩
      obtain ⟨m, hm, rfl⟩ := List.mem_map.1 (not_not.1 (mt lookup_eq_none_iff.2 hl))
      exact ⟨m, hm, hk⟩
    · rintro ⟨m, hm, hk⟩
      exact ⟨m.1, hk, fun hl => lookup_eq_none_iff.1 hl (List.mem_map_of_mem hm)⟩
  rw [hex, othersOf, Ne, List.filter_eq_nil_iff]
  simp

/-- Members give settings, unless some belong into the custom table and there is none. -/
theorem ofMembers_error_iff (hd : Distinct members) :
    ofMembers members = .error d ↔
      HasOthers members ∧ ∃ j, lookup "custom" members = some j ∧ j.tableOrEmpty = .error d := by
  have hgiven : ((lookup "custom" members).getD (.obj [])).tableOrEmpty = .error d ↔
      ∃ j, lookup "custom" members = some j ∧ j.tableOrEmpty = .error d := by
    cases lookup "custom" members with
    | none =>
      refine iff_of_false (fun h => by cases h) ?_
      rintro ⟨j, h, -⟩
      cases h
    | some j => simp
  rw [ofMembers, ofTable, filter_ofMembers, Table.members_ofMembers hd, hasOthers_iff, ← hgiven]
  generalize ((lookup "custom" members).getD (.obj [])) = given
  cases othersOf members with
  | nil => exact iff_of_false (fun h => by cases h) (fun h => h.1 rfl)
  | cons m r =>
    refine Iff.trans ?_ (and_iff_right (List.cons_ne_nil m r)).symm
    cases given.tableOrEmpty with
    | ok table => exact iff_of_false (fun h => by cases h) (fun h => by cases h)
    | error e => constructor <;> (rintro ⟨⟩; rfl)

/-- The ways in which a layer and one above cannot give settings together. -/
inductive Mismatch (below above : List (String × Json)) : Defect → Prop
  /-- A custom table above something else. -/
  | noTable {entries : List (String × Json)} {j : Json}
      (ha : lookup "custom" above = some (.obj entries)) (hb : lookup "custom" below = some j)
      (hj : ∀ ms, j ≠ .obj ms) : Mismatch below above (.noMember j "update")
  /-- A setting to be collected in the custom one, which makes no table. -/
  | noEntries {j : Json} {d : Defect} (ho : HasOthers above ∨ HasOthers below)
      (hc : (lookup "custom" above).or (lookup "custom" below) = some j)
      (hj : j.tableOrEmpty = .error d) : Mismatch below above d

/-- Two layers give settings together. -/
structure Joins (below above : List (String × Json)) : Prop where
  table : ∀ entries j, lookup "custom" above = some (.obj entries) →
    lookup "custom" below = some j → ∃ ms, j = .obj ms
  entries : HasOthers above ∨ HasOthers below → ∀ j,
    (lookup "custom" above).or (lookup "custom" below) = some j → j.MakesTable

theorem joins_iff : Joins below above ↔ ∀ d, ¬ Mismatch below above d := by
  constructor
  · rintro hjoins d (⟨ha, hb, hj⟩ | ⟨ho, hc, hj⟩)
    · obtain ⟨ms, rfl⟩ := hjoins.table _ _ ha hb
      exact hj ms rfl
    · obtain ⟨table, ht⟩ := exists_tableOrEmpty_iff.2 (hjoins.entries ho _ hc)
      rw [hj] at ht
      cases ht
  · intro h
    refine ⟨fun entries j ha hb => ?_, fun ho j hc => ?_⟩
    · by_contra hj
      exact h _ (.noTable ha hb fun ms hms => hj ⟨ms, hms⟩)
    · refine exists_tableOrEmpty_iff.1 (Fallible.exists_ok_iff.2 fun d ht => ?_)
      exact h d (.noEntries ho hc ht)

/-- The settings of two layers. -/
def together (below above : List (String × Json)) : Except Defect Settings := do
  let members ← overlay below above
  ofMembers members

theorem not_obj_of_tableOrEmpty {j : Json} (h : j.tableOrEmpty = .error d)
    (ms : List (String × Json)) :
    j ≠ .obj ms := by
  rintro rfl
  rw [tableOrEmpty_obj] at h
  cases h

theorem together_error_iff (hb : Distinct below) (ha : Distinct above) :
    together below above = .error d ↔ Mismatch below above d := by
  constructor
  · intro h
    obtain h | ⟨members, hm, h⟩ := Fallible.bind_error h
    · obtain ⟨entries, j, hae, hbj, hj, rfl⟩ := (overlay_error_iff ha).1 h
      exact .noTable hae hbj hj
    · have hjoined := Joined.of_overlay hb ha hm
      obtain ⟨ho, j, hc, hj⟩ := (ofMembers_error_iff hjoined.distinct).1 h
      exact .noEntries (hjoined.others.1 ho)
        ((hjoined.custom j (not_obj_of_tableOrEmpty hj)).1 hc) hj
  · rintro (⟨hae, hbj, hj⟩ | ⟨ho, hc, hj⟩)
    · rw [together, (overlay_error_iff ha).2 ⟨_, _, hae, hbj, hj, rfl⟩]
      rfl
    · have hne := not_obj_of_tableOrEmpty hj
      -- only a table laid over something else stops the overlay, and `j` is no table
      cases hm : overlay below above with
      | error d' =>
        obtain ⟨entries, -, hae, -⟩ := (overlay_error_iff ha).1 hm
        rw [hae, Option.some_or] at hc
        exact absurd (Option.some.inj hc).symm (hne entries)
      | ok members =>
        have hjoined := Joined.of_overlay hb ha hm
        rw [together, hm]
        exact (ofMembers_error_iff hjoined.distinct).2
          ⟨hjoined.others.2 ho, _, (hjoined.custom _ hne).2 hc, hj⟩

/-- What two layers cannot give depends on little of the one below. -/
theorem Mismatch.of_below {below' : List (String × Json)} (h : Mismatch below above d)
    (ho : HasOthers below → HasOthers below')
    (hc : ∀ j, (∀ ms, j ≠ .obj ms) → lookup "custom" below = some j →
      lookup "custom" below' = some j) : Mismatch below' above d := by
  cases h with
  | noTable hae hbj hj => exact .noTable hae (hc _ hj hbj) hj
  | noEntries hothers hcustom hj =>
    refine .noEntries (hothers.imp_right ho) ?_ hj
    cases ha : lookup "custom" above with
    | some v => rwa [ha] at hcustom
    | none =>
      rw [ha, Option.none_or] at hcustom
      exact hc _ (not_obj_of_tableOrEmpty hj) hcustom

/-! ## Layers over the defaults of a language -/

theorem defaultsFor_facts (language : String) :
    Distinct (defaultsFor language) ∧ ¬ HasOthers (defaultsFor language) ∧
      ∃ ms, lookup "custom" (defaultsFor language) = some (.obj ms) := by
  unfold defaultsFor
  split_ifs
  · exact ⟨by decide, fun h => hasOthers_iff.1 h rfl, _, rfl⟩
  · exact ⟨by decide, fun h => hasOthers_iff.1 h rfl, _, rfl⟩

/-- A layer over the defaults has the faults that it has on its own. -/
theorem exists_overDefaults (language : String) (hb : Distinct below) :
    ∃ first, overlay (defaultsFor language) below = .ok first ∧ Distinct first ∧
      ∀ above d, Mismatch first above d ↔ Mismatch below above d := by
  obtain ⟨hd, ho, table, hc⟩ := defaultsFor_facts language
  cases hf : overlay (defaultsFor language) below with
  | error d =>
    obtain ⟨-, j, -, hj, hne, -⟩ := (overlay_error_iff hb).1 hf
    rw [hc] at hj
    exact absurd (Option.some.inj hj).symm (hne table)
  | ok first =>
    have hjoined := Joined.of_overlay hd hb hf
    have hothers : HasOthers first ↔ HasOthers below := by
      rw [hjoined.others, or_iff_left ho]
    have hcustom : ∀ j, (∀ ms, j ≠ .obj ms) →
        (lookup "custom" first = some j ↔ lookup "custom" below = some j) := by
      intro j hj
      rw [hjoined.custom j hj, hc]
      cases lookup "custom" below with
      | none => simp [Ne.symm (hj table)]
      | some v => rfl
    refine ⟨first, rfl, hjoined.distinct, fun above d => ⟨fun h => ?_, fun h => ?_⟩⟩
    · exact h.of_below hothers.1 fun j hj => (hcustom j hj).1
    · exact h.of_below hothers.2 fun j hj => (hcustom j hj).2

/-- What fails and is not reported. -/
inductive Escapes (m : Machine) (t : FileTree) (overrides file : Json) : Defect → Prop
  /-- The file is given by something other than a path. -/
  | noPath (ht : file.isTruthy) (hf : ∀ p, file ≠ .str p) :
      Escapes m t overrides file (.notText file)
  /-- Whether the file is there cannot be told. -/
  | path {p : String} {e : SystemError} (hf : file = .str p) (hp : p ≠ "")
      (hx : t.pathExists (.ofText p) = .error e) : Escapes m t overrides file (.system e.message)
  /-- The file holds no text or no document that can be followed. -/
  | garbled {p : String} {d : Defect} (hf : file = .str p) (hp : p ≠ "")
      (hx : t.pathExists (.ofText p) = .ok true)
      (hs : Text.lower (Path.ofText p).suffix = ".json")
      (hg : t.Garbles m.settingsDepth (.ofText p) d) :
      Escapes m t overrides file d
  /-- The overrides are given by something other than an object. -/
  | noOverrides {below : List (String × Json)} (hf : fileLayer m t file = .ok below)
      (ht : overrides.isTruthy) (ho : ∀ ms, overrides ≠ .obj ms) :
      Escapes m t overrides file (.noMember overrides "items")
  /-- The custom settings of the file and the overrides do not go together. -/
  | mismatch {below above : List (String × Json)} {d : Defect}
      (hf : fileLayer m t file = .ok below) (ho : overrideLayer overrides = .ok above)
      (h : Mismatch below above d) : Escapes m t overrides file d

theorem fileLayer_str {p : String} (hp : p ≠ "") :
    fileLayer m t (.str p) = readFile m t (.ofText p) := by
  simp [fileLayer, isTruthy, hp]

theorem fileLayer_error_iff {f : ConfigFailure} {file : Json} :
    fileLayer m t file = .error f ↔
      (file.isTruthy ∧ (∀ p, file ≠ .str p) ∧ f = .defect (.notText file)) ∨
        ∃ p, file = .str p ∧ p ≠ "" ∧ readFile m t (.ofText p) = .error f := by
  constructor
  · intro h
    unfold fileLayer at h
    split_ifs at h with ht
    split at h
    · next p =>
      exact .inr ⟨p, rfl, fun hp => ht (by simp [hp, isTruthy]), h⟩
    · next hf => exact .inl ⟨by simpa using ht, hf, (Except.error.inj h).symm⟩
  · rintro (⟨ht, hf, rfl⟩ | ⟨p, rfl, hp, h⟩)
    · rw [fileLayer, if_neg (by simpa using ht)]
      exact hf
    · rw [fileLayer_str hp, h]

theorem overrideLayer_error_iff {f : ConfigFailure} {overrides : Json} :
    overrideLayer overrides = .error f ↔ overrides.isTruthy ∧ (∀ ms, overrides ≠ .obj ms) ∧
      f = .defect (.noMember overrides "items") := by
  constructor
  · intro h
    unfold overrideLayer at h
    split_ifs at h with ht
    split at h
    · cases h
    · next ho => exact ⟨by simpa using ht, ho, (Except.error.inj h).symm⟩
  · rintro ⟨ht, ho, rfl⟩
    rw [overrideLayer, if_neg (by simpa using ht)]
    exact ho

theorem layered_of_fileLayer_error {overrides file : Json} {f : ConfigFailure}
    (hf : fileLayer m t file = .error f) : layered m t language overrides file = .error f := by
  rw [layered, hf]
  rfl

theorem layered_of_overrideLayer_error {overrides file : Json} {below : List (String × Json)}
    {f : ConfigFailure} (hf : fileLayer m t file = .ok below)
    (ho : overrideLayer overrides = .error f) : layered m t language overrides file = .error f := by
  cases proper_of_fileLayer hf with
  | obj hb =>
  obtain ⟨first, hfirst, -⟩ := exists_overDefaults language hb
  rw [layered, hf, ho]
  simp only [bind, Except.bind, hfirst, Except.mapError]

/-- Two layers that are there fail exactly where they do not go together. -/
theorem layered_error_iff_of_layers {overrides file : Json} {below above : List (String × Json)}
    {f : ConfigFailure} (hp : overrides.Proper) (hf : fileLayer m t file = .ok below)
    (ho : overrideLayer overrides = .ok above) :
    layered m t language overrides file = .error f ↔
      ∃ d, Mismatch below above d ∧ f = .defect d := by
  cases proper_of_fileLayer hf with
  | obj hb =>
  cases proper_of_overrideLayer hp ho with
  | obj ha =>
  -- The defaults bring up nothing themselves, so what `first` meets above is what `below` does.
  obtain ⟨first, hfirst, hd, hmismatch⟩ := exists_overDefaults language hb
  have hlayered : layered m t language overrides file =
      (together first above).mapError .defect := by
    rw [layered, hf, ho, together]
    simp only [bind, Except.bind, hfirst, Except.mapError]
    cases overlay first above <;> rfl
  rw [hlayered]
  constructor
  · intro h
    obtain ⟨d, hd', rfl⟩ := Fallible.mapError_error h
    exact ⟨d, (hmismatch above d).1 ((together_error_iff hd ha).1 hd'), rfl⟩
  · rintro ⟨d, hm, rfl⟩
    rw [(together_error_iff hd ha).2 ((hmismatch above d).2 hm)]
    rfl

/-- The layers of a language fail one after another, and at last where they do not go together. -/
theorem layered_error_iff {overrides file : Json} (hp : overrides.Proper) {f : ConfigFailure} :
    layered m t language overrides file = .error f ↔
      fileLayer m t file = .error f ∨
        ∃ below, fileLayer m t file = .ok below ∧
          (overrideLayer overrides = .error f ∨
            ∃ above d, overrideLayer overrides = .ok above ∧ Mismatch below above d ∧
              f = .defect d) := by
  cases hf : fileLayer m t file with
  | error f' => simp [layered_of_fileLayer_error hf]
  | ok below =>
    cases ho : overrideLayer overrides with
    | error f' => simp [layered_of_overrideLayer_error hf ho]
    | ok above => simp [layered_error_iff_of_layers hp hf ho]

theorem layered_config_iff {overrides file : Json} (hp : overrides.Proper) :
    layered m t language overrides file = .error (.config e) ↔
      ∃ p, file = .str p ∧ p ≠ "" ∧ Rejects m t (.ofText p) e := by
  simp only [layered_error_iff hp, fileLayer_error_iff, overrideLayer_error_iff,
    readFile_config_iff, reduceCtorEq, and_false, exists_false, or_false, false_or]

theorem layered_defect_iff {overrides file : Json} (hp : overrides.Proper) :
    layered m t language overrides file = .error (.defect d) ↔ Escapes m t overrides file d := by
  rw [layered_error_iff hp, fileLayer_error_iff]
  constructor
  · rintro ((⟨ht, hne, heq⟩ | ⟨p, rfl, hne, hr⟩) | ⟨below, hf, h | ⟨above, d', ho, hm, heq⟩⟩)
    · cases heq
      exact .noPath ht hne
    · obtain ⟨e, hx, rfl⟩ | ⟨hx, hs, hg⟩ := readFile_defect_iff.1 hr
      · exact .path rfl hne hx
      · exact .garbled rfl hne hx hs hg
    · obtain ⟨ht, hne, heq⟩ := overrideLayer_error_iff.1 h
      cases heq
      exact .noOverrides hf ht hne
    · cases heq
      exact .mismatch hf ho hm
  · rintro (⟨ht, hne⟩ | ⟨rfl, hne, hx⟩ | ⟨rfl, hne, hx, hs, hg⟩ | ⟨hf, ht, hne⟩ | ⟨hf, ho, hm⟩)
    · exact .inl (.inl ⟨ht, hne, rfl⟩)
    · exact .inl (.inr ⟨_, rfl, hne, readFile_defect_iff.2 (.inl ⟨_, hx, rfl⟩)⟩)
    · exact .inl (.inr ⟨_, rfl, hne, readFile_defect_iff.2 (.inr ⟨hx, hs, hg⟩)⟩)
    · exact .inr ⟨_, hf, .inl (overrideLayer_error_iff.2 ⟨ht, hne, rfl⟩)⟩
    · exact .inr ⟨_, hf, .inr ⟨_, _, ho, hm, rfl⟩⟩

theorem exists_layered_iff {overrides file : Json} (hp : overrides.Proper) :
    (∃ s, layered m t language overrides file = .ok s) ↔
      ∃ below above, fileLayer m t file = .ok below ∧ overrideLayer overrides = .ok above ∧
        Joins below above := by
  simp only [Fallible.exists_ok_iff, ne_eq, layered_error_iff hp, joins_iff]
  constructor
  · intro h
    cases hf : fileLayer m t file with
    | error f => exact absurd (.inl hf) (h f)
    | ok below =>
      cases ho : overrideLayer overrides with
      | error f => exact absurd (.inr ⟨below, hf, .inl ho⟩) (h f)
      | ok above =>
        refine ⟨below, above, rfl, rfl, fun d hd => ?_⟩
        exact h _ (.inr ⟨below, hf, .inr ⟨above, d, ho, hd, rfl⟩⟩)
  · rintro ⟨below, above, hf, ho, hj⟩ f (h | ⟨below', hf', h | ⟨above', d, ho', hm, -⟩⟩)
    · cases hf.symm.trans h
    · cases ho.symm.trans h
    · obtain rfl := Except.ok.inj (hf.symm.trans hf')
      obtain rfl := Except.ok.inj (ho.symm.trans ho')
      exact hj d hm

/--
A configuration gives settings where its file and overrides are there and go together. A fault of
the file is reported; every other failure is a defect.
-/
theorem layered_outcome (m : Machine) (t : FileTree) (language : String) {overrides file : Json}
    (hp : overrides.Proper) :
    (∀ e, layered m t language overrides file = .error (.config e) ↔
      ∃ p, file = .str p ∧ p ≠ "" ∧ Rejects m t (.ofText p) e) ∧
    (∀ d, layered m t language overrides file = .error (.defect d) ↔ Escapes m t overrides file d) ∧
    ((∃ s, layered m t language overrides file = .ok s) ↔
      ∃ below above, fileLayer m t file = .ok below ∧ overrideLayer overrides = .ok above ∧
        Joins below above) :=
  ⟨fun _ => layered_config_iff hp, fun _ => layered_defect_iff hp, exists_layered_iff hp⟩

/-- A setting of the overrides joins a custom setting of the file that is a list of pairs. -/
theorem layered_outcome_pairs :
    (Json.obj [("z", .int 1)]).Proper ∧
      ∃ s, layered (.ample 3) (holding "c.json" "\x7b\"custom\": [[\"a\", \"b\"]]\x7d") "java"
        (.obj [("z", .int 1)]) (.str "c.json") = .ok s := by
  have hf : fileLayer (.ample 3) (holding "c.json" "\x7b\"custom\": [[\"a\", \"b\"]]\x7d")
      (.str "c.json") = .ok [("custom", .arr [.arr [.str "a", .str "b"]])] :=
    fileLayer_holding (by cbv) (by cbv)
  have hp : (Json.obj [("z", .int 1)]).Proper := by
    refine .obj (by decide) fun m hm => ?_
    obtain rfl := List.mem_singleton.1 hm
    exact .int _
  refine ⟨hp, (layered_outcome _ _ "java" hp).2.2.2 ⟨_, _, hf, rfl, fun _ _ h => (by cases h), ?_⟩⟩
  intro _ j hj
  obtain rfl := Option.some.inj hj
  refine .list (List.forall_mem_singleton.2 ?_)
  exact .list (fun _ h => by cases h) (fun _ h => by cases h)

/-- Bytes that hold no text and a custom setting that is a text are not reported. -/
theorem layered_escapes :
    layered (.ample 1) ⟨[(⟨.above 0, ["c.json"]⟩, .file [0xff])]⟩ "java" (.obj []) (.str "c.json") =
        .error (.defect .undecodable) ∧
      layered (.ample 1) (holding "c.json" "\x7b\"custom\": \"x\"\x7d") "java"
        (.obj [("custom", .obj [("lazy_type", .str "o.Lazy")])]) (.str "c.json") =
        .error (.defect (.noMember (.str "x") "update")) := by
  have hf : fileLayer (.ample 1) (holding "c.json" "\x7b\"custom\": \"x\"\x7d") (.str "c.json") =
      .ok [("custom", .str "x")] :=
    fileLayer_holding (by cbv) (by cbv)
  constructor
  · have hg : FileTree.Garbles 1 ⟨[(⟨.above 0, ["c.json"]⟩, .file [0xff])]⟩ (.ofText "c.json")
        .undecodable := .undecodable rfl (by decide)
    exact (layered_defect_iff (.obj distinct_nil (by simp))).2
      (.garbled rfl (by decide) rfl (by decide) hg)
  · rw [layered, hf]
    rfl

end Settings

end Typewright
