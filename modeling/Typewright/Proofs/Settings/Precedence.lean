import Mathlib
import Typewright.Java.Containers
import Typewright.Proofs.Files.Documents
import Typewright.Proofs.Settings.Layers

/-!
# Precedence of settings

Which layer a setting comes from. A setting of all languages comes from the overrides if they have
it, from the file if only that has it, and is the default otherwise. A container setting has two
spellings, as a member of a layer and as an entry of its custom table, and all members come before
all entries: so an entry of the overrides gives way to a member of the file.

- `Java.Containers.ofSettings_ok_iff`: the containers that settings ask for.
- `Settings.containerValue`: where a container setting comes from.
- `Settings.prevails_iff`: where the overrides come before the file and the file before the
  defaults.
- `Settings.layered_precedence`: the settings that the layers give.
-/

namespace Typewright

open Json

namespace Java.Containers

theorem forall_mem_names {p : String → Prop} :
    (∀ k ∈ names, p k) ↔ p "lazy_type" ∧ p "optional_type" ∧ p "serializable_type" := by
  simp [names]

/-- The settings that ask for containers. -/
def toMembers (c : Containers) : List (String × Json) :=
  [("lazy_type", .str c.lazyType), ("optional_type", .str c.optionalType),
   ("serializable_type", .str c.serializableType)]

/--
The containers are named by the values of the container settings, all of them qualified names.
-/
def NamedBy (c : Containers) (value : String → Json) : Prop :=
  ∀ k ∈ names, ∃ n, lookup k c.toMembers = some (.str n) ∧ value k = .str n ∧ isQualifiedName n

theorem nameFor_ok_iff {ms : List (String × Json)} {setting std n : String}
    (hs : isQualifiedName std) :
    nameFor ms setting std = .ok n ↔
      (lookup setting ms).getD (.str std) = .str n ∧ isQualifiedName n := by
  unfold nameFor
  split
  · next h =>
    rw [h, Option.getD_none]
    constructor
    · intro hn
      obtain rfl := Except.ok.inj hn
      exact ⟨rfl, hs⟩
    · rintro ⟨hn, -⟩
      rw [Json.str.inj hn]
  · next s h =>
    rw [h, Option.getD_some]
    split_ifs with hq
    · constructor
      · intro hn
        obtain rfl := Except.ok.inj hn
        exact ⟨rfl, hq⟩
      · rintro ⟨hn, -⟩
        rw [Json.str.inj hn]
    · refine ⟨fun hn => (by cases hn), ?_⟩
      rintro ⟨hn, hqn⟩
      obtain rfl := Json.str.inj hn
      exact absurd hqn hq
  · next j hj h =>
    rw [h, Option.getD_some]
    refine ⟨fun hn => (by cases hn), ?_⟩
    rintro ⟨rfl, -⟩
    exact absurd rfl (hj n)

theorem exists_lookup_standard :
    ∀ k ∈ names, ∃ n, lookup k standard.toMembers = some (.str n) :=
  forall_mem_names.2 ⟨⟨_, rfl⟩, ⟨_, rfl⟩, ⟨_, rfl⟩⟩

/-- The value that members give a setting, or the one that the standard containers have. -/
def valueIn (ms : List (String × Json)) (setting : String) : Json :=
  ((lookup setting ms).or (lookup setting standard.toMembers)).getD .null

theorem nameFor_ok_iff_valueIn {ms : List (String × Json)} {setting std n : String}
    (hs : isQualifiedName std) (hstd : lookup setting standard.toMembers = some (.str std)) :
    nameFor ms setting std = .ok n ↔ valueIn ms setting = .str n ∧ isQualifiedName n := by
  have hv : valueIn ms setting = (lookup setting ms).getD (.str std) := by
    rw [valueIn, hstd]
    cases lookup setting ms <;> rfl
  rw [nameFor_ok_iff hs, hv]

/-- Containers are read from members that name them; the standard ones stand in for the others. -/
theorem ofMembers_ok_iff {ms : List (String × Json)} {c : Containers} :
    ofMembers ms = .ok c ↔ c.NamedBy (valueIn ms) := by
  have hlazy := @nameFor_ok_iff_valueIn ms "lazy_type" standard.lazyType
  have hoptional := @nameFor_ok_iff_valueIn ms "optional_type" standard.optionalType
  have hserializable := @nameFor_ok_iff_valueIn ms "serializable_type" standard.serializableType
  constructor
  · intro h
    obtain ⟨l, hl, h⟩ := Fallible.bind_ok h
    obtain ⟨o, ho, h⟩ := Fallible.bind_ok h
    obtain ⟨s, hs, h⟩ := Fallible.bind_ok h
    obtain rfl := Except.ok.inj h
    exact forall_mem_names.2 ⟨⟨l, rfl, (hlazy (by decide) rfl).1 hl⟩,
      ⟨o, rfl, (hoptional (by decide) rfl).1 ho⟩, ⟨s, rfl, (hserializable (by decide) rfl).1 hs⟩⟩
  · intro h
    obtain ⟨⟨l, hl, hlv⟩, ⟨o, ho, hov⟩, ⟨s, hs, hsv⟩⟩ := forall_mem_names.1 h
    obtain rfl := Json.str.inj (Option.some.inj hl)
    obtain rfl := Json.str.inj (Option.some.inj ho)
    obtain rfl := Json.str.inj (Option.some.inj hs)
    rw [ofMembers, (hlazy (by decide) rfl).2 hlv, (hoptional (by decide) rfl).2 hov,
      (hserializable (by decide) rfl).2 hsv]
    rfl

theorem chosen_cons {n : String} {v : Json} (hv : v ≠ .null) (r : List (String × Json)) :
    chosen ((n, v) :: r) = if n ∈ names then (n, v) :: chosen r else chosen r := by
  simp only [chosen, List.filter_cons, List.contains_iff_mem]

/-- A container setting whose value counts is found among those that are chosen. -/
theorem lookup_chosen {table : List (String × Json)} {k : String} (hk : k ∈ names)
    (hn : lookup k table ≠ some .null) : lookup k (chosen table) = lookup k table := by
  induction table with
  | nil => rfl
  | cons m r ih =>
    obtain ⟨n, v⟩ := m
    by_cases hnk : n = k
    · subst hnk
      have hv : v ≠ .null := by
        rintro rfl
        exact hn (by simp [lookup])
      simp [chosen_cons hv, hk, lookup]
    · have hr : lookup k ((n, v) :: r) = lookup k r := by simp [lookup, hnk]
      rw [hr] at hn ⊢
      rw [← ih hn]
      by_cases hv : v = .null
      · subst hv
        rfl
      · rw [chosen_cons hv]
        split_ifs
        · simp [lookup, hnk]
        · rfl

theorem ofCustom_obj (table : List (String × Json)) :
    ofCustom (.obj table) = (ofMembers (chosen table)).mapError .config := by
  cases table with
  | nil => rfl
  | cons m r => rfl

/-- The containers that settings ask for, if none of the container settings is null. -/
theorem ofSettings_ok_iff {s : Settings} {table : List (String × Json)} {c : Containers}
    (hs : s.custom = .obj table) (hn : ∀ k ∈ names, lookup k table ≠ some .null) :
    ofSettings s = .ok c ↔ c.NamedBy (valueIn table) := by
  have hv : c.NamedBy (valueIn (chosen table)) ↔ c.NamedBy (valueIn table) := by
    refine forall₂_congr fun k hk => ?_
    rw [valueIn, valueIn, lookup_chosen hk (hn k hk)]
  rw [ofSettings, hs, ofCustom_obj, ← hv, ← ofMembers_ok_iff]
  constructor
  · exact Fallible.mapError_ok
  · intro h
    rw [h]
    rfl

end Java.Containers

namespace Settings

open Java (Containers)

/-! ## Container settings in layers -/

/-- The values that a layer gives for a container setting, in either spelling. -/
def spellings (layer : List (String × Json)) (k : String) : List Json :=
  (lookup k layer).toList ++ (lookup k (customOf layer)).toList

/-- The value of a container setting under a file and overrides. -/
def containerValue (file overrides : List (String × Json)) (k : String) : Json :=
  ((lookup k overrides).or ((lookup k file).or ((lookup k (customOf overrides)).or
    ((lookup k (customOf file)).or (lookup k Containers.standard.toMembers))))).getD .null

/--
A value for a container setting is given by the overrides if they give one, by the file if only that
gives one, and is the default otherwise.
-/
def Prevails (file overrides : List (String × Json)) (k : String) (value : Json) : Prop :=
  match spellings overrides k, spellings file k with
  | [], [] => lookup k Containers.standard.toMembers = some value
  | [], vs => value ∈ vs
  | vs, _ => value ∈ vs

/--
The file has a member for a setting for which the overrides have only an entry, another value.
-/
def Supplanted (file overrides : List (String × Json)) (k : String) : Prop :=
  ∃ v w, lookup k file = some v ∧ lookup k overrides = none ∧
    lookup k (customOf overrides) = some w ∧ v ≠ w

/-- The overrides come before the file and the file before the default, but for that one case. -/
theorem prevails_iff {file overrides : List (String × Json)} {k : String}
    (hk : k ∈ Containers.names) :
    Prevails file overrides k (containerValue file overrides k) ↔
      ¬ Supplanted file overrides k := by
  obtain ⟨standard, hstandard⟩ := Containers.exists_lookup_standard k hk
  simp only [Prevails, Supplanted, containerValue, spellings, hstandard]
  cases lookup k overrides with
  | some v => simp
  | none =>
    cases lookup k file with
    | some v => cases lookup k (customOf overrides) <;> simp
    | none => cases lookup k (customOf overrides) <;> cases lookup k (customOf file) <;> simp

/-! ## The layers of a language -/

/-- What a configuration file gives is the object in it, and each object there is proper. -/
theorem proper_of_readFile {m : Machine} {t : FileTree} {path : Path}
    {members : List (String × Json)}
    (h : readFile m t path = .ok members) : Proper (.obj members) := by
  obtain ⟨-, -, _, _, -, -, hp⟩ := readFile_ok_iff.1 h
  exact proper_of_parse hp

theorem proper_of_fileLayer {m : Machine} {t : FileTree} {file : Json}
    {members : List (String × Json)}
    (h : fileLayer m t file = .ok members) : Proper (.obj members) := by
  unfold fileLayer at h
  split_ifs at h
  · obtain rfl := Except.ok.inj h
    exact .obj distinct_nil (by simp)
  · split at h
    · exact proper_of_readFile h
    · cases h

theorem proper_of_overrideLayer {overrides : Json} {members : List (String × Json)}
    (hp : overrides.Proper) (h : overrideLayer overrides = .ok members) :
    Proper (.obj members) := by
  unfold overrideLayer at h
  split_ifs at h
  · obtain rfl := Except.ok.inj h
    exact .obj distinct_nil (by simp)
  · split at h
    · obtain rfl := Except.ok.inj h
      exact hp
    · cases h

theorem defaultsFor_java {language : String} (h : Text.lower language = "java") :
    defaultsFor language =
      [("indent_size", .int 4), ("use_tabs", .bool false), ("add_comments", .bool true),
       ("custom", .obj Containers.standard.toMembers)] := by
  rw [defaultsFor, if_pos h]
  rfl

theorem isLayer_defaultsFor {language : String} (h : Text.lower language = "java") :
    IsLayer (defaultsFor language) := by
  rw [defaultsFor_java h]
  exact ⟨by decide, fun j hj => ⟨_, (Option.some.inj hj).symm, by decide⟩⟩

/-- The members that the layers of a language give together. -/
theorem exists_members {language : String} {below above : List (String × Json)}
    (hl : Text.lower language = "java") (hb : IsLayer below) (ha : IsLayer above) :
    ∃ first members, overlay (defaultsFor language) below = .ok first ∧
      overlay first above = .ok members ∧ IsLayer members ∧
      (∀ k, k ≠ "custom" → lookup k members =
        (lookup k above).or ((lookup k below).or (lookup k (defaultsFor language)))) ∧
      ∀ k, lookup k (customOf members) = (lookup k (customOf above)).or
        ((lookup k (customOf below)).or (lookup k Containers.standard.toMembers)) := by
  obtain ⟨first, hfirst, hf⟩ := exists_overlay (isLayer_defaultsFor hl) hb
  obtain ⟨members, hmembers, hm⟩ := exists_overlay hf.layer ha
  have hdefaults : customOf (defaultsFor language) = Containers.standard.toMembers := by
    rw [defaultsFor_java hl]
    rfl
  refine ⟨first, members, hfirst, hmembers, hm.layer, fun k hk => ?_, fun k => ?_⟩
  · rw [hm.shared k hk, hf.shared k hk]
  · rw [hm.custom, hf.custom, hdefaults]

/-- The value of a container setting was given in one of its spellings, or is the default. -/
theorem containerValue_ne_null {below above : List (String × Json)} {k : String}
    (hk : k ∈ Containers.names) (hn : .null ∉ spellings below k ∧ .null ∉ spellings above k) :
    containerValue below above k ≠ .null := by
  obtain ⟨n, hstandard⟩ := Containers.exists_lookup_standard k hk
  obtain ⟨hb, ha⟩ := hn
  simp only [spellings, List.mem_append, Option.mem_toList, not_or] at hb ha
  rw [containerValue, hstandard]
  cases hm : lookup k above with
  | some v => simpa [hm] using ha.1
  | none =>
    cases hm : lookup k below with
    | some v => simpa [hm] using hb.1
    | none =>
      cases hm : lookup k (customOf above) with
      | some v => simpa [hm] using ha.2
      | none =>
        cases hm : lookup k (customOf below) with
        | some v => simpa [hm] using hb.2
        | none => simp

/-- The custom table of the settings that the layers give holds the values of container settings. -/
theorem lookup_container {language : String} {below above members : List (String × Json)}
    (hl : Text.lower language = "java") (hm : IsLayer members)
    (hshared : ∀ k, k ≠ "custom" → lookup k members =
      (lookup k above).or ((lookup k below).or (lookup k (defaultsFor language))))
    (hcustom : ∀ k, lookup k (customOf members) = (lookup k (customOf above)).or
      ((lookup k (customOf below)).or (lookup k Containers.standard.toMembers)))
    {k : String} (hk : k ∈ Containers.names) :
    lookup k (setMembers (customOf members) (othersOf members)) =
      some (containerValue below above k) := by
  have hdefaults : ∀ k ∈ Containers.names,
      k ∉ names ∧ k ≠ "custom" ∧ lookup k (defaultsFor language) = none := by
    rw [defaultsFor_java hl]
    exact Containers.forall_mem_names.2
      ⟨⟨by decide, by decide, rfl⟩, ⟨by decide, by decide, rfl⟩, ⟨by decide, by decide, rfl⟩⟩
  obtain ⟨hnames, hne, hdefault⟩ := hdefaults k hk
  obtain ⟨n, hstandard⟩ := Containers.exists_lookup_standard k hk
  rw [lookup_setMembers_othersOf hm hnames, hshared k hne, hcustom, hdefault, Option.or_none,
    Option.or_assoc, containerValue, hstandard]
  cases lookup k above <;> cases lookup k below <;> cases lookup k (customOf above) <;>
    cases lookup k (customOf below) <;> rfl

/--
A setting of all languages comes from the overrides, else from the file, else it is the default. The
containers are those that `containerValue` names: the overrides come before the file and the file
before the defaults, unless a member of the file supplants an entry of the overrides.
-/
theorem layered_precedence {m : Machine} {t : FileTree} {language : String}
    {overrides file : Json} {below above : List (String × Json)} (hl : Text.lower language = "java")
    (hf : fileLayer m t file = .ok below) (ho : overrideLayer overrides = .ok above)
    (hp : overrides.Proper) (hfc : HasCustomTable below) (hoc : HasCustomTable above)
    (hn : ∀ k ∈ Containers.names, .null ∉ spellings below k ∧ .null ∉ spellings above k) :
    ∃ s, layered m t language overrides file = .ok s ∧
      s.space = ((lookup "namespace" above).or (lookup "namespace" below)).getD .null ∧
      s.indentSize = ((lookup "indent_size" above).or (lookup "indent_size" below)).getD (.int 4) ∧
      s.useTabs = ((lookup "use_tabs" above).or (lookup "use_tabs" below)).getD (.bool false) ∧
      s.addComments =
        ((lookup "add_comments" above).or (lookup "add_comments" below)).getD (.bool true) ∧
      (∀ c, Containers.ofSettings s = .ok c ↔ c.NamedBy (containerValue below above)) ∧
      ∀ k ∈ Containers.names,
        (Prevails below above k (containerValue below above k) ↔ ¬ Supplanted below above k) := by
  have hb : IsLayer below := isLayer_of_proper (proper_of_fileLayer hf) hfc
  have ha : IsLayer above := isLayer_of_proper (proper_of_overrideLayer hp ho) hoc
  obtain ⟨first, members, hfirst, hmembers, hm, hshared, hcustom⟩ := exists_members hl hb ha
  have hlookup := fun k hk => lookup_container (k := k) hl hm hshared hcustom hk
  have hlayered : layered m t language overrides file = (ofMembers members).mapError .defect := by
    rw [layered, hf, ho]
    simp only [bind, Except.bind, hfirst, hmembers, Except.mapError]
  rw [hlayered, ofMembers_eq hm]
  -- a shared member is looked up above, then below, then among the defaults
  have hgetD : ∀ k d, k ≠ "custom" → (lookup k members).getD d =
      ((lookup k above).or (lookup k below)).getD ((lookup k (defaultsFor language)).getD d) := by
    intro k d hk
    rw [hshared k hk, ← Option.or_assoc, Option.getD_or]
  rw [defaultsFor_java hl] at hgetD
  refine ⟨_, rfl, hgetD "namespace" _ (by decide), hgetD "indent_size" _ (by decide),
    hgetD "use_tabs" _ (by decide), hgetD "add_comments" _ (by decide), fun c => ?_,
    fun k hk => prevails_iff hk⟩
  rw [Containers.ofSettings_ok_iff rfl]
  · refine forall₂_congr fun k hk => ?_
    rw [Containers.valueIn, hlookup k hk, Option.some_or, Option.getD_some]
  · intro k hk
    rw [hlookup k hk]
    exact fun h => containerValue_ne_null hk (hn k hk) (Option.some.inj h)

/-! ## A file and overrides that spell a setting differently -/

/-- A working directory with a single file in it. -/
def holding (name text : String) : FileTree :=
  ⟨[(⟨.above 0, [name]⟩, .file text.toUTF8.toList)]⟩

/-- What a file of settings in the working directory gives. -/
theorem fileLayer_holding {m : Machine} {text : String} {members : List (String × Json)}
    (ht : fileText? text.toUTF8.toList = some text)
    (hp : Json.parse m.settingsDepth text = .ok (.obj members)) :
    fileLayer m (holding "c.json" text) (.str "c.json") = .ok members := by
  have hs : Text.lower (Path.ofText "c.json").suffix = ".json" := by decide
  exact readFile_ok_iff.2 ⟨rfl, hs, _, _, rfl, ht, hp⟩

/-- A member of the overrides comes before an entry of the file. -/
theorem layered_precedence_member :
    ∃ s c, layered (.ample 2)
          (holding "c.json" "\x7b\"custom\": \x7b\"lazy_type\": \"f.Lazy\"\x7d\x7d") "java"
          (.obj [("lazy_type", .str "o.Lazy")]) (.str "c.json") = .ok s ∧
      s.useTabs = .bool false ∧ Containers.ofSettings s = .ok c ∧ c.lazyType = "o.Lazy" := by
  have hf : fileLayer (.ample 2)
      (holding "c.json" "\x7b\"custom\": \x7b\"lazy_type\": \"f.Lazy\"\x7d\x7d") (.str "c.json") =
        .ok [("custom", .obj [("lazy_type", .str "f.Lazy")])] :=
    fileLayer_holding (by cbv) (by cbv)
  have hl : Text.lower "java" = "java" := by decide
  have hp : (Json.obj [("lazy_type", .str "o.Lazy")]).Proper := by
    refine .obj (by decide) fun m hm => ?_
    obtain rfl := List.mem_singleton.1 hm
    exact .str _
  have hn : ∀ k ∈ Containers.names,
      .null ∉ spellings [("custom", .obj [("lazy_type", .str "f.Lazy")])] k ∧
        .null ∉ spellings [("lazy_type", .str "o.Lazy")] k :=
    Containers.forall_mem_names.2 (by simp [spellings, customOf, lookup])
  obtain ⟨s, hs, -, -, htabs, -, hc, -⟩ := layered_precedence hl hf rfl hp
    (fun j hj => ⟨_, (Option.some.inj hj).symm⟩) (fun j hj => by cases hj) hn
  refine ⟨s, ⟨"o.Lazy", "java.util.Optional", "java.io.Serializable"⟩, hs, htabs, (hc _).2 ?_, rfl⟩
  exact Containers.forall_mem_names.2 ⟨⟨"o.Lazy", rfl, rfl, by decide⟩,
    ⟨"java.util.Optional", rfl, rfl, by decide⟩, ⟨"java.io.Serializable", rfl, rfl, by decide⟩⟩

/-- An entry of the overrides gives way to a member of the file. -/
theorem file_supplants_overrides :
    ∃ s c, layered (.ample 2) (holding "c.json" "\x7b\"lazy_type\": \"f.Lazy\"\x7d") "java"
          (.obj [("custom", .obj [("lazy_type", .str "o.Lazy")])]) (.str "c.json") = .ok s ∧
      Containers.ofSettings s = .ok c ∧ c.lazyType = "f.Lazy" ∧
      ¬ Prevails [("lazy_type", .str "f.Lazy")]
        [("custom", .obj [("lazy_type", .str "o.Lazy")])] "lazy_type" (.str c.lazyType) := by
  have hf : fileLayer (.ample 2) (holding "c.json" "\x7b\"lazy_type\": \"f.Lazy\"\x7d")
      (.str "c.json") = .ok [("lazy_type", .str "f.Lazy")] :=
    fileLayer_holding (by cbv) (by cbv)
  rw [layered, hf]
  refine ⟨_, _, rfl, rfl, rfl, ?_⟩
  simp [Prevails, spellings, customOf, lookup]

end Settings

end Typewright
