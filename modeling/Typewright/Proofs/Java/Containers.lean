import Typewright.Proofs.Identifier
import Typewright.Proofs.Settings.Precedence

/-!
# Accepted container settings

Which values the container settings may have. A dotted name is parts with single points between
them; a part is ASCII letters, digits, `_` and `$` and does not start with a digit. A setting is
accepted if it is a dotted name, and also if a line feed comes after one; so a line feed at the very
end is the only blank that a setting can bring along.

- `Identifier.IsDotted`: dotted names, as a grammar.
- `Identifier.isQualified_iff`: the test for qualified names accepts the dotted names.
- `Java.Containers.Accepts`: the values that a container setting may have.
- `Java.Containers.ofOptions_outcome`: containers are made exactly of accepted values, and otherwise
  the first setting in order is reported that has another one.
-/

namespace Typewright

open Text

namespace Identifier

variable {c : Char} {cs : List Char}

/-! ## Dotted names -/

/-- ASCII letters, digits, `_` and `$`, at least one, of which the first is no digit. -/
structure IsNamePart (cs : List Char) : Prop where
  nonempty : cs ≠ []
  chars : ∀ c ∈ cs, c.isAlphanum ∨ c = '_' ∨ c = '$'
  start : ∀ c ∈ cs.head?, ¬ c.isDigit

/-- Parts of names with single points between them, and nothing before or after. -/
inductive IsDotted : List Char → Prop
  | part {cs : List Char} (h : IsNamePart cs) : IsDotted cs
  | more {cs r : List Char} (h : IsNamePart cs) (hr : IsDotted r) : IsDotted (cs ++ '.' :: r)

theorem isPart_iff : isPart c ↔ c.isAlphanum ∨ c = '_' ∨ c = '$' := by
  simp only [isPart, isStart, Char.isAlphanum, Char.isAlpha, Char.isUpper, Char.isLower,
    Char.isDigit, Bool.or_eq_true, Bool.and_eq_true, decide_eq_true_eq, beq_iff_eq, Char.le_def,
    ge_iff_le]
  tauto

theorem isStart_iff : isStart c ↔ isPart c ∧ ¬ c.isDigit := by
  rw [isPart, Bool.or_eq_true]
  constructor
  · intro h
    exact ⟨.inl h, by simp [isDigit_of_isStart h]⟩
  · rintro ⟨h | h, hd⟩
    · exact h
    · refine absurd ?_ hd
      simpa [Char.isDigit, Char.le_def] using h

theorem isWord_iff : isWord cs ↔ IsNamePart cs := by
  cases cs with
  | nil => exact iff_of_false (by decide) fun h => h.nonempty rfl
  | cons c r =>
    rw [isWord, Bool.and_eq_true, List.all_eq_true, isStart_iff]
    constructor
    · rintro ⟨⟨hc, hd⟩, hr⟩
      refine ⟨List.cons_ne_nil c r, fun d hd' => isPart_iff.1 ?_, by simpa using hd⟩
      rcases List.mem_cons.1 hd' with rfl | hd'
      · exact hc
      · exact hr d hd'
    · intro h
      have hall : ∀ d ∈ c :: r, isPart d := fun d hd => isPart_iff.2 (h.chars d hd)
      obtain ⟨hc, hr⟩ := List.forall_mem_cons.1 hall
      exact ⟨⟨hc, h.start c rfl⟩, hr⟩

theorem IsNamePart.notMem_point (h : IsNamePart cs) : '.' ∉ cs :=
  fun hm => absurd (h.chars _ hm) (by decide)

theorem isDotted_joinChars {ps : List (List Char)} (hne : ps ≠ []) (h : ∀ p ∈ ps, IsNamePart p) :
    IsDotted (joinChars '.' ps) := by
  induction ps using joinChars.induct with
  | case1 => exact absurd rfl hne
  | case2 p => exact .part (h p List.mem_cons_self)
  | case3 p q r ih =>
    obtain ⟨hp, hr⟩ := List.forall_mem_cons.1 h
    exact .more hp (ih (List.cons_ne_nil q r) hr)

/-- The test for qualified names accepts the dotted names. -/
theorem isQualified_iff : isQualified cs ↔ IsDotted cs := by
  rw [isQualified, List.all_eq_true]
  constructor
  · intro h
    rw [← joinChars_splitChars '.' cs]
    exact isDotted_joinChars (splitChars_ne_nil '.' cs) fun p hp => isWord_iff.1 (h p hp)
  · intro h
    induction h with
    | part h => simpa [splitChars_of_notMem h.notMem_point] using isWord_iff.2 h
    | more h _ ih =>
      rw [splitChars_append_cons h.notMem_point]
      exact List.forall_mem_cons.2 ⟨isWord_iff.2 h, ih⟩

theorem IsDotted.notBlank (h : IsDotted cs) :
    ∀ c ∈ cs, isBlank c = false ∧ isLineBreak c = false := by
  intro c hc
  rcases isPart_of_isQualified (isQualified_iff.2 h) c hc with rfl | hc
  · decide
  · exact ⟨isBlank_eq_false (bounds_of_isPart hc), isLineBreak_eq_false (bounds_of_isPart hc)⟩

/-- What is left without a final line feed is dotted if the whole is, or is but for that. -/
theorem isDotted_dropFinalBreak_iff :
    IsDotted (dropFinalBreak cs) ↔ IsDotted cs ∨ ∃ name, IsDotted name ∧ cs = name ++ ['\n'] := by
  unfold dropFinalBreak
  split
  · next hb =>
    obtain ⟨name, rfl⟩ := List.getLast?_eq_some_iff.1 hb
    have hbreak : ¬ IsDotted (name ++ ['\n']) := by
      intro h
      exact absurd (h.notBlank '\n' (by simp)).2 (by decide)
    simp [hbreak]
  · next hb =>
    refine (or_iff_left ?_).symm
    rintro ⟨name, -, rfl⟩
    exact hb List.getLast?_concat

end Identifier

namespace Java.Containers

open Json Identifier

variable {options : List (String × Json)} {k : String} {value : Json} {e : ConfigError}

/-! ## Accepted values -/

/-- The value is a dotted name, with or without a line feed after it. -/
def Accepts (value : Json) : Prop :=
  ∃ name, IsDotted name ∧ (value = .str (.ofList name) ∨ value = .str (.ofList (name ++ ['\n'])))

theorem isQualifiedName_iff_accepts {n : String} : isQualifiedName n ↔ Accepts (.str n) := by
  rw [isQualifiedName, isQualified_iff, isDotted_dropFinalBreak_iff]
  constructor
  · rintro (h | ⟨name, h, hn⟩)
    · exact ⟨_, h, .inl (by rw [String.ofList_toList])⟩
    · exact ⟨name, h, .inr (by rw [← hn, String.ofList_toList])⟩
  · rintro ⟨name, h, hn | hn⟩ <;> obtain rfl := Json.str.inj hn
    · exact .inl (by rwa [String.toList_ofList])
    · exact .inr ⟨name, h, String.toList_ofList⟩

/-- The only blank in an accepted value is a line feed at its end. -/
theorem notBlank_of_accepts {n : String} (h : Accepts (.str n)) :
    ∀ c ∈ dropFinalBreak n.toList, isBlank c = false ∧ isLineBreak c = false := by
  have hq := isQualifiedName_iff_accepts.2 h
  exact (isQualified_iff.1 hq).notBlank

/-! ## One setting after another -/

/-- The standard container of a setting. -/
def standardFor (k : String) : String :=
  ((lookup k standard.toMembers).getD .null).text

theorem nameFor_ok_iff_accepts (hk : k ∈ names) {n : String} :
    nameFor options k (standardFor k) = .ok n ↔
      valueIn options k = .str n ∧ Accepts (valueIn options k) := by
  have hstandard : ∀ k ∈ names, isQualifiedName (standardFor k) ∧
      lookup k standard.toMembers = some (.str (standardFor k)) :=
    forall_mem_names.2 ⟨⟨by decide, rfl⟩, ⟨by decide, rfl⟩, ⟨by decide, rfl⟩⟩
  obtain ⟨hq, hs⟩ := hstandard k hk
  rw [nameFor_ok_iff_valueIn hq hs, isQualifiedName_iff_accepts]
  exact and_congr_right fun hv => by rw [hv]

theorem nameFor_error (h : nameFor options k (standardFor k) = .error e) :
    e = .badContainer k (valueIn options k) := by
  unfold nameFor at h
  split at h
  · cases h
  · next s hs =>
    split_ifs at h
    rw [valueIn, hs]
    exact (Except.error.inj h).symm
  · next j _ hj =>
    rw [valueIn, hj]
    exact (Except.error.inj h).symm

theorem nameFor_error_iff (hk : k ∈ names) :
    nameFor options k (standardFor k) = .error e ↔
      ¬ Accepts (valueIn options k) ∧ e = .badContainer k (valueIn options k) := by
  constructor
  · intro h
    refine ⟨?_, nameFor_error h⟩
    rintro ⟨name, hn, hv⟩
    have hok : ∃ n, nameFor options k (standardFor k) = .ok n := by
      rcases hv with hv | hv
      · exact ⟨_, (nameFor_ok_iff_accepts hk).2 ⟨hv, name, hn, .inl hv⟩⟩
      · exact ⟨_, (nameFor_ok_iff_accepts hk).2 ⟨hv, name, hn, .inr hv⟩⟩
    obtain ⟨n, hok⟩ := hok
    rw [h] at hok
    cases hok
  · rintro ⟨hno, rfl⟩
    cases hf : nameFor options k (standardFor k) with
    | ok n => exact absurd ((nameFor_ok_iff_accepts hk).1 hf).2 hno
    | error e => rw [nameFor_error hf]

/-- The settings are looked at in order, each by itself. -/
theorem ofMembers_error_iff_mapM :
    ofMembers options = .error e ↔
      names.mapM (fun k => nameFor options k (standardFor k)) = .error e := by
  have hlazy : standardFor "lazy_type" = standard.lazyType := rfl
  have hoptional : standardFor "optional_type" = standard.optionalType := rfl
  have hserializable : standardFor "serializable_type" = standard.serializableType := rfl
  simp only [ofMembers, names, List.mapM_cons, List.mapM_nil, hlazy, hoptional, hserializable, bind,
    Except.bind]
  cases nameFor options "lazy_type" standard.lazyType with
  | error e => simp
  | ok l =>
    cases nameFor options "optional_type" standard.optionalType with
    | error e => simp
    | ok o =>
      cases nameFor options "serializable_type" standard.serializableType with
      | error e => simp
      | ok s => simp [pure, Except.pure]

/-- The first setting in order whose value is not accepted. -/
def IsFirstBad (options : List (String × Json)) (k : String) : Prop :=
  ∃ before after, names = before ++ k :: after ∧ (∀ j ∈ before, Accepts (valueIn options j)) ∧
    ¬ Accepts (valueIn options k)

theorem ofMembers_error_iff :
    ofMembers options = .error e ↔
      ∃ k, IsFirstBad options k ∧ e = .badContainer k (valueIn options k) := by
  rw [ofMembers_error_iff_mapM, Fallible.mapM_error_iff]
  constructor
  · rintro ⟨before, k, after, hsplit, hbefore, he⟩
    have hmem : ∀ j ∈ before ++ k :: after, j ∈ names := fun j hj => hsplit ▸ hj
    obtain ⟨hbad, rfl⟩ := (nameFor_error_iff (hmem k (by simp))).1 he
    refine ⟨k, ⟨before, after, hsplit, fun j hj => ?_, hbad⟩, rfl⟩
    obtain ⟨n, hn⟩ := hbefore j hj
    exact ((nameFor_ok_iff_accepts (hmem j (List.mem_append_left _ hj))).1 hn).2
  · rintro ⟨k, ⟨before, after, hsplit, hbefore, hbad⟩, rfl⟩
    have hmem : ∀ j ∈ before ++ k :: after, j ∈ names := fun j hj => hsplit ▸ hj
    refine ⟨before, k, after, hsplit, fun j hj => ?_, (nameFor_error_iff (hmem k (by simp))).2
      ⟨hbad, rfl⟩⟩
    cases hf : nameFor options j (standardFor j) with
    | ok n => exact ⟨n, rfl⟩
    | error e =>
      have hj' := hmem j (List.mem_append_left _ hj)
      exact absurd (hbefore j hj) ((nameFor_error_iff hj').1 hf).1

/-! ## All settings -/

theorem ofOptions_of_names (hk : ∀ m ∈ options, m.1 ∈ names) :
    ofOptions options = (ofMembers options).mapError .config := by
  have hfind : options.find? (fun m => !names.contains m.1) = none := by
    rw [List.find?_eq_none]
    intro m hm
    simpa using hk m hm
  rw [ofOptions, hfind]

/--
Containers are made of options exactly if the value of each setting, given or standard, is a dotted
name, perhaps with a line feed after it; they bear these names, in which a line feed at the end is
the only blank. Otherwise the first setting in order whose value is neither is reported.
-/
theorem ofOptions_outcome (hk : ∀ m ∈ options, m.1 ∈ names) :
    ((∃ c, ofOptions options = .ok c) ↔ ∀ k ∈ names, Accepts (valueIn options k)) ∧
      (∀ c, ofOptions options = .ok c → ∀ k ∈ names, ∃ n,
        lookup k c.toMembers = some (.str n) ∧ valueIn options k = .str n ∧
        ∀ ch ∈ dropFinalBreak n.toList, isBlank ch = false ∧ isLineBreak ch = false) ∧
      ∀ failure, ofOptions options = .error failure ↔
        ∃ k, IsFirstBad options k ∧ failure = .config (.badContainer k (valueIn options k)) := by
  rw [ofOptions_of_names hk]
  have hnamed : ∀ c, ofMembers options = .ok c ↔ c.NamedBy (valueIn options) :=
    fun c => ofMembers_ok_iff
  refine ⟨⟨?_, fun hall => ?_⟩, fun c hc k hmem => ?_, fun failure => ⟨fun h => ?_, ?_⟩⟩
  · rintro ⟨c, hc⟩ k hmem
    obtain ⟨n, -, hv, hq⟩ := (hnamed c).1 (Fallible.mapError_ok hc) k hmem
    rw [hv]
    exact isQualifiedName_iff_accepts.1 hq
  · cases hm : ofMembers options with
    | ok c => exact ⟨c, rfl⟩
    | error e =>
      obtain ⟨k, ⟨before, after, hsplit, -, hbad⟩, -⟩ := ofMembers_error_iff.1 hm
      exact absurd (hall k (by rw [hsplit]; simp)) hbad
  · obtain ⟨n, hn, hv, hq⟩ := (hnamed c).1 (Fallible.mapError_ok hc) k hmem
    exact ⟨n, hn, hv, notBlank_of_accepts (isQualifiedName_iff_accepts.1 hq)⟩
  · obtain ⟨e, he, rfl⟩ := Fallible.mapError_error h
    obtain ⟨k, hbad, rfl⟩ := ofMembers_error_iff.1 he
    exact ⟨k, hbad, rfl⟩
  · rintro ⟨k, hbad, rfl⟩
    rw [ofMembers_error_iff.2 ⟨k, hbad, rfl⟩]
    rfl

/-- Of two settings that are not accepted it is the first in order that is reported. -/
theorem ofOptions_outcome_first :
    (∀ m ∈ [("serializable_type", Json.null), ("optional_type", .str "a..B")], m.1 ∈ names) ∧
      ofOptions [("serializable_type", .null), ("optional_type", .str "a..B")] =
        .error (.config (.badContainer "optional_type" (.str "a..B"))) := by
  have hk : ∀ m ∈ [("serializable_type", Json.null), ("optional_type", .str "a..B")],
      m.1 ∈ names := by decide
  have hlazy : isQualifiedName standard.lazyType := by decide
  refine ⟨hk, ((ofOptions_outcome hk).2.2 _).2 ⟨"optional_type", ?_, rfl⟩⟩
  refine ⟨["lazy_type"], ["serializable_type"], rfl, List.forall_mem_singleton.2 ?_, fun h => ?_⟩
  · exact isQualifiedName_iff_accepts.1 hlazy
  · exact absurd (isQualifiedName_iff_accepts.2 h) (by decide)

/-- A name with a line feed at its end is accepted, though it is no dotted name. -/
theorem ofOptions_finalBreak :
    ofOptions [("lazy_type", .str "a.L\n")] = .ok { Containers.standard with lazyType := "a.L\n" } ∧
      ¬ IsDotted "a.L\n".toList := by
  refine ⟨rfl, fun h => ?_⟩
  exact absurd (h.notBlank '\n' (by decide)).2 (by decide)

end Java.Containers

end Typewright
