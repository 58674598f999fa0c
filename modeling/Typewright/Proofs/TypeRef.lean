import Mathlib.Data.List.Infix
import Typewright.Proofs.Text.Lines
import Typewright.TypeRef

/-!
# The spelling of a type reference

Reading a spelling trims blanks off and takes the marks away, so what is left as the name of a type
is not any text. What is left comes back from the compact spelling of the reference.

- `TypeRef.IsProper`: the name of the reference is one that reading can leave.
- `TypeRef.ofText?_spelling`: such a reference is read back from its compact spelling.
- `TypeRef.isProper_iff`: the references that can be read are just those.
- `TypeRef.spelling_roundTrip`: the same in terms of the marks; so different references that can be
  read have different spellings.
-/

namespace Typewright

namespace Text

theorem trimChars_isPrefixOf {cs : List Char} (h : ∀ c ∈ cs.head?, isBlank c = false) :
    trimChars cs <+: cs := by
  have hd : cs.dropWhile isBlank = cs := by
    cases cs with
    | nil => rfl
    | cons c r => exact dropWhile_eq_self_of_head (h c rfl)
  rw [trimChars, hd]
  exact dropBlankEnd_isPrefixOf cs

theorem trimChars_append {as bs : List Char} (has : as ≠ []) (hbs : bs ≠ [])
    (ha : ∀ c ∈ as.head?, isBlank c = false) (hb : ∀ c ∈ bs.getLast?, isBlank c = false) :
    trimChars (as ++ bs) = as ++ bs := by
  refine trimChars_eq_of_ends (fun c hc => ha c ?_) (fun c hc => hb c ?_)
  · rwa [List.head?_append_of_ne_nil as has] at hc
  · rwa [List.getLast?_append_of_ne_nil as hbs] at hc

end Text

namespace TypeRef

open Text

/--
The name of the reference is there, bare of blanks at its ends and of a mark at its end, and the
word for a deferred type does not start it unless the reference is deferred.
-/
structure IsProper (t : TypeRef) : Prop where
  name_ne : t.name ≠ ""
  trim_name : trim t.name = t.name
  unmarked : ∀ c ∈ t.name.toList.getLast?, c ≠ '*' ∧ c ≠ '?'
  undeferred : t.isLazy = false → ¬ lazyWord <+: t.name.toList

theorem isTypeName_iff {cs : List Char} :
    isTypeName cs ↔ cs ≠ [] ∧ ∀ c ∈ cs.getLast?, c ≠ '*' ∧ c ≠ '?' := by
  unfold isTypeName
  split
  · next h => simp [List.getLast?_eq_none_iff.1 h]
  · next c h =>
    have hne : cs ≠ [] := by
      rintro rfl
      cases h
    simp [h, hne]

instance (t : TypeRef) : Decidable t.IsProper :=
  decidable_of_iff (isTypeName t.name.toList ∧ trim t.name = t.name ∧
      (t.isLazy = false → ¬ lazyWord <+: t.name.toList)) <| by
    rw [isTypeName_iff]
    exact ⟨fun ⟨⟨hne, hm⟩, ht, hl⟩ => ⟨by simpa using hne, ht, hm, hl⟩,
      fun ⟨hne, ht, hm, hl⟩ => ⟨⟨by simpa using hne, hm⟩, ht, hl⟩⟩

/-! ## Reading -/

theorem splitLazy_of_prefix (cs : List Char) :
    splitLazy (lazyWord ++ cs) = (true, trimChars cs) := by
  rw [splitLazy, if_pos (List.isPrefixOf_iff_prefix.2 (List.prefix_append _ _)), List.drop_left]

theorem splitLazy_of_not_prefix {cs : List Char} (h : ¬ lazyWord <+: cs) :
    splitLazy cs = (false, cs) :=
  if_neg fun hp => h (List.isPrefixOf_iff_prefix.1 hp)

theorem trimChars_splitLazy {cs : List Char} (h : trimChars cs = cs) :
    trimChars (splitLazy cs).2 = (splitLazy cs).2 := by
  unfold splitLazy
  split
  · exact trimChars_trimChars _
  · exact h

/-- The name that a mark leaves is trimmed, and the text starts with it. -/
theorem splitMark_spec {cs : List Char} (h : trimChars cs = cs) :
    trimChars (splitMark cs).2 = (splitMark cs).2 ∧ (splitMark cs).2 <+: cs := by
  have hhead : ∀ c ∈ cs.dropLast.head?, isBlank c = false := by
    intro c hc
    have hcs : ∀ c ∈ cs.head?, isBlank c = false := h ▸ isBlank_head?_trimChars cs
    refine hcs c ?_
    obtain ⟨r, hr⟩ := List.head?_eq_some_iff.1 hc
    obtain ⟨t, ht⟩ := List.dropLast_prefix cs
    rw [← ht, hr]
    rfl
  have hprefix : trimChars cs.dropLast <+: cs :=
    (trimChars_isPrefixOf hhead).trans (List.dropLast_prefix cs)
  unfold splitMark
  split
  · exact ⟨trimChars_trimChars _, hprefix⟩
  · exact ⟨trimChars_trimChars _, hprefix⟩
  · exact ⟨h, List.prefix_refl cs⟩

theorem isProper_of_ofText? {s : String} {t : TypeRef} (h : ofText? s = some t) : t.IsProper := by
  have hs := trimChars_trimChars s.toList
  unfold ofText? at h
  simp only [Option.ite_none_right_eq_some, Option.some.injEq] at h
  generalize trimChars s.toList = cs at h hs
  obtain ⟨hname, rfl⟩ := h
  obtain ⟨hne, hlast⟩ := isTypeName_iff.1 hname
  obtain ⟨htrim, hprefix⟩ := splitMark_spec (trimChars_splitLazy hs)
  refine ⟨by simpa using hne, ?_, by simpa using hlast, fun hlazy hword => ?_⟩
  · rw [trim, String.toList_ofList, htrim]
  · rw [String.toList_ofList] at hword
    unfold splitLazy at hlazy hprefix hword
    split at hlazy
    · cases hlazy
    · next hno =>
      rw [if_neg hno] at hprefix hword
      exact hno (List.isPrefixOf_iff_prefix.2 (hword.trans hprefix))

/-! ## The compact spelling -/

theorem splitMark_append {cs : List Char} (ht : trimChars cs = cs)
    (hm : ∀ c ∈ cs.getLast?, c ≠ '*' ∧ c ≠ '?') (a : Arity) :
    splitMark (cs ++ a.mark.toList) = (a, cs) := by
  cases a with
  | single =>
    have hnil : cs ++ Arity.single.mark.toList = cs := List.append_nil cs
    rw [hnil]
    unfold splitMark
    split
    · next h => exact absurd rfl (hm '*' h).1
    · next h => exact absurd rfl (hm '?' h).2
    · rfl
  | repeated =>
    show splitMark (cs ++ ['*']) = _
    simp [splitMark, ht]
  | optional =>
    show splitMark (cs ++ ['?']) = _
    simp [splitMark, ht]

/-- A mark does not complete the word for a deferred type, which ends in a blank. -/
theorem not_prefix_append_mark {cs : List Char} (h : ¬ lazyWord <+: cs) (a : Arity) :
    ¬ lazyWord <+: cs ++ a.mark.toList := by
  have hlast {c : Char} (hc : c ≠ ' ') : ¬ lazyWord <+: cs ++ [c] := by
    rw [List.prefix_concat_iff, not_or]
    refine ⟨fun heq => hc ?_, h⟩
    have hl := congrArg List.getLast? heq
    rw [List.getLast?_concat] at hl
    exact (Option.some.inj hl).symm
  cases a with
  | single => simpa [Arity.mark] using h
  | repeated => exact hlast (by decide)
  | optional => exact hlast (by decide)

theorem trimChars_append_mark {cs : List Char} (hne : cs ≠ []) (h : trimChars cs = cs) (a : Arity) :
    trimChars (cs ++ a.mark.toList) = cs ++ a.mark.toList := by
  have hhead : ∀ c ∈ cs.head?, isBlank c = false := h ▸ isBlank_head?_trimChars cs
  cases a with
  | single => simpa [Arity.mark] using h
  | repeated =>
    refine trimChars_append hne (List.cons_ne_nil _ _) hhead fun c hc => ?_
    obtain rfl := Option.some.inj hc
    rfl
  | optional =>
    refine trimChars_append hne (List.cons_ne_nil _ _) hhead fun c hc => ?_
    obtain rfl := Option.some.inj hc
    rfl

/-- The word is told from what is deferred. -/
theorem splitLazy_spelling {name : String} {arity : Arity} {isLazy : Bool}
    (hne : name.toList ≠ []) (htrim : trimChars name.toList = name.toList)
    (hword : isLazy = false → ¬ lazyWord <+: name.toList) :
    splitLazy (trimChars (spelling ⟨name, arity, isLazy⟩).toList) =
      (isLazy, name.toList ++ arity.mark.toList) := by
  have hmarked := trimChars_append_mark hne htrim arity
  cases isLazy with
  | false =>
    have hs : (spelling ⟨name, arity, false⟩).toList = name.toList ++ arity.mark.toList := by
      simp [spelling]
    rw [hs, hmarked, splitLazy_of_not_prefix (not_prefix_append_mark (hword rfl) arity)]
  | true =>
    have hs : (spelling ⟨name, arity, true⟩).toList =
        lazyWord ++ (name.toList ++ arity.mark.toList) := by simp [spelling, lazyWord]
    have hlast : ∀ c ∈ (name.toList ++ arity.mark.toList).getLast?, isBlank c = false :=
      hmarked ▸ isBlank_getLast?_trimChars _
    have hhead : ∀ c ∈ lazyWord.head?, isBlank c = false := by
      intro c hc
      obtain rfl := Option.some.inj hc
      rfl
    -- the word does not start with a blank nor the mark end with one, so nothing is trimmed
    have hwhole : trimChars (lazyWord ++ (name.toList ++ arity.mark.toList)) =
        lazyWord ++ (name.toList ++ arity.mark.toList) :=
      trimChars_append (List.cons_ne_nil _ _) (List.append_ne_nil_of_left_ne_nil hne _) hhead hlast
    rw [hs, hwhole, splitLazy_of_prefix, hmarked]

/-- A proper reference is read back from its compact spelling. -/
theorem ofText?_spelling {t : TypeRef} (h : t.IsProper) : ofText? t.spelling = some t := by
  obtain ⟨name, arity, isLazy⟩ := t
  obtain ⟨hne, htrim, hmark, hword⟩ := h
  have hne' : name.toList ≠ [] := by simpa using hne
  have htrim' : trimChars name.toList = name.toList := by
    rw [← String.ofList_inj, String.ofList_toList]
    exact htrim
  rw [ofText?, splitLazy_spelling hne' htrim' hword]
  simp only [splitMark_append htrim' hmark arity]
  rw [if_pos (isTypeName_iff.2 ⟨hne', hmark⟩), String.ofList_toList]

/-! ## References by their marks -/

theorem ofMarks?_eq_some_iff {name : String} {isLazy repeated optional : Bool} {t : TypeRef} :
    ofMarks? name isLazy repeated optional = some t ↔
      t.name = name ∧ t.isLazy = isLazy ∧ decide (t.arity = .repeated) = repeated ∧
        decide (t.arity = .optional) = optional := by
  obtain ⟨n, a, l⟩ := t
  cases repeated <;> cases optional <;> cases a <;> simp [ofMarks?, eq_comm]

/-- There is a reference with any marks that are not both of the marks at the end. -/
theorem exists_ofMarks?_iff (name : String) (isLazy : Bool) {repeated optional : Bool} :
    (∃ t, ofMarks? name isLazy repeated optional = some t) ↔ ¬ (repeated ∧ optional) := by
  cases repeated <;> cases optional <;> simp [ofMarks?]

/--
A reference that was read is read again from its compact spelling. What can be read are the
references with one mark at the end at most whose name is there, is trimmed, ends in no mark and,
unless the type is deferred, does not start with `lazy` and a blank. No two of them are spelled
alike.
-/
theorem spelling_roundTrip :
    (∀ s t, ofText? s = some t → ofText? t.spelling = some t) ∧
      (∀ name isLazy repeated optional,
        (∃ s t, ofText? s = some t ∧ ofMarks? name isLazy repeated optional = some t) ↔
          name ≠ "" ∧ trim name = name ∧ (∀ c ∈ name.toList.getLast?, c ≠ '*' ∧ c ≠ '?') ∧
            ¬ (repeated ∧ optional) ∧ (isLazy = false → ¬ "lazy ".toList <+: name.toList)) ∧
      ∀ s₁ s₂ t₁ t₂, ofText? s₁ = some t₁ → ofText? s₂ = some t₂ →
        t₁.spelling = t₂.spelling → t₁ = t₂ := by
  have hread : ∀ s t, ofText? s = some t → ofText? t.spelling = some t := fun s t h =>
    ofText?_spelling (isProper_of_ofText? h)
  refine ⟨hread, fun name isLazy repeated optional => ⟨?_, ?_⟩, ?_⟩
  · rintro ⟨s, t, hs, hm⟩
    obtain ⟨hne, htrim, hmark, hword⟩ := isProper_of_ofText? hs
    obtain ⟨rfl, rfl, -, -⟩ := ofMarks?_eq_some_iff.1 hm
    exact ⟨hne, htrim, hmark, (exists_ofMarks?_iff _ _).1 ⟨t, hm⟩, hword⟩
  · rintro ⟨hne, htrim, hmark, hboth, hword⟩
    obtain ⟨t, hm⟩ := (exists_ofMarks?_iff name isLazy).2 hboth
    obtain ⟨rfl, rfl, -, -⟩ := ofMarks?_eq_some_iff.1 hm
    exact ⟨t.spelling, t, ofText?_spelling ⟨hne, htrim, hmark, hword⟩, hm⟩
  · intro s₁ s₂ t₁ t₂ h₁ h₂ heq
    have hspelled := hread s₁ t₁ h₁
    rw [heq, hread s₂ t₂ h₂] at hspelled
    exact (Option.some.inj hspelled).symm

/-- The name of a deferred type may start with the word that made it deferred. -/
theorem spelling_roundTrip_doubled :
    ofText? " lazy  lazy x * " = some ⟨"lazy x", .repeated, true⟩ ∧
      TypeRef.spelling ⟨"lazy x", .repeated, true⟩ = "lazy lazy x*" ∧
      ofText? "lazy lazy x*" = some ⟨"lazy x", .repeated, true⟩ := by
  have h : ofText? " lazy  lazy x * " = some ⟨"lazy x", .repeated, true⟩ := by decide
  exact ⟨h, rfl, spelling_roundTrip.1 _ _ h⟩

end TypeRef

end Typewright
