import Typewright.Layout

/-!
# Trimmed texts and lines

- `Text.trimChars_append_trimChars`: blanks before a trimmed text are trimmed off again, and nothing
  else is.
- `Text.splitLines_of_noBreak`: a text that stays in one line is its only line.
- `Text.noBreak_of_mem_splitLines`: a line holds no character that ends a line.
- `Text.splitAt_join`: texts without the separator are the pieces of the text they are joined to.
- `Layout.splitLines_unlines`: lines that hold no such character are the lines of their text.
-/

namespace Typewright

namespace Text

/-- The characters at the start of what is trimmed at the end. -/
theorem dropBlankEnd_isPrefixOf (cs : List Char) : dropBlankEnd cs <+: cs := by
  unfold dropBlankEnd
  rw [← List.reverse_suffix, List.reverse_reverse]
  exact List.dropWhile_suffix _

theorem mem_of_mem_trimChars {c : Char} {cs : List Char} (h : c ∈ trimChars cs) : c ∈ cs :=
  (List.dropWhile_suffix _).subset ((dropBlankEnd_isPrefixOf _).subset h)

theorem isBlank_head?_trimChars (cs : List Char) :
    ∀ c ∈ (trimChars cs).head?, isBlank c = false := by
  intro c hc
  obtain ⟨r, hr⟩ := List.head?_eq_some_iff.1 hc
  obtain ⟨t, ht⟩ := dropBlankEnd_isPrefixOf (cs.dropWhile isBlank)
  have hd : cs.dropWhile isBlank = c :: (r ++ t) := by
    rw [← ht, ← trimChars, hr]; rfl
  have hn := List.head?_dropWhile_not isBlank cs
  rw [hd] at hn
  simpa using hn

theorem isBlank_getLast?_trimChars (cs : List Char) :
    ∀ c ∈ (trimChars cs).getLast?, isBlank c = false := by
  intro c hc
  rw [trimChars, dropBlankEnd, List.getLast?_reverse] at hc
  have hn := List.head?_dropWhile_not isBlank (cs.dropWhile isBlank).reverse
  rw [hc] at hn
  simpa using hn

theorem trimChars_trimChars (cs : List Char) : trimChars (trimChars cs) = trimChars cs :=
  trimChars_eq_of_ends (isBlank_head?_trimChars cs) (isBlank_getLast?_trimChars cs)

theorem trim_trim (s : String) : trim (trim s) = trim s := by
  rw [trim, trim, String.toList_ofList, trimChars_trimChars]

/-- Blanks before a trimmed text are trimmed off again, and nothing else is. -/
theorem trimChars_append_trimChars {m : List Char} (hm : ∀ c ∈ m, isBlank c) (cs : List Char) :
    trimChars (m ++ trimChars cs) = trimChars cs := by
  have h : trimChars (m ++ trimChars cs) = trimChars (trimChars cs) := by
    unfold trimChars
    rw [List.dropWhile_append_of_pos hm]
  rw [h, trimChars_trimChars]

/-- Characters up to one that is not blank stay when the end is trimmed. -/
theorem exists_dropBlankEnd_append_cons (m : List Char) {c : Char} (hc : isBlank c = false)
    (r : List Char) : ∃ r', dropBlankEnd (m ++ c :: r) = m ++ c :: r' := by
  have hr : (m ++ c :: r).reverse = r.reverse ++ c :: m.reverse := by simp
  rw [dropBlankEnd, hr, List.dropWhile_append]
  split
  · refine ⟨[], ?_⟩
    rw [dropWhile_eq_self_of_head hc]
    simp
  · exact ⟨(r.reverse.dropWhile isBlank).reverse, by simp⟩

theorem trimChars_append_cons {m : List Char} (hm : ∀ c ∈ m, isBlank c) {c : Char}
    (hc : isBlank c = false) (r : List Char) : trimChars (m ++ c :: r) = dropBlankEnd (c :: r) := by
  rw [trimChars, List.dropWhile_append_of_pos hm, dropWhile_eq_self_of_head hc]

theorem trim_of_forall {s : String} (h : ∀ c ∈ s.toList, isBlank c = false) : trim s = s :=
  trim_eq_of_ends (fun c hc => h c (List.mem_of_mem_head? hc))
    fun c hc => h c (List.mem_of_mem_getLast? hc)

theorem trim_of_isBlankText {s : String} (h : isBlankText s) : trim s = "" := by
  have hd : (s.toList ++ []).dropWhile isBlank = [].dropWhile isBlank :=
    List.dropWhile_append_of_pos (List.all_eq_true.1 h)
  rw [List.append_nil] at hd
  rw [trim, trimChars, hd]
  rfl

/-! ## Lines -/

/-- A text that stays in one line. -/
def NoBreak (s : String) : Prop :=
  ∀ c ∈ s.toList, isLineBreak c = false

instance (s : String) : Decidable (NoBreak s) :=
  decidable_of_iff (s.toList.all fun c => !isLineBreak c) (by simp [NoBreak])

theorem noBreak_ofList {cs : List Char} (h : cs.all fun c => !isLineBreak c) :
    NoBreak (.ofList cs) := by
  intro c hc
  rw [String.toList_ofList] at hc
  simpa using List.all_eq_true.1 h c hc

@[simp] theorem noBreak_append_iff {s t : String} : NoBreak (s ++ t) ↔ NoBreak s ∧ NoBreak t := by
  simp only [NoBreak, String.toList_append, List.mem_append]
  exact ⟨fun h => ⟨fun c hc => h c (.inl hc), fun c hc => h c (.inr hc)⟩,
    fun h c hc => hc.elim (h.1 c) (h.2 c)⟩

theorem noBreak_join {sep : String} (hsep : NoBreak sep) {ss : List String}
    (h : ∀ s ∈ ss, NoBreak s) : NoBreak (join sep ss) := by
  induction ss with
  | nil => exact fun c hc => by simp at hc
  | cons s r ih =>
    obtain ⟨hs, hr⟩ := List.forall_mem_cons.1 h
    cases r with
    | nil => exact hs
    | cons t r => rw [join_cons_cons]; simp [hs, hsep, ih hr]

theorem noBreak_trim {s : String} (h : NoBreak s) : NoBreak (trim s) := by
  intro c hc
  rw [trim, String.toList_ofList] at hc
  exact h c (mem_of_mem_trimChars hc)

theorem noBreak_times {s : String} (h : NoBreak s) (n : Nat) : NoBreak (times s n) := by
  intro c hc
  rw [toList_times, List.mem_flatten] at hc
  obtain ⟨cs, hcs, hc⟩ := hc
  rw [List.eq_of_mem_replicate hcs] at hc
  exact h c hc

theorem lineChars_cons_of_isLineBreak {c : Char} {cs : List Char} (hc : isLineBreak c)
    (hcr : ∀ r, c = '\r' → cs = '\n' :: r → False) : lineChars (c :: cs) = [] :: lineChars cs := by
  rw [lineChars, if_pos hc]
  exact hcr

theorem lineChars_cons_of_lineChars {c : Char} {cs l : List Char} {ls : List (List Char)}
    (hc : isLineBreak c = false) (h : lineChars cs = l :: ls) :
    lineChars (c :: cs) = (c :: l) :: ls := by
  rw [lineChars, if_neg (by simp [hc]), h]
  rintro r rfl -
  exact absurd hc (by decide)

theorem lineChars_singleton {c : Char} (hc : isLineBreak c = false) : lineChars [c] = [[c]] := by
  rw [lineChars, if_neg (by simp [hc]), lineChars]
  rintro r - ⟨⟩

theorem lineChars_eq_nil_iff {cs : List Char} : lineChars cs = [] ↔ cs = [] := by
  refine ⟨fun h => ?_, fun h => h ▸ rfl⟩
  unfold lineChars at h
  split at h
  · rfl
  · cases h
  · split at h
    · cases h
    · split at h <;> cases h

theorem isLineBreak_of_mem_lineChars {cs l : List Char} (h : l ∈ lineChars cs) :
    ∀ c ∈ l, isLineBreak c = false := by
  induction cs using lineChars.induct generalizing l with
  | case1 => cases h
  | case2 r ih =>
    rw [lineChars, List.mem_cons] at h
    rcases h with rfl | h
    · simp
    · exact ih h
  | case3 c r hcr hb ih =>
    rw [lineChars_cons_of_isLineBreak hb hcr, List.mem_cons] at h
    rcases h with rfl | h
    · simp
    · exact ih h
  | case4 c r hcr hb hr ih =>
    obtain rfl := lineChars_eq_nil_iff.1 hr
    have hc : isLineBreak c = false := by simpa using hb
    rw [lineChars_singleton hc, List.mem_singleton] at h
    subst h
    simpa using hc
  -- the character is put in front of the first line of the rest
  | case5 c r hcr hb first rest hr ih =>
    have hc : isLineBreak c = false := by simpa using hb
    rw [lineChars_cons_of_lineChars hc hr, List.mem_cons] at h
    rcases h with rfl | h
    · exact List.forall_mem_cons.2 ⟨hc, ih (hr ▸ List.mem_cons_self)⟩
    · exact ih (hr ▸ List.mem_cons_of_mem first h)

/-- A line holds no character that ends a line. -/
theorem noBreak_of_mem_splitLines {s l : String} (h : l ∈ splitLines s) : NoBreak l := by
  obtain ⟨cs, hcs, rfl⟩ := List.mem_map.1 h
  intro c hc
  rw [String.toList_ofList] at hc
  exact isLineBreak_of_mem_lineChars hcs c hc

theorem exists_mem_lineChars {c : Char} {cs : List Char} (h : c ∈ cs) (hb : isLineBreak c = false) :
    ∃ line ∈ lineChars cs, c ∈ line := by
  -- what ends a line is no part of it, and the character does not end one
  have hne {d : Char} (hd : isLineBreak d) : c ≠ d := by
    rintro rfl
    simp [hb] at hd
  induction cs using lineChars.induct with
  | case1 => cases h
  | case2 r ih =>
    have hr : c ∈ r := by simpa [hne (d := '\r') (by decide), hne (d := '\n') (by decide)] using h
    obtain ⟨line, hl, hc⟩ := ih hr
    rw [lineChars]
    exact ⟨line, List.mem_cons_of_mem _ hl, hc⟩
  | case3 d r hcr hd ih =>
    obtain ⟨line, hl, hc⟩ := ih ((List.mem_cons.1 h).resolve_left (hne hd))
    rw [lineChars_cons_of_isLineBreak hd hcr]
    exact ⟨line, List.mem_cons_of_mem _ hl, hc⟩
  | case4 d r hcr hd hr ih =>
    obtain rfl := lineChars_eq_nil_iff.1 hr
    obtain rfl := List.mem_singleton.1 h
    rw [lineChars_singleton hb]
    exact ⟨[c], List.mem_singleton_self _, List.mem_singleton_self _⟩
  | case5 d r hcr hd first rest hr ih =>
    rw [lineChars_cons_of_lineChars (by simpa using hd) hr]
    rcases List.mem_cons.1 h with rfl | h
    · exact ⟨_, List.mem_cons_self, List.mem_cons_self⟩
    · obtain ⟨line, hl, hc⟩ := ih h
      rw [hr] at hl
      rcases List.mem_cons.1 hl with rfl | hl
      · exact ⟨_, List.mem_cons_self, List.mem_cons_of_mem _ hc⟩
      · exact ⟨line, List.mem_cons_of_mem _ hl, hc⟩

/-- Characters that stay in one line are the first line, if a line feed follows. -/
theorem lineChars_append_lineFeed {cs : List Char} (h : ∀ c ∈ cs, isLineBreak c = false)
    (r : List Char) : lineChars (cs ++ '\n' :: r) = cs :: lineChars r := by
  induction cs with
  | nil => exact lineChars_cons_of_isLineBreak (by decide) (by simp)
  | cons c cs ih =>
    obtain ⟨hc, hcs⟩ := List.forall_mem_cons.1 h
    exact lineChars_cons_of_lineChars hc (ih hcs)

/-- The line before a line feed is the first, and what follows is cut into the others. -/
theorem splitLines_append_lineFeed {s : String} (h : NoBreak s) (t : String) :
    splitLines (s ++ "\n" ++ t) = s :: splitLines t := by
  have ht : (s ++ "\n" ++ t).toList = s.toList ++ '\n' :: t.toList := by simp
  rw [splitLines, ht, lineChars_append_lineFeed h, List.map_cons, String.ofList_toList]
  rfl

theorem splitLines_join_append {ls : List String} (h : ∀ s ∈ ls, NoBreak s) (hne : ls ≠ [])
    (t : String) : splitLines (join "\n" ls ++ "\n" ++ t) = ls ++ splitLines t := by
  induction ls with
  | nil => exact absurd rfl hne
  | cons s r ih =>
    obtain ⟨hs, hr⟩ := List.forall_mem_cons.1 h
    cases r with
    | nil => exact splitLines_append_lineFeed hs t
    | cons u r =>
      have ha : join "\n" (s :: u :: r) ++ "\n" ++ t =
          s ++ "\n" ++ (join "\n" (u :: r) ++ "\n" ++ t) := by
        rw [join_cons_cons]
        simp only [String.append_assoc]
      rw [ha, splitLines_append_lineFeed hs, ih hr (List.cons_ne_nil u r)]
      rfl

theorem lineChars_eq_singleton {cs : List Char} (h : ∀ c ∈ cs, isLineBreak c = false)
    (hne : cs ≠ []) : lineChars cs = [cs] := by
  induction cs with
  | nil => exact absurd rfl hne
  | cons c r ih =>
    obtain ⟨hc, hr⟩ := List.forall_mem_cons.1 h
    cases r with
    | nil => exact lineChars_singleton hc
    | cons d r => exact lineChars_cons_of_lineChars hc (ih hr (List.cons_ne_nil d r))

theorem splitLines_of_noBreak {s : String} (h : NoBreak s) (hs : s ≠ "") : splitLines s = [s] := by
  have hne : s.toList ≠ [] := by simpa using hs
  rw [splitLines, lineChars_eq_singleton h hne, List.map_singleton, String.ofList_toList]

/-! ## Pieces -/

theorem mem_joinChars {sep c : Char} {p : List Char} {ps : List (List Char)} (hp : p ∈ ps)
    (hc : c ∈ p) : c ∈ joinChars sep ps := by
  induction ps using joinChars.induct with
  | case1 => cases hp
  | case2 q => rwa [joinChars, ← List.mem_singleton.1 hp]
  | case3 q q' r ih =>
    rw [joinChars, List.mem_append, List.mem_cons]
    rcases List.mem_cons.1 hp with rfl | hp
    · exact .inl hc
    · exact .inr (.inr (ih hp))

theorem eq_or_mem_of_mem_joinChars {sep c : Char} {ps : List (List Char)}
    (h : c ∈ joinChars sep ps) : c = sep ∨ ∃ p ∈ ps, c ∈ p := by
  induction ps using joinChars.induct with
  | case1 => cases h
  | case2 q => exact .inr ⟨q, List.mem_singleton_self q, h⟩
  | case3 q q' r ih =>
    rw [joinChars, List.mem_append, List.mem_cons] at h
    rcases h with hq | hsep | hr
    · exact .inr ⟨q, List.mem_cons_self, hq⟩
    · exact .inl hsep
    · rcases ih hr with hsep | ⟨p, hp, hc⟩
      · exact .inl hsep
      · exact .inr ⟨p, List.mem_cons_of_mem q hp, hc⟩

theorem splitChars_of_notMem {sep : Char} {cs : List Char} (h : sep ∉ cs) :
    splitChars sep cs = [cs] := by
  induction cs with
  | nil => rfl
  | cons c r ih =>
    rw [List.mem_cons, not_or] at h
    rw [splitChars, if_neg (Ne.symm h.1), ih h.2]

theorem splitChars_append_cons {sep : Char} {cs : List Char} (h : sep ∉ cs) (r : List Char) :
    splitChars sep (cs ++ sep :: r) = cs :: splitChars sep r := by
  induction cs with
  | nil => rw [List.nil_append, splitChars, if_pos rfl]
  | cons c cs ih =>
    rw [List.mem_cons, not_or] at h
    rw [List.cons_append, splitChars, if_neg (Ne.symm h.1), ih h.2]

theorem splitChars_joinChars {sep : Char} {ps : List (List Char)} (hne : ps ≠ [])
    (h : ∀ p ∈ ps, sep ∉ p) : splitChars sep (joinChars sep ps) = ps := by
  induction ps using joinChars.induct with
  | case1 => exact absurd rfl hne
  | case2 q => exact splitChars_of_notMem (h q List.mem_cons_self)
  | case3 q q' r ih =>
    rw [joinChars, splitChars_append_cons (h q List.mem_cons_self),
      ih (List.cons_ne_nil q' r) fun p hp => h p (List.mem_cons_of_mem q hp)]

theorem toList_join {sep : String} {c : Char} (hsep : sep.toList = [c]) (ss : List String) :
    (join sep ss).toList = joinChars c (ss.map String.toList) := by
  induction ss with
  | nil => rfl
  | cons s r ih =>
    cases r with
    | nil => rfl
    | cons t r =>
      rw [join_cons_cons, String.toList_append, String.toList_append, hsep, ih]
      simp [joinChars]

/-- Texts without the separator are the pieces of the text that they are joined to. -/
theorem splitAt_join {sep : String} {c : Char} (hsep : sep.toList = [c]) {ss : List String}
    (hne : ss ≠ []) (h : ∀ s ∈ ss, c ∉ s.toList) : splitAt c (join sep ss) = ss := by
  have hne' : ss.map String.toList ≠ [] := by simpa using hne
  have h' : ∀ p ∈ ss.map String.toList, c ∉ p := by
    intro p hp
    obtain ⟨s, hs, rfl⟩ := List.mem_map.1 hp
    exact h s hs
  rw [splitAt, toList_join hsep, splitChars_joinChars hne' h', List.map_map]
  simp [Function.comp_def]

theorem mem_of_mem_splitChars {sep c : Char} {cs p : List Char} (hp : p ∈ splitChars sep cs)
    (hc : c ∈ p) : c ∈ cs :=
  joinChars_splitChars sep cs ▸ mem_joinChars hp hc

end Text

namespace Layout

theorem toList_unlines_cons (s : String) (ls : List String) :
    (unlines (s :: ls)).toList = s.toList ++ '\n' :: (unlines ls).toList := by
  simp [unlines, String.toList_join]

theorem unlines_cons (s : String) (ls : List String) :
    unlines (s :: ls) = s ++ "\n" ++ unlines ls := by
  rw [← String.toList_inj, toList_unlines_cons]
  simp

/-- Lines that hold no line end are the lines of their text. -/
theorem splitLines_unlines {ls : List String} (h : ∀ s ∈ ls, Text.NoBreak s) :
    Text.splitLines (unlines ls) = ls := by
  induction ls with
  | nil => rfl
  | cons s ls ih =>
    have hs := h s List.mem_cons_self
    have hls := ih fun t ht => h t (List.mem_cons_of_mem s ht)
    rw [Text.splitLines] at hls ⊢
    rw [toList_unlines_cons, Text.lineChars_append_lineFeed hs, List.map_cons, hls,
      String.ofList_toList]

end Layout

end Typewright
