import Mathlib.Tactic.SplitIfs
import Typewright.Text.Case

/-!
# Lower case again

A text in lower case stays as it is when it is put in lower case. That is a fact about the case
table: no image of a run lies in a run again, and none is a capital sigma.

- `Text.Run.isFinal`: what is checked of each run of the table.
- `Text.isLowered_of_mem_lowerChars`: what lower case consists of.
- `Text.lower_lower`: lower case is reached in one step.
-/

namespace Typewright.Text

/-- A run of a case table: its first and its last code point, the step and the shift. -/
abbrev Run := Nat × Nat × Nat × Int

namespace Run

/-- Whether a code point lies in a run. -/
def holds (n : Nat) (run : Run) : Bool :=
  run.1 ≤ n && n ≤ run.2.1 && (n - run.1) % run.2.2.1 == 0

/-- The image of the first code point of a run. -/
def firstImage (run : Run) : Nat :=
  (run.1 + run.2.2.2).toNat

/-- The image of the last code point of a run. -/
def lastImage (run : Run) : Nat :=
  (run.2.1 + run.2.2.2).toNat

/-- Whether the images of a run are all even or all odd. -/
def keepsParity (run : Run) : Bool :=
  (run.1 == run.2.1 || run.2.2.1 == 2) && decide (0 ≤ run.1 + run.2.2.2)

/--
Whether no image of a run lies in another: the images are all below it or all above it, or they are
the code points that it passes over.
-/
def keepsClear (run other : Run) : Bool :=
  Nat.blt run.lastImage other.1 || Nat.blt other.2.1 run.firstImage ||
    (run.keepsParity && other.2.2.1 == 2 && (run.firstImage + other.1) % 2 == 1)

/-- Whether a code point is no image of a run. -/
def omits (run : Run) (n : Nat) : Bool :=
  Nat.blt run.lastImage n || Nat.blt n run.firstImage

/--
Whether the images of a run are characters in lower case: they lie in no run of the table, and they
are neither the one character that it expands nor a capital sigma.
-/
def isFinal (run : Run) : Bool :=
  (Nat.blt run.lastImage 0xD800 ||
      Nat.blt 0xDFFF run.firstImage && Nat.blt run.lastImage 0x110000) &&
    run.omits 0x130 && run.omits 0x3A3 && lowerRuns.all run.keepsClear

variable {run other : Run} {n : Nat}

theorem holds_iff : holds n run ↔ run.1 ≤ n ∧ n ≤ run.2.1 ∧ (n - run.1) % run.2.2.1 = 0 := by
  simp [holds, and_assoc]

theorem image_bounds (h : holds n run) :
    run.firstImage ≤ (n + run.2.2.2).toNat ∧ (n + run.2.2.2).toNat ≤ run.lastImage := by
  rw [holds_iff] at h
  unfold firstImage lastImage
  omega

theorem image_parity (h : holds n run) (hp : run.keepsParity) :
    (n + run.2.2.2).toNat % 2 = run.firstImage % 2 := by
  rw [holds_iff] at h
  simp only [keepsParity, Bool.and_eq_true, Bool.or_eq_true, beq_iff_eq, decide_eq_true_iff] at hp
  unfold firstImage
  rcases hp with ⟨hone | htwo, hpos⟩
  · have : n = run.1 := by omega
    rw [this]
  · rw [htwo] at h
    omega

theorem not_holds_image (h : holds n run) (hk : run.keepsClear other) :
    holds (n + run.2.2.2).toNat other = false := by
  have hb := image_bounds h
  simp only [keepsClear, Bool.or_eq_true, Bool.and_eq_true, Nat.blt_eq, beq_iff_eq] at hk
  rw [Bool.eq_false_iff, ne_eq, holds_iff]
  rintro ⟨hlo, hhi, hstep⟩
  rcases hk with (hbelow | habove) | ⟨⟨hp, htwo⟩, hodd⟩
  · omega
  · omega
  · have hpar := image_parity h hp
    rw [htwo] at hstep
    omega

theorem ne_image (h : holds n run) {m : Nat} (ho : run.omits m) : (n + run.2.2.2).toNat ≠ m := by
  have hb := image_bounds h
  simp only [omits, Bool.or_eq_true, Nat.blt_eq] at ho
  omega

theorem toNat_image (h : holds n run)
    (hv : Nat.blt run.lastImage 0xD800 ||
      Nat.blt 0xDFFF run.firstImage && Nat.blt run.lastImage 0x110000) :
    (Char.ofNat (n + run.2.2.2).toNat).toNat = (n + run.2.2.2).toNat := by
  have hb := image_bounds h
  simp only [Bool.or_eq_true, Bool.and_eq_true, Nat.blt_eq] at hv
  rw [Char.ofNat, dif_pos (by unfold Nat.isValidChar; omega)]
  rfl

/-- The runs of the table for lower case lead to lower case. -/
theorem isFinal_of_mem (h : run ∈ lowerRuns) : run.isFinal := by
  have hall : lowerRuns.all isFinal := by decide +kernel
  exact List.all_eq_true.1 hall run h

end Run

/-! ## Characters -/

variable {c d : Char} {runs : List Run} {n : Nat}

theorem shiftByRuns_eq_self (h : ∀ run ∈ runs, Run.holds n run = false) :
    shiftByRuns runs n = n := by
  have hnone : runs.find? (Run.holds n) = none :=
    List.find?_eq_none.2 fun run hr => by simp [h run hr]
  unfold shiftByRuns
  split
  · next hsome => cases hnone.symm.trans hsome
  · rfl

/-- A code point is shifted by a run that it lies in, if there is one. -/
theorem shiftByRuns_cases (runs : List Run) (n : Nat) :
    (∀ run ∈ runs, Run.holds n run = false) ∨
      ∃ run ∈ runs, Run.holds n run ∧ shiftByRuns runs n = (n + run.2.2.2).toNat := by
  cases h : runs.find? (Run.holds n) with
  | none => exact .inl fun run hr => by simpa using List.find?_eq_none.1 h run hr
  | some run =>
    refine .inr ⟨run, List.mem_of_find?_eq_some h, List.find?_some h, ?_⟩
    unfold shiftByRuns
    split
    · next hsome =>
      obtain rfl := Option.some.inj (h.symm.trans hsome)
      rfl
    · next hnone => cases h.symm.trans hnone

/-- A character that lower case leaves alone, whatever is around it. -/
def IsLowered (c : Char) : Prop :=
  lowerChar c = [c] ∧ c ≠ 'Σ'

instance (c : Char) : Decidable (IsLowered c) :=
  inferInstanceAs (Decidable (_ ∧ _))

theorem lowerChar_of_ne (h : c.toNat ≠ 0x130) :
    lowerChar c = [Char.ofNat (shiftByRuns lowerRuns c.toNat)] := by
  have hnone : lowerExpansions.find? (·.1 == c.toNat) = none := by
    simp [lowerExpansions, Ne.symm h]
  rw [lowerChar, mapCase, hnone]

theorem isLowered_of_toNat (hn : c.toNat = n) (hexp : n ≠ 0x130) (hsigma : n ≠ 0x3A3)
    (hr : ∀ run ∈ lowerRuns, Run.holds n run = false) : IsLowered c := by
  subst hn
  refine ⟨?_, ?_⟩
  · rw [lowerChar_of_ne hexp, shiftByRuns_eq_self hr, Char.ofNat_toNat]
  · rintro rfl
    exact hsigma rfl

theorem isLowered_of_mem_lowerChar (hc : c ≠ 'Σ') (h : d ∈ lowerChar c) : IsLowered d := by
  by_cases hexp : c.toNat = 0x130
  · have hi : c = Char.ofNat 0x130 := by rw [← hexp, Char.ofNat_toNat]
    have hexpand : lowerChar (Char.ofNat 0x130) = ['i', Char.ofNat 0x307] := rfl
    rw [hi, hexpand, List.mem_cons, List.mem_singleton] at h
    rcases h with rfl | rfl
    · exact ⟨rfl, by decide⟩
    · exact ⟨rfl, by decide⟩
  · rw [lowerChar_of_ne hexp, List.mem_singleton] at h
    subst h
    rcases shiftByRuns_cases lowerRuns c.toNat with hr | ⟨run, hmem, hholds, himage⟩
    · -- the character lies in no run, so it is its own lower case
      rw [shiftByRuns_eq_self hr, Char.ofNat_toNat]
      refine isLowered_of_toNat rfl hexp (fun hsigma => hc ?_) hr
      rw [← Char.ofNat_toNat c, hsigma]
    · have hfinal := Run.isFinal_of_mem hmem
      simp only [Run.isFinal, Bool.and_eq_true] at hfinal
      obtain ⟨⟨⟨hvalid, hi⟩, hsigma⟩, hclear⟩ := hfinal
      rw [himage]
      refine isLowered_of_toNat (Run.toNat_image hholds hvalid) (Run.ne_image hholds hi)
        (Run.ne_image hholds hsigma) fun other ho => ?_
      exact Run.not_holds_image hholds (List.all_eq_true.1 hclear other ho)

/-! ## Texts -/

/-- The lower case of characters consists of characters in lower case. -/
theorem isLowered_of_mem_lowerChars {before cs : List Char} (h : d ∈ lowerChars before cs) :
    IsLowered d := by
  induction cs generalizing before with
  | nil => cases h
  | cons c r ih =>
    rw [lowerChars, List.mem_append] at h
    rcases h with h | h
    · split_ifs at h with hsigma hfinal
      · obtain rfl := List.mem_singleton.1 h
        decide
      · obtain rfl := List.mem_singleton.1 h
        decide
      · exact isLowered_of_mem_lowerChar hsigma h
    · exact ih h

theorem lowerChars_eq_self {before cs : List Char} (h : ∀ c ∈ cs, IsLowered c) :
    lowerChars before cs = cs := by
  induction cs generalizing before with
  | nil => rfl
  | cons c r ih =>
    obtain ⟨⟨hc, hsigma⟩, hr⟩ := List.forall_mem_cons.1 h
    rw [lowerChars, ih hr, if_neg hsigma, hc]; rfl

/-- A text in lower case is its own lower case. -/
theorem lower_lower (s : String) : lower (lower s) = lower s := by
  have h : ∀ c ∈ lowerChars [] s.toList, IsLowered c := fun _ => isLowered_of_mem_lowerChars
  rw [lower, lower, String.toList_ofList, lowerChars_eq_self h]

end Typewright.Text
