import Typewright.Proofs.Fallible
import Typewright.Proofs.Text.IntLiteral
import Typewright.Proofs.Text.Lines
import Typewright.Proofs.Version.Order

/-!
# The text of a version

- `Version.IsShort`: the numbers of a version are short enough to be literals.
- `Version.ofText?_text`: the text of such a version, without negative numbers, names that version.
- `Version.IsSpelling`: the numbers that a text gives by the grammar of literals.
- `Version.ofText?_eq_some_iff`: the version that a text names is the one that those numbers make.
- `Version.text_roundTrip`: which texts are read, what they give, and that the text of what was read
  gives it again.
-/

namespace Typewright

namespace Version

/-- A version no number of which has more digits than a literal may have. -/
def IsShort (v : Version) : Prop :=
  ∀ p ∈ v.parts, (Nat.toDigits 10 p.natAbs).length ≤ Text.maxDigits

instance (v : Version) : Decidable v.IsShort :=
  inferInstanceAs (Decidable (∀ p ∈ v.parts, _))

theorem isDigit_of_mem_toString {p : Int} (hp : 0 ≤ p) : ∀ c ∈ (toString p).toList, c.isDigit := by
  obtain ⟨n, rfl⟩ := Int.eq_ofNat_of_zero_le hp
  have hs : (toString (n : Int)).toList = Nat.toDigits 10 n := Nat.toList_repr
  rw [hs]
  exact fun c hc => Nat.isDigit_of_mem_toDigits (by decide) (by decide) hc

variable {v : Version}

theorem splitAt_text (hn : v.IsNonneg) : Text.splitAt '.' v.text = v.parts.map toString := by
  refine Text.splitAt_join rfl (by simpa using v.trimmed.1) fun s hs => ?_
  obtain ⟨p, hp, rfl⟩ := List.mem_map.1 hs
  exact fun hc => absurd (isDigit_of_mem_toString (hn p hp) '.' hc) (by decide)

theorem trim_text (hn : v.IsNonneg) : Text.trim v.text = v.text := by
  refine Text.trim_of_forall fun c hc => ?_
  rw [text, Text.toList_join (c := '.') rfl] at hc
  rcases Text.eq_or_mem_of_mem_joinChars hc with rfl | ⟨cs, hcs, hc⟩
  · rfl
  · rw [List.map_map] at hcs
    obtain ⟨p, hp, rfl⟩ := List.mem_map.1 hcs
    exact Text.isBlank_of_isDigit (isDigit_of_mem_toString (hn p hp) c hc)

theorem mapM_intLiteral? (hn : v.IsNonneg) (hd : v.IsShort) :
    (v.parts.map toString).mapM Text.intLiteral? = some v.parts := by
  have hp : ∀ p ∈ v.parts, (Text.intLiteral? ∘ toString) p = some (id p) := by
    intro p hp
    obtain ⟨n, rfl⟩ := Int.eq_ofNat_of_zero_le (hn p hp)
    exact Text.intLiteral?_toString (hd n hp)
  rw [List.mapM_map, Fallible.mapM_some_map hp, List.map_id]

/-- A version is named by its text. -/
theorem ofText?_text (hn : v.IsNonneg) (hd : v.IsShort) : ofText? v.text = some v := by
  have hneg : v.parts.any (· < 0) = false := by
    simpa [IsNonneg] using hn
  rw [ofText?, trim_text hn, splitAt_text hn, mapM_intLiteral? hn hd]
  simp only [Option.bind_eq_bind, Option.bind_some, hneg, Bool.false_eq_true, if_false,
    ofParts_parts]
  rfl

/-! ## Reading -/

/-- The pieces of a text between its points are literals for numbers, none of them negative. -/
def IsSpelling (s : String) (ns : List Int) : Prop :=
  List.Forall₂ Text.IsIntLiteral (Text.splitAt '.' (Text.trim s)) ns ∧ ∀ n ∈ ns, 0 ≤ n

variable {s : String} {ns : List Int}

theorem mapM_intLiteral?_eq_some_iff {pieces : List String} :
    pieces.mapM Text.intLiteral? = some ns ↔ List.Forall₂ Text.IsIntLiteral pieces ns := by
  rw [Fallible.mapM_some_iff]
  simp only [Text.intLiteral?_eq_some_iff]

/-- A text names the version that the numbers of its pieces make. -/
theorem ofText?_eq_some_iff : ofText? s = some v ↔ ∃ ns, IsSpelling s ns ∧ v = ofParts ns := by
  simp only [ofText?, Option.bind_eq_bind, Option.bind_eq_some_iff, mapM_intLiteral?_eq_some_iff,
    Option.ite_none_left_eq_some, Option.pure_def, Option.some.injEq, List.any_eq_true,
    decide_eq_true_eq, not_exists, not_and, not_lt, IsSpelling, and_assoc, eq_comm (b := v)]

theorem IsSpelling.ne_nil (h : IsSpelling s ns) : ns ≠ [] := by
  rintro rfl
  have hpieces := List.forall₂_nil_right_iff.1 h.1
  rw [Text.splitAt, List.map_eq_nil_iff] at hpieces
  exact Text.splitChars_ne_nil _ _ hpieces

theorem IsSpelling.isShort (h : IsSpelling s ns) : (ofParts ns).IsShort := by
  intro p hp
  rcases mem_of_mem_trimZeros hp with rfl | hp
  · decide
  · obtain ⟨piece, -, hpiece⟩ := Fallible.exists_of_mem_forall₂ h.1 hp
    exact hpiece.length_toDigits_le

theorem isShort_of_ofText? (h : ofText? s = some v) : v.IsShort := by
  obtain ⟨ns, hns, rfl⟩ := ofText?_eq_some_iff.1 h
  exact hns.isShort

theorem ofText?_text_of_ofText? (h : ofText? s = some v) : ofText? v.text = some v :=
  ofText?_text (isNonneg_of_ofText? h) (isShort_of_ofText? h)

theorem ofJson_str_ok_iff : ofJson (.str s) = .ok v ↔ ofText? s = some v := by
  simp only [ofJson, Json.text]
  cases ofText? s <;> simp

theorem ofJson_str_error (h : ofText? s = none) :
    ofJson (.str s) = .error (.badVersion (.str s)) := by
  simp only [ofJson, Json.text, h]

/--
A text is read as a version exactly if the pieces between its points are literals for numbers that
are not negative, and gives these numbers without the zeros at the end; another is refused. The text
of a version that was read gives that version, so versions that were read are equal if their texts
are.
-/
theorem text_roundTrip :
    (∀ s, (∃ v, ofJson (.str s) = .ok v) ↔ ∃ ns, IsSpelling s ns) ∧
      (∀ s v ns, ofJson (.str s) = .ok v → IsSpelling s ns →
        IsTrimmed v.parts ∧ ∃ k, ns = v.parts ++ List.replicate k 0) ∧
      (∀ s, (¬ ∃ ns, IsSpelling s ns) → ofJson (.str s) = .error (.badVersion (.str s))) ∧
      (∀ s v, ofJson (.str s) = .ok v → ofJson (.str v.text) = .ok v) ∧
      ∀ s t v w, ofJson (.str s) = .ok v → ofJson (.str t) = .ok w → (v.text = w.text ↔ v = w) := by
  have hnamed (s) : (∃ v, ofText? s = some v) ↔ ∃ ns, IsSpelling s ns :=
    ⟨fun ⟨_, h⟩ => (ofText?_eq_some_iff.1 h).imp fun _ hns => hns.1,
      fun ⟨ns, hns⟩ => ⟨ofParts ns, ofText?_eq_some_iff.2 ⟨ns, hns, rfl⟩⟩⟩
  simp only [ofJson_str_ok_iff]
  refine ⟨hnamed, ?_, ?_, fun s v => ofText?_text_of_ofText?, ?_⟩
  · intro s v ns h hns
    rw [ofText?_eq_some_iff.2 ⟨ns, hns, rfl⟩, Option.some.injEq] at h
    subst h
    exact ⟨(ofParts ns).trimmed, exists_append_zeros hns.ne_nil⟩
  · intro s h
    refine ofJson_str_error ?_
    rwa [← hnamed, ← Option.isSome_iff_exists, Option.not_isSome_iff_eq_none] at h
  · intro s t v w hv hw
    refine ⟨fun heq => ?_, congrArg text⟩
    -- the text of either is read back as that version
    have hread := ofText?_text_of_ofText? hv
    rw [heq, ofText?_text_of_ofText? hw] at hread
    exact (Option.some.inj hread).symm

/-- Digits of any script, a sign, an underscore, blanks and zeros at the end leave no trace. -/
theorem text_roundTrip_scripts :
    ofJson (.str " 0\u0661.+1_2 . 0 .-0 ") = .ok (ofParts [1, 12]) ∧
      (ofParts [1, 12]).text = "1.12" ∧ ofJson (.str "1.12") = .ok (ofParts [1, 12]) := by
  have h : ofText? " 0\u0661.+1_2 . 0 .-0 " = some (ofParts [1, 12]) := by decide +kernel
  have htext : (ofParts [1, 12]).text = "1.12" := by decide +kernel
  have hread := ofJson_str_ok_iff.2 h
  have hagain := text_roundTrip.2.2.2.1 _ _ hread
  rw [htext] at hagain
  exact ⟨hread, htext, hagain⟩

end Version

end Typewright
