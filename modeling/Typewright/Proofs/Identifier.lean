import Typewright.Identifier
import Typewright.Proofs.Text.Lines
import Typewright.Text.Case

/-!
# Names

An identifier consists of printable ASCII characters, so it stays in one line, and starts with one
that is neither blank nor a mark of comments or blocks.

- `IsName.noBreak`, `IsName.noBreak_upperFirst`: names in one line, as they are and capitalised.
- `IsName.exists_head`: what a name starts with.
- `isPart_of_isQualifiedName`: what a qualified name consists of.
-/

namespace Typewright

open Text

/-- A text that is an identifier. -/
def IsName (s : String) : Prop :=
  Identifier.isWord s.toList

instance (s : String) : Decidable (IsName s) :=
  inferInstanceAs (Decidable (Identifier.isWord s.toList = true))

namespace Identifier

theorem bounds_of_isStart {c : Char} (h : isStart c) :
    36 ≤ c.toNat ∧ c.toNat ≤ 122 ∧ c.toNat ≠ 42 ∧ c.toNat ≠ 47 := by
  simp only [isStart, Bool.or_eq_true, Bool.and_eq_true, decide_eq_true_eq, beq_iff_eq, Char.le_def,
    UInt32.le_iff_toNat_le] at h
  rcases h with ((⟨h, h'⟩ | ⟨h, h'⟩) | rfl) | rfl
  · change 65 ≤ c.toNat at h
    change c.toNat ≤ 90 at h'
    omega
  · change 97 ≤ c.toNat at h
    change c.toNat ≤ 122 at h'
    omega
  · decide
  · decide

theorem isDigit_of_isStart {c : Char} (h : isStart c) : c.isDigit = false := by
  simp only [isStart, Bool.or_eq_true, Bool.and_eq_true, decide_eq_true_eq, beq_iff_eq, Char.le_def,
    UInt32.le_iff_toNat_le] at h
  rw [Bool.eq_false_iff]
  intro hd
  rw [Char.isDigit, Bool.and_eq_true, decide_eq_true_iff, decide_eq_true_iff, ge_iff_le,
    UInt32.le_iff_toNat_le, UInt32.le_iff_toNat_le] at hd
  change 48 ≤ c.toNat ∧ c.toNat ≤ 57 at hd
  rcases h with ((⟨h, -⟩ | ⟨h, -⟩) | rfl) | rfl
  · change 65 ≤ c.toNat at h
    omega
  · change 97 ≤ c.toNat at h
    omega
  · exact absurd hd (by decide)
  · exact absurd hd (by decide)

theorem bounds_of_isPart {c : Char} (h : isPart c) : 36 ≤ c.toNat ∧ c.toNat ≤ 122 := by
  simp only [isPart, Bool.or_eq_true, Bool.and_eq_true, decide_eq_true_eq, Char.le_def,
    UInt32.le_iff_toNat_le] at h
  rcases h with h | ⟨h, h'⟩
  · exact ⟨(bounds_of_isStart h).1, (bounds_of_isStart h).2.1⟩
  · change 48 ≤ c.toNat at h
    change c.toNat ≤ 57 at h'
    omega

theorem isLineBreak_eq_false {c : Char} (h : 36 ≤ c.toNat ∧ c.toNat ≤ 122) :
    isLineBreak c = false := by
  simp only [isLineBreak, Bool.or_eq_false_iff, Bool.and_eq_false_iff, decide_eq_false_iff_not,
    beq_eq_false_iff_ne]
  omega

theorem isBlank_eq_false {c : Char} (h : 36 ≤ c.toNat ∧ c.toNat ≤ 122) : isBlank c = false := by
  simp only [isBlank, Bool.or_eq_false_iff, Bool.and_eq_false_iff, decide_eq_false_iff_not,
    beq_eq_false_iff_ne]
  omega

/-- The upper case of these characters is that of one line as well. -/
theorem isLineBreak_upperChar {c : Char} (h : 36 ≤ c.toNat ∧ c.toNat ≤ 122) :
    ∀ d ∈ upperChar c, isLineBreak d = false := by
  have hall : ∀ n < 123, 36 ≤ n → (upperChar (Char.ofNat n)).all fun d => !isLineBreak d := by
    decide +kernel
  have hc := hall c.toNat (by omega) h.1
  rw [Char.ofNat_toNat, List.all_eq_true] at hc
  simpa using hc

end Identifier

variable {s : String}

theorem IsName.exists_cons (h : IsName s) :
    ∃ c r, s.toList = c :: r ∧ Identifier.isStart c ∧ ∀ d ∈ r, Identifier.isPart d := by
  unfold IsName at h
  cases hs : s.toList with
  | nil => rw [hs] at h; cases h
  | cons c r =>
    rw [hs, Identifier.isWord, Bool.and_eq_true, List.all_eq_true] at h
    exact ⟨c, r, rfl, h⟩

/-- A name starts with a character that may start a line of code. -/
theorem IsName.exists_head (h : IsName s) :
    ∃ c, s.toList.head? = some c ∧ isBlank c = false ∧ c ≠ '/' ∧ c ≠ '*' ∧ c ≠ '\x7d' := by
  obtain ⟨c, r, hs, hc, -⟩ := h.exists_cons
  obtain ⟨hlo, hhi, hstar, hslash⟩ := Identifier.bounds_of_isStart hc
  refine ⟨c, by rw [hs]; rfl, Identifier.isBlank_eq_false ⟨hlo, hhi⟩, ?_, ?_, ?_⟩
  · rintro rfl; exact hslash rfl
  · rintro rfl; exact hstar rfl
  · rintro rfl; exact absurd hhi (by decide)

theorem IsName.noBreak (h : IsName s) : NoBreak s := by
  obtain ⟨c, r, hs, hc, hr⟩ := h.exists_cons
  intro d hd
  rw [hs] at hd
  rcases List.mem_cons.1 hd with rfl | hd
  · have hpart : Identifier.isPart d := by simp [Identifier.isPart, hc]
    exact Identifier.isLineBreak_eq_false (Identifier.bounds_of_isPart hpart)
  · exact Identifier.isLineBreak_eq_false (Identifier.bounds_of_isPart (hr d hd))

/-- A name stays in one line with its first character in upper case. -/
theorem IsName.noBreak_upperFirst (h : IsName s) : NoBreak (upperFirst s) := by
  obtain ⟨c, r, hs, hc, hr⟩ := h.exists_cons
  intro d hd
  rw [upperFirst, hs] at hd
  simp only [String.toList_ofList, List.mem_append] at hd
  rcases hd with hd | hd
  · have hpart : Identifier.isPart c := by simp [Identifier.isPart, hc]
    exact Identifier.isLineBreak_upperChar (Identifier.bounds_of_isPart hpart) d hd
  · exact Identifier.isLineBreak_eq_false (Identifier.bounds_of_isPart (hr d hd))

/-! ## Qualified names -/

namespace Identifier

theorem isPart_of_isWord {cs : List Char} (h : isWord cs) : ∀ c ∈ cs, isPart c := by
  cases cs with
  | nil => cases h
  | cons c r =>
    rw [isWord, Bool.and_eq_true, List.all_eq_true] at h
    exact List.forall_mem_cons.2 ⟨by simp [isPart, h.1], h.2⟩

theorem isPart_of_isQualified {cs : List Char} (h : isQualified cs) :
    ∀ c ∈ cs, c = '.' ∨ isPart c := by
  intro c hc
  rw [← joinChars_splitChars '.' cs] at hc
  rcases eq_or_mem_of_mem_joinChars hc with rfl | ⟨p, hp, hc⟩
  · exact .inl rfl
  · exact .inr (isPart_of_isWord (List.all_eq_true.1 h p hp) c hc)

theorem mem_dropFinalBreak {cs : List Char} {c : Char} (hc : c ∈ cs) :
    c ∈ dropFinalBreak cs ∨ c = '\n' := by
  unfold dropFinalBreak
  split
  · next h =>
    obtain ⟨r, rfl⟩ := List.getLast?_eq_some_iff.1 h
    rw [List.dropLast_concat]
    simpa using hc
  · exact .inl hc

end Identifier

/-- A qualified name consists of the parts of identifiers and points, and may end in a line feed. -/
theorem isPart_of_isQualifiedName (h : isQualifiedName s) :
    ∀ c ∈ s.toList, Identifier.isPart c ∨ c = '.' ∨ c = '\n' := by
  intro c hc
  rcases Identifier.mem_dropFinalBreak hc with hc | rfl
  · exact (Identifier.isPart_of_isQualified h c hc).elim (.inr ∘ .inl) .inl
  · exact .inr (.inr rfl)

end Typewright
