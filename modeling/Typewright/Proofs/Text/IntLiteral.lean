import Mathlib.Data.List.DropRight
import Mathlib.Data.Nat.Digits.Defs
import Typewright.Text.IntLiteral

/-!
# Integer literals and their grammar

The grammar of integer literals as relations beside the functions that read them, and the decimal
texts of numbers as literals.

- `Text.DigitRun`, `Text.IsNatLiteral`, `Text.IsIntLiteral`: the grammar.
- `Text.intLiteral?_eq_some_iff`: what is read as a number is what the grammar gives that number.
- `Text.IsIntLiteral.length_toDigits_le`: a number is no longer than a literal for it.
- `Text.intLiteral?_toString`: the decimal text of a natural number is a literal for it, if it is
  not too long to be one.
-/

namespace Typewright.Text

/-! ## The grammar -/

/-- Digits of any script, with at most one underscore between two of them, and their values. -/
inductive DigitRun : List Char → List Nat → Prop
  | last {c : Char} {d : Nat} (hc : digitValue? c = some d) : DigitRun [c] [d]
  | digit {c : Char} {d : Nat} {cs : List Char} {ds : List Nat} (hc : digitValue? c = some d)
    (hcs : DigitRun cs ds) : DigitRun (c :: cs) (d :: ds)
  | underscore {c : Char} {d : Nat} {cs : List Char} {ds : List Nat} (hc : digitValue? c = some d)
    (hcs : DigitRun cs ds) : DigitRun (c :: '_' :: cs) (d :: ds)

/-- At most 4300 digits, and the number that they denote in base ten. -/
def IsNatLiteral (cs : List Char) (n : Nat) : Prop :=
  ∃ ds, DigitRun cs ds ∧ ds.length ≤ 4300 ∧ n = Nat.ofDigits 10 ds.reverse

/-- A literal for a natural number with at most one sign before it. -/
inductive IsSignedLiteral : List Char → Int → Prop
  | unsigned {cs : List Char} {n : Nat} (h : IsNatLiteral cs n) : IsSignedLiteral cs n
  | plus {cs : List Char} {n : Nat} (h : IsNatLiteral cs n) : IsSignedLiteral ('+' :: cs) n
  | minus {cs : List Char} {n : Nat} (h : IsNatLiteral cs n) : IsSignedLiteral ('-' :: cs) (-n)

/--
A literal with blanks around it, and the number that it denotes. The separators U+001C to U+001F are
blanks for `trim`, but not here.
-/
def IsIntLiteral (s : String) (n : Int) : Prop :=
  ∃ before body after, s.toList = before ++ body ++ after ∧
    (∀ c ∈ before ++ after, isLiteralBlank c) ∧ IsSignedLiteral body n

/-! ## Digits -/

theorem exists_zero_of_digitValue? {c : Char} {d : Nat} (h : digitValue? c = some d) :
    ∃ z ∈ digitZeros, c.toNat = z + d ∧ d < 10 := by
  obtain ⟨z, hz, rfl⟩ := Option.map_eq_some_iff.1 h
  have hrun := List.find?_some hz
  rw [Bool.and_eq_true, decide_eq_true_iff, decide_eq_true_iff] at hrun
  exact ⟨z, List.mem_of_find?_eq_some hz, by omega, by omega⟩

/-- No digit of any script is a blank. -/
theorem isBlank_of_digitValue? {c : Char} {d : Nat} (h : digitValue? c = some d) :
    isBlank c = false := by
  have hall : ∀ z ∈ digitZeros, ∀ d < 10, isBlank (Char.ofNat (z + d)) = false := by
    decide +kernel
  obtain ⟨z, hz, hc, hd⟩ := exists_zero_of_digitValue? h
  have hblank := hall z hz d hd
  rwa [← hc, Char.ofNat_toNat] at hblank

theorem isLiteralBlank_of_digitValue? {c : Char} {d : Nat} (h : digitValue? c = some d) :
    isLiteralBlank c = false := by
  rw [isLiteralBlank, isBlank_of_digitValue? h, Bool.false_and]

theorem ne_of_digitValue? {c e : Char} {d : Nat} (h : digitValue? c = some d)
    (he : digitValue? e = none) : c ≠ e := by
  rintro rfl
  rw [h] at he
  cases he

namespace DigitRun

variable {cs : List Char} {ds : List Nat}

theorem exists_head (h : DigitRun cs ds) : ∃ c r d, cs = c :: r ∧ digitValue? c = some d := by
  cases h with
  | last hc => exact ⟨_, _, _, rfl, hc⟩
  | digit hc _ => exact ⟨_, _, _, rfl, hc⟩
  | underscore hc _ => exact ⟨_, _, _, rfl, hc⟩

theorem exists_last (h : DigitRun cs ds) :
    ∃ c d, cs.getLast? = some c ∧ digitValue? c = some d := by
  induction h with
  | last hc => exact ⟨_, _, rfl, hc⟩
  | @digit _ _ cs _ _ hcs ih =>
    obtain ⟨c, r, -, rfl, -⟩ := hcs.exists_head
    simpa using ih
  | @underscore _ _ cs _ _ hcs ih =>
    obtain ⟨c, r, -, rfl, -⟩ := hcs.exists_head
    simpa using ih

theorem ne_nil (h : DigitRun cs ds) : ds ≠ [] := by
  cases h <;> simp

theorem lt_ten (h : DigitRun cs ds) : ∀ d ∈ ds, d < 10 := by
  have hdigit {c : Char} {d : Nat} (hc : digitValue? c = some d) : d < 10 := by
    obtain ⟨-, -, -, hd⟩ := exists_zero_of_digitValue? hc
    exact hd
  induction h with
  | last hc => simpa using hdigit hc
  | digit hc _ ih => exact List.forall_mem_cons.2 ⟨hdigit hc, ih⟩
  | underscore hc _ ih => exact List.forall_mem_cons.2 ⟨hdigit hc, ih⟩

end DigitRun

/-! ## Reading by the grammar -/

theorem digitsAfter_cons {c : Char} {r : List Char} (hc : c ≠ '_') :
    digitsAfter (c :: r) = literalDigits? (c :: r) := by
  rw [digitsAfter, literalDigits?]
  exact fun _ _ h _ => hc h

theorem digitsAfter_underscore {cs : List Char} (hne : cs ≠ []) :
    digitsAfter ('_' :: cs) = literalDigits? cs := by
  obtain ⟨c, r, rfl⟩ := List.exists_cons_of_ne_nil hne
  rfl

theorem digitRun_of_digitsAfter {c : Char} {r : List Char} {d : Nat} {ds : List Nat}
    (hc : digitValue? c = some d) (h : digitsAfter r = some ds) : DigitRun (c :: r) (d :: ds) := by
  induction r using digitsAfter.induct generalizing c d ds with
  | case1 =>
    cases h
    exact .last hc
  | case2 e r ih =>
    obtain ⟨n, he, h⟩ := Option.bind_eq_some_iff.1 h
    obtain ⟨ns, hr, h⟩ := Option.bind_eq_some_iff.1 h
    cases h
    exact .underscore hc (ih he hr)
  | case3 e r hne ih =>
    rw [digitsAfter] at h
    · obtain ⟨n, he, h⟩ := Option.bind_eq_some_iff.1 h
      obtain ⟨ns, hr, h⟩ := Option.bind_eq_some_iff.1 h
      cases h
      exact .digit hc (ih he hr)
    · exact hne

theorem literalDigits?_of_digitRun {cs : List Char} {ds : List Nat} (h : DigitRun cs ds) :
    literalDigits? cs = some ds := by
  induction h with
  | last hc =>
    rw [literalDigits?, hc]
    rfl
  | digit hc hcs ih =>
    obtain ⟨e, r, n, rfl, he⟩ := hcs.exists_head
    rw [literalDigits?, hc, digitsAfter_cons (ne_of_digitValue? he (by decide)), ih]
    rfl
  | underscore hc hcs ih =>
    obtain ⟨e, r, n, rfl, he⟩ := hcs.exists_head
    rw [literalDigits?, hc, digitsAfter_underscore (List.cons_ne_nil e r), ih]
    rfl

theorem literalDigits?_eq_some_iff {cs : List Char} {ds : List Nat} :
    literalDigits? cs = some ds ↔ DigitRun cs ds := by
  refine ⟨fun h => ?_, literalDigits?_of_digitRun⟩
  cases cs with
  | nil => cases h
  | cons c r =>
    obtain ⟨d, hc, h⟩ := Option.bind_eq_some_iff.1 h
    obtain ⟨es, hr, h⟩ := Option.bind_eq_some_iff.1 h
    cases h
    exact digitRun_of_digitsAfter hc hr

theorem ofDigits_eq (ds : List Nat) : ofDigits ds = Nat.ofDigits 10 ds.reverse := by
  rw [Nat.ofDigits_eq_foldr, List.foldr_reverse, ofDigits]
  simp only [Nat.add_comm, Nat.cast_id]

theorem natLiteral?_eq_some_iff {cs : List Char} {n : Nat} :
    natLiteral? cs = some n ↔ IsNatLiteral cs n := by
  simp only [natLiteral?, Option.bind_eq_bind, Option.bind_eq_some_iff, literalDigits?_eq_some_iff,
    Option.ite_none_right_eq_some, Option.pure_def, Option.some.injEq, maxDigits, ofDigits_eq,
    IsNatLiteral, eq_comm (b := n)]

theorem not_isNatLiteral_cons {c : Char} {r : List Char} {n : Nat} (hc : digitValue? c = none) :
    ¬ IsNatLiteral (c :: r) n := by
  rintro ⟨ds, hrun, -, -⟩
  obtain ⟨e, _, d, heq, he⟩ := hrun.exists_head
  exact ne_of_digitValue? he hc (List.cons.inj heq).1.symm

theorem map_natLiteral?_eq_some_iff {f : Int → Int} {cs : List Char} {n : Int} :
    Option.map f (do let m ← natLiteral? cs; pure (m : Int)) = some n ↔
      ∃ m, IsNatLiteral cs m ∧ f m = n := by
  simp only [Option.bind_eq_bind, Option.map_eq_some_iff, Option.bind_eq_some_iff, Option.pure_def,
    Option.some.injEq, natLiteral?_eq_some_iff]
  exact ⟨fun ⟨_, ⟨m, hm, rfl⟩, h⟩ => ⟨m, hm, h⟩, fun ⟨m, hm, h⟩ => ⟨m, ⟨m, hm, rfl⟩, h⟩⟩

/-- Between the blanks at the ends a literal is a number with at most one sign. -/
theorem intLiteral?_iff_signed {s : String} {n : Int} :
    intLiteral? s = some n ↔
      IsSignedLiteral ((s.toList.dropWhile isLiteralBlank).rdropWhile isLiteralBlank) n := by
  rw [intLiteral?, List.rdropWhile]
  generalize ((s.toList.dropWhile isLiteralBlank).reverse.dropWhile isLiteralBlank).reverse = cs
  -- no digit is a sign, so the first character decides which of the three forms it is
  split
  · rw [map_natLiteral?_eq_some_iff]
    constructor
    · rintro ⟨m, hm, rfl⟩
      exact .minus hm
    · rintro (h | h | h)
      · exact absurd h (not_isNatLiteral_cons (by decide))
      · exact ⟨_, h, rfl⟩
  · rw [map_natLiteral?_eq_some_iff]
    constructor
    · rintro ⟨m, hm, rfl⟩
      exact .plus hm
    · rintro (h | h | h)
      · exact absurd h (not_isNatLiteral_cons (by decide))
      · exact ⟨_, h, rfl⟩
  · next hminus hplus =>
    rw [map_natLiteral?_eq_some_iff]
    constructor
    · rintro ⟨m, hm, rfl⟩
      exact .unsigned hm
    · rintro (h | h | h)
      · exact ⟨_, h, rfl⟩
      · exact absurd rfl (hplus _)
      · exact absurd rfl (hminus _)

/-- A number has no more digits than a literal for it. -/
theorem IsNatLiteral.length_toDigits_le {cs : List Char} {n : Nat} (h : IsNatLiteral cs n) :
    (Nat.toDigits 10 n).length ≤ maxDigits := by
  obtain ⟨ds, hrun, hlen, rfl⟩ := h
  have hlt : Nat.ofDigits 10 ds.reverse < 10 ^ ds.reverse.length :=
    Nat.ofDigits_lt_base_pow_length (by decide) fun d hd => hrun.lt_ten d (List.mem_reverse.1 hd)
  rw [List.length_reverse] at hlt
  exact (Nat.toDigits_length 10 _ _ (List.length_pos_iff.2 hrun.ne_nil) hlt).trans hlen

theorem IsIntLiteral.length_toDigits_le {s : String} {n : Int} (h : IsIntLiteral s n) :
    (Nat.toDigits 10 n.natAbs).length ≤ maxDigits := by
  obtain ⟨_, _, _, -, -, h⟩ := h
  cases h with
  | unsigned h => exact h.length_toDigits_le
  | plus h => exact h.length_toDigits_le
  | minus h => rw [Int.natAbs_neg]; exact h.length_toDigits_le

theorem IsNatLiteral.ends {cs : List Char} {n : Nat} (h : IsNatLiteral cs n) :
    (∀ c ∈ cs.head?, isLiteralBlank c = false) ∧ cs ≠ [] ∧
      ∀ c ∈ cs.getLast?, isLiteralBlank c = false := by
  obtain ⟨ds, hrun, -, -⟩ := h
  obtain ⟨c, e, hlast, he⟩ := hrun.exists_last
  obtain ⟨c', r, d, rfl, hd⟩ := hrun.exists_head
  refine ⟨fun b hb => ?_, List.cons_ne_nil c' r, fun b hb => ?_⟩
  · obtain rfl := Option.some.inj hb
    exact isLiteralBlank_of_digitValue? hd
  · obtain rfl := Option.some.inj (hlast.symm.trans hb)
    exact isLiteralBlank_of_digitValue? he

/-- A literal starts and ends with characters that are no blanks. -/
theorem IsSignedLiteral.ends {cs : List Char} {n : Int} (h : IsSignedLiteral cs n) :
    (∀ c ∈ cs.head?, isLiteralBlank c = false) ∧ cs ≠ [] ∧
      ∀ c ∈ cs.getLast?, isLiteralBlank c = false := by
  have hsign {sign : Char} {cs : List Char} {n : Nat} (hs : isLiteralBlank sign = false)
      (h : IsNatLiteral cs n) : (∀ c ∈ (sign :: cs).head?, isLiteralBlank c = false) ∧
        sign :: cs ≠ [] ∧ ∀ c ∈ (sign :: cs).getLast?, isLiteralBlank c = false := by
    obtain ⟨-, hne, hlast⟩ := h.ends
    refine ⟨fun c hc => Option.some.inj hc ▸ hs, List.cons_ne_nil sign cs, fun c hc => hlast c ?_⟩
    rwa [List.getLast?_cons_of_ne_nil hne] at hc
  cases h with
  | unsigned h => exact h.ends
  | plus h => exact hsign (by decide) h
  | minus h => exact hsign (by decide) h

/-- What has no blanks at its ends is left when the blanks around it are dropped. -/
theorem dropBlanks_append {before body after : List Char}
    (hb : ∀ c ∈ before ++ after, isLiteralBlank c) (hne : body ≠ [])
    (hhead : ∀ c ∈ body.head?, isLiteralBlank c = false)
    (hlast : ∀ c ∈ body.getLast?, isLiteralBlank c = false) :
    ((before ++ body ++ after).dropWhile isLiteralBlank).rdropWhile isLiteralBlank = body := by
  have hbefore : ∀ c ∈ before, isLiteralBlank c := fun c hc => hb c (List.mem_append_left _ hc)
  have hafter : ∀ c ∈ after.reverse, isLiteralBlank c := fun c hc =>
    hb c (List.mem_append_right _ (List.mem_reverse.1 hc))
  have hstart : (before ++ body ++ after).dropWhile isLiteralBlank = body ++ after := by
    obtain ⟨c, r, rfl⟩ := List.exists_cons_of_ne_nil hne
    rw [List.append_assoc, List.dropWhile_append_of_pos hbefore]
    exact dropWhile_eq_self_of_head (hhead c rfl)
  have hend : body.rdropWhile isLiteralBlank = body := by
    rw [List.rdropWhile_eq_self_iff]
    intro hl
    simpa using hlast _ (List.getLast?_eq_getLast_of_ne_nil hl)
  rw [hstart, List.rdropWhile, List.reverse_append, List.dropWhile_append_of_pos hafter]
  exact hend

/-- What is read as a number is what the grammar of literals gives that number. -/
theorem intLiteral?_eq_some_iff {s : String} {n : Int} :
    intLiteral? s = some n ↔ IsIntLiteral s n := by
  rw [intLiteral?_iff_signed]
  constructor
  · intro h
    refine ⟨s.toList.takeWhile isLiteralBlank, _, (s.toList.dropWhile isLiteralBlank).rtakeWhile
      isLiteralBlank, ?_, ?_, h⟩
    · rw [List.append_assoc, List.rdropWhile_append_rtakeWhile, List.takeWhile_append_dropWhile]
    · intro c hc
      rcases List.mem_append.1 hc with hc | hc
      · exact List.all_eq_true.1 List.all_takeWhile c hc
      · exact List.mem_rtakeWhile_imp hc
  · rintro ⟨before, body, after, hs, hb, hbody⟩
    obtain ⟨hhead, hne, hlast⟩ := hbody.ends
    rwa [hs, dropBlanks_append hb hne hhead hlast]

/-! ## Decimal texts -/

theorem bounds_of_isDigit {c : Char} (h : c.isDigit) : 48 ≤ c.toNat ∧ c.toNat ≤ 57 := by
  rw [Char.isDigit, Bool.and_eq_true, decide_eq_true_iff, decide_eq_true_iff] at h
  exact ⟨UInt32.le_iff_toNat_le.1 h.1, UInt32.le_iff_toNat_le.1 h.2⟩

/-- The ASCII digits are the first run of decimal digits. -/
theorem digitValue?_of_isDigit {c : Char} (h : c.isDigit) :
    digitValue? c = some (c.toNat - 48) := by
  obtain ⟨hlow, hhigh⟩ := bounds_of_isDigit h
  rw [digitValue?, digitZeros, List.find?_cons_of_pos (by simp; omega)]
  rfl

theorem isBlank_of_isDigit {c : Char} (h : c.isDigit) : isBlank c = false :=
  isBlank_of_digitValue? (digitValue?_of_isDigit h)

theorem digitRun_of_isDigit {cs : List Char} (hne : cs ≠ []) (h : ∀ c ∈ cs, c.isDigit) :
    DigitRun cs (cs.map (·.toNat - 48)) := by
  induction cs with
  | nil => exact absurd rfl hne
  | cons c r ih =>
    obtain ⟨hc, hr⟩ := List.forall_mem_cons.1 h
    cases r with
    | nil => exact .last (digitValue?_of_isDigit hc)
    | cons d r => exact .digit (digitValue?_of_isDigit hc) (ih (List.cons_ne_nil d r) hr)

/-- The decimal digits of a number are an unsigned literal for it. -/
theorem isNatLiteral_toDigits {n : Nat} (h : (Nat.toDigits 10 n).length ≤ maxDigits) :
    IsNatLiteral (Nat.toDigits 10 n) n := by
  have hd : ∀ c ∈ Nat.toDigits 10 n, c.isDigit := fun c hc =>
    Nat.isDigit_of_mem_toDigits (by decide) (by decide) hc
  have hvalue : ofDigits ((Nat.toDigits 10 n).map (·.toNat - 48)) = n := by
    rw [ofDigits, List.foldl_map]
    exact Nat.ofDigitChars_toDigits (by decide) (by decide)
  exact ⟨_, digitRun_of_isDigit Nat.toDigits_ne_nil hd, by rwa [List.length_map],
    by rw [← ofDigits_eq, hvalue]⟩

/-- The decimal text of a natural number is a literal for it, if it is not too long to be one. -/
theorem intLiteral?_toString {n : Nat} (h : (Nat.toDigits 10 n).length ≤ maxDigits) :
    intLiteral? (toString (n : Int)) = some (n : Int) := by
  have hs : (toString (n : Int)).toList = Nat.toDigits 10 n := Nat.toList_repr
  refine intLiteral?_eq_some_iff.2 ⟨[], _, [], ?_, by simp, .unsigned (isNatLiteral_toDigits h)⟩
  rw [hs, List.nil_append, List.append_nil]

end Typewright.Text
