import Mathlib.Tactic.SplitIfs
import Typewright.Files.Tree

/-!
# What a file holds

The bytes of a text hold the text: they are read back as it was.

- `Text.ofPlain_of_plain?`: the string of a text holds the text.
- `decodeText?_of_encodeText?`: the bytes that encode a text decode to it.
-/

namespace Typewright

namespace Text

variable {c d : Char} {n high low : Nat}

theorem standIn_of_surrogateOf? (h : surrogateOf? c = some n) : c = standIn n ∧ isSurrogate n := by
  unfold surrogateOf? at h
  split_ifs at h with hs
  obtain rfl := Option.some.inj h
  obtain ⟨hplane, hsur⟩ := isStandIn_iff.1 hs
  refine ⟨?_, hsur⟩
  have hc : 16 * 0x10000 + c.toNat % 0x10000 = c.toNat := by omega
  rw [standIn, hc, Char.ofNat_toNat]

theorem sum_div_mod {h₀ l₀ base size : Nat} (hh : h₀ ≤ high) (hl : l₀ ≤ low)
    (hsize : low - l₀ < size) :
    (h₀ + (base + (high - h₀) * size + (low - l₀) - base) / size,
      l₀ + (base + (high - h₀) * size + (low - l₀) - base) % size) = (high, low) := by
  rw [Nat.add_assoc, Nat.add_sub_cancel_left, Nat.add_comm (_ * _),
    Nat.add_mul_div_right _ _ (Nat.zero_lt_of_lt hsize), Nat.div_eq_of_lt hsize, Nat.zero_add,
    Nat.add_mul_mod_self_right, Nat.mod_eq_of_lt hsize, Nat.add_sub_cancel' hh,
    Nat.add_sub_cancel' hl]

/-- A pair is the pair of its code point. -/
theorem halves_pairCode (hh : isHighSurrogate high) (hl : isLowSurrogate low) :
    halves (pairCode high low) = (high, low) := by
  rw [isHighSurrogate_iff] at hh
  rw [isLowSurrogate_iff] at hl
  have hsize : low - 0xDC00 < 0x400 := by omega
  exact sum_div_mod hh.1 hl.1 hsize

/-- A character that is held by two is held by them alone. -/
theorem hold_of_heldPair? (h : heldPair? c d = some n) : hold (Char.ofNat n) = [c, d] := by
  unfold heldPair? at h
  split at h
  · next high low hc hd =>
    split_ifs at h with hpair
    obtain rfl := Option.some.inj h
    simp only [Bool.and_eq_true] at hpair
    obtain ⟨⟨hh, hl⟩, hs⟩ := hpair
    have hplane := (isStandIn_iff.1 hs).1
    rw [hold, toNat_ofNat_of_gt (by omega) (by omega), if_pos hs, halves_pairCode hh hl,
      ← (standIn_of_surrogateOf? hc).1, ← (standIn_of_surrogateOf? hd).1]
  · cases h

theorem hold_codeOf (h : isSurrogate (codeOf c) = false) : hold (Char.ofNat (codeOf c)) = [c] := by
  cases hs : surrogateOf? c with
  | some n =>
    have hn := (standIn_of_surrogateOf? hs).2
    simp [codeOf, hs, hn] at h
  | none =>
    have hc : codeOf c = c.toNat := by rw [codeOf, hs]; rfl
    rw [hc, Char.ofNat_toNat, hold, if_neg]
    intro hstand
    simp [surrogateOf?, hstand] at hs

/-- Without surrogates the code points of characters are held by these characters again. -/
theorem flatMap_hold_codes {cs : List Char} (h : (codes cs).any isSurrogate = false) :
    ((codes cs).map Char.ofNat).flatMap hold = cs := by
  induction cs using codes.induct with
  | case1 => rfl
  | case2 c =>
    rw [codes, List.any_cons, Bool.or_eq_false_iff] at h
    simp [codes, hold_codeOf h.1]
  | case3 c d r n hp ih =>
    rw [codes, hp, List.any_cons, Bool.or_eq_false_iff] at h
    simp [codes, hp, hold_of_heldPair? hp, ih h.2]
  | case4 c d r hp ih =>
    rw [codes, hp, List.any_cons, Bool.or_eq_false_iff] at h
    rw [codes, hp, List.map_cons, List.flatMap_cons, hold_codeOf h.1, ih h.2]
    rfl

/-- The string of a text holds the text. -/
theorem ofPlain_of_plain? {s p : String} (h : plain? s = some p) : ofPlain p = s := by
  unfold plain? at h
  dsimp only at h
  split_ifs at h with hs
  obtain rfl := Option.some.inj h
  rw [ofPlain, String.toList_ofList, flatMap_hold_codes (by simpa using hs), String.ofList_toList]

end Text

/-! ## Bytes -/

theorem loop_toList_eq (b : ByteArray) (i : Nat) (done : List UInt8) :
    ByteArray.toList.loop b i done = done.reverse ++ b.data.toList.drop i := by
  induction i, done using ByteArray.toList.loop.induct b with
  | case1 i done hi ih =>
    have hlen : i < b.data.toList.length := hi
    have hget : b.get! i = b.data.toList[i] := getElem!_pos b.data i hi
    rw [ByteArray.toList.loop, if_pos hi, ih, List.drop_eq_getElem_cons hlen, hget]
    simp
  | case2 i done hi =>
    have hlen : b.data.toList.length ≤ i := Nat.le_of_not_lt hi
    rw [ByteArray.toList.loop, if_neg hi, List.drop_eq_nil_of_le hlen, List.append_nil]

theorem mk_toArray_toList (b : ByteArray) : ⟨b.toList.toArray⟩ = b := by
  rw [ByteArray.toList, loop_toList_eq]
  rfl

theorem fromUTF8?_toUTF8 (p : String) : String.fromUTF8? p.toUTF8 = some p :=
  dif_pos p.isValidUTF8

/-- The bytes of a text decode to the text. -/
theorem decodeText?_of_encodeText? {s : String} {bytes : List UInt8}
    (h : encodeText? s = some bytes) : decodeText? bytes = some s := by
  obtain ⟨p, hp, rfl⟩ := Option.map_eq_some_iff.1 h
  rw [decodeText?, mk_toArray_toList, fromUTF8?_toUTF8, Option.map_some, Text.ofPlain_of_plain? hp]

end Typewright
