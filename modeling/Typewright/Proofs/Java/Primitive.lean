import Mathlib.Tactic.IntervalCases
import Mathlib.Tactic.Tauto

/-!
# Primitive values

The values of Java's primitive types, floating-point ones by their bits, with the operator `==` and
the hash codes of the boxed classes. The operator takes the two zeros of a floating-point type for
the same, their hash codes differ in the sign; no other values that are the same differ in the hash.

- `Primitive.same`: the operator `==` on values of one type.
- `Primitive.hash`: the hash code of the boxed value.
- `Primitive.hash_of_same`: what `==` says of the hash codes.
-/

namespace Typewright.Java

/-! ## Floating-point formats -/

/-- A binary floating-point format: the bits of infinity, and those that NaN is hashed by. -/
structure FloatFormat (w : Nat) where
  infinity : BitVec w
  nan : BitVec w

namespace FloatFormat

def single : FloatFormat 32 :=
  ⟨0x7f800000, 0x7fc00000⟩

def double : FloatFormat 64 :=
  ⟨0x7ff0000000000000, 0x7ff8000000000000⟩

variable {w : Nat}

/-- The bits without the sign, as a number. -/
def magnitude (bits : BitVec w) : Nat :=
  bits.toNat % 2 ^ (w - 1)

/-- Whether the bits are those of a number or of an infinity. -/
def isValue (f : FloatFormat w) (bits : BitVec w) : Bool :=
  magnitude bits ≤ f.infinity.toNat

/-- Whether the bits are those of zero, of either sign. -/
def isZero (bits : BitVec w) : Bool :=
  magnitude bits == 0

/-- The operator `==`: the zeros are the same, NaN is not the same as anything. -/
def same (f : FloatFormat w) (a b : BitVec w) : Bool :=
  f.isValue a && f.isValue b && (a == b || isZero a && isZero b)

/-- The bits that are hashed: those of a value, one pattern for every NaN. -/
def hashed (f : FloatFormat w) (bits : BitVec w) : BitVec w :=
  if f.isValue bits then bits else f.nan

/-- Whether the bits are those of the two zeros. -/
def oppositeZeros (a b : BitVec w) : Bool :=
  isZero a && isZero b && a != b

theorem same_comm (f : FloatFormat w) (a b : BitVec w) : f.same a b = f.same b a := by
  simp only [same, Bool.and_comm, Bool.beq_comm]

theorem eq_of_isZero {a : BitVec w} (h : isZero a) : a = 0#w ∨ a = BitVec.twoPow w (w - 1) := by
  have hm : a.toNat % 2 ^ (w - 1) = 0 := by simpa [isZero, magnitude] using h
  rcases w with _ | k
  · exact .inl (BitVec.eq_of_zero_length rfl)
  · obtain ⟨c, hc⟩ := Nat.dvd_of_mod_eq_zero hm
    have hlt : c < 2 := by
      have := a.isLt
      rw [hc, Nat.pow_succ] at this
      exact Nat.lt_of_mul_lt_mul_left this
    simp only [Nat.add_sub_cancel] at hc
    interval_cases c
    · left
      exact BitVec.eq_of_toNat_eq (by simpa using hc)
    · right
      have hk : 2 ^ k < 2 ^ (k + 1) := Nat.pow_lt_pow_right one_lt_two (Nat.lt_succ_self k)
      apply BitVec.eq_of_toNat_eq
      simp [BitVec.toNat_twoPow, Nat.mod_eq_of_lt hk, hc]

theorem eq_of_oppositeZeros {a b : BitVec w} (h : oppositeZeros a b) :
    (a = 0#w ∧ b = BitVec.twoPow w (w - 1)) ∨ (a = BitVec.twoPow w (w - 1) ∧ b = 0#w) := by
  simp only [oppositeZeros, Bool.and_eq_true, bne_iff_ne] at h
  obtain ⟨⟨ha, hb⟩, hne⟩ := h
  rcases eq_of_isZero ha with rfl | rfl <;> rcases eq_of_isZero hb with rfl | rfl <;> simp_all

/-- What the operator `==` takes for the same, is the same or the two zeros. -/
theorem eq_or_oppositeZeros_of_same {f : FloatFormat w} {a b : BitVec w} (h : f.same a b) :
    a = b ∨ oppositeZeros a b := by
  simp only [same, oppositeZeros, Bool.and_eq_true, Bool.or_eq_true, beq_iff_eq, bne_iff_ne] at h ⊢
  tauto

end FloatFormat

/-! ## Values and their hash codes -/

/-- A value of a primitive type. -/
inductive Primitive where
  | boolean (b : Bool)
  | byte (n : BitVec 8)
  | char (n : BitVec 16)
  | short (n : BitVec 16)
  | int (n : BitVec 32)
  | long (n : BitVec 64)
  | float (bits : BitVec 32)
  | double (bits : BitVec 64)
  deriving DecidableEq

/-- The halves of 64 bits, one over the other. -/
def foldedHash (bits : BitVec 64) : BitVec 32 :=
  (bits ^^^ (bits >>> 32)).setWidth 32

namespace Primitive

def typeName : Primitive → String
  | boolean _ => "boolean"
  | byte _ => "byte"
  | char _ => "char"
  | short _ => "short"
  | int _ => "int"
  | long _ => "long"
  | float _ => "float"
  | double _ => "double"

/-- The operator `==` on two values of one type. -/
def same : Primitive → Primitive → Option Bool
  | boolean a, boolean b => some (a == b)
  | byte a, byte b => some (a == b)
  | char a, char b => some (a == b)
  | short a, short b => some (a == b)
  | int a, int b => some (a == b)
  | long a, long b => some (a == b)
  | float a, float b => some (FloatFormat.single.same a b)
  | double a, double b => some (FloatFormat.double.same a b)
  | _, _ => none

def hash : Primitive → BitVec 32
  | boolean b => if b then 1231 else 1237
  | byte n => n.signExtend 32
  | char n => n.setWidth 32
  | short n => n.signExtend 32
  | int n => n
  | long n => foldedHash n
  | float bits => FloatFormat.single.hashed bits
  | double bits => foldedHash (FloatFormat.double.hashed bits)

/-- Whether two values are the two zeros of a floating-point type. -/
def oppositeZeros : Primitive → Primitive → Bool
  | float a, float b => FloatFormat.oppositeZeros a b
  | double a, double b => FloatFormat.oppositeZeros a b
  | _, _ => false

theorem same_comm (p q : Primitive) : p.same q = q.same p := by
  cases p <;> cases q <;> simp [same, Bool.beq_comm, FloatFormat.same_comm]

theorem not_oppositeZeros_self (p : Primitive) : p.oppositeZeros p = false := by
  cases p <;> simp [oppositeZeros, FloatFormat.oppositeZeros]

/-- The hash codes of the two zeros differ in the sign. -/
theorem hash_of_oppositeZeros {p q : Primitive} (h : p.oppositeZeros q) :
    p.hash = q.hash + BitVec.intMin 32 := by
  cases p <;> cases q <;> simp only [oppositeZeros, Bool.false_eq_true] at h
  case float.float =>
    rcases FloatFormat.eq_of_oppositeZeros h with ⟨rfl, rfl⟩ | ⟨rfl, rfl⟩ <;> decide
  case double.double =>
    rcases FloatFormat.eq_of_oppositeZeros h with ⟨rfl, rfl⟩ | ⟨rfl, rfl⟩ <;> decide

/-- Values that `==` takes for the same have the same hash code, but for the two zeros. -/
theorem hash_of_same {p q : Primitive} (h : p.same q = some true) :
    p.hash = q.hash + if p.oppositeZeros q then BitVec.intMin 32 else 0 := by
  by_cases hz : p.oppositeZeros q
  · rw [if_pos hz]
    exact hash_of_oppositeZeros hz
  · have heq : p = q := by
      cases p <;> cases q <;> simp only [same, Option.some.injEq, beq_iff_eq, reduceCtorEq] at h
      case float.float =>
        rw [(FloatFormat.eq_or_oppositeZeros_of_same h).resolve_right hz]
      case double.double =>
        rw [(FloatFormat.eq_or_oppositeZeros_of_same h).resolve_right hz]
      all_goals rw [h]
    simp [heq, not_oppositeZeros_self]

end Primitive

end Typewright.Java
