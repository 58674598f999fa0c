/-!
# Shortest decimals

The decimal with the fewest digits that reads back as a given binary number, and of those the
nearest. A binary number stands for the reals that round to it, an interval whose ends belong to it
exactly when its significand is even; for 1, 2, … 17 digits the two neighbours of the number on
the decimal grid of that many digits are tested against the interval in exact arithmetic.
-/

namespace Typewright.Decimal

/-- A fraction, its numerator before its denominator. -/
abbrev Ratio := Nat × Nat

/-- The fraction `n * base ^ e`. -/
def scale (n base : Nat) (e : Int) : Ratio :=
  if 0 ≤ e then (n * Nat.pow base e.toNat, 1) else (n, Nat.pow base (-e).toNat)

def Ratio.le (a b : Ratio) : Bool :=
  a.1 * b.2 ≤ b.1 * a.2

def Ratio.lt (a b : Ratio) : Bool :=
  a.1 * b.2 < b.1 * a.2

/-- The positive binary number `significand * 2 ^ exponent`. -/
structure Binary where
  significand : Nat
  exponent : Int
  /-- Whether the next number below is only half as far away as the next number above. -/
  narrowBelow : Bool

/-- The number `digits * 10 ^ exponent`. -/
structure Digits where
  digits : Nat
  exponent : Int

namespace Binary

/-- The value of a binary number. -/
def value (b : Binary) : Ratio :=
  scale b.significand 2 b.exponent

def lowerEnd (b : Binary) : Ratio :=
  scale (4 * b.significand - if b.narrowBelow then 1 else 2) 2 (b.exponent - 2)

/-- The upper end of the interval of reals that round to a binary number. -/
def upperEnd (b : Binary) : Ratio :=
  scale (4 * b.significand + 2) 2 (b.exponent - 2)

/-- Whether a decimal rounds to a binary number. -/
def readsBack (b : Binary) (d : Digits) : Bool :=
  let v := scale d.digits 10 d.exponent
  if b.significand % 2 == 0 then b.lowerEnd.le v && v.le b.upperEnd
  else b.lowerEnd.lt v && v.lt b.upperEnd

/-- The exponent of the leading decimal digit. -/
def leadingExponent (b : Binary) : Int :=
  let v := b.value
  if v.2 ≤ v.1 then (Nat.toDigits 10 (v.1 / v.2)).length - 1
  else match (List.range 400).find? fun j => v.2 ≤ v.1 * Nat.pow 10 (j + 1) with
    | some j => -(j + 1 : Nat)
    | none => -400

/-- The decimal with `count` digits that reads back and is nearest to the number. -/
def nearest? (b : Binary) (count : Nat) : Option Digits :=
  let e := b.leadingExponent - count + 1
  let v := b.value
  let grid := scale 1 10 e
  let below := v.1 * grid.2 / (v.2 * grid.1)
  let low : Digits := ⟨below, e⟩
  let high : Digits := ⟨below + 1, e⟩
  match b.readsBack low, b.readsBack high with
  | true, true =>
    let middle := scale (2 * below + 1) 10 e
    let twice : Ratio := (2 * v.1, v.2)
    if twice.lt middle || (twice.le middle && below % 2 == 0) then some low else some high
  | true, false => some low
  | false, true => some high
  | false, false => none

/-- The shortest decimal that reads back as the number. -/
def shortest (b : Binary) : Digits :=
  ((List.range 17).findSome? fun n => b.nearest? (n + 1)).getD ⟨b.significand, b.exponent⟩

end Binary

/-- The parts of a double precision number: its sign, and its size unless it is zero. -/
inductive Parts where
  | zero (negative : Bool)
  | finite (negative : Bool) (size : Binary)
  | infinite (negative : Bool)
  | notANumber

/-- The parts that the 64 bits of a double precision number stand for. -/
def Parts.ofBits (bits : UInt64) : Parts :=
  let n := bits.toNat
  let negative := n / Nat.pow 2 63 == 1
  let exponent : Nat := n / Nat.pow 2 52 % Nat.pow 2 11
  let fraction : Nat := n % Nat.pow 2 52
  if exponent == 2047 then (if fraction == 0 then .infinite negative else .notANumber)
  else if exponent == 0 then
    (if fraction == 0 then .zero negative else .finite negative ⟨fraction, -1074, false⟩)
  else .finite negative ⟨fraction + Nat.pow 2 52, Int.ofNat exponent - 1075,
    fraction == 0 && exponent != 1⟩

def dropEndZeros (ds : List Char) : List Char :=
  (ds.reverse.dropWhile (· == '0')).reverse

/--
The text of a number: positional, with at least one digit after the point, from 10⁻⁴ up to but
not including 10¹⁶, and otherwise with an exponent of at least two digits.
-/
def Digits.text (d : Digits) : String :=
  let all := Nat.toDigits 10 d.digits
  let ds := dropEndZeros all
  let point : Int := all.length + d.exponent
  let zeros (n : Nat) : List Char := List.replicate n '0'
  if -4 < point && point ≤ 16 then
    if point ≤ 0 then .ofList (['0', '.'] ++ zeros (-point).toNat ++ ds)
    else
      let whole := ds.take point.toNat
      let rest := ds.drop point.toNat
      .ofList (whole ++ zeros (point.toNat - whole.length) ++ '.' ::
        (if rest.isEmpty then ['0'] else rest))
  else
    let e := point - 1
    let size := Nat.toDigits 10 e.natAbs
    let head := match ds with
      | [] => ['0']
      | [c] => [c]
      | c :: r => c :: '.' :: r
    .ofList (head ++ 'e' :: (if e < 0 then '-' else '+') :: (zeros (2 - size.length) ++ size))

/-- The text of a double precision number. -/
def text (x : Float) : String :=
  let sign (negative : Bool) : String := if negative then "-" else ""
  match Parts.ofBits x.toBits with
  | .zero negative => sign negative ++ "0.0"
  | .finite negative size => sign negative ++ size.shortest.text
  | .infinite negative => sign negative ++ "inf"
  | .notANumber => "nan"

end Typewright.Decimal
