import Mathlib.Algebra.Group.Nat.Even
import Typewright.Java.Structural
import Typewright.Proofs.Java.Primitive

/-!
# Equality and hash codes

What the terms of `equals` and `hashCode` come to on two instances. References are what a library
makes of them; its methods are symmetric and equal references have equal hash codes. The comparison
is then symmetric as well. Equal instances have equal hash codes but for the zeros: each field of a
floating-point type that has one zero here and the other there turns the sign of the hash code.

- `Test.eval`, `allHold`, `HashTerm.eval`: the values of the terms, where they have one.
- `eval_fieldHash`: the hash codes of a field that is the same in both instances.
- `allHold_comparison_comm`, `eval_hashExpression`: the comparison and the hash codes of all fields.
- `equality_contract`: the comparison and the hash codes of two instances.
- `zeros_hash_apart`: two equal instances with different hash codes.
-/

namespace Typewright.Java

/-! ## Values of terms -/

/-- The methods of a library that look at the elements of arrays; null is allowed. -/
structure ArrayMethods (Ref : Type) where
  equal : Option Ref → Option Ref → Bool
  hash : Option Ref → BitVec 32

/-- What the references of a program are, and what its classes and the library make of them. -/
structure Library where
  /-- The references other than null. -/
  Ref : Type
  equals : Ref → Option Ref → Bool
  hashCode : Ref → BitVec 32
  arrays : ArrayMethods Ref
  deepArrays : ArrayMethods Ref

/-- Arrays are compared symmetrically, and the hash codes agree with that. -/
structure ArrayMethods.Lawful {Ref : Type} (m : ArrayMethods Ref) : Prop where
  equal_comm : ∀ x y, m.equal x y = m.equal y x
  hash_of_equal : ∀ x y, m.equal x y → m.hash x = m.hash y

/-- References are compared as the contract of `equals` and `hashCode` asks for. -/
structure Library.Lawful (L : Library) : Prop where
  equals_comm : ∀ x y, L.equals x (some y) = L.equals y (some x)
  equals_null : ∀ x, L.equals x none = false
  hash_of_equals : ∀ x y, L.equals x (some y) → L.hashCode x = L.hashCode y
  arrays : L.arrays.Lawful
  deepArrays : L.deepArrays.Lawful

/-- What an accessor may give. -/
inductive Value (L : Library) where
  | primitive (p : Primitive)
  | reference (r : Option L.Ref)

/-- An instance of a class: what its accessors give. -/
abbrev Instance (L : Library) := String → Value L

variable {L : Library}

/-- Whether a value is one of the type that the accessor of a field has. -/
def Value.HasType (v : Value L) (t : TypeRef) : Prop :=
  match v with
  | .primitive p => t.shape = .primitive ∧ p.typeName = t.name
  | .reference _ => t.shape ≠ .primitive

/-- Whether the accessors of all fields give values of their types. -/
def Typed (a : Instance L) (fs : List Field) : Prop :=
  ∀ f ∈ fs, (a f.name).HasType f.type

/-- What a call gives when an instance is compared with another. -/
def Call.value (this other : Instance L) (c : Call) : Value L :=
  match c.side with
  | .this => this c.accessor
  | .other => other c.accessor

/-- The value of a test; there is none if `equals` is called on null. -/
def Test.eval (this other : Instance L) : Test → Option Bool
  | .same a b =>
    match a.value this other, b.value this other with
    | .primitive p, .primitive q => p.same q
    | _, _ => none
  | .equal a b =>
    match a.value this other, b.value this other with
    | .reference (some x), .reference y => some (L.equals x y)
    | _, _ => none
  | .equalArrays a b =>
    match a.value this other, b.value this other with
    | .reference x, .reference y => some (L.arrays.equal x y)
    | _, _ => none
  | .deepEqualArrays a b =>
    match a.value this other, b.value this other with
    | .reference x, .reference y => some (L.deepArrays.equal x y)
    | _, _ => none

/-- The value of tests all of which have to succeed; those after one that fails are not made. -/
def allHold (this other : Instance L) : List Test → Option Bool
  | [] => some true
  | t :: r => do
    if ← t.eval this other then allHold this other r else return false

/-- The value of a term for a hash code; there is none if `hashCode` is called on null. -/
def HashTerm.eval (this : Instance L) : HashTerm → Option (BitVec 32)
  | .seed => some 17
  | .boxed boxClass a =>
    match this a with
    | .primitive p => if boxClass = box p.typeName then some p.hash else none
    | .reference _ => none
  | .own a =>
    match this a with
    | .reference (some x) => some (L.hashCode x)
    | _ => none
  | .ofArray a =>
    match this a with
    | .reference x => some (L.arrays.hash x)
    | .primitive _ => none
  | .ofDeepArray a =>
    match this a with
    | .reference x => some (L.deepArrays.hash x)
    | .primitive _ => none
  | .mixed sum next => do
    let s ← sum.eval this
    let n ← next.eval this
    return 37 * (s + n)

/-! ## One field -/

variable {a b : Instance L} {f : Field} {fs : List Field}

/-- Whether a field has one zero of a floating-point type here and the other there. -/
def zerosDiffer (a b : Instance L) (f : Field) : Bool :=
  match a f.name, b f.name with
  | .primitive p, .primitive q => p.oppositeZeros q
  | _, _ => false

theorem eval_fieldEquality_comm (hL : L.Lawful)
    (h : (fieldEquality f).eval a b = some true) : (fieldEquality f).eval b a = some true := by
  cases hs : f.type.shape <;> simp only [fieldEquality, hs, Test.eval, Call.value] at h ⊢ <;>
    cases ha : a f.name <;> cases hb : b f.name <;> simp only [ha, hb, reduceCtorEq] at h ⊢
  case primitive.primitive.primitive =>
    rw [Primitive.same_comm, h]
  case primitiveArray.reference.reference =>
    rw [hL.arrays.equal_comm, h]
  case objectArray.reference.reference =>
    rw [hL.deepArrays.equal_comm, h]
  case object.reference.reference x y =>
    -- `equals` was called on the first value, and null does not equal it.
    rcases x with _ | x
    · simp at h
    rcases y with _ | y
    · simp [hL.equals_null] at h
    simpa [hL.equals_comm y x] using h

/--
The hash codes of a field that is the same in both instances are the same, unless they are those of
the two zeros.
-/
theorem eval_fieldHash (hL : L.Lawful) (ha : (a f.name).HasType f.type)
    (hb : (b f.name).HasType f.type) (h : (fieldEquality f).eval a b = some true) :
    ∃ m n, (fieldHash f).eval a = some m ∧ (fieldHash f).eval b = some n ∧
      m = n + if zerosDiffer a b f then BitVec.intMin 32 else 0 := by
  -- the shape of the field tells what it is compared and hashed by
  cases hs : f.type.shape <;>
    simp only [fieldEquality, fieldHash, hs, Test.eval, HashTerm.eval, Call.value] at h ⊢ <;>
    cases hx : a f.name <;> cases hy : b f.name <;> simp only [hx, hy, reduceCtorEq] at h ⊢
  case primitive.primitive.primitive p q =>
    rw [hx] at ha
    rw [hy] at hb
    refine ⟨p.hash, q.hash, by rw [ha.2, if_pos rfl], by rw [hb.2, if_pos rfl], ?_⟩
    simpa [zerosDiffer, hx, hy] using Primitive.hash_of_same h
  case primitiveArray.reference.reference x y =>
    have hxy := hL.arrays.hash_of_equal x y (by simpa using h)
    exact ⟨_, _, rfl, rfl, by simp [zerosDiffer, hx, hxy]⟩
  case objectArray.reference.reference x y =>
    have hxy := hL.deepArrays.hash_of_equal x y (by simpa using h)
    exact ⟨_, _, rfl, rfl, by simp [zerosDiffer, hx, hxy]⟩
  case object.reference.reference x y =>
    rcases x with _ | x
    · simp at h
    rcases y with _ | y
    · simp [hL.equals_null] at h
    have hxy := hL.hash_of_equals x y (by simpa using h)
    exact ⟨_, _, rfl, rfl, by simp [zerosDiffer, hx, hxy]⟩

/-! ## All fields -/

theorem allHold_iff {ts : List Test} :
    allHold a b ts = some true ↔ ∀ t ∈ ts, t.eval a b = some true := by
  induction ts with
  | nil => simp [allHold]
  | cons t r ih =>
    rw [allHold, List.forall_mem_cons, ← ih]
    rcases t.eval a b with _ | _ | _ <;> simp

theorem allHold_comparison_iff :
    allHold a b (comparison fs) = some true ↔ ∀ f ∈ fs, (fieldEquality f).eval a b = some true := by
  simp [allHold_iff, comparison]

/-- Hash codes apart by a sign for each of several fields. -/
def apart (n : Nat) : BitVec 32 :=
  if Even n then 0 else BitVec.intMin 32

theorem apart_add (j k : Nat) : apart j + apart k = apart (j + k) := by
  have h2 : BitVec.intMin 32 + BitVec.intMin 32 = 0 := by decide
  by_cases hj : Even j <;> by_cases hk : Even k <;> simp [apart, hj, hk, h2, Nat.even_add]

/-- The factor is odd and keeps a sign. -/
theorem mul_apart (k : Nat) : 37 * apart k = apart k := by
  unfold apart
  split_ifs <;> decide

theorem add_apart_eq_self_iff {n : BitVec 32} {k : Nat} : n + apart k = n ↔ Even k := by
  unfold apart
  split_ifs with h <;> simp [h]

theorem mixed_apart (m n : BitVec 32) (j k : Nat) :
    37 * (m + apart j + (n + apart k)) = 37 * (m + n) + apart (j + k) :=
  calc 37 * (m + apart j + (n + apart k))
      = 37 * (m + n + (apart j + apart k)) := by ac_rfl
    _ = 37 * (m + n) + apart (j + k) := by rw [BitVec.mul_add, apart_add, mul_apart]

/--
Where the hash codes so far are apart by the sign of `k` fields, those with some more fields, each
the same in both instances, are apart by theirs besides.
-/
theorem eval_foldl_mixed (hL : L.Lawful) {sum : HashTerm} {m n : BitVec 32} {k : Nat}
    (ha : Typed a fs) (hb : Typed b fs) (h : ∀ f ∈ fs, (fieldEquality f).eval a b = some true)
    (hm : sum.eval a = some m) (hn : sum.eval b = some n) (hk : m = n + apart k) :
    ∃ m' n', (fs.foldl (fun sum f => .mixed sum (fieldHash f)) sum).eval a = some m' ∧
      (fs.foldl (fun sum f => .mixed sum (fieldHash f)) sum).eval b = some n' ∧
      m' = n' + apart (k + fs.countP (zerosDiffer a b)) := by
  induction fs generalizing sum m n k with
  | nil => exact ⟨m, n, hm, hn, hk⟩
  | cons f r ih =>
    obtain ⟨hf, hr⟩ := List.forall_mem_cons.1 h
    obtain ⟨hfa, hra⟩ := List.forall_mem_cons.1 ha
    obtain ⟨hfb, hrb⟩ := List.forall_mem_cons.1 hb
    obtain ⟨p, q, hp, hq, hpq⟩ := eval_fieldHash hL hfa hfb hf
    have hs : ∀ c x y, sum.eval c = some x → (fieldHash f).eval c = some y →
        (sum.mixed (fieldHash f)).eval (L := L) c = some (37 * (x + y)) := by
      intro c x y hx hy
      simp [HashTerm.eval, hx, hy]
    have hpq' : p = q + apart (if zerosDiffer a b f then 1 else 0) := by
      rw [hpq]
      split_ifs <;> simp [apart]
    -- mixing multiplies by an odd number, which keeps the sign bit
    obtain ⟨m', n', hm', hn', hk'⟩ := ih hra hrb hr (hs a m p hm hp) (hs b n q hn hq)
      (by rw [hk, hpq', mixed_apart])
    refine ⟨m', n', hm', hn', ?_⟩
    rw [hk', List.countP_cons, Nat.add_assoc, Nat.add_comm (List.countP _ _)]

/-- The comparison is symmetric. -/
theorem allHold_comparison_comm (hL : L.Lawful) :
    allHold a b (comparison fs) = some true ↔ allHold b a (comparison fs) = some true := by
  rw [allHold_comparison_iff, allHold_comparison_iff]
  exact ⟨fun h f hf => eval_fieldEquality_comm hL (h f hf),
    fun h f hf => eval_fieldEquality_comm hL (h f hf)⟩

/-- Equal instances have hash codes, apart by the signs of the zeros that differ. -/
theorem eval_hashExpression (hL : L.Lawful) (ha : Typed a fs) (hb : Typed b fs)
    (h : allHold a b (comparison fs) = some true) :
    ∃ m n, (hashExpression fs).eval a = some m ∧ (hashExpression fs).eval b = some n ∧
      m = n + apart (fs.countP (zerosDiffer a b)) := by
  have hseed : (17 : BitVec 32) = 17 + apart 0 := by decide
  have hfold := eval_foldl_mixed hL ha hb (allHold_comparison_iff.1 h)
    (show HashTerm.seed.eval a = some 17 from rfl) (show HashTerm.seed.eval b = some 17 from rfl)
    hseed
  rwa [Nat.zero_add] at hfold

/--
Two instances of a class without lazy fields, whatever their accessors give: the comparison holds in
either order or in neither, and where it holds both have a hash code. The hash codes are the same
exactly if the number of fields with one zero here and the other there is even.
-/
theorem equality_contract (className : String) (hL : L.Lawful) (hlazy : hasLazyField fs = false)
    (ha : Typed a fs) (hb : Typed b fs) :
    "return " ++ testText (comparison fs) ++ ";" ∈ equalsBody className fs ∧
    hashCodeBody fs = ["return " ++ (hashExpression fs).text ++ ";"] ∧
    (allHold a b (comparison fs) = some true ↔ allHold b a (comparison fs) = some true) ∧
    (allHold a b (comparison fs) = some true →
      ∃ m n, (hashExpression fs).eval a = some m ∧ (hashExpression fs).eval b = some n ∧
        (m = n ↔ Even (fs.countP (zerosDiffer a b)))) := by
  refine ⟨by simp [equalsBody, hlazy], by simp [hashCodeBody, hlazy], allHold_comparison_comm hL,
    fun h => ?_⟩
  obtain ⟨m, n, hm, hn, hmn⟩ := eval_hashExpression hL ha hb h
  exact ⟨m, n, hm, hn, by rw [hmn, add_apart_eq_self_iff]⟩

/-! ## Texts and arrays of `int` -/

/-- A text, or an array of `int`, which is an object of its own whatever its elements. -/
inductive Thing where
  | text (units : List (BitVec 16))
  | array (identity : Nat) (elements : List (BitVec 32))
  deriving DecidableEq

/-- The elements of an array; the units of a text. -/
def Thing.elements : Thing → List (BitVec 32)
  | .text units => units.map (·.setWidth 32)
  | .array _ elements => elements

/-- A hash code over several elements, each added to 31 times the one before. -/
def folded (start : BitVec 32) (elements : List (BitVec 32)) : BitVec 32 :=
  elements.foldl (31 * · + ·) start

/-- The methods that look at the elements of arrays of `int`. -/
def intArrays : ArrayMethods Thing where
  equal x y := decide (x.map Thing.elements = y.map Thing.elements)
  hash x := (x.map fun t => folded 1 t.elements).getD 0

/-- The library for texts and arrays of `int`. -/
def textLibrary : Library where
  Ref := Thing
  equals x y := decide (some x = y)
  hashCode
    | .text units => folded 0 (units.map (·.setWidth 32))
    | .array identity _ => .ofNat 32 identity
  arrays := intArrays
  deepArrays := intArrays

theorem lawful_intArrays : intArrays.Lawful where
  equal_comm x y := decide_eq_decide.2 eq_comm
  hash_of_equal x y h := by
    have he : x.map Thing.elements = y.map Thing.elements := of_decide_eq_true h
    have hm (z : Option Thing) :
        intArrays.hash z = ((z.map Thing.elements).map (folded 1)).getD 0 := by
      rw [Option.map_map]; rfl
    rw [hm, hm, he]

theorem lawful_textLibrary : textLibrary.Lawful where
  equals_comm x y := by simp [textLibrary, eq_comm]
  equals_null x := by simp [textLibrary]
  hash_of_equals x y h := by
    simp only [textLibrary, decide_eq_true_eq] at h
    obtain rfl := Option.some.inj h
    rfl
  arrays := lawful_intArrays
  deepArrays := lawful_intArrays

/-- A field of the given type that was there from the start. -/
def firstField (name type : String) (arity : Arity) : Field :=
  ⟨name, ⟨type, arity, false⟩, .zero, none, none⟩

/-- An instance with the text `A`, a zero, and an array with the given identity. -/
def measurement (zero : BitVec 64) (identity : Nat) : Instance textLibrary
  | "zero" => .primitive (.double zero)
  | "array" => .reference (some (.array identity [1, 2]))
  | _ => .reference (some (.text [65]))

/-- The fields of such an instance. -/
def measured : List Field :=
  [firstField "name" "String" .single, firstField "zero" "double" .single,
    firstField "array" "int" .repeated]

theorem typed_measurement (zero : BitVec 64) (identity : Nat) :
    Typed (measurement zero identity) measured := by
  intro f hf
  simp only [measured, List.mem_cons, List.not_mem_nil, or_false] at hf
  rcases hf with rfl | rfl | rfl
  · exact (by decide : (⟨"String", .single, false⟩ : TypeRef).shape ≠ .primitive)
  · exact ⟨rfl, rfl⟩
  · exact (by decide : (⟨"int", .repeated, false⟩ : TypeRef).shape ≠ .primitive)

theorem equality_contract_measurement :
    allHold (measurement 0 1) (measurement 0 2) (comparison measured) = some true ∧
      (hashExpression measured).eval (measurement 0 1) =
        (hashExpression measured).eval (measurement 0 2) := by
  have hc : allHold (measurement 0 1) (measurement 0 2) (comparison measured) = some true := by
    decide
  obtain ⟨-, -, -, hh⟩ := equality_contract "M" lawful_textLibrary rfl
    (typed_measurement 0 1) (typed_measurement 0 2)
  obtain ⟨m, n, hm, hn, hmn⟩ := hh hc
  exact ⟨hc, by rw [hm, hn, hmn.2 (by decide)]⟩

/-- Instances with the two zeros in their place are equal, but their hash codes differ. -/
theorem zeros_hash_apart :
    textLibrary.Lawful ∧ hasLazyField measured = false ∧
      Typed (measurement 0 1) measured ∧ Typed (measurement (.intMin 64) 1) measured ∧
      allHold (measurement 0 1) (measurement (.intMin 64) 1) (comparison measured) = some true ∧
      ∃ m n, (hashExpression measured).eval (measurement 0 1) = some m ∧
        (hashExpression measured).eval (measurement (.intMin 64) 1) = some n ∧ m ≠ n := by
  refine ⟨lawful_textLibrary, rfl, typed_measurement _ _, typed_measurement _ _, ?_, ?_⟩
  · decide
  · exact ⟨_, _, rfl, rfl, by decide⟩

end Typewright.Java
