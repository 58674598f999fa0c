/-!
# JSON values

The dynamic values that documents and settings are read from. Integers and reals are apart, and an
object keeps the order of its members.

- `Json.setMember`: a repeated key keeps its first place and takes the last value.
- `Json.get?`: the value of a member of an object.
- `Json.isTruthy`: which values count as set.
-/

namespace Typewright

/-- A JSON value. -/
inductive Json where
  | null
  | bool (value : Bool)
  | int (value : Int)
  | real (value : Float)
  | str (value : String)
  | arr (items : List Json)
  | obj (members : List (String × Json))
  deriving Inhabited

namespace Json

/-- The value that a key has among the members of an object. -/
def lookup (key : String) : List (String × Json) → Option Json
  | [] => none
  | (k, v) :: r => if k = key then some v else lookup key r

/-- The members with one more or one replaced: a key that is there keeps its place. -/
def setMember (key : String) (value : Json) : List (String × Json) → List (String × Json)
  | [] => [(key, value)]
  | (k, v) :: r => if k = key then (k, value) :: r else (k, v) :: setMember key value r

/-- The members after setting each of the others in order. -/
def setMembers (members others : List (String × Json)) : List (String × Json) :=
  others.foldl (fun ms m => setMember m.1 m.2 ms) members

/-- The value of a member of an object, if the value is an object and has it. -/
def get? (j : Json) (key : String) : Option Json :=
  match j with
  | .obj members => lookup key members
  | _ => none

/-- Whether a value counts as set: everything but null, false, zero and what is empty. -/
def isTruthy : Json → Bool
  | .null => false
  | .bool b => b
  | .int n => n != 0
  | .real x => x != 0.0
  | .str s => s != ""
  | .arr xs => !xs.isEmpty
  | .obj ms => !ms.isEmpty

/-! ## Small laws -/

@[simp] theorem lookup_setMember_self (key : String) (value : Json) (ms : List (String × Json)) :
    lookup key (setMember key value ms) = some value := by
  induction ms with
  | nil => simp [setMember, lookup]
  | cons m r ih =>
    obtain ⟨k, v⟩ := m
    by_cases h : k = key <;> simp [setMember, lookup, h, ih]

theorem lookup_setMember_of_ne {key other : String} (h : other ≠ key) (value : Json)
    (ms : List (String × Json)) : lookup other (setMember key value ms) = lookup other ms := by
  induction ms with
  | nil => simp [setMember, lookup, h.symm]
  | cons m r ih =>
    obtain ⟨k, v⟩ := m
    by_cases hk : k = key
    · simp [setMember, lookup, hk, h.symm]
    · by_cases ho : k = other
      · subst ho; simp [setMember, lookup, hk]
      · simp [setMember, lookup, hk, ho, ih]

end Json

end Typewright
