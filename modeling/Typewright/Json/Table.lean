import Typewright.Defect

/-!
# Tables

Where a table is asked for, an object will do, and so will a list of pairs, a pair being anything of
two items; a value that does not count as set is the empty table. The keys of a table are atoms:
numbers and truth values are one key if they have one size, and a key keeps the name under which it
came first.

- `Json.Table.put`: a repeated key keeps its first place and name and takes the last value.
- `Json.tableOf`: the table that a value is or makes.
- `Json.Table.members`: the members of the object that a table makes.
-/

namespace Typewright.Json

/-- What tells the entries of a table apart. -/
inductive Key where
  | text (text : String)
  | null
  | whole (size : Int)
  /-- A real number that is not whole, by its bits. -/
  | real (bits : UInt64)
  deriving DecidableEq

/-- An entry of a table; its name is how its key is spelled out. -/
structure Entry where
  key : Key
  name : String
  value : Json

/-- The entries of a table in the order in which their keys came. -/
abbrev Table := List Entry

namespace Table

/-- The table of the members of an object. -/
def ofMembers (members : List (String × Json)) : Table :=
  members.map fun (name, value) => ⟨.text name, name, value⟩

/-- The table with one more entry, or with another value for a key that is there. -/
def put (e : Entry) : Table → Table
  | [] => [e]
  | f :: r => if f.key = e.key then { f with value := e.value } :: r else f :: put e r

/-- The table after putting in the entries of another in order. -/
def putAll (t others : Table) : Table :=
  others.foldl (fun t e => put e t) t

def members (t : Table) : List (String × Json) :=
  setMembers [] (t.map fun e => (e.name, e.value))

end Table

/-- The whole number that a binary number is. -/
def wholeOf? (b : Decimal.Binary) : Option Nat :=
  let (num, den) := b.value
  if num % den = 0 then some (num / den) else none

/-- The key that a real number is: equal numbers are one key. -/
def realKey (x : Float) : Key :=
  match Decimal.Parts.ofBits x.toBits with
  | .zero _ => .whole 0
  | .finite negative size =>
    match wholeOf? size with
    | some n => .whole (if negative then -(n : Int) else n)
    | none => .real x.toBits
  | _ => .real x.toBits

/-- How a real number is spelled out as a name. -/
def realName (x : Float) : String :=
  match Decimal.Parts.ofBits x.toBits with
  | .infinite negative => if negative then "-Infinity" else "Infinity"
  | .notANumber => "NaN"
  | _ => Decimal.text x

/-- The key that a value is, with its name. -/
def keyOf : Json → Except Defect (Key × String)
  | .str s => .ok (.text s, s)
  | .null => .ok (.null, "null")
  | .bool b => .ok (.whole b.toNat, if b then "true" else "false")
  | .int n => .ok (.whole n, toString n)
  | .real x => .ok (realKey x, realName x)
  | .arr _ => .error (.unhashableKey "list")
  | .obj _ => .error (.unhashableKey "dict")

/-- The entry that a pair makes. -/
def entryOf : Json → Except Defect Entry
  | .arr [k, v] => do
    let (key, name) ← keyOf k
    return ⟨key, name, v⟩
  | .arr _ => .error .notPair
  | .str s => match Text.pieces s with
    | [k, v] => .ok ⟨.text k, k, .str v⟩
    | _ => .error .notPair
  | .obj [(k, _), (v, _)] => .ok ⟨.text k, k, .str v⟩
  | .obj _ => .error .notPair
  | j => .error (.notIterable j)

/-- The table that a value is or makes. -/
def tableOf (j : Json) : Except Defect Table :=
  match j with
  | .obj ms => .ok (.ofMembers ms)
  | .arr items => do
    let entries ← items.mapM entryOf
    return Table.putAll [] entries
  | .str s => if s = "" then .ok [] else .error .notPair
  | j => .error (.notIterable j)

/-- The table that a value is or makes, if it counts as set. -/
def tableOrEmpty (j : Json) : Except Defect Table :=
  if j.isTruthy then j.tableOf else .ok []

end Typewright.Json
