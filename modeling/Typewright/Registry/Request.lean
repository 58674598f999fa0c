import Typewright.Registry.Basic

/-!
# Requests to a registry

The names in a request are JSON values: a language has to be a string, and aliases are the items of
a list, the characters of a string or the keys of an object.

- `Registry.registerFrom`: registering at a request; its target is looked at before its names.
-/

namespace Typewright

/-- How a request can fail: with an error that is reported as one, or at a defect. -/
inductive RequestFailure where
  | error (error : RegistryError)
  | defect (defect : Defect)

namespace Registry

/-- The name that a value is. -/
def nameOf : Json → Except Defect String
  | .str s => .ok s
  | j => .error (.noMember j "lower")

/-- The aliases that a value lists, if it counts as set. -/
def aliasesOf (j : Json) : Except Defect (List String) :=
  if !j.isTruthy then .ok []
  else match j with
    | .arr items => items.mapM nameOf
    | .str s => .ok (Text.pieces s)
    | .obj members => .ok (members.map (·.1))
    | j => .error (.notIterable j)

/-- The registry after a request to register a target, if what is to be registered is one. -/
def registerFrom (r : Registry) (language : Json) (target : Option Target) (aliases : Json) :
    Except RequestFailure Registry := do
  let some target := target | throw (.error .notGenerator)
  let language ← (nameOf language).mapError .defect
  let aliases ← (aliasesOf aliases).mapError .defect
  (r.register language target aliases).mapError .error

/-- The result of a query about the language that a value names. -/
def query {α : Type} (language : Json) (f : String → Except RegistryError α) :
    Except RequestFailure α := do
  let language ← (nameOf language).mapError .defect
  (f language).mapError .error

end Registry

end Typewright
