import Typewright.Schema.Basic

/-!
# Types in Java

How a type reference is spelled in Java. Repetition makes an array, optionality and laziness wrap
the type in a container, laziness outermost; a primitive type inside a container takes its boxed
name.

- `TypeRef.accessorType`: the spelling of what an accessor returns.
- `TypeRef.storageType`: the spelling for fields and parameters, where a deferred value is kept.
- `TypeRef.shape`: how values of the type are compared and hashed.
-/

namespace Typewright.Java

/-- The containers that the generated code is written against. -/
structure Containers where
  /-- The container of a deferred value; it has a method `get` without parameters. -/
  lazyType : String
  optionalType : String
  /-- The interface that every class without parent implements. -/
  serializableType : String
  deriving DecidableEq

/-- The containers of Java's own library. -/
def Containers.standard : Containers :=
  ⟨"java.util.function.Supplier", "java.util.Optional", "java.io.Serializable"⟩

/-- The primitive types with their boxed names. -/
def primitives : List (String × String) :=
  [("boolean", "Boolean"), ("byte", "Byte"), ("char", "Character"), ("short", "Short"),
   ("int", "Integer"), ("long", "Long"), ("float", "Float"), ("double", "Double")]

def isPrimitive (name : String) : Bool :=
  (primitives.lookup name).isSome

/-- The spelling of a type that may stand between angle brackets. -/
def box (name : String) : String :=
  (primitives.lookup name).getD name

/-- How the values of a field are compared and hashed. -/
inductive Shape where
  /-- A primitive value. -/
  | primitive
  /-- An array of primitive values. -/
  | primitiveArray
  /-- An array of objects. -/
  | objectArray
  /-- An object. -/
  | object
  deriving DecidableEq

end Typewright.Java

namespace Typewright.TypeRef

open Java

/-- The spelling of the type that an accessor returns, its deferred value forced. -/
def accessorType (c : Containers) (t : TypeRef) : String :=
  match t.arity with
  | .single => t.name
  | .repeated => t.name ++ "[]"
  | .optional => c.optionalType ++ "<" ++ box t.name ++ ">"

/-- The spelling of the type that an accessor returns where it stands between angle brackets. -/
def boxedType (c : Containers) (t : TypeRef) : String :=
  box (t.accessorType c)

/-- The spelling of the type that a field or parameter has. -/
def storageType (c : Containers) (t : TypeRef) : String :=
  if t.isLazy then c.lazyType ++ "<" ++ t.boxedType c ++ ">" else t.accessorType c

/-- Whether the value is an array that is not deferred. -/
def isArray (t : TypeRef) : Bool :=
  t.arity = .repeated && !t.isLazy

/-- How the values of the type are compared and hashed. -/
def shape (t : TypeRef) : Shape :=
  if t.isLazy then .object
  else match t.arity with
    | .single => if isPrimitive t.name then .primitive else .object
    | .repeated => if isPrimitive t.name then .primitiveArray else .objectArray
    | .optional => .object

end Typewright.TypeRef
