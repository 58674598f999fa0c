import Typewright.Skeleton.Shipped

/-!
# Requests for source text

A request names a shipped skeleton and gives the context that fills it in, both as JSON values. The
skeleton is looked up before the context is looked at.

- `Skeleton.render`: the text that a request asks for, or why there is none.
-/

namespace Typewright.Skeleton

/-- Why a request cannot be met. -/
inductive RequestFault where
  | unknownName
  /-- The name is no text. -/
  | badName (defect : Defect)
  /-- The context is no object. -/
  | notContext (value : Json)
  /-- The context binds the name of the skeleton itself. -/
  | bindsSelf
  | filling (fault : SkeletonFault)

/-- What went wrong, in words. -/
def RequestFault.reason : RequestFault → String
  | .unknownName => "no such skeleton"
  | .badName d => d.message
  | .notContext value =>
    "jinja2.environment.Template.render() argument after ** must be a mapping, not " ++
      value.kindName
  | .bindsSelf => "Template.render() got multiple values for argument 'self'"
  | .filling f => f.message

def RequestFault.message (name : Json) (f : RequestFault) : String :=
  s!"Failed to render template {name.text}: {f.reason}"

/-- The shipped skeleton that a value names. -/
def ofName : Json → Except RequestFault Skeleton
  | .str path =>
    match find? path with
    | some s => .ok s
    | none => .error .unknownName
  | .arr _ => .error (.badName (.unhashableKey "list"))
  | .obj _ => .error (.badName (.unhashableKey "dict"))
  | j => .error (.badName (.noMember j "split"))

/-- The context that a value gives. -/
def contextOf : Json → Except RequestFault Context
  | .obj members =>
    if (Json.lookup "self" members).isSome then .error .bindsSelf else .ok members
  | j => .error (.notContext j)

/-- The text of the skeleton that a value names in the context that another gives. -/
def render (name context : Json) : Except RequestFault String := do
  let s ← ofName name
  let env ← contextOf context
  (s.fill env).mapError .filling

end Typewright.Skeleton
