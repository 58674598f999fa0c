import Typewright.Schema.Basic
import Typewright.Schema.Fault

/-!
# Schema documents

Reading a schema from the JSON document that describes it. A document is read in a fixed order, and
the first fault found is the one reported.

- `Schema.ofJson`, `Definition.ofJson`, `Field.ofJson`, `Message.ofJson`: one reader per noun.
-/

namespace Typewright

/-- What the readers of documents give: a value or the first fault. -/
abbrev Read := Except SchemaFault

/-- The version that a value names; no value names the base version. -/
def Version.ofJson (j : Json) : Read Version :=
  match j with
  | .null => .ok .zero
  | .bool _ => .error (.badVersion j)
  | .int n => if n < 0 then .error (.badVersion j) else .ok (.ofParts [n])
  | j => match Version.ofText? j.text with
    | some v => .ok v
    | none => .error (.badVersion j)

/-- The type reference that a value spells. -/
def TypeRef.ofJson (j : Json) : Read TypeRef :=
  match j with
  | .str s => match TypeRef.ofText? s with
    | some t => .ok t
    | none => .error (.badType j)
  | j => .error (.badType j)

/-- The documentation that an entry gives: a text, or a list of lines. -/
def docText? : Option Json → Option String
  | none | some .null => none
  | some (.arr lines) => some (Text.join "\n" (lines.map Json.text))
  | some j => some j.text

/-- The lines of code that a definition asks to copy. -/
def extraLines (owner : String) : Option Json → Read (List String)
  | none | some .null => .ok []
  | some (.str s) => .ok (Text.splitLines s)
  | some (.arr lines) => .ok (lines.map Json.text)
  | some _ => .error (.badExtra owner)

def nameOf (place : NamedPlace) (members : List (String × Json)) : Read String :=
  match Json.lookup "name" members with
  | some (.str s) => if s = "" then .error (.nameMissing place (.obj members)) else .ok s
  | _ => .error (.nameMissing place (.obj members))

/-- The list under a key; an entry without the key has an empty one. -/
def listOf (key owner : String) (members : List (String × Json)) : Read (List Json) :=
  match Json.lookup key members with
  | none => .ok []
  | some (.arr items) => .ok items
  | some _ => .error (.notList key owner)

/-- A value of an enumeration: its name alone, or an entry with its name and documentation. -/
def EnumValue.ofJson (owner : String) : Json → Read EnumValue
  | .str s => .ok ⟨s, none⟩
  | .obj ms => do
    let name ← nameOf (.symbol owner) ms
    return ⟨name, docText? (Json.lookup "doc" ms)⟩
  | j => .error (.badSymbol owner j)

/-- A field of the definition `owner`. -/
def Field.ofJson (owner : String) : Json → Read Field
  | .obj ms => do
    let name ← nameOf (.field owner) ms
    match Json.lookup "type" ms with
    | none => .error (.fieldWithoutType owner name)
    | some type =>
      let default := match Json.lookup "default" ms with
        | none | some .null => none
        | some j => some j.text
      let type ← TypeRef.ofJson type
      let since ← Version.ofJson ((Json.lookup "since" ms).getD .null)
      return ⟨name, type, since, default, docText? (Json.lookup "doc" ms)⟩
  | j => .error (.fieldNotObject owner j)

/-- An argument of a message of the definition `owner`. -/
def Parameter.ofJson (owner message : String) (j : Json) : Read Parameter :=
  match j with
  | .obj ms =>
    match Json.lookup "type" ms with
    | none => .error (.badParameter owner message j)
    | some type => do
      let name ← nameOf (.parameter owner message) ms
      let type ← TypeRef.ofJson type
      return ⟨name, type, docText? (Json.lookup "doc" ms)⟩
  | j => .error (.badParameter owner message j)

/-- A message of the protocol `owner`. -/
def Message.ofJson (owner : String) : Json → Read Message
  | .obj ms => do
    let name ← nameOf (.message owner) ms
    match Json.lookup "response" ms with
    | none => .error (.messageWithoutResponse owner name)
    | some response =>
      let entries ← listOf "request" s!"{owner}.{name}" ms
      let parameters ← entries.mapM (Parameter.ofJson owner name)
      let response ← TypeRef.ofJson response
      return ⟨name, response, parameters, docText? (Json.lookup "doc" ms)⟩
  | j => .error (.messageNotObject owner j)

/-- The kinds of definition. -/
inductive Kind where
  | enumeration
  | record
  | protocol
  deriving DecidableEq

/-- The kind that an entry names. -/
def Kind.ofJson? : Option Json → Option Kind
  | some (.str "enumeration") => some .enumeration
  | some (.str "record") => some .record
  | some (.str "protocol") => some .protocol
  | some (.str "interface") => some .protocol
  | _ => none

mutual

/-- A definition with all the definitions below it. -/
def Definition.ofJson : Json → Read Definition
  | .obj ms => do
    let name ← nameOf .definition ms
    let extra ← extraLines name (Json.lookup "extra" ms)
    let heading : Heading := ⟨name, docText? (Json.lookup "doc" ms), extra⟩
    let kind := Json.lookup "type" ms
    if Kind.ofJson? kind = some .enumeration then
      let symbols ← listOf "symbols" name ms
      let values ← symbols.mapM (EnumValue.ofJson name)
      return .enumeration heading values
    else
      let entries ← listOf "fields" name ms
      let fields ← entries.mapM (Field.ofJson name)
      match Kind.ofJson? kind with
      | some .record => return .record heading fields
      | some .protocol =>
        let children ← Definition.childrenOf name ms
        let entries ← listOf "messages" name ms
        let messages ← entries.mapM (Message.ofJson name)
        return .protocol heading fields messages children
      | _ => .error (.unknownKind name (kind.getD .null))
  | j => .error (.definitionNotObject j)

/-- The definitions under `types` among the members of a protocol. -/
def Definition.childrenOf (owner : String) : List (String × Json) → Read (List Definition)
  | [] => .ok []
  | (key, j) :: r =>
    if key = "types" then
      match j with
      | .arr entries => Definition.listOfJson entries
      | _ => .error (.notList "types" owner)
    else Definition.childrenOf owner r

/-- The definitions of a list of entries. -/
def Definition.listOfJson : List Json → Read (List Definition)
  | [] => .ok []
  | j :: r => do
    let d ← Definition.ofJson j
    let ds ← Definition.listOfJson r
    return d :: ds

end

/-- The schema that a document describes. -/
def Schema.ofJson : Json → Read Schema
  | .obj ms =>
    match Json.lookup "namespace" ms with
    | some (.str space) =>
      if space = "" then .error .namespaceMissing
      else match Json.lookup "types" ms with
        | none => .ok ⟨space, []⟩
        | some (.arr entries) => do
          let definitions ← Definition.listOfJson entries
          return ⟨space, definitions⟩
        | some _ => .error .typesNotList
    | _ => .error .namespaceMissing
  | _ => .error .documentNotObject

end Typewright
