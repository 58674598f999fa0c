import Typewright.Json.Printer

/-!
# Faults of schema documents

`SchemaFault` lists what can be wrong with a schema document; `SchemaFault.message` words it.
-/

namespace Typewright

/-- A place of a document that has to have a name. -/
inductive NamedPlace where
  | definition
  | symbol (owner : String)
  | field (owner : String)
  | message (owner : String)
  | parameter (owner operation : String)

def NamedPlace.text : NamedPlace → String
  | .definition => "type definition"
  | .symbol owner => s!"symbol of {owner}"
  | .field owner => s!"field of {owner}"
  | .message owner => s!"message of {owner}"
  | .parameter owner operation => s!"argument of {owner}.{operation}"

/-- What is wrong with a schema document. -/
inductive SchemaFault where
  | documentNotObject
  | namespaceMissing
  | typesNotList
  | definitionNotObject (entry : Json)
  | nameMissing (place : NamedPlace) (entry : Json)
  | unknownKind (name : String) (kind : Json)
  | notList (key owner : String)
  | badExtra (owner : String)
  | badSymbol (owner : String) (symbol : Json)
  | fieldNotObject (owner : String) (entry : Json)
  | fieldWithoutType (owner name : String)
  | messageNotObject (owner : String) (entry : Json)
  | messageWithoutResponse (owner name : String)
  | badParameter (owner operation : String) (entry : Json)
  | badType (value : Json)
  | repeatedAndOptional (name : String)
  | badVersion (value : Json)

def SchemaFault.message : SchemaFault → String
  | .documentNotObject => "Schema document must be a JSON object"
  | .namespaceMissing => "Schema document requires a non-empty 'namespace'"
  | .typesNotList => "'types' must be a list"
  | .definitionNotObject entry => s!"Type definition must be an object, got {entry.inspect}"
  | .nameMissing place entry => s!"Missing 'name' in {place.text}: {entry.inspect}"
  | .unknownKind name kind => s!"Unknown definition kind for {name}: {kind.inspect}"
  | .notList key owner => s!"'{key}' of {owner} must be a list"
  | .badExtra owner => s!"'extra' of {owner} must be a string or a list"
  | .badSymbol owner symbol => s!"Invalid symbol in {owner}: {symbol.inspect}"
  | .fieldNotObject owner entry => s!"Field of {owner} must be an object, got {entry.inspect}"
  | .fieldWithoutType owner name => s!"Field {owner}.{name} has no 'type'"
  | .messageNotObject owner entry => s!"Message of {owner} must be an object, got {entry.inspect}"
  | .messageWithoutResponse owner name => s!"Message {owner}.{name} has no 'response'"
  | .badParameter owner operation entry =>
    s!"Invalid argument of {owner}.{operation}: {entry.inspect}"
  | .badType value => s!"Invalid type reference: {value.inspect}"
  | .repeatedAndOptional name =>
    s!"Type reference {Text.quoted name} cannot be both repeated and optional"
  | .badVersion value => s!"Invalid version number: {value.inspect}"

end Typewright
