import Graphwright.Document.Syntax

/-!
# Schemas

A schema holds the named types of a document in the order of their definitions, with all extensions
merged in, its root types, and its directives. The standard scalars and the types of introspection
belong to a schema as far as it uses them; they are kept apart from the defined types.
-/
namespace Graphwright

open Document

structure Schema where
  description? : Option Description := none
  /-- The type of each kind of operation that the schema supports. -/
  roots : List (OperationKind × String) := []
  /-- The defined types, in order of definition. -/
  types : List TypeDefinition := []
  /-- The standard types in use. -/
  standard : List TypeDefinition := []
  /-- The defined directives, in order of definition. -/
  directives : List DirectiveDefinition := []
  deriving Repr

namespace Schema

/-! ## Standard types and directives -/

def scalarNames : List String := ["String", "Int", "Float", "Boolean", "ID"]

private def field (name : String) (type : TypeRef) (arguments : List InputValue := []) :
    FieldDefinition :=
  { name, type, arguments }

private def string : TypeRef := .named "String"
private def required (name : String) : TypeRef := .nonNull (.named name)
private def listOf (name : String) : TypeRef := .list (required name)
private def withDeprecated : List InputValue :=
  [{ name := "includeDeprecated", type := required "Boolean", default? := some (.boolean false) }]
private def enumOf (names : List String) : TypeBody := .enum (names.map fun name => { name })

def introspectionTypes : List TypeDefinition := [
  { name := "__Schema"
    body := .object [] [
      field "description" string,
      field "types" (.nonNull (listOf "__Type")),
      field "queryType" (required "__Type"),
      field "mutationType" (.named "__Type"),
      field "subscriptionType" (.named "__Type"),
      field "directives" (.nonNull (listOf "__Directive"))] },
  { name := "__Directive"
    body := .object [] [
      field "name" (required "String"),
      field "description" string,
      field "isRepeatable" (required "Boolean"),
      field "locations" (.nonNull (listOf "__DirectiveLocation")),
      field "args" (.nonNull (listOf "__InputValue")) withDeprecated] },
  { name := "__DirectiveLocation"
    body := enumOf (Location.all.map (·.keyword)) },
  { name := "__Type"
    body := .object [] [
      field "kind" (required "__TypeKind"),
      field "name" string,
      field "description" string,
      field "specifiedByURL" string,
      field "fields" (listOf "__Field") withDeprecated,
      field "interfaces" (listOf "__Type"),
      field "possibleTypes" (listOf "__Type"),
      field "enumValues" (listOf "__EnumValue") withDeprecated,
      field "inputFields" (listOf "__InputValue") withDeprecated,
      field "ofType" (.named "__Type"),
      field "isOneOf" (.named "Boolean")] },
  { name := "__Field"
    body := .object [] [
      field "name" (required "String"),
      field "description" string,
      field "args" (.nonNull (listOf "__InputValue")) withDeprecated,
      field "type" (required "__Type"),
      field "isDeprecated" (required "Boolean"),
      field "deprecationReason" string] },
  { name := "__InputValue"
    body := .object [] [
      field "name" (required "String"),
      field "description" string,
      field "type" (required "__Type"),
      field "defaultValue" string,
      field "isDeprecated" (required "Boolean"),
      field "deprecationReason" string] },
  { name := "__EnumValue"
    body := .object [] [
      field "name" (required "String"),
      field "description" string,
      field "isDeprecated" (required "Boolean"),
      field "deprecationReason" string] },
  { name := "__TypeKind"
    body := enumOf ["SCALAR", "OBJECT", "INTERFACE", "UNION", "ENUM", "INPUT_OBJECT", "LIST",
      "NON_NULL"] }]

def standardTypes : List TypeDefinition :=
  scalarNames.map (fun name => { name, body := .scalar }) ++ introspectionTypes

def standardNames : List String := standardTypes.map (·.name)

/-- The reason of a deprecation that gives none. -/
def defaultReason : String := "No longer supported"

def standardDirectives : List DirectiveDefinition := [
  { name := "include", locations := [.field, .fragmentSpread, .inlineFragment]
    arguments := [{ name := "if", type := required "Boolean" }] },
  { name := "skip", locations := [.field, .fragmentSpread, .inlineFragment]
    arguments := [{ name := "if", type := required "Boolean" }] },
  { name := "deprecated"
    locations := [.fieldDefinition, .argumentDefinition, .inputFieldDefinition, .enumValue]
    arguments := [{
      name := "reason", type := string, default? := some (.string defaultReason false) }] },
  { name := "specifiedBy", locations := [.scalar]
    arguments := [{ name := "url", type := required "String" }] },
  { name := "oneOf", locations := [.inputObject] }]

/-! ## Looking up -/

def type? (s : Schema) (name : String) : Option TypeDefinition :=
  match s.types.find? (·.name == name) with
  | some t => some t
  | none => s.standard.find? (·.name == name)

/-- The names of all types that belong to the schema. -/
def typeNames (s : Schema) : List String := (s.types ++ s.standard).map (·.name)

/-- The name of the root type of a kind of operation. -/
def root? (s : Schema) (kind : OperationKind) : Option String := s.roots.lookup kind

/-- The fields of a type that has fields in responses. -/
def fieldsOf (t : TypeDefinition) : List FieldDefinition :=
  match t.body with
  | .object _ fields => fields
  | .interface _ fields => fields
  | _ => []

/-- A type whose values have selections. -/
def isComposite (t : TypeDefinition) : Bool :=
  match t.body with
  | .object _ _ | .interface _ _ | .union _ => true
  | _ => false

/-- A type whose values may be in a response. -/
def isOutput (t : TypeDefinition) : Bool :=
  match t.body with
  | .input _ => false
  | _ => true

def isScalar (t : TypeDefinition) : Bool :=
  match t.body with
  | .scalar => true
  | _ => false

def isObject (t : TypeDefinition) : Bool :=
  match t.body with
  | .object _ _ => true
  | _ => false

def composite? (s : Schema) (name : String) : Option TypeDefinition :=
  (s.type? name).filter isComposite

/-- The composite type at the bottom of a reference. -/
def compositeBase? (s : Schema) (ref? : Option TypeRef) : Option TypeDefinition :=
  ref?.bind fun ref => s.composite? ref.base

/-- The type of a field of a composite type, the fields of every composite type and of the query
type included. -/
def fieldType? (s : Schema) (parent : TypeDefinition) (name : String) : Option TypeRef :=
  let onQuery := s.root? .query == some parent.name
  if name = "__schema" then if onQuery then some (required "__Schema") else none
  else if name = "__type" then if onQuery then some (.named "__Type") else none
  else if name = "__typename" then some (required "String")
  else ((fieldsOf parent).find? (·.name == name)).map (·.type)

end Schema

end Graphwright
