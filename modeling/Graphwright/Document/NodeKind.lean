import Graphwright.Document.Syntax

/-!
# Kinds of nodes

What the nodes of a syntax tree are: the definitions of a document, the parts that definitions are
made of, and literals. Every kind has a name; a node with parts or with a name of its own may be
handled under it.
-/
namespace Graphwright.Document

/-- What a node of a syntax tree is. -/
inductive NodeKind where
  | document
  | operation
  | fragment
  | schema (isExtension : Bool)
  | type (kind : TypeKind) (isExtension : Bool)
  | directiveDefinition
  | name
  | variableDefinition
  | variable
  | selectionSet
  | field
  | argument
  | spread
  | inlineFragment
  | list
  | object
  | objectField
  | directive
  | namedType
  | listType
  | nonNullType
  | rootType
  | fieldDefinition
  | inputValue
  | enumValueDefinition
  | int
  | float
  | string
  | boolean
  | null
  | enum
  deriving Repr, DecidableEq

namespace NodeKind

/-- What definitions and extensions are called after the words before it. -/
def definitionOr (isExtension : Bool) : String := if isExtension then "extension" else "definition"

def text : NodeKind → String
  | document => "document"
  | operation => "operation_definition"
  | fragment => "fragment_definition"
  | schema isExtension => "schema_" ++ definitionOr isExtension
  | type kind isExtension =>
    (kind.text.map fun c => if c = ' ' then '_' else c) ++ "_type_" ++ definitionOr isExtension
  | directiveDefinition => "directive_definition"
  | name => "name"
  | variableDefinition => "variable_definition"
  | .variable => "variable"
  | selectionSet => "selection_set"
  | field => "field"
  | argument => "argument"
  | spread => "fragment_spread"
  | inlineFragment => "inline_fragment"
  | list => "list_value"
  | object => "object_value"
  | objectField => "object_field"
  | directive => "directive"
  | namedType => "named_type"
  | listType => "list_type"
  | nonNullType => "non_null_type"
  | rootType => "operation_type_definition"
  | fieldDefinition => "field_definition"
  | inputValue => "input_value_definition"
  | enumValueDefinition => "enum_value_definition"
  | int => "int_value"
  | float => "float_value"
  | string => "string_value"
  | boolean => "boolean_value"
  | null => "null_value"
  | enum => "enum_value"

def definitions : List NodeKind :=
  let ofTypes (isExtension : Bool) := TypeKind.all.map (type · isExtension)
  [operation, fragment, directiveDefinition, schema false, schema true] ++ ofTypes false ++
    ofTypes true

/-- The kinds of the parts of definitions that may be handled: all but literals. -/
def parts : List NodeKind :=
  [name, variableDefinition, .variable, selectionSet, field, argument, spread, inlineFragment, list,
    object, objectField, directive, namedType, listType, nonNullType, rootType, fieldDefinition,
    inputValue, enumValueDefinition]

def handled : List NodeKind := document :: definitions ++ parts

/-- The kind with a name, of those that may be handled. -/
def ofText? (word : String) : Option NodeKind := handled.find? (·.text == word)

end NodeKind

end Graphwright.Document
