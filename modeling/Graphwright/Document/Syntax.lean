/-!
# Documents

The syntax trees of executable and type system documents. Values keep numbers as they were written.
A field without a selection set is a leaf; a selection set may be empty. Extensions of types share
the form of definitions and are told apart by a flag.
-/
namespace Graphwright.Document

inductive Value where
  | variable (name : String)
  | int (text : String)
  | float (text : String)
  | string (text : String) (block : Bool)
  | boolean (b : Bool)
  | null
  | enum (name : String)
  | list (items : List Value)
  | object (fields : List (String × Value))
  deriving Repr, Inhabited

/-- A reference to a type: a named type inside lists and non-null marks. -/
inductive TypeRef where
  | named (name : String)
  | list (item : TypeRef)
  | nonNull (inner : TypeRef)
  deriving Repr, DecidableEq, Inhabited

namespace TypeRef

/-- The named type at the bottom of a reference. -/
def base : TypeRef → String
  | named name => name
  | list item => item.base
  | nonNull inner => inner.base

/-- Marked as non-null on the outside. -/
def isNonNull : TypeRef → Bool
  | nonNull _ => true
  | _ => false

def text : TypeRef → String
  | named name => name
  | list item => "[" ++ item.text ++ "]"
  | nonNull inner => inner.text ++ "!"

end TypeRef

/-- A directive applied to a part of a document. -/
structure Directive where
  name : String
  arguments : List (String × Value) := []
  deriving Repr, Inhabited

def Directive.argument? (d : Directive) (name : String) : Option Value :=
  (d.arguments.find? (·.1 == name)).map (·.2)

/-- The documentation of a definition, and whether it is written as a block of lines. -/
structure Description where
  text : String
  block : Bool := false
  deriving Repr, DecidableEq, Inhabited

/-! ## Executable definitions -/

inductive Selection where
  | field (alias? : Option String) (name : String) (arguments : List (String × Value))
      (directives : List Directive) (selections? : Option (List Selection))
  | spread (fragment : String) (directives : List Directive)
  | inline (on? : Option String) (directives : List Directive) (selections : List Selection)
  deriving Repr, Inhabited

inductive OperationKind where
  | query
  | mutation
  | subscription
  deriving Repr, DecidableEq, Inhabited

namespace OperationKind

def keyword : OperationKind → String
  | query => "query"
  | mutation => "mutation"
  | subscription => "subscription"

def all : List OperationKind := [query, mutation, subscription]

def ofKeyword? (word : String) : Option OperationKind := all.find? (·.keyword == word)

end OperationKind

structure VariableDefinition where
  description? : Option Description := none
  name : String
  type : TypeRef
  default? : Option Value := none
  directives : List Directive := []
  deriving Repr

/-- An operation; without a name it is anonymous. -/
structure Operation where
  description? : Option Description := none
  kind : OperationKind := .query
  name? : Option String := none
  variableDefinitions : List VariableDefinition := []
  directives : List Directive := []
  selections : List Selection
  deriving Repr

/-- Selections under a name, for objects of a type. -/
structure Fragment where
  description? : Option Description := none
  name : String
  on : String
  directives : List Directive := []
  selections : List Selection
  deriving Repr

/-! ## Type system definitions -/

/-- An argument of a field or directive, or a field of an input object. -/
structure InputValue where
  description? : Option Description := none
  name : String
  type : TypeRef
  default? : Option Value := none
  directives : List Directive := []
  deriving Repr

structure FieldDefinition where
  description? : Option Description := none
  name : String
  arguments : List InputValue := []
  type : TypeRef
  directives : List Directive := []
  deriving Repr

structure EnumValue where
  description? : Option Description := none
  name : String
  directives : List Directive := []
  deriving Repr

/-- What a type consists of, by its kind. -/
inductive TypeBody where
  | scalar
  | object (interfaces : List String) (fields : List FieldDefinition)
  | interface (interfaces : List String) (fields : List FieldDefinition)
  | union (members : List String)
  | enum (values : List EnumValue)
  | input (fields : List InputValue)
  deriving Repr

inductive TypeKind where
  | scalar | object | interface | union | enum | inputObject
  deriving Repr, DecidableEq

namespace TypeKind

def all : List TypeKind := [scalar, object, interface, union, enum, inputObject]

def text : TypeKind → String
  | scalar => "scalar"
  | object => "object"
  | interface => "interface"
  | union => "union"
  | enum => "enum"
  | inputObject => "input object"

def ofBody : TypeBody → TypeKind
  | .scalar => scalar
  | .object _ _ => object
  | .interface _ _ => interface
  | .union _ => union
  | .enum _ => enum
  | .input _ => inputObject

end TypeKind

/-- The definition of a named type, or an extension of it. -/
structure TypeDefinition where
  description? : Option Description := none
  name : String
  directives : List Directive := []
  body : TypeBody
  deriving Repr

/-- A definition of the root types of a schema, or an extension of it. -/
structure SchemaDefinition where
  description? : Option Description := none
  directives : List Directive := []
  roots : List (OperationKind × String) := []
  deriving Repr

/-- The places where a directive may be applied. -/
inductive Location where
  | query | mutation | subscription | field | fragmentDefinition | fragmentSpread | inlineFragment
  | variableDefinition | schema | scalar | object | fieldDefinition | argumentDefinition | interface
  | union | enum | enumValue | inputObject | inputFieldDefinition
  deriving Repr, DecidableEq

namespace Location

def all : List Location :=
  [query, mutation, subscription, field, fragmentDefinition, fragmentSpread, inlineFragment,
    variableDefinition, schema, scalar, object, fieldDefinition, argumentDefinition, interface,
    union, enum, enumValue, inputObject, inputFieldDefinition]

def text : Location → String
  | query => "query"
  | mutation => "mutation"
  | subscription => "subscription"
  | field => "field"
  | fragmentDefinition => "fragment definition"
  | fragmentSpread => "fragment spread"
  | inlineFragment => "inline fragment"
  | variableDefinition => "variable definition"
  | schema => "schema"
  | scalar => "scalar"
  | object => "object"
  | fieldDefinition => "field definition"
  | argumentDefinition => "argument definition"
  | interface => "interface"
  | union => "union"
  | enum => "enum"
  | enumValue => "enum value"
  | inputObject => "input object"
  | inputFieldDefinition => "input field definition"

def keyword (l : Location) : String := l.text.map fun c => if c = ' ' then '_' else c.toUpper

def ofKeyword? (word : String) : Option Location := all.find? (·.keyword == word)

end Location

structure DirectiveDefinition where
  description? : Option Description := none
  name : String
  arguments : List InputValue := []
  repeatable : Bool := false
  locations : List Location
  deriving Repr

inductive Definition where
  | operation (o : Operation)
  | fragment (f : Fragment)
  | schema (isExtension : Bool) (s : SchemaDefinition)
  | type (isExtension : Bool) (t : TypeDefinition)
  | directive (d : DirectiveDefinition)
  deriving Repr

end Graphwright.Document

namespace Graphwright

structure Document where
  definitions : List Document.Definition
  deriving Repr

/-- Several documents as one, so that definitions of one are known in all. -/
def Document.concat (ds : List Document) : Document := ⟨ds.flatMap (·.definitions)⟩

end Graphwright
