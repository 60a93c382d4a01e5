import Graphwright.Document.NodeKind

/-!
# Syntax trees as nodes

A document as a tree of nodes of one type, for work that is the same for all kinds of nodes. A node
has its parts in the order in which they are written; a part is one node or a list of nodes, known
by its role. A value may stand in the place of a node.
-/
namespace Graphwright.Document

/-- What a part is to its node. -/
inductive Role where
  | definitions | description | name | responseName | variableDefinitions | variable | type
  | default | directives | selectionSet | selections | arguments | value | values | fields
  | interfaces | members | locations | roots
  deriving Repr, DecidableEq

mutual

/-- A node of a syntax tree, or a value in the place of one. The text of a node is what it spells
itself: a name, a literal, the keyword of an operation. -/
inductive Node (α : Type) where
  | branch (kind : NodeKind) (text : String) (parts : List (Part α))
  | value (v : α)

inductive Part (α : Type) where
  | one (role : Role) (n : Node α)
  | many (role : Role) (ns : List (Node α))

end

namespace Part

def role {α : Type} : Part α → Role
  | one r _ => r
  | many r _ => r

def nodes {α : Type} : Part α → List (Node α)
  | one _ n => [n]
  | many _ ns => ns

end Part

namespace Node

variable {α : Type}

/-- The kind of a node, unless a value took its place. -/
def kind? : Node α → Option NodeKind
  | branch kind _ _ => some kind
  | value _ => none

def text : Node α → String
  | branch _ text _ => text
  | value _ => ""

def parts : Node α → List (Part α)
  | branch _ _ parts => parts
  | value _ => []

/-- The value in the place of a node. -/
def value? : Node α → Option α
  | branch _ _ _ => none
  | value v => some v

/-- The nodes with a role. -/
def all (n : Node α) (r : Role) : List (Node α) :=
  (n.parts.filter (·.role == r)).flatMap (·.nodes)

/-- The name of a node, as long as no value took its place. -/
def name? (n : Node α) : Option String :=
  match (n.all .name).head? with
  | some (branch .name text _) => some text
  | _ => none

/-! ## The nodes of documents -/

def leaf (kind : NodeKind) (text : String := "") : Node α := branch kind text []

def ofName (name : String) : Node α := leaf .name name

def named (name : String) : Part α := .one .name (ofName name)

def ofNamedType (name : String) : Node α := branch .namedType "" [named name]

def ofNamedTypes (r : Role) (names : List String) : Part α := .many r (names.map ofNamedType)

/-- A part that may be missing. -/
def optional {β : Type} (r : Role) (f : β → Node α) (x? : Option β) : List (Part α) :=
  (x?.map fun x => Part.one r (f x)).toList

mutual

def ofValue : Value → Node α
  | .variable name => branch .variable "" [named name]
  | .int text => leaf .int text
  | .float text => leaf .float text
  | .string text _ => leaf .string text
  | .boolean b => leaf .boolean (if b then "true" else "false")
  | .null => leaf .null
  | .enum name => leaf .enum name
  | .list items => branch .list "" [.many .values (ofValues items)]
  | .object fields => branch .object "" [.many .fields (ofEntries .objectField fields)]

def ofValues : List Value → List (Node α)
  | [] => []
  | v :: rest => ofValue v :: ofValues rest

/-- The nodes of values with names: fields of objects, or arguments. -/
def ofEntries (kind : NodeKind) : List (String × Value) → List (Node α)
  | [] => []
  | (name, v) :: rest => branch kind "" [named name, .one .value (ofValue v)] :: ofEntries kind rest

end

def argumentsPart (arguments : List (String × Value)) : Part α :=
  .many .arguments (ofEntries .argument arguments)

def directivesPart (ds : List Directive) : Part α :=
  .many .directives (ds.map fun d => branch .directive "" [named d.name, argumentsPart d.arguments])

def describedPart (d? : Option Description) : List (Part α) :=
  optional .description (fun d => leaf .string d.text) d?

def ofTypeRef : TypeRef → Node α
  | .named name => ofNamedType name
  | .list item => branch .listType "" [.one .type (ofTypeRef item)]
  | .nonNull inner => branch .nonNullType "" [.one .type (ofTypeRef inner)]

mutual

def ofSelection : Selection → Node α
  | .field alias? name arguments ds sub? =>
    branch .field "" <| optional .responseName ofName alias? ++
      [named name, argumentsPart arguments, directivesPart ds] ++ ofOptionalSelections sub?
  | .spread fragment ds => branch .spread "" [named fragment, directivesPart ds]
  | .inline on? ds sub =>
    branch .inlineFragment "" <| optional .type ofNamedType on? ++
      [directivesPart ds, .one .selectionSet
        (branch .selectionSet "" [.many .selections (ofSelections sub)])]

/-- The selection set of a field as a part, unless the field is a leaf. -/
def ofOptionalSelections : Option (List Selection) → List (Part α)
  | none => []
  | some sub =>
    [.one .selectionSet (branch .selectionSet "" [.many .selections (ofSelections sub)])]

def ofSelections : List Selection → List (Node α)
  | [] => []
  | s :: rest => ofSelection s :: ofSelections rest

end

def selectionsPart (ss : List Selection) : Part α :=
  .one .selectionSet (branch .selectionSet "" [.many .selections (ofSelections ss)])

def ofVariableDefinition (v : VariableDefinition) : Node α :=
  branch .variableDefinition "" <| describedPart v.description? ++
    [.one .variable (branch .variable "" [named v.name]), .one .type (ofTypeRef v.type)] ++
    optional .default ofValue v.default? ++ [directivesPart v.directives]

/-- The node of an argument or input field where it is defined. -/
def ofInputValue (v : InputValue) : Node α :=
  branch .inputValue "" <| describedPart v.description? ++
    [named v.name, .one .type (ofTypeRef v.type)] ++ optional .default ofValue v.default? ++
    [directivesPart v.directives]

def ofFieldDefinition (f : FieldDefinition) : Node α :=
  branch .fieldDefinition "" <| describedPart f.description? ++
    [named f.name, .many .arguments (f.arguments.map ofInputValue), .one .type (ofTypeRef f.type),
      directivesPart f.directives]

def ofEnumValue (v : EnumValue) : Node α :=
  branch .enumValueDefinition ""
    (describedPart v.description? ++ [named v.name, directivesPart v.directives])

/-- What is written between the name and the directives of a type, and what after them. -/
def bodyParts : TypeBody → List (Part α) × List (Part α)
  | .scalar => ([], [])
  | .object interfaces fields | .interface interfaces fields =>
    ([ofNamedTypes .interfaces interfaces], [.many .fields (fields.map ofFieldDefinition)])
  | .union members => ([], [ofNamedTypes .members members])
  | .enum values => ([], [.many .values (values.map ofEnumValue)])
  | .input fields => ([], [.many .fields (fields.map ofInputValue)])

def ofDefinition : Definition → Node α
  | .operation o =>
    branch .operation o.kind.keyword <| describedPart o.description? ++
      optional .name ofName o.name? ++
      [.many .variableDefinitions (o.variableDefinitions.map ofVariableDefinition),
        directivesPart o.directives, selectionsPart o.selections]
  | .fragment f =>
    branch .fragment "" <| describedPart f.description? ++
      [named f.name, .one .type (ofNamedType f.on), directivesPart f.directives,
        selectionsPart f.selections]
  | .schema isExtension s =>
    branch (.schema isExtension) "" <| describedPart s.description? ++
      [directivesPart s.directives, .many .roots (s.roots.map fun (kind, name) =>
        branch .rootType kind.keyword [.one .type (ofNamedType name)])]
  | .type isExtension t =>
    branch (.type (.ofBody t.body) isExtension) "" <| describedPart t.description? ++
      named t.name :: (bodyParts t.body).1 ++ directivesPart t.directives :: (bodyParts t.body).2
  | .directive d =>
    branch .directiveDefinition "" <| describedPart d.description? ++
      [named d.name, .many .arguments (d.arguments.map ofInputValue),
        .many .locations (d.locations.map fun l => ofName l.keyword)]

def ofDocument (d : Document) : Node α :=
  branch .document "" [.many .definitions (d.definitions.map ofDefinition)]

end Node

end Graphwright.Document
