import Graphwright.Document.Node
import Graphwright.Schema.Basic

/-!
# Types at the nodes of executable documents

What a schema says of the place of a node: the type on which its fields are selected, the type of
the value that it is part of, and the type of the field around it as it is defined.
-/
namespace Graphwright.Schema

open Document

/-- What is known of the place of a node. -/
structure Surroundings where
  /-- The composite type whose fields are selected. -/
  parent? : Option TypeDefinition := none
  /-- The type of the value. -/
  type? : Option TypeRef := none
  /-- The type that the definition of the field gives. -/
  field? : Option TypeRef := none

/-- A reference, if values of its type may be in a response. -/
def output? (s : Schema) (ref : TypeRef) : Option TypeRef :=
  if (s.type? ref.base).any isOutput then some ref else none

def inside {α : Type} (s : Schema) (c : Surroundings) (n : Node α) : Surroundings :=
  match n.kind? with
  | some .operation =>
    let root? := (OperationKind.ofKeyword? n.text).bind s.root?
    { c with type? := (root?.bind s.type?).filter isObject |>.map fun t => .named t.name }
  | some .selectionSet => { c with parent? := s.compositeBase? c.type? }
  | some .field =>
    let field? := c.parent?.bind fun p => n.name?.bind (s.fieldType? p)
    { c with field?, type? := field?.bind s.output? }
  | some .fragment | some .inlineFragment =>
    let on? := match (n.all .type).head? with
      | some condition => condition.name?
      | none => c.type?.map TypeRef.base
    { c with type? := on?.bind fun name => s.output? (.named name) }
  | _ => c

end Graphwright.Schema
