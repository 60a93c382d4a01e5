import Graphwright.Schema.Problem

/-!
# Visits of a document

The parts of a document that rules look at, in the order of the text: every definition, every part
that carries directives, every reference to a type, every directive on entering and on leaving it,
and the fields of object values. `visits` lists them; rules are folds over the list.
-/
namespace Graphwright.Schema

open Document

/-- A part of a document that a rule may look at. -/
inductive Visit where
  | definition (d : Definition)
  /-- A field of a selection, with its directives and the names of its arguments. -/
  | field (directives : List Directive) (arguments : List String)
  /-- Any other part below a definition that may carry directives. -/
  | carrier (directives : List Directive)
  /-- A reference to a named type, and whether it stands in a type system definition. -/
  | typeName (name : String) (inTypeSystem : Bool)
  | enterDirective (d : Directive) (location : Location)
  | leaveDirective (d : Directive)
  | enterObject
  | leaveObject
  | objectField (name : String)

mutual

def valueVisits : Value → List Visit
  | .list items => valuesVisits items
  | .object fields => .enterObject :: fieldsVisits fields ++ [.leaveObject]
  | _ => []

def valuesVisits : List Value → List Visit
  | [] => []
  | v :: rest => valueVisits v ++ valuesVisits rest

def fieldsVisits : List (String × Value) → List Visit
  | [] => []
  | (name, v) :: rest => .objectField name :: valueVisits v ++ fieldsVisits rest

end

def argumentVisits (arguments : List (String × Value)) : List Visit :=
  arguments.flatMap fun a => valueVisits a.2

def directiveVisits (location : Location) (ds : List Directive) : List Visit :=
  ds.flatMap fun d => .enterDirective d location :: argumentVisits d.arguments ++
    [.leaveDirective d]

def defaultVisits (default? : Option Value) : List Visit := (default?.map valueVisits).getD []

/-! ## Executable definitions -/

mutual

def selectionVisits : Selection → List Visit
  | .field _ _ arguments ds sub? =>
    .field ds (arguments.map (·.1)) :: argumentVisits arguments ++ directiveVisits .field ds ++
      visitsBelow sub?
  | .spread _ ds => .carrier ds :: directiveVisits .fragmentSpread ds
  | .inline on? ds sub =>
    .carrier ds :: on?.toList.map (.typeName · false) ++ directiveVisits .inlineFragment ds ++
      selectionsVisits sub

def visitsBelow : Option (List Selection) → List Visit
  | none => []
  | some sub => selectionsVisits sub

def selectionsVisits : List Selection → List Visit
  | [] => []
  | s :: rest => selectionVisits s ++ selectionsVisits rest

end

def operationLocation : OperationKind → Location
  | .query => .query
  | .mutation => .mutation
  | .subscription => .subscription

def operationVisits (o : Operation) : List Visit :=
  o.variableDefinitions.flatMap (fun v =>
    .carrier v.directives :: .typeName v.type.base false :: defaultVisits v.default? ++
      directiveVisits .variableDefinition v.directives) ++
  directiveVisits (operationLocation o.kind) o.directives ++ selectionsVisits o.selections

def fragmentVisits (f : Fragment) : List Visit :=
  .typeName f.on false :: directiveVisits .fragmentDefinition f.directives ++
    selectionsVisits f.selections

/-! ## Type system definitions -/

def inputVisits (location : Location) (v : InputValue) : List Visit :=
  .carrier v.directives :: .typeName v.type.base true :: defaultVisits v.default? ++
    directiveVisits location v.directives

def fieldDefinitionVisits (fields : List FieldDefinition) : List Visit :=
  fields.flatMap fun f =>
    .carrier f.directives :: f.arguments.flatMap (inputVisits .argumentDefinition) ++
      .typeName f.type.base true :: directiveVisits .fieldDefinition f.directives

def typeLocation : TypeBody → Location
  | .scalar => .scalar
  | .object _ _ => .object
  | .interface _ _ => .interface
  | .union _ => .union
  | .enum _ => .enum
  | .input _ => .inputObject

/-- The visits of a type definition or extension below it. The fields of an extension of an input
object count as arguments for their directives. -/
def typeVisits (isExtension : Bool) (t : TypeDefinition) : List Visit :=
  let own := directiveVisits (typeLocation t.body) t.directives
  let names (ns : List String) : List Visit := ns.map (.typeName · true)
  match t.body with
  | .scalar => own
  | .object parents fields => names parents ++ own ++ fieldDefinitionVisits fields
  | .interface parents fields => names parents ++ own ++ fieldDefinitionVisits fields
  | .union members => own ++ names members
  | .enum values =>
    own ++ values.flatMap fun v => .carrier v.directives :: directiveVisits .enumValue v.directives
  | .input fields =>
    own ++ fields.flatMap
      (inputVisits (if isExtension then .argumentDefinition else .inputFieldDefinition))

def definitionVisits (d : Definition) : List Visit :=
  .definition d :: match d with
    | .operation o => operationVisits o
    | .fragment f => fragmentVisits f
    | .schema _ s => directiveVisits .schema s.directives ++ s.roots.map fun r => .typeName r.2 true
    | .type isExtension t => typeVisits isExtension t
    | .directive d => d.arguments.flatMap (inputVisits .argumentDefinition)

def visits (d : Document) : List Visit := d.definitions.flatMap definitionVisits

end Graphwright.Schema
