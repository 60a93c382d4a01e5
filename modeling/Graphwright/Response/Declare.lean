import Graphwright.Module.Declaration
import Graphwright.Module.Part
import Graphwright.Naming.Allocator
import Graphwright.Response.Shape

/-!
# Declarations of operation types

A named operation declares its variables and a model of its result, a fragment declares a model. The
fields below a field get a model of their own with a fresh name, declared before the model that
holds the field. The names of operations and fragments are reserved before any fresh name is chosen,
so no model takes the name of a later definition. `OperationTypes.part` is the part of a module that
holds these declarations.
-/
namespace Graphwright.OperationTypes

open Graphwright.Document Graphwright.Module Graphwright.Types Graphwright.Response

/-- Naming of models; names are handed out in the order of use. -/
abbrev Named (α : Type) := StateM Naming.Allocator α

def freshName (name : String) : Named String := fun a => a.allocate name

/-- What a field without fields below it is declared as. -/
def leafType (m : Mapper) : Option TypeRef → Resolved
  | none => ⟨.name "str", []⟩
  | some type => m.resolve type

/-- The name of a field in the module. -/
def attributeName (key : String) (type? : Option TypeRef) : String :=
  if type?.isNone && key = "__typename" then "typename__" else Naming.safeIdentifier key

/-- The field of a model for a field of a response. It may be absent if it is nullable or
conditional, and then defaults to nothing. -/
def attributeOf (key : String) (type? : Option TypeRef) (type : Resolved) (conditional : Bool) :
    Attribute :=
  let required := match type? with
    | none => true
    | some t => t.isNonNull
  { key
    name := attributeName key type?
    annotation := if conditional && required then .sometimes type else .type type
    default? := if conditional || !required then some "None" else none }

mutual

/-- The member of a model for a field of a response. -/
def memberOf (m : Mapper) (owner : String) : Field → Named Member
  | .mk key (some type) (some fields) conditional => do
    let name ← freshName (owner ++ Naming.pascalCase key)
    let members ← membersOf m name fields
    let resolved := m.resolve type (some ⟨name, []⟩)
    return .node (attributeOf key (some type) resolved conditional) (.mk name none members)
  | .mk key type? _ conditional =>
    return .leaf (attributeOf key type? (leafType m type?) conditional)

/-- The members of the model `owner` for fields of a response. -/
def membersOf (m : Mapper) (owner : String) : List Field → Named (List Member)
  | [] => return []
  | f :: rest => do
    let first ← memberOf m owner f
    return first :: (← membersOf m owner rest)

end

def modelOf (m : Mapper) (name : String) (fields : List Field) : Named Model := do
  return .mk name none (← membersOf m name fields)

/-- The name of the variables of an operation with a result type. -/
def variablesName (resultName : String) : String := resultName ++ "Variables"

/-- The variables of an operation. One may be left out if it is nullable or has a default. -/
def variablesOf (m : Mapper) (resultName : String) (o : Operation) : Variables where
  name := variablesName resultName
  entries := o.variableDefinitions.map fun v =>
    { key := v.name, type := m.resolve v.type
      optional := !v.type.isNonNull || v.default?.isSome }

def resultName (dedupe : Bool) (name : String) (kind : OperationKind) : String :=
  Naming.operationTypeName name kind.keyword dedupe

/-- The names that the definitions of a document take by themselves. -/
def reservedNames (dedupe : Bool) (d : Document) : List String :=
  d.definitions.flatMap fun
    | .fragment f => [Naming.fragmentTypeName f.name]
    | .operation o =>
      match o.name? with
      | some name =>
        let result := resultName dedupe name o.kind
        [result, variablesName result]
      | none => []
    | _ => []

/-- What one definition declares. -/
structure Block where
  variables? : Option Variables
  model : Model

namespace Block

def declarations (b : Block) : List Declaration :=
  b.variables?.toList.map .mapping ++ [.model b.model]

/-- The symbols that a block needs, in order of use. -/
def needs (b : Block) : List Symbol := b.variables?.toList.flatMap (·.needs) ++ b.model.needs

def names (b : Block) : List String := b.declarations.flatMap (·.names)

def text (r : Registry) (b : Block) : String :=
  "\n\n\n".intercalate (b.declarations.flatMap (·.blocks r))

end Block

def blockOf (m : Mapper) (dedupe : Bool) : Shape → Named Block
  | .operation name o fields => do
    let result := resultName dedupe name o.kind
    return ⟨some (variablesOf m result o), ← modelOf m result fields⟩
  | .fragment f fields => do
    return ⟨none, ← modelOf m (Naming.fragmentTypeName f.name) fields⟩

/-- The operation types of a document, and the imports of their module. -/
structure Result where
  imports : Registry
  blocks : List Block

namespace Result

def body (r : Result) : List String := r.blocks.map (·.text r.imports)

def models (r : Result) : List String := r.blocks.flatMap (·.model.names)

end Result

/-- The mapper that the options describe, and the registry with the module of types it refers to. -/
def mapperOf (s : Schema) (o : Options) (r : Registry) : Mapper × Registry :=
  let (qualifier, r) := r.qualify o.typesFrom? typesName
  ({ schema? := s, scalars := .ofTexts o.scalars, qualifier }, r)

/-- Declares the operation types of a document, with imports added to the given ones and types
resolved by the given mapper where there are any. -/
def generate (s : Schema) (d : Document) (o : Options) (imports? : Option Registry := none)
    (mapper? : Option Mapper := none) : Run Result := do
  let r := (Registry.orFresh imports? o.typeImports).recordAll [annotationsSymbol]
  let (m, r) := match mapper? with
    | some m => (m, r)
    | none => mapperOf s o r
  let found ← shapes s d
  let names := Naming.Allocator.reserveAll {} (reservedNames o.dedupeSuffix d)
  let (blocks, _) := (found.mapM (blockOf m o.dedupeSuffix)).run names
  return { imports := r.recordAll (blocks.flatMap (·.needs)), blocks }

/-- The part of a module that declares the operation types of a document. -/
def part (s : Schema) (d : Document) (o : Options) (outputPath : String) : Run Part := do
  let package ← Run.lift .package (Naming.packageOf outputPath)
  let r ← generate s d o
  return {
    header? := moduleDocstring "Generated GraphQL operation types." package
    imports := r.imports
    body := r.body
    extras := [rebuildBlock r.models] }

end Graphwright.OperationTypes
