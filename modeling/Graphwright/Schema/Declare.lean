import Graphwright.Error
import Graphwright.Module.Declaration
import Graphwright.Module.Part
import Graphwright.Schema.Printer
import Graphwright.Types.Default

/-!
# Declarations of schema types

The types of a schema as declarations of a module: enums, models of objects, interfaces and input
objects with their fields in order, and unions of models. Scalars, directives and arguments declare
nothing, but every default value is looked at. `SchemaTypes.part` is the part of a module that holds
them all.
-/
namespace Graphwright.SchemaTypes

open Graphwright.Document Graphwright.Module Graphwright.Types

/-- A declaration, and the symbols it needs in order of use. -/
structure Declared where
  declaration : Declaration
  needs : List Symbol

/-- A failure in the work on a schema. -/
abbrev Checked (α : Type) := Except Error α

/-- The text of the default of an input value. -/
def defaultOf (v : InputValue) : Checked (Option String) :=
  match v.default? with
  | none => .ok none
  | some value =>
    match defaultText value with
    | .ok text => .ok (some text)
    | .error _ => .error .longInteger

/-- The text of a description, unless it consists of blanks. -/
def describe (d? : Option Description) : Checked (Option String) :=
  let text? := d?.map (·.text)
  if (docstring? text? indentation).isSome then .ok text? else .error .blankDescription

/-- The field of a model for a name and a type; a nullable one defaults to nothing. -/
def attributeOf (m : Mapper) (name : String) (type : TypeRef) (default? : Option String) :
    Attribute where
  key := name
  name := Naming.safeIdentifier name
  annotation := .type (m.resolve type)
  default? := default?.or (if type.isNonNull then none else some "None")

/-- The field that holds the name of an object's type. -/
def typenameAttribute (typeName : String) : Attribute where
  key := "__typename"
  name := "typename__"
  annotation := .literal typeName
  default? := some ("\"" ++ typeName ++ "\"")

/-- The model of a type with some fields, the one for the type's name first. -/
def modelOf (t : TypeDefinition) (typename? : Option Attribute)
    (fields : List (Attribute × Option Description)) : Checked Declared := do
  let description? ← describe t.description?
  let described ← fields.mapM fun (a, d?) => do
    return { a with description? := ← describe d? }
  let all := typename?.toList ++ described
  return {
    declaration := .model (.mk (Naming.className t.name) description? (all.map .leaf))
    needs := described.flatMap (·.needs) ++ modelSymbol :: typename?.toList.flatMap (·.needs) ++
      if Model.hasRenamed all then [settingsSymbol] else [] }

/-- The fields of an object or interface; the defaults of their arguments are looked at. -/
def fieldAttributes (m : Mapper) (fields : List FieldDefinition) :
    Checked (List (Attribute × Option Description)) :=
  fields.mapM fun f => do
    let _ ← f.arguments.mapM defaultOf
    return (attributeOf m f.name f.type none, f.description?)

/-- The declaration of a type; scalars have none. -/
def declare (m : Mapper) (skipTypename : Bool) (t : TypeDefinition) : Checked (Option Declared) :=
  match t.body with
  | .scalar => return none
  | .object _ fields => do
    let attributes ← fieldAttributes m fields
    modelOf t (if skipTypename then none else some (typenameAttribute t.name)) attributes
  | .interface _ fields => do
    let attributes ← fieldAttributes m fields
    modelOf t none attributes
  | .input fields => do
    let attributes ← fields.mapM fun v => do
      let default? ← defaultOf v
      return (attributeOf m v.name v.type default?, v.description?)
    modelOf t none attributes
  | .enum values => do
    let choices ← values.mapM fun v => do
      return ({ key := v.name, name := Naming.safeIdentifier v.name
                description? := ← describe v.description? } : Choice)
    let description? ← describe t.description?
    return some {
      declaration := .enum (Naming.className t.name) description? choices
      needs := [enumSymbol] }
  | .union members =>
    return some {
      declaration := .union (Naming.className t.name) (t.description?.map (·.text))
        (members.map Naming.className)
      needs := [unionSymbol] }

/-- The declarations of a schema in the order of its types. The defaults of the arguments of
directives are looked at before. -/
def declareAll (s : Schema) (m : Mapper) (skipTypename : Bool) : Checked (List Declared) := do
  let _ ← s.shownDirectives.mapM fun d => d.arguments.mapM defaultOf
  let declared ← s.types.mapM (declare m skipTypename)
  return declared.filterMap id

/-- The types of a schema, declared, and the imports of their module. -/
structure Result where
  imports : Registry
  declarations : List Declaration

namespace Result

def body (r : Result) : List String := r.declarations.flatMap (·.blocks r.imports)

def models (r : Result) : List String := r.declarations.flatMap (·.modelNames)

end Result

def mapperOf (s : Schema) (o : Options) : Mapper := { schema? := s, scalars := .ofTexts o.scalars }

/-- Declares the types of a schema, with imports added to the given ones and types resolved by the
given mapper where there are any. -/
def generate (s : Schema) (o : Options) (imports? : Option Registry := none)
    (mapper? : Option Mapper := none) : Checked Result := do
  let _ ← match s.document with
    | .ok d => Except.ok d
    | .error e => .error (.document e)
  let declared ← declareAll s (mapper?.getD (mapperOf s o)) o.skipTypename
  let start := Registry.orFresh imports? o.typeImports
  return {
    imports := start.recordAll (annotationsSymbol :: declared.flatMap (·.needs))
    declarations := declared.map (·.declaration) }

/-- The part of a module that declares the types of a schema. -/
def part (s : Schema) (o : Options) (outputPath : String) : Checked Part := do
  let package ← match Naming.packageOf outputPath with
    | .ok p => Except.ok p
    | .error e => .error (.package e)
  let r ← generate s o
  return {
    header? := moduleDocstring "Generated GraphQL schema types." package
    imports := r.imports
    body := r.body
    extras := [rebuildBlock r.models] }

end Graphwright.SchemaTypes
