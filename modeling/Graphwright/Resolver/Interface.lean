import Graphwright.Error
import Graphwright.Module.Part
import Graphwright.Resolver.Method
import Graphwright.Schema.Printer

/-!
# Resolver interfaces

One interface for every object, interface and union of a schema, in order, all inside one class.
Objects and interfaces have a method per field; interfaces and unions have one that tells the type
of an object. `Resolver.part` is the part of a module that holds them.
-/
namespace Graphwright.Resolver

open Graphwright.Document Graphwright.Module Graphwright.Types

/-- What an interface is for. -/
inductive Role where
  | object
  | interface
  | union
  deriving Repr, DecidableEq

/-- The resolvers of one type. -/
structure Interface where
  /-- The name of the type. -/
  key : String
  name : String
  role : Role
  /-- The type of resolved objects; unions have none. -/
  parent? : Option NamedType := none
  methods : List Method := []
  description : String

namespace Interface

/-- The interface tells the type of an object. -/
def tellsType (i : Interface) : Bool := i.role ≠ .object

/-- The symbols that an interface needs, in order of use. -/
def needs (i : Interface) : List Symbol :=
  i.methods.flatMap (·.needs) ++
    (if i.tellsType then [optionalSymbol] else []) ++
    (match i.parent? with
      | some t => t.imports
      | none => []) ++
    if i.tellsType then [("GraphQLAbstractType", "graphql")] else []

def style (isAsync : Bool) (i : Interface) : Style where
  parent := (i.parent?.map (·.text)).getD ""
  isInterface := i.role = .interface
  isAsync := isAsync

def methodBlocks (isAsync : Bool) (i : Interface) : List (List String) :=
  (if i.tellsType then [resolveTypeLines] else []) ++ i.methods.map (Method.lines (i.style isAsync))

/-- The documentation of an interface; none if the description consists of blanks. -/
def doc? (i : Interface) : Option (List String) := docstring? (some i.description) indentation

def text (isAsync : Bool) (i : Interface) : String :=
  "\n".intercalate <|
    ("class " ++ i.name ++ "(Protocol):") :: i.doc?.getD [] ++
      (i.methodBlocks isAsync).flatMap ("" :: ·)

/-- No description consists of blanks. -/
def isDocumentable (i : Interface) : Bool := i.methods.all (·.doc?.isSome) && i.doc?.isSome

end Interface

/-- The types whose resolvers get no object. -/
def rootNames : List String := ["Query", "Mutation", "Subscription"]

/-- The type of the objects that resolvers of a type get. -/
def parentOf (m : Mapper) (name : String) : NamedType :=
  if name ∈ rootNames then ⟨"Any", []⟩ else m.named name

/-- The method of a field. An argument may be left out if it is nullable and has no default. -/
def methodOf (m : Mapper) (f : FieldDefinition) : Method where
  key := f.name
  name := Naming.safeIdentifier f.name
  parameters := f.arguments.map fun a =>
    { key := a.name, name := Naming.safeIdentifier a.name, type := m.resolve a.type
      optional := !a.type.isNonNull && a.default?.isNone }
  result := m.resolve f.type
  description? := f.description?.map (·.text)

def interfaceOf? (m : Mapper) (t : TypeDefinition) : Option Interface :=
  let named (role : Role) (parent? : Option NamedType) (methods : List Method) (usual : String) :
      Interface :=
    { key := t.name, name := Naming.className t.name, role, parent?, methods
      description := (t.description?.map (·.text)).getD usual }
  match t.body with
  | .object _ fields =>
    some (named .object (some (parentOf m t.name)) (fields.map (methodOf m))
      ("Resolvers for the " ++ t.name ++ " type."))
  | .interface _ fields =>
    some (named .interface (some (parentOf m t.name)) (fields.map (methodOf m))
      ("Resolvers for the " ++ t.name ++ " interface."))
  | .union _ => some (named .union none [] "Set the correct type resolver for this union.")
  | _ => none

def initialImports (r : Registry) : Registry :=
  [Import.mk "annotations" Registry.futureModule .runtime none, ⟨"Any", "typing", .typing, none⟩,
    ⟨"Protocol", "typing", .runtime, none⟩,
    ⟨"GraphQLResolveInfo", "graphql", .typing, none⟩].foldl (fun r i => (r.record i).2) r

/-- Types that stand for types of the schema, each imported from its module relative to the
package. -/
def replacements (package : String) : Registry → List (String × String) →
    Except Naming.PackageFault (List (String × NamedType) × Registry)
  | r, [] => .ok ([], r)
  | r, (name, text) :: rest => do
    let target := Target.parse text
    let r ← match target.source? with
      | none => .ok r
      | some source => do
        let source ← Naming.resolveModule source package
        pure (r.record ⟨target.name, source, .typing, none⟩).2
    let (more, r) ← replacements package r rest
    return ((name, ⟨target.name, []⟩) :: more, r)

/-- The interfaces of a schema, and the imports of their module. -/
structure Result where
  imports : Registry
  interfaces : List Interface

def Result.body (r : Result) (isAsync : Bool) : List String := r.interfaces.map (·.text isAsync)

/-- The package that the options name, or else the given one. -/
def packageFor (o : Options) (package : String) : String :=
  (o.package?.filter (· ≠ "")).getD package

/-- Declares the resolver interfaces of a schema, with imports added to the given ones and types
resolved by the given mapper where there are any. -/
def generate (s : Schema) (o : Options) (package : String) (imports? : Option Registry := none)
    (mapper? : Option Mapper := none) : Except Error Result := do
  let r := initialImports (Registry.orFresh imports? o.typeImports)
  let (m, r) ← match mapper? with
    | some m => pure (m, r)
    | none =>
      let (qualifier, r) := r.qualify o.typesFrom? typesName .typing
      match replacements (packageFor o package) r o.mappers with
      | .ok (replacements, r) =>
        pure ({ schema? := s, scalars := .ofTexts o.scalars, qualifier, replacements : Mapper }, r)
      | .error e => .error (.package e)
  let _ ← match s.document with
    | .ok d => Except.ok d
    | .error e => .error (.document e)
  let interfaces := s.types.filterMap (interfaceOf? m)
  if interfaces.all (·.isDocumentable) then
    return { imports := r.recordAll (interfaces.flatMap (·.needs)) .typing, interfaces }
  else .error .blankDescription

/-- All interfaces inside one class. -/
def enclose (className content : String) : String :=
  let opening := "class " ++ className ++ ":\n" ++ indentation ++
    "\"\"\"Resolver interfaces for every object, interface and union type.\"\"\""
  if content.isEmpty then opening
  else opening ++ "\n\n" ++ Text.onChars (Text.indentLines indentation.toList) content

/-- The part of a module that declares the resolver interfaces of a schema. -/
def part (s : Schema) (o : Options) (outputPath : String) : Except Error Part := do
  let package ← match Naming.packageOf outputPath with
    | .ok p => Except.ok p
    | .error e => .error (.package e)
  let r ← generate s o package
  return {
    header? := moduleDocstring "Generated GraphQL resolver interfaces." (packageFor o package)
    imports := r.imports
    body := r.body o.asyncResolvers
    wrap? := some (enclose o.className) }

end Graphwright.Resolver
