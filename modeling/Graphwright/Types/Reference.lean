import Graphwright.Types.Mapper

/-!
# Types that are written and types that are held

A type is referred to in two ways. A document writes it down with a name at the bottom; a schema
holds it with the definition of that name. Variables come in the first form and fields of a schema
in the second. The mapper goes through both in the same way, each by its own wrappers.
-/
namespace Graphwright.Types

open Document (TypeRef TypeDefinition)

/-- A type as a schema holds it. -/
inductive SchemaType where
  | named (definition : TypeDefinition)
  | list (item : SchemaType)
  | nonNull (inner : SchemaType)
  deriving Repr

namespace SchemaType

/-- The name of the type at the bottom. -/
def base : SchemaType → String
  | named definition => definition.name
  | list item => item.base
  | nonNull inner => inner.base

/-- There is a non-null mark around the whole type. -/
def isNonNull : SchemaType → Bool
  | nonNull _ => true
  | _ => false

end SchemaType

/-- The type that a written one denotes, if the schema has the named type at its bottom. -/
def denoted? (s : Schema) : TypeRef → Option SchemaType
  | .named name => (s.type? name).map .named
  | .list item => (denoted? s item).map .list
  | .nonNull inner => (denoted? s inner).map .nonNull

inductive Reference where
  | written (ref : TypeRef)
  | held (type : SchemaType)
  deriving Repr

namespace Reference

/-- The name of the type at the bottom. -/
def base : Reference → String
  | written ref => ref.base
  | held type => type.base

/-- There is a non-null mark around the whole type. -/
def isNonNull : Reference → Bool
  | written ref => ref.isNonNull
  | held type => type.isNonNull

end Reference

/-- An expression and the imports it needs, with a mark for optional values around it if it is
nullable. -/
def marked (nullable : Bool) (wrapped : Expr × List Symbol) : Expr × List Symbol :=
  if nullable then (.optional wrapped.1, wrapped.2 ++ [optionalSymbol]) else wrapped

/-- The expression of a type of a schema; it is not nullable directly inside a non-null mark. -/
def wrapHeld (base : NamedType) : (nullable : Bool) → SchemaType → Expr × List Symbol
  | _, .nonNull inner => wrapHeld base false inner
  | nullable, .list item =>
    let (e, used) := wrapHeld base true item
    marked nullable (.list e, used ++ [listSymbol])
  | nullable, .named _ => marked nullable (.name base.text, base.imports)

/-- Resolves a reference of either form; `base?` stands in for its named type. -/
def Mapper.resolveReference (m : Mapper) (ref : Reference) (base? : Option NamedType := none) :
    Resolved :=
  match ref with
  | .written ref => m.resolve ref base?
  | .held type =>
    let (e, used) := wrapHeld (base?.getD (m.named type.base)) true type
    ⟨e, used.eraseDups⟩

end Graphwright.Types
