import Graphwright.Types.Scalar
import Graphwright.Schema.Basic
import Graphwright.Naming.Identifier

/-!
# Type expressions

References to types of a schema become type expressions of the generated module. Every list and
every named type is optional unless a non-null mark sits directly around it:

| reference | expression |
| --- | --- |
| `[Int!]!` | `List[int]` |
| `[Int]!` | `List[Optional[int]]` |
| `[Int!]` | `Optional[List[int]]` |
| `[Int]` | `Optional[List[Optional[int]]]` |

`Mapper.resolve` gives the expression together with the imports it needs, each once.
-/
namespace Graphwright.Types

open Document (TypeRef)

inductive Expr where
  | name (text : String)
  | list (item : Expr)
  | optional (inner : Expr)
  deriving Repr, DecidableEq

def Expr.text : Expr → String
  | name text => text
  | list item => "List[" ++ item.text ++ "]"
  | optional inner => "Optional[" ++ inner.text ++ "]"

/-- A symbol and the module it is imported from. -/
abbrev Symbol := String × String

/-- A type name and the imports it needs. -/
structure NamedType where
  text : String
  imports : List Symbol := []
  deriving Repr, DecidableEq

/-- A type expression and the imports it needs. -/
structure Resolved where
  expr : Expr
  imports : List Symbol
  deriving Repr, DecidableEq

def Resolved.text (r : Resolved) : String := r.expr.text

def listSymbol : Symbol := ("List", "typing")

/-- The import of the mark for optional values. -/
def optionalSymbol : Symbol := ("Optional", "typing")

mutual

/-- The expression of a reference that no non-null mark sits around. -/
def wrap (base : NamedType) : TypeRef → Expr × List Symbol
  | .nonNull inner => wrapRequired base inner
  | .list item =>
    let (e, used) := wrap base item
    (.optional (.list e), used ++ [listSymbol, optionalSymbol])
  | .named _ => (.optional (.name base.text), base.imports ++ [optionalSymbol])

/-- The expression of a reference directly inside a non-null mark. -/
def wrapRequired (base : NamedType) : TypeRef → Expr × List Symbol
  | .nonNull inner => wrapRequired base inner
  | .list item =>
    let (e, used) := wrap base item
    (.list e, used ++ [listSymbol])
  | .named _ => (.name base.text, base.imports)

end

/-- Resolves references to types. Names of composite types are qualified, where the generated module
imports them from elsewhere; some names may be replaced. -/
structure Mapper where
  schema? : Option Schema
  scalars : ScalarTable := .initial
  qualifier : String := ""
  replacements : List (String × NamedType) := []

namespace Mapper

/-- The type that stands for scalars without an entry. -/
def fallback : NamedType := ⟨"Any", [("Any", "typing")]⟩

/-- A named type on its own. Types that are no scalars keep their names; scalars, and names that the
schema does not know, stand for what the table says. -/
def named (m : Mapper) (name : String) : NamedType :=
  match m.replacements.lookup name with
  | some t => t
  | none =>
    let isComposite := match m.schema?.bind (·.type? name) with
      | some t => !Schema.isScalar t
      | none => false
    if isComposite then ⟨m.qualifier ++ Naming.className name, []⟩
    else
      match m.scalars.get? name with
      | none => fallback
      | some ⟨text, none⟩ => ⟨text, []⟩
      | some ⟨text, some source⟩ => ⟨text, [(text, source)]⟩

/-- Resolves a reference; `base?` stands in for its named type. -/
def resolve (m : Mapper) (ref : TypeRef) (base? : Option NamedType := none) : Resolved :=
  let (e, used) := wrap (base?.getD (m.named ref.base)) ref
  ⟨e, used.eraseDups⟩

end Mapper

end Graphwright.Types
