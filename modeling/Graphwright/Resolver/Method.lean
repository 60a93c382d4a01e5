import Graphwright.Module.Declaration

/-!
# Resolver methods

A method resolves one field. Besides the resolved object and the context of the request it takes the
arguments of the field by keyword. Methods of interfaces fail unless they are overridden; other
methods are mere signatures.
-/
namespace Graphwright.Resolver

open Graphwright.Module Graphwright.Types

/-- Longest line for a method without arguments. -/
def maxLineLength : Nat := 79

/-- How the methods of a type are written. -/
structure Style where
  /-- The type of the resolved object. -/
  parent : String
  /-- Every method fails unless it is overridden. -/
  isInterface : Bool
  isAsync : Bool
  deriving Repr

/-- The lines of a method, given those of its documentation. Without arguments they are one line if
it is not too long; otherwise every parameter has its own line. -/
def methodLines (style : Style) (name : String) (arguments : List String) (result : String)
    (doc : List String) : List String :=
  let keyword := if style.isAsync then "async def" else "def"
  let parameters := ["self", "parent: " ++ style.parent, "info: GraphQLResolveInfo"] ++
    if arguments.isEmpty then [] else "*" :: arguments
  let tail := if doc.isEmpty && !style.isInterface then " ..." else ""
  let opening := indentation ++ keyword ++ " " ++ name ++ "("
  let closing := ") -> " ++ result ++ ":" ++ tail
  let line := opening ++ ", ".intercalate parameters ++ closing
  let signature :=
    if arguments.isEmpty && line.length ≤ maxLineLength then [line]
    else
      opening :: (parameters.map fun p => indentation ++ indentation ++ p ++ ",") ++
        [indentation ++ closing]
  signature ++ doc ++
    if style.isInterface then [indentation ++ indentation ++ "raise NotImplementedError"] else []

/-- A keyword parameter for an argument of a field. -/
structure Parameter where
  /-- The name of the argument. -/
  key : String
  name : String
  type : Resolved
  /-- It may be left out. -/
  optional : Bool
  deriving Repr

def Parameter.text (p : Parameter) : String :=
  p.name ++ ": " ++ p.type.text ++ if p.optional then " = None" else ""

structure Method where
  /-- The name of the field. -/
  key : String
  name : String
  parameters : List Parameter
  result : Resolved
  description? : Option String := none
  deriving Repr

namespace Method

/-- The symbols a method needs: those of its parameters, then those of its result. -/
def needs (m : Method) : List Symbol := m.parameters.flatMap (·.type.imports) ++ m.result.imports

/-- The documentation of a method; none if the description consists of blanks. -/
def doc? (m : Method) : Option (List String) :=
  docstring? m.description? (indentation ++ indentation)

def lines (style : Style) (m : Method) : List String :=
  methodLines style m.name (m.parameters.map (·.text)) m.result.text (m.doc?.getD [])

end Method

/-- The lines of the method that tells the type of an object. -/
def resolveTypeLines : List String :=
  [indentation ++ "def resolve_type("] ++
    (["self,", "obj: Any,", "info: GraphQLResolveInfo,", "abstract_type: GraphQLAbstractType,"].map
      (indentation ++ indentation ++ ·)) ++
    [indentation ++ ") -> Optional[str]: ..."]

end Graphwright.Resolver
