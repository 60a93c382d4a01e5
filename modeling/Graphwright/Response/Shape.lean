import Graphwright.Document.Spread
import Graphwright.Response.Collect

/-!
# Shapes of a document

The fields that each named operation and each fragment of a document asks for. Operations without a
name have no shape: they are warned of, once the fields they ask for are known to exist.
-/
namespace Graphwright.Response

open Document

/-- A named operation or a fragment, and the fields it asks for. -/
inductive Shape where
  | operation (name : String) (o : Operation) (fields : List Field)
  | fragment (f : Fragment) (fields : List Field)

/-- The fields that a definition asks for; a definition of types asks for none. -/
def fieldsOf (env : Env) : Definition → Collect (List Field)
  | .operation o =>
    inside env.schema (.ofDefinition (.operation o))
      (selectionSet env.schema o.selections (collectAll env (expand env) o.selections))
  | .fragment f =>
    inside env.schema (.ofDefinition (.fragment f))
      (selectionSet env.schema f.selections (collectAll env (expand env) f.selections))
  | _ => return []

/-- The shapes of definitions in order, from where collecting is. -/
def shapesFrom (env : Env) (st : Session) : List Definition → Run (List Shape)
  | [] => return []
  | d :: rest => do
    match (fieldsOf env d).run st with
    | .error e _ => throw e
    | .ok fields st =>
      match d with
      | .operation o =>
        match o.name? with
        | some name => return .operation name o fields :: (← shapesFrom env st rest)
        | none =>
          Run.warn ⟨.operationTypes, o⟩
          shapesFrom env st rest
      | .fragment f => return .fragment f fields :: (← shapesFrom env st rest)
      | _ => shapesFrom env st rest

/-- The shapes of the definitions of a document, in order. -/
def shapes (s : Schema) (d : Document) : Run (List Shape) :=
  shapesFrom ⟨s, fragmentsOf d⟩ {} d.definitions

end Graphwright.Response
