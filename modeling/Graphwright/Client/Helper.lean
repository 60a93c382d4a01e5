import Graphwright.Client.Prelude
import Graphwright.Document.Spread
import Graphwright.Error
import Graphwright.Module.Declaration
import Graphwright.Module.Part
import Graphwright.Naming.Allocator

/-!
# Client helpers

A client has one helper per named operation, in order: an object that carries the operation's
document and its result type. In all modes but the external one each document is a constant of its
own, which holds the operation and the fragments it reaches. Names of constants and helpers are
fresh: the names of the head, of imports, of schema types and of all operation types in the module
are reserved before.
-/
namespace Graphwright.Client

open Graphwright.Document Graphwright.Module

/-- An operation that can be called by its name. -/
structure NamedOperation where
  name : String
  operation : Operation

/-- The named operations of a document, in order. -/
def namedOperations (d : Document) : List NamedOperation :=
  d.definitions.filterMap fun
    | .operation o => o.name?.map (⟨·, o⟩)
    | _ => none

/-- The operations of a document that have no name, in order. -/
def anonymousOperations (d : Document) : List Operation :=
  d.definitions.filterMap fun
    | .operation o => if o.name?.isNone then some o else none
    | _ => none

namespace NamedOperation

/-- The name of the operation's result type in its own module. -/
def resultType (dedupe : Bool) (o : NamedOperation) : String :=
  Naming.operationTypeName o.name o.operation.kind.keyword dedupe

def variablesType (dedupe : Bool) (o : NamedOperation) : String :=
  o.resultType dedupe ++ "Variables"

/-- The usual name of the constant that holds its document. -/
def constant (o : NamedOperation) : String := Naming.documentConstant o.name

def fragments (fs : List (String × Fragment)) (o : NamedOperation) : Except Error (List Fragment) :=
  match reachable fs o.operation.selections with
  | .ok found => .ok found
  | .error name => .error (.unknownFragment name)

/-- The document of an operation: itself and the fragments it reaches. -/
def documentText (fs : List (String × Fragment)) (o : NamedOperation) : Except Error String := do
  let found ← o.fragments fs
  return "\n\n".intercalate (Print.operation o.operation :: found.map Print.fragment)

end NamedOperation

/-! ## Imports -/

/-- The name under which the module of documents is imported. -/
def documentsName : String := "Operations"

def headImports (mode : DocumentMode) : List Import :=
  [⟨"annotations", Registry.futureModule, .runtime, none⟩,
    ⟨"dataclass", "dataclasses", .runtime, none⟩,
    ⟨"Any", "typing", .typing, none⟩,
    ⟨"Generic", "typing", .runtime, none⟩,
    ⟨"TypedDict", "typing", .runtime, none⟩,
    ⟨"TypeVar", "typing", .runtime, none⟩,
    ⟨wholeModule, "httpx", .runtime, none⟩,
    ⟨"to_jsonable_python", "pydantic_core", .runtime, none⟩] ++
  (if mode = .parsed then [⟨"parse", "graphql", .runtime, none⟩] else []) ++
  (if mode = .text then []
   else [⟨"DocumentNode", "graphql", .typing, none⟩, ⟨"print_ast", "graphql", .runtime, none⟩])

/-- The imports of a client, and how it qualifies operation types and documents. -/
structure Context where
  imports : Registry
  typesQualifier : String
  documentsQualifier : String

/-- The context that the options describe, with imports added to the given ones if there are any. -/
def contextOf (o : Options) (imports? : Option Registry) : Except Error Context :=
  let r := (headImports o.documentMode).foldl (fun r i => (r.record i).2)
    (Registry.orFresh imports? o.typeImports)
  let (typesQualifier, r) := r.qualify o.operationTypesFrom? typesName
  if o.documentMode = .external then
    let (documentsQualifier, r) := r.qualify o.documentsFrom? documentsName
    if documentsQualifier.isEmpty then .error .noDocumentsModule
    else .ok ⟨r, typesQualifier, documentsQualifier⟩
  else .ok ⟨r, typesQualifier, ""⟩

/-! ## Helpers -/

/-- A helper, and the constant with its document unless that is in another module. -/
structure Helper where
  operation : NamedOperation
  /-- The name of the helper. -/
  name : String
  /-- How the document is referred to. -/
  reference : String
  /-- The text of the document, if it is a constant of this module. -/
  document? : Option String
  resultType : String
  variablesType : String

namespace Helper

def names (h : Helper) : List String :=
  (if h.document?.isSome then [h.reference] else []) ++ [h.name]

def documentValue (mode : DocumentMode) (document : String) : String :=
  if mode = .parsed then "parse(" ++ tripleQuoted document ++ ")" else tripleQuoted document

/-- The texts of a helper, its constant first. -/
def blocks (mode : DocumentMode) (h : Helper) : List String :=
  (match h.document? with
    | some d => [h.reference ++ " = " ++ documentValue mode d]
    | none => []) ++
  ["\n".intercalate [
    h.name ++ ": GraphQLOperation[" ++ h.variablesType ++ ", " ++ h.resultType ++
      "] = make_graphql_operation(",
    indentation ++ "document=" ++ h.reference ++ ",",
    indentation ++ "fallback_operation_name=\"" ++ h.operation.name ++ "\",",
    indentation ++ "result_type=" ++ h.resultType ++ ",",
    ")"]]

end Helper

/-- What the helpers of a client depend on. -/
structure Env where
  context : Context
  mode : DocumentMode
  dedupe : Bool
  fragments : List (String × Fragment)

/-- The helpers of operations, their names handed out in order. -/
def helpersFrom (env : Env) (names : Naming.Allocator) :
    List NamedOperation → Except Error (List Helper)
  | [] => .ok []
  | o :: rest => do
    let (reference, document?, names) ←
      if env.mode = .external then
        pure (env.context.documentsQualifier ++ o.constant, none, names)
      else do
        let (constant, names) := names.allocate o.constant
        pure (constant, some (← o.documentText env.fragments), names)
    let (name, names) := names.allocate (Naming.safeIdentifier o.name)
    let more ← helpersFrom env names rest
    return {
      operation := o, name, reference, document?
      resultType := env.context.typesQualifier ++ o.resultType env.dedupe
      variablesType := env.context.typesQualifier ++ o.variablesType env.dedupe } :: more

/-- The names that no constant or helper may take. Operation types count if they are in the
module. -/
def reservedNames (s : Schema) (c : Context) (dedupe : Bool) (os : List NamedOperation) :
    List String :=
  Prelude.names ++ c.imports.imports.map (·.localName) ++ s.typeNames.map Naming.className ++
    if c.typesQualifier.isEmpty then
      os.flatMap fun o => [o.resultType dedupe, o.variablesType dedupe]
    else []

/-- The plan of a client: its operations, and what their helpers depend on. -/
structure Plan where
  env : Env
  reserved : List String
  operations : List NamedOperation

namespace Plan

/-- Collects the operations of a document, warning of those without a name. -/
def collect (s : Schema) (d : Document) (o : Options) (imports? : Option Registry := none) :
    Run Plan := do
  let context ← Run.lift id (contextOf o imports?)
  for a in anonymousOperations d do
    Run.warn ⟨.client, a⟩
  let operations := namedOperations d
  return {
    env := ⟨context, o.documentMode, o.dedupeSuffix, fragmentsOf d⟩
    reserved := reservedNames s context o.dedupeSuffix operations
    operations }

def helpers (c : Plan) : Except Error (List Helper) :=
  helpersFrom c.env (.reserveAll {} c.reserved) c.operations

/-- The text of the helpers behind the head of the module. -/
def helpersText (c : Plan) : Except Error String := do
  let hs ← c.helpers
  return String.join ((hs.flatMap (·.blocks c.env.mode)).map ("\n\n\n" ++ ·))

/-- The head of the module and its helpers. -/
def text (c : Plan) : Except Error String := do
  return Prelude.text c.env.mode ++ (← c.helpersText)

end Plan

/-- The part of a module that is the client of a document. -/
def part (s : Schema) (d : Document) (o : Options) (outputPath : String) : Run Part := do
  let package ← Run.lift .package (Naming.packageOf outputPath)
  let c ← Plan.collect s d o
  let text ← Run.lift id c.text
  return {
    header? := moduleDocstring "Generated GraphQL client." package
    imports := c.env.context.imports
    extras := [text] }

end Graphwright.Client
