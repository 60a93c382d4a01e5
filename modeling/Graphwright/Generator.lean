import Graphwright.Client.Helper
import Graphwright.Grammar.Statement
import Graphwright.Hook
import Graphwright.Resolver.Interface
import Graphwright.Response.Declare
import Graphwright.Schema.Declare

/-!
# Generators

The generators by name, and a run of several of them: every generator works by itself, their parts
are combined in order into one module, hooks are applied, and the outcome has to follow the grammar
of modules.
-/
namespace Graphwright

inductive Generator where
  | schemaTypes
  | operationTypes
  | client
  | resolvers
  deriving Repr, DecidableEq

namespace Generator

def name : Generator → String
  | schemaTypes => "schema-types"
  | operationTypes => "operation-types"
  | client => "client"
  | resolvers => "resolvers"

/-- All generators, in the order in which they are usually combined. -/
def all : List Generator := [schemaTypes, operationTypes, client, resolvers]

def ofName? (n : String) : Option Generator := all.find? (·.name == n)

/-- The generators that make up a client with its models. -/
def clientSet : List Generator := [schemaTypes, operationTypes, client]

/-- The path of a module with the part of one generator only. -/
def usualPath : Generator → String
  | schemaTypes => "types.py"
  | operationTypes => "operations.py"
  | client => "sdk.py"
  | resolvers => "resolvers.py"

def part (g : Generator) (s : Schema) (d : Document) (o : Options) (path : String) :
    Run Module.Part :=
  match g with
  | schemaTypes => Run.lift id (SchemaTypes.part s o path)
  | operationTypes => OperationTypes.part s d o path
  | client => Client.part s d o path
  | resolvers => Run.lift id (Resolver.part s o path)

/-- The generators with some names; there has to be one, and all have to be known. -/
def ofNames (names : List String) : Except Error (List Generator) :=
  if names.isEmpty then .error .noPlugins
  else
    let unknown := names.filter fun n => (ofName? n).isNone
    if unknown.isEmpty then .ok (names.filterMap ofName?)
    else .error (.unknownPlugins unknown (all.map (·.name)))

end Generator

/-- The text of a module made by several generators, without the hooks and the test of its
grammar. -/
def combinedText (gs : List Generator) (s : Schema) (d : Document) (o : Options) (path : String) :
    Run String :=
  Module.Part.combine <$> gs.mapM fun g => g.part s d o path

/-- A module as it was generated, if it follows the grammar. -/
def checked (path text : String) : Except Error String :=
  if Grammar.isModule text then .ok text else .error (.invalidModule path)

/-- Generates one module by the generators with some names. The names are looked at before the
options are. -/
def generate (names : List String) (s : Schema) (d : Document) (options : Except Error Options)
    (path : String) (hooks : List Hook) : Run String := do
  let gs ← Run.lift id (Generator.ofNames names)
  let o ← Run.lift id options
  let text ← combinedText gs s d o path
  Run.lift id (checked path (Hook.run hooks path text))

end Graphwright
