import Graphwright.Response.Field
import Graphwright.Schema.Surroundings
import Graphwright.Error

/-!
# Collecting response fields

The fields that selections ask for, collected on a walk that knows what the schema says of the nodes
it is in. Inline fragments and spreads contribute their fields in place; what they select for
another type, or under a condition, may be absent.

A spread is expanded by a walk of its own over the selections of its fragment, which knows nothing
but the type of the fragment. The walk that met the spread goes on where it was, whether or not the
expansion fails. A fragment that is met again while it is being expanded spreads itself; expanded
fragments are remembered.
-/
namespace Graphwright.Response

open Document

/-- The fragments that have been expanded, latest first. -/
abbrev Cache := List (String × List Field)

/-- Where collecting is. -/
structure Session where
  /-- What is known of the nodes that the walk is in, innermost first. -/
  context : List Schema.Surroundings := []
  /-- The fragments that are being expanded, innermost first. -/
  expanding : List String := []
  cache : Cache := []

namespace Session

/-- What is known of the innermost node. -/
def here (st : Session) : Schema.Surroundings := st.context.headD {}

def enter (st : Session) (s : Schema) (n : Node Unit) : Session :=
  { st with context := s.inside st.here n :: st.context }

def leave (st : Session) : Session := { st with context := st.context.tail }

/-- Begins to expand a fragment, on a walk of its own. -/
def begin (st : Session) (s : Schema) (f : Fragment) : Session :=
  { st with
    context := [{ parent? := s.composite? f.on, type? := s.output? (.named f.on) }]
    expanding := f.name :: st.expanding }

/-- Goes back from the expansion of a fragment to the walk that met it. -/
def resume (st : Session) (context : List Schema.Surroundings) (name : String) : Session :=
  { st with context, expanding := st.expanding.filter (· != name) }

def remember (st : Session) (name : String) (fields : List Field) : Session :=
  { st with cache := (name, fields) :: st.cache }

end Session

/-- Collecting may fail; the session at the failure is kept. -/
abbrev Collect := EStateM Error Session

/-- What collecting depends on: a schema, and fragments by name. -/
structure Env where
  schema : Schema
  fragments : List (String × Fragment)

/-- A directive that may leave out what it is applied to. -/
def isCondition (d : Directive) : Bool := d.name == "include" || d.name == "skip"

/-- Some directive may leave out the selection. -/
def hasCondition (ds : List Directive) : Bool := ds.any isCondition

/-- A type condition that names another type than the one that is selected on. -/
def isElsewhere (on? : Option String) (parent? : Option TypeDefinition) : Bool :=
  match on?, parent? with
  | some name, some p => name != p.name
  | _, _ => false

/-- Acts inside a node. A failure ends the walk where it is. -/
def inside {α : Type} (s : Schema) (n : Node Unit) (act : Collect α) : Collect α := do
  modify (·.enter s n)
  let a ← act
  modify (·.leave)
  return a

/-- Acts while a fragment is being expanded. However that ends, the walk that met the fragment goes
on. -/
def apart {α : Type} (s : Schema) (f : Fragment) (act : Collect α) : Collect α := fun outer =>
  match act (outer.begin s f) with
  | .ok a st => .ok a (st.resume outer.context f.name)
  | .error e st => .error e (st.resume outer.context f.name)

/-- The fields of a selection set, given how those of its selections are collected. -/
def selectionSet (s : Schema) (ss : List Selection) (act : Collect (List Field)) :
    Collect (List Field) :=
  inside s (.branch .selectionSet "" [.many .selections (Node.ofSelections ss)]) (merge <$> act)

mutual

/-- The fields that a selection asks for, given how fragments are expanded. -/
def collect (env : Env) (expand : Fragment → Collect (List Field)) :
    Selection → Collect (List Field)
  | .field alias? name arguments ds sub? =>
    inside env.schema (.ofSelection (.field alias? name arguments ds sub?)) do
      let children? ← collectBelow env expand sub?
      let responseName := alias?.getD name
      if name = "__typename" then return [.mk responseName none none (hasCondition ds)]
      else
        let here := (← get).here
        match here.field? with
        | none => throw (.unknownField name (here.parent?.map (·.name)))
        | some type => return [.mk responseName (some type) children? (hasCondition ds)]
  | .inline on? ds sub =>
    inside env.schema (.ofSelection (.inline on? ds sub)) do
      let fields ← selectionSet env.schema sub (collectAll env expand sub)
      return markConditional (hasCondition ds || isElsewhere on? (← get).here.parent?) fields
  | .spread name ds =>
    inside env.schema (.ofSelection (.spread name ds)) do
      match env.fragments.lookup name with
      | none => throw (.unknownFragment name)
      | some fragment =>
        let conditional := hasCondition ds || isElsewhere (some fragment.on) (← get).here.parent?
        return markConditional conditional (← expand fragment)

/-- The fields below a field, unless it is a leaf. -/
def collectBelow (env : Env) (expand : Fragment → Collect (List Field)) :
    Option (List Selection) → Collect (Option (List Field))
  | none => return none
  | some sub => return some (← selectionSet env.schema sub (collectAll env expand sub))

/-- The fields that several selections ask for, one after another. -/
def collectAll (env : Env) (expand : Fragment → Collect (List Field)) :
    List Selection → Collect (List Field)
  | [] => return []
  | s :: rest => do
    let first ← collect env expand s
    let more ← collectAll env expand rest
    return first ++ more

end

/-- The fields of a fragment, given how the fragments are expanded that it spreads. They are
remembered once they are known. -/
def expandOnce (env : Env) (expand : Fragment → Collect (List Field)) (f : Fragment) :
    Collect (List Field) := do
  let st ← get
  match st.cache.lookup f.name with
  | some fields => return fields
  | none =>
    if f.name ∈ st.expanding then throw (.fragmentCycle f.name)
    else
      match env.schema.type? f.on with
      | none => throw (.unknownFragmentType f.on f.name)
      | some _ =>
        let fields ← apart env.schema f
          (selectionSet env.schema f.selections (collectAll env expand f.selections))
        modify (·.remember f.name fields)
        return fields

/-- The fields of a fragment, with at most so many expansions inside one another. -/
def expandWithin (env : Env) : Nat → Fragment → Collect (List Field)
  | 0 => fun f => throw (.fragmentCycle f.name)
  | depth + 1 => expandOnce env (expandWithin env depth)

/-- The fields of a fragment. Expansions inside one another are of different fragments, so that
there are never more of them than there are fragments. -/
def expand (env : Env) : Fragment → Collect (List Field) :=
  expandWithin env (env.fragments.length + 1)

end Graphwright.Response
