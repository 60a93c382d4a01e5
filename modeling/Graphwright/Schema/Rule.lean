import Graphwright.Schema.Visit
import Graphwright.Schema.Basic

/-!
# The rules of type system documents

A rule keeps a state while it is shown the parts of a document one after another, and reports
problems. `problems` runs all rules side by side, so that the problems come in the order of the
text, and at one place in the order of the rules.
-/
namespace Graphwright.Schema

open Document

/-- A check of the parts of a document in order. -/
structure Rule where
  State : Type
  start : State
  step : State → Visit → State × List Problem

namespace Rule

/-- A check that keeps no state. -/
def stateless (check : Visit → List Problem) : Rule := ⟨PUnit, ⟨⟩, fun s v => (s, check v)⟩

/-- Adds names to those seen; `second` reports each that is there already. -/
def collect {α : Type} [BEq α] (seen : List α) (second : α → Problem) :
    List α → List α × List Problem
  | [] => (seen, [])
  | n :: rest =>
    if seen.contains n then
      let (seen, problems) := collect seen second rest
      (seen, second n :: problems)
    else collect (n :: seen) second rest

/-- Reports each name that occurs more than once, in order of first occurrence. -/
def repeated (second : String → Problem) (names : List String) : List Problem :=
  (names.eraseDups.filter fun n => 1 < names.count n).map second

/-- A schema is defined at most once. -/
def loneSchema : Rule where
  State := Bool
  start := false
  step seen
    | .definition (.schema false _) => (true, if seen then [.secondSchema] else [])
    | _ => (seen, [])

/-- A kind of operation has at most one root type. -/
def uniqueRoots : Rule where
  State := List OperationKind
  start := []
  step seen
    | .definition (.schema _ s) => collect seen .secondRoot (s.roots.map (·.1))
    | _ => (seen, [])

def uniqueTypes : Rule where
  State := List String
  start := []
  step seen
    | .definition (.type false t) => collect seen .secondType [t.name]
    | _ => (seen, [])

/-- An enum defines a value at most once, extensions included. -/
def uniqueEnumValues : Rule where
  State := List (String × String)
  start := []
  step seen
    | .definition (.type _ t) =>
      match t.body with
      | .enum values =>
        collect seen (fun p => .secondEnumValue p.1 p.2) (values.map fun v => (t.name, v.name))
      | _ => (seen, [])
    | _ => (seen, [])

/-- A type defines a field at most once, extensions included. -/
def uniqueFields : Rule where
  State := List (String × String)
  start := []
  step seen
    | .definition (.type _ t) =>
      let names : List String := match t.body with
        | .input fields => fields.map (·.name)
        | _ => (fieldsOf t).map (·.name)
      collect seen (fun p => .secondField p.1 p.2) (names.map (t.name, ·))
    | _ => (seen, [])

/-- A field or directive defines an argument at most once. -/
def uniqueArgumentDefinitions : Rule :=
  stateless fun
    | .definition (.directive d) =>
      repeated (.secondArgumentDefinition ("@" ++ d.name)) (d.arguments.map (·.name))
    | .definition (.type _ t) =>
      (fieldsOf t).flatMap fun f =>
        repeated (.secondArgumentDefinition (t.name ++ "." ++ f.name)) (f.arguments.map (·.name))
    | _ => []

def uniqueDirectives : Rule where
  State := List String
  start := []
  step seen
    | .definition (.directive d) => collect seen .secondDirectiveDefinition [d.name]
    | _ => (seen, [])

def definedTypes (d : Document) : List String :=
  d.definitions.filterMap fun
    | .type false t => some t.name
    | _ => none

/-- A type that is referred to is defined, or standard if a type system definition refers to it. -/
def knownTypes (d : Document) : Rule :=
  let defined := definedTypes d
  stateless fun
    | .typeName name inTypeSystem =>
      if defined.contains name || (inTypeSystem && standardNames.contains name) then []
      else
        let known := if inTypeSystem then standardNames ++ defined else defined
        [.unknownType name (Text.similar name known)]
    | _ => []

/-- The directives that a document may use: a directive it defines takes the place of a standard
one. -/
def usableDirectives (d : Document) : List DirectiveDefinition :=
  let own := d.definitions.filterMap fun
    | .directive x => some x
    | _ => none
  own.reverse ++ standardDirectives

def directive? (usable : List DirectiveDefinition) (name : String) : Option DirectiveDefinition :=
  usable.find? (·.name == name)

/-- A directive is known and stands where it may. -/
def knownDirectives (d : Document) : Rule :=
  let usable := usableDirectives d
  stateless fun
    | .enterDirective x location =>
      match directive? usable x.name with
      | none => [.unknownDirective x.name]
      | some definition =>
        if definition.locations.contains location then []
        else [.misplacedDirective x.name location]
    | _ => []

/-- A directive is applied once to a part unless it is repeatable; a type and its extensions are one
part, and so are the schema and its extensions. -/
def uniqueApplications (d : Document) : Rule :=
  let usable := usableDirectives d
  let single (ds : List Directive) : List String :=
    (ds.map (·.name)).filter fun n =>
      match directive? usable n with
      | some definition => !definition.repeatable
      | none => false
  let shared (seen : List (String × String)) (owner : String) (ds : List Directive) :=
    collect seen (fun p => Problem.repeatedDirective p.2) ((single ds).map (owner, ·))
  let alone (ds : List Directive) : List Problem :=
    (collect [] Problem.repeatedDirective (single ds)).2
  { State := List (String × String)
    start := []
    step := fun seen v =>
      match v with
      | .definition (.schema _ s) => shared seen "" s.directives
      | .definition (.type _ t) => shared seen t.name t.directives
      | .definition (.operation o) => (seen, alone o.directives)
      | .definition (.fragment f) => (seen, alone f.directives)
      | .field ds _ => (seen, alone ds)
      | .carrier ds => (seen, alone ds)
      | _ => (seen, []) }

/-- An extension extends a defined type of its own kind. -/
def possibleExtensions (d : Document) : Rule :=
  let defined := d.definitions.filterMap fun
    | .type false t => some (t.name, TypeKind.ofBody t.body)
    | _ => none
  stateless fun
    | .definition (.type true t) =>
      match defined.reverse.lookup t.name with
      | some kind =>
        if kind = TypeKind.ofBody t.body then [] else [.wrongExtension (.ofBody t.body) t.name]
      | none => [.unknownExtension t.name (Text.similar t.name (defined.map (·.1)))]
    | _ => []

/-- The arguments of a known directive are known. -/
def knownArguments (d : Document) : Rule :=
  let usable := usableDirectives d
  stateless fun
    | .enterDirective x _ =>
      match directive? usable x.name with
      | none => []
      | some definition =>
        let known := definition.arguments.map (·.name)
        (x.arguments.filter fun a => !known.contains a.1).map fun a =>
          .unknownArgument a.1 x.name (Text.similar a.1 known)
    | _ => []

def uniqueArguments : Rule :=
  stateless fun
    | .field _ names => repeated .secondArgument names
    | .enterDirective x _ => repeated .secondArgument (x.arguments.map (·.1))
    | _ => []

/-- An object value gives a field at most once. The state holds the fields of the objects around the
current place, innermost first. -/
def uniqueInputFields : Rule where
  State := List (List String)
  start := []
  step seen
    | .enterObject => ([] :: seen, [])
    | .leaveObject => (seen.drop 1, [])
    | .objectField name =>
      match seen with
      | names :: outer =>
        let (names, problems) := collect names .secondInputField [name]
        (names :: outer, problems)
      | [] => ([], [])
    | _ => (seen, [])

/-- The arguments that a directive requires. Of two definitions of one argument the later says what
its type is. -/
def required (x : DirectiveDefinition) : List InputValue :=
  let needed := x.arguments.filter fun a => a.type.isNonNull && a.default?.isNone
  (needed.map (·.name)).eraseDups.filterMap fun n => needed.reverse.find? (·.name == n)

/-- The arguments that a directive requires are given. -/
def requiredArguments (d : Document) : Rule :=
  let usable := usableDirectives d
  stateless fun
    | .leaveDirective x =>
      match directive? usable x.name with
      | none => []
      | some definition =>
        ((required definition).filter fun a => (x.argument? a.name).isNone).map fun a =>
          .missingArgument x.name a.name a.type
    | _ => []

/-- All rules, in the order in which they report at one place. -/
def all (d : Document) : List Rule :=
  [loneSchema, uniqueRoots, uniqueTypes, uniqueEnumValues, uniqueFields, uniqueArgumentDefinitions,
    uniqueDirectives, knownTypes d, knownDirectives d, uniqueApplications d, possibleExtensions d,
    knownArguments d, uniqueArguments, uniqueInputFields, requiredArguments d]

/-- The problems a rule reports at each visit. -/
def reports (r : Rule) : r.State → List Visit → List (List Problem)
  | _, [] => []
  | s, v :: rest =>
    let (s, problems) := r.step s v
    problems :: reports r s rest

end Rule

def reportsOf (rules : List Rule) (vs : List Visit) : List (List Problem) :=
  rules.foldr (fun r later => List.zipWith (· ++ ·) (r.reports r.start vs) later)
    (vs.map fun _ => [])

def problems (d : Document) : List Problem := (reportsOf (Rule.all d) (visits d)).flatten

end Graphwright.Schema
