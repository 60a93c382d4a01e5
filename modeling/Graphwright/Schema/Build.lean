import Graphwright.Schema.Rule

/-!
# Building schemas

A document without problems becomes a schema: extensions are merged into what they extend, the root
types are those of the schema definition or, without one, those with the usual names, and the
standard types that anything refers to are added.
-/
namespace Graphwright.Schema

open Document

inductive BuildFault where
  | problems (found : List Problem)
  /-- A standard directive is given a value of the wrong type. -/
  | directiveValue
  deriving Repr

/-! ## Extensions -/

/-- A type with an extension of the same kind merged in; the directives of the extension are
dropped. -/
def extendType (t : TypeDefinition) (extension : TypeBody) : TypeDefinition :=
  match t.body, extension with
  | .object parents fields, .object moreParents moreFields =>
    { t with body := .object (parents ++ moreParents) (fields ++ moreFields) }
  | .interface parents fields, .interface moreParents moreFields =>
    { t with body := .interface (parents ++ moreParents) (fields ++ moreFields) }
  | .union members, .union more => { t with body := .union (members ++ more) }
  | .enum values, .enum more => { t with body := .enum (values ++ more) }
  | .input fields, .input more => { t with body := .input (fields ++ more) }
  | _, _ => t

/-- The extensions of a type in a document, in order. -/
def extensionsOf (d : Document) (name : String) : List TypeBody :=
  d.definitions.filterMap fun
    | .type true t => if t.name = name then some t.body else none
    | _ => none

/-- The types that a document defines under names of their own, extensions merged in. -/
def mergedTypes (d : Document) : List TypeDefinition :=
  d.definitions.filterMap fun
    | .type false t =>
      if standardNames.contains t.name then none
      else some ((extensionsOf d t.name).foldl extendType t)
    | _ => none

/-! ## Types in use -/

def inputNames (vs : List InputValue) : List String := vs.map (·.type.base)

def namesOf (t : TypeDefinition) : List String :=
  let ofFields (fields : List FieldDefinition) :=
    fields.flatMap fun f => f.type.base :: inputNames f.arguments
  match t.body with
  | .object parents fields => parents ++ ofFields fields
  | .interface parents fields => parents ++ ofFields fields
  | .union members => members
  | .input fields => inputNames fields
  | _ => []

/-- The standard types in use: those of introspection and what they need, and those that the
document defines again or refers to. -/
def standardInUse (d : Document) (types : List TypeDefinition)
    (roots : List (OperationKind × String)) (directives : List DirectiveDefinition) :
    List TypeDefinition :=
  let used := ["String", "Boolean"] ++ Rule.definedTypes d ++ types.flatMap namesOf ++
    roots.map (·.2) ++ directives.flatMap (inputNames ·.arguments)
  standardTypes.filter fun t => used.contains t.name || introspectionTypes.any (·.name == t.name)

/-! ## Root types -/

/-- The usual name of the root type of a kind of operation. -/
def usualRoot : OperationKind → String
  | .query => "Query"
  | .mutation => "Mutation"
  | .subscription => "Subscription"

/-- The root types that the schema definition and its extensions name, the later of two. -/
def namedRoots (d : Document) : List (OperationKind × String) :=
  let pairs := d.definitions.flatMap fun
    | .schema _ s => s.roots
    | _ => []
  OperationKind.all.filterMap fun k => (pairs.reverse.lookup k).map (k, ·)

def schemaDefinition? (d : Document) : Option SchemaDefinition :=
  (d.definitions.filterMap fun
    | .schema false s => some s
    | _ => none).head?

/-- The root types of a document: without a schema definition a type with a usual name is a root. -/
def rootsOf (d : Document) (types : List TypeDefinition) : List (OperationKind × String) :=
  let named := namedRoots d
  match schemaDefinition? d with
  | some _ => named
  | none =>
    OperationKind.all.filterMap fun k =>
      if types.any (·.name == usualRoot k) then some (k, usualRoot k)
      else (named.lookup k).map (k, ·)

/-! ## Standard directives -/

/-- The reason that a part is deprecated for, or none if it is not. -/
def deprecation? (ds : List Directive) : Except BuildFault (Option String) :=
  match ds.find? (·.name == "deprecated") with
  | none => .ok none
  | some d =>
    match d.argument? "reason" with
    | none => .ok (some defaultReason)
    | some (.string text _) => .ok (some text)
    | some .null => .ok none
    | some _ => .error .directiveValue

/-- The address of the definition of a scalar. -/
def specification? (ds : List Directive) : Except BuildFault (Option String) :=
  match ds.find? (·.name == "specifiedBy") with
  | none => .ok none
  | some d =>
    match d.argument? "url" with
    | some (.string text _) => .ok (some text)
    | _ => .error .directiveValue

/-- The directives that carry reasons, anywhere in a type. -/
def deprecable (t : TypeDefinition) : List (List Directive) :=
  let ofInputs (vs : List InputValue) := vs.map (·.directives)
  match t.body with
  | .object _ fields | .interface _ fields =>
    fields.flatMap fun f => f.directives :: ofInputs f.arguments
  | .enum values => values.map (·.directives)
  | .input fields => ofInputs fields
  | _ => []

/-- The standard directives of a type have values of the right types. -/
def checkType (t : TypeDefinition) : Except BuildFault PUnit := do
  if isScalar t then
    let _ ← specification? t.directives
  for ds in deprecable t do
    let _ ← deprecation? ds

/-! ## The schema -/

/-- The schema of a document, whether or not it has problems. -/
def ofDocument (d : Document) : Schema :=
  let types := mergedTypes d
  let roots := rootsOf d types
  let directives := d.definitions.filterMap fun
    | .directive x => some x
    | _ => none
  { description? := (schemaDefinition? d).bind (·.description?)
    roots, types, directives
    standard := standardInUse d types roots directives }

def build (d : Document) : Except BuildFault Schema := do
  let found := problems d
  if found.isEmpty then
    let s := ofDocument d
    for t in s.types do
      checkType t
    for x in s.directives do
      for a in x.arguments do
        let _ ← deprecation? a.directives
    return s
  else .error (.problems found)

end Graphwright.Schema
