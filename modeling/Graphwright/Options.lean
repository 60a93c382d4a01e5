import Graphwright.Json.Reader

/-!
# Options

The options of a generation run, decoded from a JSON object whose keys are written in snake case or
in camel case. `Options.decode` collects every fault: first the options in their own order, then the
keys that are no options, in the order of the input. Switches are also given as zero or one or as
words.
-/
namespace Graphwright

inductive DocumentMode where
  /-- As string constants. -/
  | text
  /-- As parsed documents. -/
  | parsed
  /-- In another module. -/
  | external
  deriving Repr, DecidableEq

namespace DocumentMode

def keyword : DocumentMode → String
  | text => "string"
  | parsed => "documentNode"
  | external => "external"

def ofKeyword? (word : String) : Option DocumentMode :=
  [text, parsed, external].find? (·.keyword == word)

end DocumentMode

structure Options where
  /-- Types that stand for scalars. -/
  scalars : List (String × String) := []
  /-- Imports that only type checkers need are kept apart. -/
  typeImports : Bool := false
  /-- The module that a client imports operation types from. -/
  operationTypesFrom? : Option String := none
  /-- The module that schema types are imported from. -/
  typesFrom? : Option String := none
  documentMode : DocumentMode := .text
  /-- The module that holds the documents in the external mode. -/
  documentsFrom? : Option String := none
  /-- A package that replaces the one of the output path. -/
  package? : Option String := none
  /-- The class around the resolver interfaces. -/
  className : String := "Resolvers"
  /-- Types that stand for types of the schema in resolver interfaces. -/
  mappers : List (String × String) := []
  asyncResolvers : Bool := false
  /-- Object models have no field for their type name. -/
  skipTypename : Bool := false
  /-- Operation names that end in their kind get no second suffix. -/
  dedupeSuffix : Bool := false
  deriving Repr

namespace Options

/-- What is wrong with the value of an option. -/
inductive FaultKind where
  | notABool
  | unreadableBool
  | notAString
  | notAMapping
  | noSuchMode
  | unknownKey
  deriving Repr, DecidableEq

/-- A fault and the keys that lead to it. -/
structure Fault where
  path : List String
  kind : FaultKind
  deriving Repr, DecidableEq

inductive DecodeFault where
  | noObject
  | faults (found : List Fault)
  deriving Repr

/-- The options by their snake case keys, in order. -/
def keys : List String :=
  ["scalars", "use_type_imports", "import_operation_types_from", "import_types_from",
    "document_mode", "import_documents_from", "package", "class_name", "mappers", "async_resolvers",
    "skip_typename", "dedupe_operation_suffix"]

/-- Capitalises the letter after each underscore and drops the underscores. -/
def camelChars : List Char → List Char
  | '_' :: c :: rest => c.toUpper :: camelChars rest
  | c :: rest => c :: camelChars rest
  | [] => []

def camelKey (key : String) : String := String.ofList (camelChars key.toList)

/-- The member that gives an option, and the key it is written under: camel case goes first. -/
def member? (members : List (String × Json)) (key : String) : Option (String × Json) :=
  match members.lookup (camelKey key) with
  | some v => some (camelKey key, v)
  | none => (members.lookup key).map (key, ·)

abbrev Decoded (α : Type) := Except (List Fault) α

def boolWords : List (String × Bool) :=
  [("0", false), ("off", false), ("f", false), ("false", false), ("n", false), ("no", false),
    ("1", true), ("on", true), ("t", true), ("true", true), ("y", true), ("yes", true)]

def bool (key : String) (v : Json) : Decoded Bool :=
  match v with
  | .bool b => .ok b
  | .int n =>
    if n = 0 then .ok false
    else if n = 1 then .ok true
    else
      match Text.Binary64.ofDecimal (n < 0) n.natAbs 0 with
      | .finite _ _ _ => .error [⟨[key], .unreadableBool⟩]
      | _ => .error [⟨[key], .notABool⟩]
  | .float x =>
    if x.isNat 0 then .ok false
    else if x.isNat 1 then .ok true
    else .error [⟨[key], if x.isWhole then .unreadableBool else .notABool⟩]
  | .str s =>
    match boolWords.lookup (s.map Char.toLower) with
    | some b => .ok b
    | none => .error [⟨[key], .unreadableBool⟩]
  | _ => .error [⟨[key], .notABool⟩]

def string (key : String) (v : Json) : Decoded String :=
  match v with
  | .str s => .ok s
  | _ => .error [⟨[key], .notAString⟩]

def string? (key : String) (v : Json) : Decoded (Option String) :=
  match v with
  | .null => .ok none
  | _ => some <$> string key v

def mapping (key : String) (v : Json) : Decoded (List (String × String)) :=
  match v with
  | .obj members =>
    let faults := members.filterMap fun m =>
      match m.2 with
      | .str _ => none
      | _ => some (⟨[key, m.1], .notAString⟩ : Fault)
    if faults.isEmpty then
      .ok (members.filterMap fun m =>
        match m.2 with
        | .str s => some (m.1, s)
        | _ => none)
    else .error faults
  | _ => .error [⟨[key], .notAMapping⟩]

def mode (key : String) (v : Json) : Decoded DocumentMode :=
  match v with
  | .str s =>
    match DocumentMode.ofKeyword? s with
    | some m => .ok m
    | none => .error [⟨[key], .noSuchMode⟩]
  | _ => .error [⟨[key], .noSuchMode⟩]

def decodeKey {α : Type} (members : List (String × Json)) (key : String) (default : α)
    (decode : String → Json → Decoded α) : Decoded α :=
  match member? members key with
  | none => .ok default
  | some (written, v) => decode written v

def faultsOf {α : Type} : Decoded α → List Fault
  | .ok _ => []
  | .error found => found

def unknownKeys (members : List (String × Json)) : List String :=
  let used := keys.filterMap fun k => (member? members k).map (·.1)
  (members.map (·.1)).filter fun k => !used.contains k

def ofMembers (members : List (String × Json)) : Decoded Options :=
  let scalars := decodeKey members "scalars" [] mapping
  let typeImports := decodeKey members "use_type_imports" false bool
  let operationTypesFrom := decodeKey members "import_operation_types_from" none string?
  let typesFrom := decodeKey members "import_types_from" none string?
  let documentMode := decodeKey members "document_mode" .text mode
  let documentsFrom := decodeKey members "import_documents_from" none string?
  let package := decodeKey members "package" none string?
  let className := decodeKey members "class_name" "Resolvers" string
  let mappers := decodeKey members "mappers" [] mapping
  let asyncResolvers := decodeKey members "async_resolvers" false bool
  let skipTypename := decodeKey members "skip_typename" false bool
  let dedupeSuffix := decodeKey members "dedupe_operation_suffix" false bool
  let found := faultsOf scalars ++ faultsOf typeImports ++ faultsOf operationTypesFrom ++
    faultsOf typesFrom ++ faultsOf documentMode ++ faultsOf documentsFrom ++ faultsOf package ++
    faultsOf className ++ faultsOf mappers ++ faultsOf asyncResolvers ++ faultsOf skipTypename ++
    faultsOf dedupeSuffix ++ (unknownKeys members).map fun k => ⟨[k], .unknownKey⟩
  if found.isEmpty then do
    return {
      scalars := ← scalars
      typeImports := ← typeImports
      operationTypesFrom? := ← operationTypesFrom
      typesFrom? := ← typesFrom
      documentMode := ← documentMode
      documentsFrom? := ← documentsFrom
      package? := ← package
      className := ← className
      mappers := ← mappers
      asyncResolvers := ← asyncResolvers
      skipTypename := ← skipTypename
      dedupeSuffix := ← dedupeSuffix }
  else .error found

/-- Options from a JSON value, which has to be an object. -/
def decode (v : Json) : Except DecodeFault Options :=
  match v with
  | .obj members =>
    match ofMembers members with
    | .ok o => .ok o
    | .error found => .error (.faults found)
  | _ => .error .noObject

private def ofText? : Option String → Json
  | some s => .str s
  | none => .null

private def ofTexts (ts : List (String × String)) : Json := .obj (ts.map fun t => (t.1, .str t.2))

def encode (o : Options) : Json :=
  .obj (keys.zip
    [ofTexts o.scalars, .bool o.typeImports, ofText? o.operationTypesFrom?, ofText? o.typesFrom?,
      .str o.documentMode.keyword, ofText? o.documentsFrom?, ofText? o.package?, .str o.className,
      ofTexts o.mappers, .bool o.asyncResolvers, .bool o.skipTypename, .bool o.dedupeSuffix])

end Options

end Graphwright
