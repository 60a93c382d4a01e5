import Graphwright.Document.Token
import Graphwright.Document.Syntax

/-!
# Reading documents

`Document.read` turns a source into a document by recursive descent over its tokens, one token of
lookahead ahead of the current one. A token that cannot be cut fails as soon as the token before it
has been taken, so that of two faults the first in the text is reported.
-/
namespace Graphwright.Document

inductive ReadFault where
  /-- The text does not follow the grammar. -/
  | grammar (error : SyntaxError)
  /-- The text ends inside an escape of a string. -/
  | truncated
  deriving Repr

/-- Where a reader stands: the current token and what comes after it. -/
structure Cursor where
  source : Source
  current : Token
  later : Tokens

abbrev Read := StateT Cursor (Except ReadFault)

namespace Read

def fail {α : Type} (position : Nat) (reason : String) : Read α := do
  throw (.grammar ⟨(← get).source, position, reason⟩)

def failLex {α : Type} (fault : LexFault) : Read α :=
  if fault.truncated then throw .truncated else fail fault.position fault.reason

def advance : Read Token := do
  let c ← get
  match c.later with
  | .done last => set { c with current := last }
  | .failed fault => failLex fault
  | .next t rest => set { c with current := t, later := rest }
  return c.current

/-- The token after the current one. -/
def lookahead : Read Token := do
  match (← get).later with
  | .done last => return last
  | .failed fault => failLex fault
  | .next t _ => return t

def current : Read Token := return (← get).current

def peek (kind : TokenKind) : Read Bool := return (← current).kind == kind

def peekMark (text : String) : Read Bool := peek (.mark text)

def unexpectedAt {α : Type} (t : Token) : Read α := fail t.start ("Unexpected " ++ t.text ++ ".")

def unexpected {α : Type} : Read α := do unexpectedAt (← current)

def expect (kind : TokenKind) : Read Token := do
  let t ← current
  if t.kind == kind then advance
  else fail t.start ("Expected " ++ kind.text ++ ", found " ++ t.text ++ ".")

def expectMark (text : String) : Read PUnit := do
  let _ ← expect (.mark text)

def optionalMark (text : String) : Read Bool := do
  if ← peekMark text then
    let _ ← advance
    return true
  else return false

def peekWord (word : String) : Read Bool := do
  let t ← current
  return t.kind == .name && t.value == word

def expectWord (word : String) : Read PUnit := do
  let t ← current
  if ← peekWord word then
    let _ ← advance
  else fail t.start ("Expected '" ++ word ++ "', found " ++ t.text ++ ".")

def optionalWord (word : String) : Read Bool := do
  if ← peekWord word then
    let _ ← advance
    return true
  else return false

def itemsUntil {α : Type} (fuel : Nat) (close : TokenKind) (item : Read α) : Read (List α) := do
  match fuel with
  | 0 => unexpected
  | fuel + 1 =>
    if ← peek close then
      let _ ← advance
      return []
    else
      let first ← item
      let rest ← itemsUntil fuel close item
      return first :: rest

/-- At least one item between two marks. -/
def many {α : Type} (fuel : Nat) (opening close : String) (item : Read α) : Read (List α) := do
  expectMark opening
  let first ← item
  let rest ← itemsUntil fuel (.mark close) item
  return first :: rest

/-- Nothing, or at least one item between two marks. -/
def optionalMany {α : Type} (fuel : Nat) (opening close : String) (item : Read α) :
    Read (List α) := do
  if ← peekMark opening then many fuel opening close item else return []

/-- Any number of items between two marks. -/
def anyNumber {α : Type} (fuel : Nat) (opening close : String) (item : Read α) : Read (List α) := do
  expectMark opening
  itemsUntil fuel (.mark close) item

/-- Items that follow while a separator does. -/
def moreAfter {α : Type} (fuel : Nat) (separator : String) (item : Read α) : Read (List α) := do
  match fuel with
  | 0 => unexpected
  | fuel + 1 =>
    if ← optionalMark separator then
      let first ← item
      let rest ← moreAfter fuel separator item
      return first :: rest
    else return []

/-- At least one item, with a separator between them and perhaps one in front. -/
def delimited {α : Type} (fuel : Nat) (separator : String) (item : Read α) : Read (List α) := do
  let _ ← optionalMark separator
  let first ← item
  let rest ← moreAfter fuel separator item
  return first :: rest

def name : Read String := return (← expect .name).value

/-! ## Values and types -/

/-- A value; `constant` ones hold no variables. -/
def value (constant : Bool) : (fuel : Nat) → Read Value
  | 0 => unexpected
  | fuel + 1 => do
    let t ← current
    match t.kind with
    | .mark "[" => return .list (← anyNumber fuel "[" "]" (value constant fuel))
    | .mark "\x7b" =>
      return .object (← anyNumber fuel "\x7b" "\x7d" do
        let key ← name
        expectMark ":"
        return (key, ← value constant fuel))
    | .int =>
      let _ ← advance
      return .int t.value
    | .float =>
      let _ ← advance
      return .float t.value
    | .string =>
      let _ ← advance
      return .string t.value false
    | .blockString =>
      let _ ← advance
      return .string t.value true
    | .name =>
      let _ ← advance
      return match t.value with
        | "true" => .boolean true
        | "false" => .boolean false
        | "null" => .null
        | word => .enum word
    | .mark "$" =>
      let _ ← advance
      if constant then
        let v ← current
        if v.kind == .name then
          fail t.start ("Unexpected variable '$" ++ v.value ++ "' in constant value.")
        else unexpectedAt t
      else return .variable (← name)
    | _ => unexpected

def typeRef : (fuel : Nat) → Read TypeRef
  | 0 => unexpected
  | fuel + 1 => do
    let inner ←
      if ← optionalMark "[" then
        let item ← typeRef fuel
        expectMark "]"
        pure (TypeRef.list item)
      else pure (TypeRef.named (← name))
    if ← optionalMark "!" then return .nonNull inner else return inner

def arguments (constant : Bool) (fuel : Nat) : Read (List (String × Value)) :=
  optionalMany fuel "(" ")" do
    let key ← name
    expectMark ":"
    return (key, ← value constant fuel)

/-- Directives, as many as follow. -/
def directives (constant : Bool) : (fuel : Nat) → Read (List Directive)
  | 0 => unexpected
  | fuel + 1 => do
    if ← optionalMark "@" then
      let n ← name
      let args ← arguments constant fuel
      return ⟨n, args⟩ :: (← directives constant fuel)
    else return []

/-- A default value, if an equals sign follows. -/
def default? (fuel : Nat) : Read (Option Value) := do
  if ← optionalMark "=" then return some (← value true fuel) else return none

def peekDescription : Read Bool := do
  return (← peek .string) || (← peek .blockString)

def description? : Read (Option Description) := do
  if ← peekDescription then
    let t ← advance
    return some ⟨t.value, t.kind == .blockString⟩
  else return none

/-! ## Executable definitions -/

/-- The name of a fragment, which must not be the word that introduces its type. -/
def fragmentName : Read String := do
  if (← current).value == "on" then unexpected else name

mutual

def selections : (fuel : Nat) → Read (List Selection)
  | 0 => unexpected
  | fuel + 1 => anyNumber fuel "\x7b" "\x7d" (selection fuel)

/-- A field, a spread or an inline fragment. -/
def selection : (fuel : Nat) → Read Selection
  | 0 => unexpected
  | fuel + 1 => do
    if ← optionalMark "..." then
      let conditioned ← optionalWord "on"
      if !conditioned && (← peek .name) then
        let n ← fragmentName
        return .spread n (← directives false fuel)
      else
        let on? ← if conditioned then some <$> name else pure none
        let ds ← directives false fuel
        return .inline on? ds (← selections fuel)
    else
      let first ← name
      let (alias?, n) ←
        if ← optionalMark ":" then pure (some first, ← name) else pure (none, first)
      let args ← arguments false fuel
      let ds ← directives false fuel
      let sub? ← if ← peekMark "\x7b" then some <$> selections fuel else pure none
      return .field alias? n args ds sub?

end

def operationKind : Read OperationKind := do
  let t ← expect .name
  match OperationKind.ofKeyword? t.value with
  | some kind => return kind
  | none => unexpectedAt t

def variableDefinition (fuel : Nat) : Read VariableDefinition := do
  let description? ← description?
  expectMark "$"
  let n ← name
  expectMark ":"
  let type ← typeRef fuel
  let default? ← default? fuel
  let directives ← directives true fuel
  return { description?, name := n, type, default?, directives }

/-- An operation; without a keyword it is an anonymous query. -/
def operation (fuel : Nat) : Read Operation := do
  if ← peekMark "\x7b" then return { selections := ← selections fuel }
  else
    let description? ← description?
    let kind ← operationKind
    let name? ← if ← peek .name then some <$> name else pure none
    let variableDefinitions ← optionalMany fuel "(" ")" (variableDefinition fuel)
    let directives ← directives false fuel
    let selections ← selections fuel
    return { description?, kind, name?, variableDefinitions, directives, selections }

def fragment (fuel : Nat) : Read Fragment := do
  let description? ← description?
  expectWord "fragment"
  let n ← fragmentName
  expectWord "on"
  let on ← name
  let directives ← directives false fuel
  let selections ← selections fuel
  return { description?, name := n, on, directives, selections }

/-! ## Type system definitions -/

/-- An argument definition or a field of an input object. -/
def inputValue (fuel : Nat) : Read InputValue := do
  let description? ← description?
  let n ← name
  expectMark ":"
  let type ← typeRef fuel
  let default? ← default? fuel
  let directives ← directives true fuel
  return { description?, name := n, type, default?, directives }

def fieldDefinition (fuel : Nat) : Read FieldDefinition := do
  let description? ← description?
  let n ← name
  let arguments ← optionalMany fuel "(" ")" (inputValue fuel)
  expectMark ":"
  let type ← typeRef fuel
  let directives ← directives true fuel
  return { description?, name := n, arguments, type, directives }

/-- A value of an enum; the words for constants are no names of values. -/
def enumValue (fuel : Nat) : Read EnumValue := do
  let description? ← description?
  let t ← current
  if ["true", "false", "null"].contains t.value then
    fail t.start (t.text ++ " is reserved and cannot be used for an enum value.")
  else
    let n ← name
    let directives ← directives true fuel
    return { description?, name := n, directives }

def rootType : Read (OperationKind × String) := do
  let kind ← operationKind
  expectMark ":"
  return (kind, ← name)

/-- The interfaces after the word that introduces them. -/
def interfaces (fuel : Nat) : Read (List String) := do
  if ← optionalWord "implements" then delimited fuel "&" name else return []

def fieldDefinitions (fuel : Nat) : Read (List FieldDefinition) :=
  optionalMany fuel "\x7b" "\x7d" (fieldDefinition fuel)

/-- The members of a union, if an equals sign follows. -/
def members (fuel : Nat) : Read (List String) := do
  if ← optionalMark "=" then delimited fuel "|" name else return []

def location : Read Location := do
  let t ← current
  let n ← name
  match Location.ofKeyword? n with
  | some l => return l
  | none => unexpectedAt t

/-- The name, directives and content of a type after its keyword. -/
def typeContent (keyword : String) (fuel : Nat) : Read (String × List Directive × TypeBody) := do
  let n ← name
  match keyword with
  | "scalar" => return (n, ← directives true fuel, .scalar)
  | "union" =>
    let ds ← directives true fuel
    return (n, ds, .union (← members fuel))
  | "enum" =>
    let ds ← directives true fuel
    return (n, ds, .enum (← optionalMany fuel "\x7b" "\x7d" (enumValue fuel)))
  | "input" =>
    let ds ← directives true fuel
    return (n, ds, .input (← optionalMany fuel "\x7b" "\x7d" (inputValue fuel)))
  | "interface" =>
    let parents ← interfaces fuel
    let ds ← directives true fuel
    return (n, ds, .interface parents (← fieldDefinitions fuel))
  | _ =>
    let parents ← interfaces fuel
    let ds ← directives true fuel
    return (n, ds, .object parents (← fieldDefinitions fuel))

def typeKeywords : List String := ["scalar", "type", "interface", "union", "enum", "input"]

/-- A type without content, which may stand as a definition but extends nothing. -/
def isBare (ds : List Directive) (body : TypeBody) : Bool :=
  ds.isEmpty &&
    match body with
    | .scalar => true
    | .object parents fields => parents.isEmpty && fields.isEmpty
    | .interface parents fields => parents.isEmpty && fields.isEmpty
    | .union names => names.isEmpty
    | .enum values => values.isEmpty
    | .input fields => fields.isEmpty

def typeDefinition (fuel : Nat) : Read Definition := do
  let description? ← description?
  let keyword ← name
  let (n, ds, body) ← typeContent keyword fuel
  return .type false { description?, name := n, directives := ds, body }

def schemaDefinition (fuel : Nat) : Read Definition := do
  let description? ← description?
  expectWord "schema"
  let ds ← directives true fuel
  let roots ← many fuel "\x7b" "\x7d" rootType
  return .schema false { description?, directives := ds, roots }

def directiveDefinition (fuel : Nat) : Read Definition := do
  let description? ← description?
  expectWord "directive"
  expectMark "@"
  let n ← name
  let arguments ← optionalMany fuel "(" ")" (inputValue fuel)
  let repeatable ← optionalWord "repeatable"
  expectWord "on"
  let locations ← delimited fuel "|" location
  return .directive { description?, name := n, arguments, repeatable, locations }

/-- An extension; one that adds nothing is refused. -/
def extension (fuel : Nat) : Read Definition := do
  let keyword ← lookahead
  if keyword.kind == .name && keyword.value == "schema" then
    expectWord "extend"
    expectWord "schema"
    let ds ← directives true fuel
    let roots ← optionalMany fuel "\x7b" "\x7d" rootType
    if ds.isEmpty && roots.isEmpty then unexpected
    else return .schema true { directives := ds, roots }
  else if keyword.kind == .name && typeKeywords.contains keyword.value then
    expectWord "extend"
    let word ← name
    let (n, ds, body) ← typeContent word fuel
    if isBare ds body then unexpected
    else return .type true { name := n, directives := ds, body }
  else unexpectedAt keyword

/-- A definition, told by the word in front, after a description if there is one. -/
def definition (fuel : Nat) : Read Definition := do
  if ← peekMark "\x7b" then return .operation (← operation fuel)
  else
    let described ← peekDescription
    let keyword ← if described then lookahead else current
    if described && keyword.kind == .mark "\x7b" then
      fail (← current).start
        "Unexpected description, descriptions are not supported on shorthand queries."
    else if keyword.kind == .name then
      let word := keyword.value
      if word = "schema" then schemaDefinition fuel
      else if typeKeywords.contains word then typeDefinition fuel
      else if word = "directive" then directiveDefinition fuel
      else if (OperationKind.ofKeyword? word).isSome then return .operation (← operation fuel)
      else if word = "fragment" then return .fragment (← fragment fuel)
      else if described then
        fail (← current).start
          "Unexpected description, only GraphQL definitions support descriptions."
      else if word = "extend" then extension fuel
      else unexpectedAt keyword
    else unexpectedAt keyword

/-- At least one definition, up to the end. -/
def document (fuel : Nat) : Read Document := do
  let first ← definition fuel
  let rest ← itemsUntil fuel .endOfFile (definition fuel)
  return ⟨first :: rest⟩

/-- Reads a whole source. The depth of recursion is bounded by the length of the source. -/
def whole {α : Type} (source : Source) (reader : (fuel : Nat) → Read α) : Except ReadFault α := do
  let start : Cursor := ⟨source, ⟨.endOfFile, "", 0⟩, .scan source⟩
  let (_, cursor) ← advance.run start
  let (result, _) ← (reader (2 * source.body.length + 4)).run cursor
  return result

end Read

/-- A type reference that makes up a whole text. -/
def TypeRef.read (text : String) : Except ReadFault TypeRef :=
  Read.whole ⟨text, "GraphQL request"⟩ fun fuel => do
    let t ← Read.typeRef fuel
    let _ ← Read.expect .endOfFile
    return t

end Graphwright.Document

namespace Graphwright

def Document.read (source : Document.Source) : Except Document.ReadFault Document :=
  Document.Read.whole source Document.Read.document

end Graphwright
