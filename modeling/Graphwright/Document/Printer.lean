import Graphwright.Document.Syntax
import Graphwright.Text.Hex
import Graphwright.Document.BlockText

/-!
# Printing documents

Documents in their usual layout: two blanks of indentation, definitions a blank line apart, and
lists of values or arguments on lines of their own once their line passes 80 characters.
-/
namespace Graphwright.Document.Print

/-- Longest line before the items of a list are put on lines of their own. -/
def maxLineLength : Nat := 80

/-- The nonempty texts with a separator between them. -/
def join (separator : String) (parts : List String) : String :=
  separator.intercalate (parts.filter (· ≠ ""))

/-- A text between two others, or nothing if it is empty. -/
def wrap (before text after : String) : String := if text = "" then "" else before ++ text ++ after

/-- Two blanks in front of every line. -/
def indent (text : String) : String :=
  wrap "  " (String.join (text.toList.map fun c => if c = '\n' then "\n  " else c.toString)) ""

def block (items : List String) : String := wrap "\x7b\n" (indent (join "\n" items)) "\n\x7d"

def literalChar (c : Char) : String :=
  if c = '"' then "\\\"" else if c = '\\' then "\\\\"
  else if c = '\x08' then "\\b" else if c = '\x0c' then "\\f" else if c = '\n' then "\\n"
  else if c = '\r' then "\\r" else if c = '\t' then "\\t"
  else if c.toNat < 0x20 || (0x7f ≤ c.toNat && c.toNat < 0xa0) then "\\u" ++ Text.hex 4 c.toNat
  else c.toString

def literal (s : String) : String := "\"" ++ String.join (s.toList.map literalChar) ++ "\""

/-- A string, as a block or on one line. -/
def string (s : String) (isBlock : Bool) : String := if isBlock then blockLiteral s else literal s

mutual

def value : Value → String
  | .variable name => "$" ++ name
  | .int text => text
  | .float text => text
  | .string text isBlock => string text isBlock
  | .boolean b => if b then "true" else "false"
  | .null => "null"
  | .enum name => name
  | .list items =>
    let texts := values items
    let line := "[" ++ join ", " texts ++ "]"
    if maxLineLength < line.length then "\n".intercalate ["[", indent (join "\n" texts), "]"]
    else line
  | .object fields =>
    let texts := objectFields fields
    let line := "\x7b " ++ join ", " texts ++ " \x7d"
    if maxLineLength < line.length then block texts else line

def values : List Value → List String
  | [] => []
  | v :: rest => value v :: values rest

def objectFields : List (String × Value) → List String
  | [] => []
  | (name, v) :: rest => (name ++ ": " ++ value v) :: objectFields rest

end

def directive (d : Directive) : String :=
  "@" ++ d.name ++ wrap "(" (join ", " (objectFields d.arguments)) ")"

def directives (ds : List Directive) : String := join " " (ds.map directive)

/-- A description on lines before what it describes. -/
def description (d? : Option Description) : String :=
  match d? with
  | none => ""
  | some d => wrap "" (string d.text d.block) "\n"

/-! ## Executable definitions -/

/-- A selection set; an empty one keeps its braces. -/
def selectionBlock (items : List String) : String :=
  if items.isEmpty then "\x7b\x7d" else block items

mutual

def selection : Selection → String
  | .field alias? name arguments ds sub? =>
    let start := wrap "" (alias?.getD "") ": " ++ name
    let texts := objectFields arguments
    let line := start ++ wrap "(" (join ", " texts) ")"
    let line :=
      if maxLineLength < line.length then start ++ wrap "(\n" (indent (join "\n" texts)) "\n)"
      else line
    join " " [line, directives ds, optionalSelections sub?]
  | .spread fragment ds => "..." ++ fragment ++ wrap " " (directives ds) ""
  | .inline on? ds sub =>
    join " " ["...", wrap "on " (on?.getD "") "", directives ds, selectionBlock (selections sub)]

/-- The selections of a field, unless it is a leaf. -/
def optionalSelections : Option (List Selection) → String
  | none => ""
  | some sub => selectionBlock (selections sub)

def selections : List Selection → List String
  | [] => []
  | s :: rest => selection s :: selections rest

end

def variableDefinition (v : VariableDefinition) : String :=
  description v.description? ++ "$" ++ v.name ++ ": " ++ v.type.text ++
    wrap " = " ((v.default?.map value).getD "") "" ++ wrap " " (directives v.directives) ""

/-- Some item takes several lines. -/
def hasLongItem (items : List String) : Bool := items.any (·.toList.contains '\n')

/-- Items in parentheses, on lines of their own if one of them takes several lines; `inner` is
applied to them in that case. -/
def parenthesized (inner : String → String) (items : List String) : String :=
  if hasLongItem items then wrap "(\n" (inner (join "\n" items)) "\n)"
  else wrap "(" (join ", " items) ")"

/-- An operation; a bare query is printed as its selections only. -/
def operation (o : Operation) : String :=
  let listed := parenthesized id (o.variableDefinitions.map variableDefinition)
  let start := description o.description? ++
    join " " [o.kind.keyword, join "" [o.name?.getD "", listed], directives o.directives]
  (if start = "query" then "" else start ++ " ") ++ selectionBlock (selections o.selections)

def fragment (f : Fragment) : String :=
  description f.description? ++ "fragment " ++ f.name ++ " on " ++ f.on ++ " " ++
    wrap "" (directives f.directives) " " ++ selectionBlock (selections f.selections)

/-! ## Type system definitions -/

/-- An argument definition or a field of an input object. -/
def inputValue (v : InputValue) : String :=
  description v.description? ++
    join " " [v.name ++ ": " ++ v.type.text, wrap "= " ((v.default?.map value).getD "") "",
      directives v.directives]

def fieldDefinition (f : FieldDefinition) : String :=
  description f.description? ++ f.name ++
    parenthesized indent (f.arguments.map inputValue) ++ ": " ++
    f.type.text ++ wrap " " (directives f.directives) ""

def enumValue (v : EnumValue) : String :=
  description v.description? ++ join " " [v.name, directives v.directives]

def rootType (r : OperationKind × String) : String := r.1.keyword ++ ": " ++ r.2

/-- A type after an introduction: its keyword, name, directives and content. -/
def typeDefinition (introduction : String) (t : TypeDefinition) : String :=
  let ds := directives t.directives
  let implementing (parents : List String) := wrap "implements " (join " & " parents) ""
  join " " <| match t.body with
    | .scalar => [introduction ++ "scalar", t.name, ds]
    | .object parents fields =>
      [introduction ++ "type", t.name, implementing parents, ds, block (fields.map fieldDefinition)]
    | .interface parents fields =>
      [introduction ++ "interface", t.name, implementing parents, ds,
        block (fields.map fieldDefinition)]
    | .union names => [introduction ++ "union", t.name, ds, wrap "= " (join " | " names) ""]
    | .enum values => [introduction ++ "enum", t.name, ds, block (values.map enumValue)]
    | .input fields => [introduction ++ "input", t.name, ds, block (fields.map inputValue)]

def directiveDefinition (d : DirectiveDefinition) : String :=
  description d.description? ++ "directive @" ++ d.name ++
    parenthesized indent (d.arguments.map inputValue) ++
    (if d.repeatable then " repeatable" else "") ++ " on " ++
    join " | " (d.locations.map (·.keyword))

def definition : Definition → String
  | .operation o => operation o
  | .fragment f => fragment f
  | .schema isExtension s =>
    description s.description? ++
      join " " [if isExtension then "extend schema" else "schema", directives s.directives,
        block (s.roots.map rootType)]
  | .type isExtension t =>
    description t.description? ++ typeDefinition (if isExtension then "extend " else "") t
  | .directive d => directiveDefinition d

end Graphwright.Document.Print

namespace Graphwright

def Document.print (d : Document) : String :=
  Document.Print.join "\n\n" (d.definitions.map Document.Print.definition)

end Graphwright
