import Graphwright.Schema.Build
import Graphwright.Document.Printer
import Graphwright.Document.Reader

/-!
# Printing schemas

The text of a schema: its definition if the root types have other than the usual names or there is a
description, then the defined directives and types in order. Of the applied directives only the
standard ones are shown. Descriptions are block strings where these can hold them.
-/
namespace Graphwright.Schema

open Document

/-- A description on lines of its own, after an empty line unless it opens a block. -/
def descriptionLines (d? : Option Description) (indentation : String) (isFirst : Bool) : String :=
  match d? with
  | none => ""
  | some d =>
    let text := Print.string d.text (isBlockPrintable d.text)
    let indented := String.join
      (text.toList.map fun c => if c = '\n' then "\n" ++ indentation else c.toString)
    (if indentation ≠ "" && !isFirst then "\n" else "") ++ indentation ++ indented ++ "\n"

def deprecationText (ds : List Directive) : String :=
  match deprecation? ds with
  | .ok (some reason) =>
    if reason = defaultReason then " @deprecated"
    else " @deprecated(reason: " ++ Print.literal reason ++ ")"
  | _ => ""

/-- An argument or a field of an input object. -/
def inputText (v : InputValue) : String :=
  v.name ++ ": " ++ v.type.text ++
    (match v.default? with
      | some value => " = " ++ Print.value value
      | none => "") ++ deprecationText v.directives

/-- Items with their descriptions, each on its lines. -/
def described {α : Type} (indentation : String) (description? : α → Option Description)
    (text : α → String) (items : List α) : List String :=
  items.mapIdx fun i x => descriptionLines (description? x) indentation (i == 0) ++
    indentation ++ text x

/-- Arguments in parentheses, on lines of their own if one of them has a description. -/
def argumentsText (indentation : String) (arguments : List InputValue) : String :=
  if arguments.isEmpty then ""
  else if arguments.all (·.description?.isNone) then
    "(" ++ ", ".intercalate (arguments.map inputText) ++ ")"
  else
    "(\n" ++ "\n".intercalate
      (described ("  " ++ indentation) (·.description?) inputText arguments) ++
      "\n" ++ indentation ++ ")"

/-- Lines between braces, or nothing. -/
def braces (items : List String) : String :=
  if items.isEmpty then "" else " \x7b\n" ++ "\n".intercalate items ++ "\n\x7d"

def fieldsText (fields : List FieldDefinition) : String :=
  braces (described "  " (·.description?)
    (fun f => f.name ++ argumentsText "  " f.arguments ++ ": " ++ f.type.text ++
      deprecationText f.directives) fields)

def interfacesText (parents : List String) : String :=
  if parents.isEmpty then "" else " implements " ++ " & ".intercalate parents

def typeText (t : TypeDefinition) : String :=
  descriptionLines t.description? "" true ++ match t.body with
    | .scalar =>
      "scalar " ++ t.name ++
        (match specification? t.directives with
          | .ok (some url) => " @specifiedBy(url: " ++ Print.literal url ++ ")"
          | _ => "")
    | .object parents fields => "type " ++ t.name ++ interfacesText parents ++ fieldsText fields
    | .interface parents fields =>
      "interface " ++ t.name ++ interfacesText parents ++ fieldsText fields
    | .union members =>
      "union " ++ t.name ++ (if members.isEmpty then "" else " = " ++ " | ".intercalate members)
    | .enum values =>
      "enum " ++ t.name ++
        braces (described "  " (·.description?) (fun v => v.name ++ deprecationText v.directives)
          values)
    | .input fields =>
      "input " ++ t.name ++ (if t.directives.any (·.name == "oneOf") then " @oneOf" else "") ++
        braces (described "  " (·.description?) inputText fields)

def directiveText (d : DirectiveDefinition) : String :=
  descriptionLines d.description? "" true ++ "directive @" ++ d.name ++
    argumentsText "" d.arguments ++ (if d.repeatable then " repeatable" else "") ++ " on " ++
    " | ".intercalate (d.locations.map (·.keyword))

/-- Every type with a usual root name is the root it is named for, and there are no other roots. -/
def hasUsualRoots (s : Schema) : Bool :=
  OperationKind.all.all fun k =>
    s.root? k == if s.typeNames.contains (usualRoot k) then some (usualRoot k) else none

/-- The definition of the schema itself, where it has to be shown: under a description that is not
empty, or for other than the usual roots. -/
def definitionText (s : Schema) : List String :=
  if s.roots.isEmpty then []
  else if s.description?.any (·.text ≠ "") || !hasUsualRoots s then
    let lines := OperationKind.all.filterMap fun k =>
      (s.root? k).map fun name => "  " ++ k.keyword ++ ": " ++ name ++ "\n"
    [descriptionLines s.description? "" true ++ "schema \x7b\n" ++ String.join lines ++ "\x7d"]
  else []

/-- The directives that are shown: all but those with standard names. -/
def shownDirectives (s : Schema) : List DirectiveDefinition :=
  s.directives.filter fun d => !standardDirectives.any (·.name == d.name)

def print (s : Schema) : String :=
  "\n\n".intercalate
    (definitionText s ++ s.shownDirectives.map directiveText ++ s.types.map typeText)

/-- The document that the text of a schema spells out. A schema that defines nothing has no text,
and so no document. -/
def document (s : Schema) : Except ReadFault Document := Document.read ⟨s.print, "GraphQL request"⟩

end Graphwright.Schema
