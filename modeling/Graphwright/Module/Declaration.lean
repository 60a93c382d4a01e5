import Graphwright.Module.Docstring
import Graphwright.Module.Import
import Graphwright.Types.Mapper

/-!
# Declarations of a generated module

Models, enums, unions and the variables of operations, apart from their text. Every imported name in
the text of a declaration, type expressions aside, is the one that the registry of the module binds,
so the text is given relative to a registry. A model may have models of its own members, which are
declared before it (`Model.names`, `Model.blocks`).
-/
namespace Graphwright.Module

open Graphwright.Types (Resolved Symbol)

def indentation : String := "    "

/-! ## Imported symbols -/

def modelSymbol : Symbol := ("BaseModel", "pydantic")

/-- The description of a field that has another name outside. -/
def fieldSymbol : Symbol := ("Field", "pydantic")

def settingsSymbol : Symbol := ("ConfigDict", "pydantic")

def literalSymbol : Symbol := ("Literal", "typing")

/-- The mark for entries that may be missing. -/
def missingSymbol : Symbol := ("NotRequired", "typing")

def mappingSymbol : Symbol := ("TypedDict", "typing")

def enumSymbol : Symbol := ("Enum", "enum")

def unionSymbol : Symbol := ("Union", "typing")

/-- The switch by which annotations are not evaluated. -/
def annotationsSymbol : Symbol := ("annotations", Registry.futureModule)

/-- The name that a registry binds for a symbol. -/
def Registry.local (r : Registry) (s : Symbol) : String := r.nameOf s.1 s.2

/-! ## Fields -/

/-- What a field holds. -/
inductive Annotation where
  | type (t : Resolved)
  /-- A type whose field is absent from some responses. -/
  | sometimes (t : Resolved)
  /-- One given text. -/
  | literal (value : String)
  deriving Repr

def Annotation.needs : Annotation → List Symbol
  | type t => t.imports
  | sometimes t => t.imports ++ [Types.optionalSymbol]
  | literal _ => [literalSymbol]

def Annotation.text (r : Registry) : Annotation → String
  | type t => t.text
  | sometimes t => r.local Types.optionalSymbol ++ "[" ++ t.text ++ "]"
  | literal value => r.local literalSymbol ++ "[\"" ++ value ++ "\"]"

structure Attribute where
  /-- The name outside the module. -/
  key : String
  /-- The name in the module. -/
  name : String
  annotation : Annotation
  default? : Option String := none
  description? : Option String := none
  deriving Repr

namespace Attribute

/-- The two names differ. -/
def isRenamed (a : Attribute) : Bool := a.name != a.key

def needs (a : Attribute) : List Symbol :=
  a.annotation.needs ++ if a.isRenamed then [fieldSymbol] else []

def text (r : Registry) (a : Attribute) : String :=
  let typed := a.name ++ ": " ++ a.annotation.text r
  if a.isRenamed then
    let default := match a.default? with
      | some value => "default=" ++ value ++ ", "
      | none => ""
    typed ++ " = " ++ r.local fieldSymbol ++ "(" ++ default ++ "alias=\"" ++ a.key ++ "\")"
  else
    match a.default? with
    | some value => typed ++ " = " ++ value
    | none => typed

end Attribute

/-! ## Classes -/

/-- The lines that document a declaration; none for a description that cannot be shown. -/
def docLines (description? : Option String) (indent : String) : List String :=
  (docstring? description? indent).getD []

/-- Sections a blank line apart. -/
def spaced (sections : List (List String)) : List String :=
  ([""] : List String).intercalate (sections.filter (!·.isEmpty))

/-- A class with the sections of its body; without any it is empty. -/
def classText (opening : String) (sections : List (List String)) : String :=
  let body := spaced sections
  "\n".intercalate (opening :: if body.isEmpty then [indentation ++ "pass"] else body)

mutual

inductive Model where
  | mk (name : String) (description? : Option String) (members : List Member)

/-- A member of a model: a field, and the model that is declared for it alone, if there is one. -/
inductive Member where
  | leaf (a : Attribute)
  | node (a : Attribute) (below : Model)

end

namespace Member

def field : Member → Attribute
  | leaf a => a
  | node a _ => a

end Member

namespace Model

def name : Model → String
  | mk name _ _ => name

def members : Model → List Member
  | mk _ _ members => members

def attributes (m : Model) : List Attribute := m.members.map (·.field)

/-- Some field has another name outside. -/
def hasRenamed (as : List Attribute) : Bool := as.any (·.isRenamed)

/-- The class of a model, without those of its members. -/
def text (r : Registry) : Model → String
  | mk name description? members =>
    let as := members.map (·.field)
    classText ("class " ++ name ++ "(" ++ r.local modelSymbol ++ "):")
      [docLines description? indentation,
        if hasRenamed as then
          [indentation ++ "model_config = " ++ r.local settingsSymbol ++ "(populate_by_name=True)"]
        else [],
        as.flatMap fun a => (indentation ++ a.text r) :: docLines a.description? indentation]

mutual

/-- A model after the models of its members. -/
def all : Model → List Model
  | mk name description? members => allBelow members ++ [mk name description? members]

def allOf : Member → List Model
  | .leaf _ => []
  | .node _ below => all below

/-- The models of members, in order. -/
def allBelow : List Member → List Model
  | [] => []
  | m :: rest => allOf m ++ allBelow rest

end

mutual

/-- The symbols that a model and those of its members need, in order of use. -/
def needs : Model → List Symbol
  | mk _ _ members =>
    modelSymbol :: needsBelow members ++
      if hasRenamed (members.map (·.field)) then [settingsSymbol] else []

/-- The symbols that a member needs, those of its model first. -/
def needsOf : Member → List Symbol
  | .leaf a => a.needs
  | .node a below => needs below ++ a.needs

def needsBelow : List Member → List Symbol
  | [] => []
  | m :: rest => needsOf m ++ needsBelow rest

end

def names (m : Model) : List String := m.all.map (·.name)

end Model

/-! ## Other declarations -/

/-- A value of an enum. -/
structure Choice where
  key : String
  name : String
  description? : Option String := none
  deriving Repr

/-- A variable of an operation. -/
structure Entry where
  key : String
  type : Resolved
  /-- It may be left out. -/
  optional : Bool
  deriving Repr

def Entry.needs (e : Entry) : List Symbol :=
  e.type.imports ++ if e.optional then [missingSymbol] else []

def Entry.text (r : Registry) (e : Entry) : String :=
  if e.optional then r.local missingSymbol ++ "[" ++ e.type.text ++ "]" else e.type.text

/-- The mapping of an operation's variables. -/
structure Variables where
  name : String
  entries : List Entry
  deriving Repr

namespace Variables

def needs (v : Variables) : List Symbol := mappingSymbol :: v.entries.flatMap Entry.needs

/-- A class, or a call where some key cannot be the name of an attribute. -/
def text (r : Registry) (v : Variables) : String :=
  let base := r.local mappingSymbol
  if v.entries.all fun e => Naming.isSafeIdentifier e.key then
    classText ("class " ++ v.name ++ "(" ++ base ++ "):")
      [v.entries.map fun e => indentation ++ e.key ++ ": " ++ e.text r]
  else
    "\n".intercalate <|
      (v.name ++ " = " ++ base ++ "(\"" ++ v.name ++ "\", \x7b") ::
      (v.entries.map fun e => indentation ++ "\"" ++ e.key ++ "\": " ++ e.text r ++ ",") ++
      ["\x7d)"]

end Variables

inductive Declaration where
  | model (m : Model)
  | enum (name : String) (description? : Option String) (choices : List Choice)
  | union (name : String) (description? : Option String) (members : List String)
  | mapping (v : Variables)

namespace Declaration

def names : Declaration → List String
  | model m => m.names
  | enum name _ _ => [name]
  | union name _ _ => [name]
  | mapping v => [v.name]

def modelNames : Declaration → List String
  | model m => m.names
  | _ => []

/-- A line of a comment, without blanks at its end. -/
def commentLine (line : List Char) : String :=
  String.ofList (('#' :: ' ' :: line).reverse.dropWhile Text.isBlank).reverse

/-- The texts of a declaration: one per class, those of members first. -/
def blocks (r : Registry) : Declaration → List String
  | model m => m.all.map (·.text r)
  | enum name description? choices =>
    [classText ("class " ++ name ++ "(str, " ++ r.local enumSymbol ++ "):")
      [docLines description? indentation,
        choices.flatMap fun c =>
          (indentation ++ c.name ++ " = \"" ++ c.key ++ "\"") ::
            docLines c.description? indentation]]
  | union name description? members =>
    let comment := (Text.splitLines (description?.getD "").toList).map commentLine
    let listed := ", ".intercalate (members.map fun m => "\"" ++ m ++ "\"")
    ["\n".intercalate
      (comment ++ [name ++ " = " ++ r.local unionSymbol ++ "[" ++ listed ++ "]"])]
  | mapping v => [v.text r]

end Declaration

/-- The block that resolves references between models, one line per model. -/
def rebuildBlock (models : List String) : String :=
  "\n".intercalate (models.map (· ++ ".model_rebuild()"))

end Graphwright.Module
