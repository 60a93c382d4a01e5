import Graphwright.Naming.Case
import Graphwright.Text.Identifier

/-!
# Identifiers of generated modules

Names of a schema become identifiers of the generated module: keywords take an underscore at the
end, characters that are no word characters become underscores, and class names keep clear of the
names that generated modules import.
-/
namespace Graphwright.Naming

def reservedWords : List String :=
  ["False", "None", "True", "and", "as", "assert", "async", "await", "break", "class", "continue",
    "def", "del", "elif", "else", "except", "finally", "for", "from", "global", "if", "import",
    "in", "is", "lambda", "nonlocal", "not", "or", "pass", "raise", "return", "try", "while",
    "with", "yield"]

/-- The reserved words, and the words that are reserved in some positions only. -/
def keywords : List String := reservedWords ++ ["type", "match", "case"]

/-- Names that generated modules import; no class may take them. -/
def importedNames : List String :=
  ["Any", "Enum", "Field", "List", "Literal", "Mapping", "NotRequired", "Optional", "Protocol",
    "TypedDict", "Union", "BaseModel", "ConfigDict", "Generic", "TypeVar", "GraphQLResolveInfo",
    "GraphQLAbstractType"]

/-- A keyword with an underscore at its end; any other name as it is. -/
def safeIdentifier (name : String) : String :=
  if name ∈ keywords then name ++ "_" else name

/-- An identifier that is no keyword. -/
def isSafeIdentifier (name : String) : Bool :=
  Text.isIdentifier name.toList && name ∉ keywords

/-- Word characters only, and no digit at the front. -/
def wordChars (cs : List Char) : List Char :=
  let cleaned := cs.map fun c => if Text.isWord c then c else '_'
  match cleaned with
  | c :: _ => if Text.isDigit c then '_' :: cleaned else cleaned
  | [] => []

/-- The class that stands for a named type. -/
def className (name : String) : String :=
  let cleaned := Text.onChars wordChars name
  if cleaned ∈ importedNames then cleaned ++ "_" else safeIdentifier cleaned

/-- The result type of an operation; with `dedupe` a name that already ends in the kind of operation
stays as it is. -/
def operationTypeName (name operation : String) (dedupe : Bool) : String :=
  let base := pascalCase name
  let kind := pascalCase operation
  if dedupe && kind.toList.isSuffixOf base.toList then base else base ++ kind

def fragmentTypeName (name : String) : String := pascalCase name ++ "Fragment"

def documentConstant (name : String) : String := upperCase name ++ "_DOCUMENT"

end Graphwright.Naming
