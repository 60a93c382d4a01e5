import Graphwright.Document.Reader
import Graphwright.Schema.Build
import Graphwright.Naming.Package
import Graphwright.Options
import Graphwright.Files.Tree
import Graphwright.Warning

/-!
# Failures of a generation run

Every way in which a run may fail, and the actions that may fail. What was warned of before a
failure is kept.
-/
namespace Graphwright

inductive Error where
  /-- A source is no document. -/
  | document (fault : Document.ReadFault)
  /-- A document is no schema. -/
  | schema (location : String) (fault : Schema.BuildFault)
  /-- No schema file under a path. -/
  | noSchema (path : String)
  /-- A file cannot be read or written. -/
  | file (path : String) (fault : FileFault)
  /-- The file of options cannot be read. -/
  | optionsFile (path : String) (fault : FileFault)
  /-- The file of options is no JSON text. -/
  | optionsText (path : String)
  /-- The options cannot be decoded. -/
  | options (fault : Options.DecodeFault)
  /-- No package or module name can be derived. -/
  | package (fault : Naming.PackageFault)
  /-- A description consists of blanks. -/
  | blankDescription
  /-- A whole number is too long to be converted. -/
  | longInteger
  /-- A selected field is not defined; the type is absent where none is known. -/
  | unknownField (field : String) (type? : Option String)
  /-- A fragment that is spread is not defined. -/
  | unknownFragment (name : String)
  /-- A fragment reaches itself through spreads. -/
  | fragmentCycle (name : String)
  /-- The type that a fragment is for does not exist. -/
  | unknownFragmentType (type fragment : String)
  /-- Documents are external but no module is given for them. -/
  | noDocumentsModule
  | noPlugins
  | unknownPlugins (names known : List String)
  /-- The generated module does not follow the grammar of modules. -/
  | invalidModule (path : String)
  deriving Repr

namespace Error

/-- The text of a failure; some failures have none. -/
def message : Error → String
  | document (.grammar e) => e.message
  | document .truncated => ""
  | schema location (.problems found) =>
    "Invalid schema " ++ location ++ ": " ++ "\n\n".intercalate (found.map (·.message))
  | schema _ .directiveValue => ""
  | noSchema path => "No GraphQL schema files found in " ++ path
  | file path fault => fault.message path
  | optionsFile path fault => "Error loading config file " ++ path ++ ": " ++ fault.message path
  | optionsText path => "Error loading config file " ++ path
  | options .noObject => "Configuration must be a mapping of options"
  | options (.faults found) =>
    "Invalid configuration: " ++ ", ".intercalate (found.map fun f => ".".intercalate f.path)
  | package fault => fault.message
  | blankDescription => ""
  | longInteger => ""
  | unknownField field type? =>
    "Cannot query field \"" ++ field ++ "\" on type \"" ++ type?.getD "?" ++ "\""
  | unknownFragment name => "Unknown fragment \"" ++ name ++ "\""
  | fragmentCycle name => "Fragment \"" ++ name ++ "\" spreads itself"
  | unknownFragmentType type fragment =>
    "Unknown type \"" ++ type ++ "\" in fragment \"" ++ fragment ++ "\""
  | noDocumentsModule =>
    "documentMode 'external' requires importDocumentsFrom to name the module holding the documents"
  | noPlugins => "At least one plugin is required"
  | unknownPlugins names known =>
    "Unknown plugins: " ++ ", ".intercalate names ++ " (available: " ++
      ", ".intercalate known ++ ")"
  | invalidModule path => "Generated invalid Python for " ++ path

end Error

/-- An action that may warn and may fail. -/
abbrev Run := EStateM Error (List Warning)

namespace Run

def warn (w : Warning) : Run PUnit := modify (· ++ [w])

/-- Turns a failure of some part into a failure of the run. -/
def lift {ε α : Type} (cause : ε → Error) : Except ε α → Run α
  | .ok a => pure a
  | .error e => throw (cause e)

end Run

end Graphwright
