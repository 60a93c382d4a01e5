import Graphwright.Error
import Graphwright.Files.Glob

/-!
# Loading

Schemas, documents and options from files. A schema is one file, or all schema files below a
directory in the order of their paths; documents are found by patterns, each file once.
-/
namespace Graphwright.Files

def schemaEndings : List String := [".graphql", ".graphqls", ".gql"]

/-- Texts in the order of their characters. -/
def sorted (paths : List String) : List String := paths.mergeSort fun a b => a ≤ b

def schemaFiles (fs : Files) (path : String) : List String :=
  match fs.find path with
  | .error _ => []
  | .ok ⟨.file _, _⟩ => [path]
  | .ok ⟨t, _⟩ =>
    sorted (((t.filesUnder path.toList).map (·.1)).filter fun p =>
      schemaEndings.any fun ending => p.endsWith ending)

/-- The text of a file that has to be readable. -/
def text (fs : Files) (path : String) : Except Error String :=
  match fs.read path with
  | .ok t => .ok t
  | .error fault => .error (.file path fault)

structure Loaded where
  path : String
  text : String
  document : Document

def loadDocument (fs : Files) (path : String) : Except Error Loaded := do
  let text ← fs.text path
  match Document.read ⟨text, path⟩ with
  | .ok document => return { path, text, document }
  | .error e => throw (.document e)

/-- The schema that a file or all schema files of a directory make up. -/
def loadSchema (fs : Files) (path : String) : Except Error Schema := do
  let files := fs.schemaFiles path
  if files.isEmpty then throw (.noSchema path)
  let loaded ← files.mapM fs.loadDocument
  match Schema.build (Document.concat (loaded.map (·.document))) with
  | .ok s => return s
  | .error e => throw (.schema path e)

/-- The paths that patterns find, each once; a pattern that finds nothing is a path itself. -/
def documentPaths (fs : Files) (patterns : List String) : List String :=
  (patterns.flatMap fun p =>
    let found := sorted (fs.glob p)
    if found.isEmpty then [p] else found).eraseDups

def loadDocuments (fs : Files) (patterns : List String) : Except Error (List Loaded) :=
  (fs.documentPaths patterns).mapM fs.loadDocument

def loadOptions (fs : Files) (path : String) : Except Error Options := do
  let path := Path.normal path
  let text ← match fs.read path with
    | .ok t => pure t
    | .error fault => throw (.optionsFile path fault)
  let value ← match Json.read text with
    | .ok v => pure v
    | .error .malformed => throw (.optionsText path)
    | .error .integerTooLong => throw .longInteger
    | .error (.halfPair keys) => throw (.options (.faults [⟨keys, .notAString⟩]))
  match Options.decode value with
  | .ok o => return o
  | .error e => throw (.options e)

end Graphwright.Files
