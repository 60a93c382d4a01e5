import Graphwright.Text.Lines

/-!
# Imports of a generated module

A `Registry` collects the imports that a generated text needs, one per symbol and module, in the
order in which they were first recorded. Recording one again changes nothing: the first alias and
kind win (`record_of_mem`). Merging keeps the first alias, but an import that any registry needs
when the module runs is needed when the merged one runs. `Registry.block` groups the imports into
statements.
-/
namespace Graphwright.Module

/-- Whether an import serves type checkers only or the running module. -/
inductive ImportKind where
  | typing
  | runtime
  deriving Repr, DecidableEq

/-- The symbol that stands for a module as a whole. -/
def wholeModule : String := "."

/-- An import of a symbol of a module under its own name or another one. -/
structure Import where
  symbol : String
  source : String
  kind : ImportKind := .runtime
  asName? : Option String := none
  deriving Repr, DecidableEq

namespace Import

/-- What identifies an import. -/
def key (i : Import) : String × String := (i.symbol, i.source)

/-- The other name of an import; an empty one does not count. -/
def rename? (i : Import) : Option String := i.asName?.filter (· ≠ "")

/-- The name under which the generated text refers to an import. -/
def localName (i : Import) : String :=
  match i.rename? with
  | some name => name
  | none => if i.symbol = wholeModule then i.source else i.symbol

end Import

/-! ## Statements -/

inductive Statement where
  /-- Names of a module, some under other names. -/
  | names (source : String) (items : List (String × Option String))
  /-- A module as a whole. -/
  | whole (source : String) (asName? : Option String)
  /-- A module by its place among the packages around the importing one. -/
  | member (package name : String) (asName? : Option String)
  deriving Repr, DecidableEq

namespace Statement

/-- Longest line before the names of a statement are put on lines of their own. -/
def maxLineLength : Nat := 79

/-- A name, and what it is called in the importing module. -/
def itemText : String × Option String → String
  | (name, some other) => name ++ " as " ++ other
  | (name, none) => name

def text : Statement → String
  | names source items =>
    let start := "from " ++ source ++ " import "
    let line := start ++ ", ".intercalate (items.map itemText)
    if maxLineLength < line.length then
      start ++ "(\n    " ++ ",\n    ".intercalate (items.map itemText) ++ ",\n)"
    else line
  | whole source asName? => "import " ++ itemText (source, asName?)
  | member package name asName? => "from " ++ package ++ " import " ++ itemText (name, asName?)

/-- The statement that imports a module as a whole. A relative module is imported from the package
that holds it, and under its own name if it is given no other. -/
def ofModule (source : String) (rename? : Option String) : Statement :=
  let dots := source.toList.takeWhile (· == '.')
  if dots.isEmpty then whole source rename?
  else
    let (package, name) := Text.splitLast '.' (source.toList.drop dots.length)
    let name := String.ofList name
    member (String.ofList (dots ++ package)) name (rename?.filter (· ≠ name))

end Statement

/-- The statements for imports of one module: whole imports one by one, then its symbols
together. -/
def statementsOf (source : String) (imports : List Import) : List Statement :=
  let whole := imports.filter (·.symbol = wholeModule)
  let symbols := imports.filter (·.symbol ≠ wholeModule)
  (whole.map fun i => .ofModule source i.rename?) ++
    (if symbols.isEmpty then []
     else [.names source (symbols.map fun i => (i.symbol, i.rename?.filter (· ≠ i.symbol)))])

/-- The import statements of a module: those that run, and those under the test for type
checkers. -/
structure ImportBlock where
  runtime : List Statement
  checking : List Statement
  deriving Repr, DecidableEq

/-- The texts of a block: one per running statement, and one for all that is checked only. -/
def ImportBlock.texts (b : ImportBlock) : List String :=
  b.runtime.map Statement.text ++
    (if b.checking.isEmpty then []
     else
      ["\n".intercalate ("if TYPE_CHECKING:" ::
        (b.checking.flatMap fun s => Text.lines s.text).map ("    " ++ ·))])

/-! ## The registry -/

/-- The name under which a module of types is imported. -/
def typesName : String := "Types"

/-- The imports recorded for one module. With `separateTyping`, modules that serve type checkers
only are not imported when the generated module runs. -/
structure Registry where
  separateTyping : Bool := false
  imports : List Import := []
  deriving Repr

namespace Registry

def get? (r : Registry) (symbol source : String) : Option Import :=
  r.imports.find? fun i => i.key = (symbol, source)

/-- The name by which the generated text refers to a symbol: the one it is imported under. -/
def nameOf (r : Registry) (symbol source : String) : String :=
  match r.get? symbol source with
  | some i => i.localName
  | none => symbol

/-- Records an import, unless its symbol and module are recorded already. -/
def insert (r : Registry) (i : Import) : Registry :=
  if r.imports.any (·.key = i.key) then r else { r with imports := r.imports ++ [i] }

/-- Records an import and answers the name to refer to it by. -/
def record (r : Registry) (i : Import) : String × Registry :=
  match r.get? i.symbol i.source with
  | some old => (old.localName, r)
  | none => (i.localName, r.insert i)

def recordModule (r : Registry) (source : String) (asName? : Option String)
    (kind : ImportKind := .runtime) : String × Registry :=
  r.record ⟨wholeModule, source, kind, asName?⟩

def recordAll (r : Registry) (pairs : List (String × String)) (kind : ImportKind := .runtime) :
    Registry :=
  pairs.foldl (fun r p => (r.record ⟨p.1, p.2, kind, none⟩).2) r

/-- The given registry, unless it holds nothing; then a fresh one. -/
def orFresh (given? : Option Registry) (separateTyping : Bool) : Registry :=
  match given?.filter (!·.imports.isEmpty) with
  | some r => r
  | none => { separateTyping }

/-- Adds an import of another registry: a known one keeps its alias, and is needed at run time as
soon as one of the two is. -/
def absorb (r : Registry) (i : Import) : Registry :=
  match r.get? i.symbol i.source with
  | none => r.insert i
  | some _ =>
    if i.kind = .runtime then
      { r with
        imports := r.imports.map fun old =>
          if old.key = i.key then { old with kind := .runtime } else old }
    else r

/-- Adds every import of another registry, in its order. -/
def merge (r other : Registry) : Registry := other.imports.foldl absorb r

/-- Records the module, if there is one, that some names come from, and answers how they are
qualified. -/
def qualify (r : Registry) (source? : Option String) (asName : String)
    (kind : ImportKind := .runtime) : String × Registry :=
  match source?.filter (· ≠ "") with
  | some source =>
    let (name, r) := r.recordModule source (some asName) kind
    (name ++ ".", r)
  | none => ("", r)

/-- The modules of some imports, each once, in order of first occurrence. -/
def sources : List Import → List String
  | [] => []
  | i :: rest => i.source :: (sources rest).filter (· ≠ i.source)

/-- The imports by module, in order of first occurrence. -/
def byModule (r : Registry) : List (String × List Import) :=
  (sources r.imports).map fun s => (s, r.imports.filter (·.source = s))

/-- The flag of type checkers, which a block of checked imports tests. -/
def checkingFlag : Import := ⟨"TYPE_CHECKING", "typing", .runtime, none⟩

/-- Puts the flag of type checkers among the imports of its module. -/
def addFlag : List (String × List Import) → List (String × List Import)
  | [] => [("typing", [checkingFlag])]
  | (source, imports) :: rest =>
    if source = "typing" then
      (source, if imports.any (·.key = checkingFlag.key) then imports
        else imports ++ [checkingFlag]) :: rest
    else (source, imports) :: addFlag rest

/-- The module whose imports change how the rest of a module is read; they come first. -/
def futureModule : String := "__future__"

def block (r : Registry) : ImportBlock :=
  let isChecking (g : String × List Import) := r.separateTyping && g.2.all (·.kind = .typing)
  let checking := r.byModule.filter isChecking
  let running := r.byModule.filter (!isChecking ·)
  let running := if checking.isEmpty then running else addFlag running
  let first := running.filter (·.1 = futureModule)
  let others := running.filter (·.1 ≠ futureModule)
  ⟨(first ++ others).flatMap fun g => statementsOf g.1 g.2,
    checking.flatMap fun g => statementsOf g.1 g.2⟩

def texts (r : Registry) : List String := r.block.texts

theorem record_of_mem {r : Registry} {i old : Import} (h : r.get? i.symbol i.source = some old) :
    r.record i = (old.localName, r) := by
  simp [record, h]

end Registry

end Graphwright.Module
