import Graphwright.Text.Lines

/-!
# Scalars

The table of scalars says which type of the generated module stands for a scalar of a schema, and
which module that type is imported from. Entries may be given as text: `pkg.mod.Name`,
`pkg.mod:Name`, or the bare name of a built-in type.
-/
namespace Graphwright.Types

/-- A type of the generated module, and the module it comes from unless it is built in. -/
structure Target where
  name : String
  source? : Option String := none
  deriving Repr, DecidableEq

/-- Reads a target. A colon separates module and name; without one the last dot does, unless nothing
stands before it. -/
def Target.parse (text : String) : Target :=
  let cs := Text.trim text.toList
  if cs.contains ':' then
    ⟨String.ofList ((cs.dropWhile (· != ':')).drop 1),
      some (String.ofList (cs.takeWhile (· != ':')))⟩
  else
    let (source, name) := Text.splitLast '.' cs
    ⟨String.ofList name, if source.isEmpty then none else some (String.ofList source)⟩

/-- What the scalars of a schema stand for; of two entries with one name the first counts. -/
structure ScalarTable where
  entries : List (String × Target)
  deriving Repr

namespace ScalarTable

def standard : List (String × Target) :=
  [("ID", ⟨"str", none⟩), ("String", ⟨"str", none⟩), ("Boolean", ⟨"bool", none⟩),
    ("Int", ⟨"int", none⟩), ("Float", ⟨"float", none⟩)]

/-- Scalars that many schemas define. -/
def common : List (String × Target) :=
  [("DateTime", ⟨"datetime", some "datetime"⟩), ("Date", ⟨"date", some "datetime"⟩),
    ("UUID", ⟨"UUID", some "uuid"⟩), ("JSON", ⟨"Any", some "typing"⟩),
    ("JSONObject", ⟨"Any", some "typing"⟩)]

/-- The table before any entries are added. -/
def initial : ScalarTable := ⟨standard ++ common⟩

def register (t : ScalarTable) (name : String) (target : Target) : ScalarTable :=
  ⟨(name, target) :: t.entries⟩

def get? (t : ScalarTable) (name : String) : Option Target := t.entries.lookup name

/-- The initial table with further entries, the last of one name counting. -/
def ofEntries (entries : List (String × Target)) : ScalarTable :=
  entries.foldl (fun t e => t.register e.1 e.2) initial

/-- The initial table with entries given as text. -/
def ofTexts (entries : List (String × String)) : ScalarTable :=
  ofEntries (entries.map fun e => (e.1, .parse e.2))

/-- A registered entry is found under its name, and no other name is affected. -/
theorem get?_register (t : ScalarTable) (name other : String) (target : Target) :
    (t.register name target).get? other = if other = name then some target else t.get? other := by
  unfold get? register
  by_cases h : other = name
  · simp [h]
  · have : (other == name) = false := by simpa using h
    simp [List.lookup_cons, this, h]

end ScalarTable

end Graphwright.Types
