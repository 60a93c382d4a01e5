import Graphwright.Text.Lines

/-!
# Sources and syntax errors

A source is a named text. A syntax error points at a character of it; `SyntaxError.report` shows the
line with its neighbours and a mark under the place.
-/
namespace Graphwright.Document

/-- A text and the name it goes by. -/
structure Source where
  body : String
  name : String := "GraphQL request"
  deriving Repr

/-- Why a text is no document, and where: the number of characters before the place. -/
structure SyntaxError where
  source : Source
  position : Nat
  reason : String
  deriving Repr

/-- The lines of a source: they end at line feeds, carriage returns, or both together. -/
def sourceLinesFrom (acc : List Char) : List Char → List (List Char)
  | [] => [acc.reverse]
  | '\r' :: '\n' :: rest => acc.reverse :: sourceLinesFrom [] rest
  | c :: rest =>
    if c = '\r' || c = '\n' then acc.reverse :: sourceLinesFrom [] rest
    else sourceLinesFrom (c :: acc) rest

/-- The lines of a source; the text after the last line end is a line too. -/
def sourceLines (cs : List Char) : List (List Char) := sourceLinesFrom [] cs

/-- The line and column reached after `count` characters, from a line and column on. -/
def locate (line column : Nat) : (count : Nat) → List Char → Nat × Nat
  | 0, _ => (line, column)
  | _, [] => (line, column)
  | 1, '\r' :: '\n' :: _ => (line + 1, 0)
  | count + 2, '\r' :: '\n' :: rest => locate (line + 1) 1 count rest
  | count + 1, c :: rest =>
    if c = '\r' || c = '\n' then locate (line + 1) 1 count rest
    else locate line (column + 1) count rest

namespace SyntaxError

/-- The line and column of the place, from one on. -/
def location (e : SyntaxError) : Nat × Nat := locate 1 1 e.position e.source.body.toList

def message (e : SyntaxError) : String := "Syntax Error: " ++ e.reason

/-- Pieces of `width` characters. -/
def chunks (width : Nat) : (fuel : Nat) → List Char → List (List Char)
  | 0, _ => []
  | _, [] => []
  | fuel + 1, cs => cs.take width :: chunks width fuel (cs.drop width)

/-- Lines behind right-aligned marks; a mark without a line is left out. -/
def margin (rows : List (String × Option (List Char))) : String :=
  let shown := rows.filterMap fun r => r.2.map (r.1, ·)
  let width := shown.foldl (fun w r => max w r.1.length) 0
  "\n".intercalate (shown.map fun r =>
    Text.padLeft width r.1 ++ (if r.2.isEmpty then "" else " " ++ String.ofList r.2))

/-- The place with its line, the lines around it and a mark below; a line of more than 120
characters is shown in pieces of 80 up to the one after the place. -/
def excerpt (e : SyntaxError) : String :=
  let (line, column) := e.location
  let lines := sourceLines e.source.body.toList
  let here := (lines[line - 1]?).getD []
  let number (n : Nat) := String.ofList (Nat.toDigits 10 n)
  let mark := (Text.padLeft column "^").toList
  let head := e.source.name ++ ":" ++ number line ++ ":" ++ number column ++ "\n"
  if 120 < here.length then
    let pieces := chunks 80 here.length here
    let index := column / 80
    let mark := (Text.padLeft (column % 80) "^").toList
    head ++ margin
      ([(number line ++ " |", pieces[0]?)] ++
        ((pieces.drop 1).take index).map (fun p => ("|", some p)) ++
        [("|", some mark), ("|", pieces[index + 1]?)])
  else
    head ++ margin
      [(number (line - 1) ++ " |", if line ≤ 1 then none else lines[line - 2]?),
        (number line ++ " |", some here), ("|", some mark),
        (number (line + 1) ++ " |", lines[line]?)]

/-- The error with the place it points at. -/
def report (e : SyntaxError) : String := e.message ++ "\n\n" ++ e.excerpt

end SyntaxError

end Graphwright.Document
