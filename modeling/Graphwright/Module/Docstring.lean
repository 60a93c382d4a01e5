import Graphwright.Text.Lines

/-!
# Documentation texts

Descriptions become triple-quoted texts of the generated module. `escape` protects backslashes and
runs of three quotes, and a quote at the very end by a space. A description of several lines closes
its quotes on a line of their own; one of blanks only has no line to open with (`docstring?` is
`none`).
-/
namespace Graphwright.Module

/-- Doubles backslashes and puts a backslash before each quote of a run of three. -/
def escapeQuotes : List Char → List Char
  | '"' :: '"' :: '"' :: rest => '\\' :: '"' :: '\\' :: '"' :: '\\' :: '"' :: escapeQuotes rest
  | '\\' :: rest => '\\' :: '\\' :: escapeQuotes rest
  | c :: rest => c :: escapeQuotes rest
  | [] => []

/-- The content of a triple-quoted text: escaped, with a space behind a final quote. -/
def escapeChars (cs : List Char) : List Char :=
  let text := escapeQuotes cs
  if text.getLast? = some '"' then text ++ [' '] else text

def escape (s : String) : String := Text.onChars escapeChars s

/-- A triple-quoted text on lines of its own. -/
def tripleQuoted (s : String) : String := "\"\"\"\n" ++ escape s ++ "\n\"\"\""

/-- The lines that document a declaration. An absent or empty description has none; a description of
blanks only fails. -/
def docstring? (text : Option String) (indent : String) : Option (List String) :=
  match text with
  | none => some []
  | some s =>
    if s.isEmpty then some []
    else
      match Text.splitLines (escapeChars (Text.trim s.toList)) with
      | [] => none
      | [line] => some [indent ++ "\"\"\"" ++ String.ofList line ++ "\"\"\""]
      | line :: more =>
        some ((indent ++ "\"\"\"" ++ String.ofList line) ::
          (more.map fun l => if l.isEmpty then "" else indent ++ String.ofList l) ++
          [indent ++ "\"\"\""])

/-- The text at the top of a generated module, with the package it belongs to. -/
def moduleDocstring (title : String) (package : Option String) : String :=
  "\n".intercalate <|
    ["\"\"\"" ++ title, ""] ++
    (match package with
      | some p => if p.isEmpty then [] else ["Package: " ++ p, ""]
      | none => []) ++
    ["This file is generated. Do not edit it by hand.", "\"\"\""]

end Graphwright.Module
