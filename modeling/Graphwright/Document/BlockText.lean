import Graphwright.Document.Source

/-!
# Block strings

A block string is written over several lines between triple quotes. Reading removes the indentation
that its lines have in common, apart from the first, and blank lines at both ends (`dedent`);
writing (`blockLiteral`) adds line ends where the text would otherwise run into the quotes or lose
blanks. `isBlockPrintable` tells the texts that survive this.
-/
namespace Graphwright.Document

/-- The blanks that count as indentation. -/
def isIndent (c : Char) : Bool := c == ' ' || c == '\t'

/-- Nothing but indentation. -/
def isBlankLine (line : List Char) : Bool := line.all isIndent

/-- The least indentation of the lines that are not blank. -/
def commonIndent (lines : List (List Char)) : Nat :=
  let indents := (lines.filter (!isBlankLine ·)).map fun l => (l.takeWhile isIndent).length
  indents.min?.getD 0

def trimBlankLines (lines : List (List Char)) : List (List Char) :=
  ((lines.dropWhile isBlankLine).reverse.dropWhile isBlankLine).reverse

/-- The text of a block string from its raw lines. -/
def dedent : List (List Char) → List Char
  | [] => []
  | first :: rest =>
    let n := commonIndent rest
    Text.joinWith ['\n'] (trimBlankLines (first :: rest.map (·.drop n)))

/-- A backslash before every run of three quotes. -/
def escapeTriple : List Char → List Char
  | '"' :: '"' :: '"' :: rest => '\\' :: '"' :: '"' :: '"' :: escapeTriple rest
  | c :: rest => c :: escapeTriple rest
  | [] => []

def tripleQuote : List Char := ['"', '"', '"']

/-- The block string of a text. It spans several lines if the text does, or is longer than 70
characters, or would run into the closing quotes. -/
def blockLiteral (s : String) : String :=
  let value := s.toList
  let escaped := escapeTriple value
  let lines := sourceLines escaped
  let single := lines.length == 1
  let startsBlank (l : List Char) : Bool := match l with
    | [] => true
    | c :: _ => isIndent c
  let forceLeading := !single && (lines.drop 1).all startsBlank
  let endsTriple := ('\\' :: tripleQuote).isSuffixOf escaped
  let endsQuote := value.getLast? == some '"' && !endsTriple
  let endsSlash := value.getLast? == some '\\'
  let forceTrailing := endsQuote || endsSlash
  let several := !single || 70 < value.length || forceTrailing || forceLeading || endsTriple
  let skipLeading := single && (value.head?.any isIndent)
  let before := if (several && !skipLeading) || forceLeading then ['\n'] else []
  let after := if several || forceTrailing then ['\n'] else []
  String.ofList (tripleQuote ++ before ++ escaped ++ after ++ tripleQuote)

/-- What reading the characters of a text has shown so far. -/
structure BlockScan where
  emptyLine : Bool := true
  indented : Bool := false
  allIndented : Bool := true
  several : Bool := false

/-- One character of a text that may be written as a block string; none when it may not. -/
def BlockScan.step (st : BlockScan) (c : Char) : Option BlockScan :=
  if c = '\n' then
    if st.emptyLine && !st.several then none
    else some { st with several := true, emptyLine := true, indented := false }
  else if isIndent c then some { st with indented := st.indented || st.emptyLine }
  else if c.toNat ≤ 0xf then none
  else some { st with allIndented := st.allIndented && st.indented, emptyLine := false }

/-- A text that reading a block string gives back: no blank line at either end, no control
characters among the first sixteen but tab and line feed, and no indentation that all of several
lines share. -/
def isBlockPrintable (s : String) : Bool :=
  s.isEmpty ||
    match s.toList.foldlM BlockScan.step {} with
    | none => false
    | some st => !st.emptyLine && !(st.allIndented && st.several)

end Graphwright.Document
