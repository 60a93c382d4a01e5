import Graphwright.Grammar.Literal
import Graphwright.Json.Reader
import Graphwright.Text.Identifier
import Graphwright.Text.Lines

/-!
# Tokens of generated modules

The text of a module as tokens. Line ends and indentation count outside of brackets: deeper lines
are between an `indent` and a `dedent`. Numbers and string literals are checked here, so that the
grammar need not look into them; formatted literals keep the expressions they hold.
-/
namespace Graphwright.Grammar

inductive Token where
  /-- A name or a reserved word. -/
  | word (text : String)
  | number (imaginary : Bool)
  /-- A string literal, and the expressions inside it. -/
  | text (bytes : Bool) (fields : List (List Char))
  | mark (text : String)
  | newline
  | indent
  | dedent
  deriving Repr, DecidableEq

/-! ## Numbers -/

def startsWith (p : Char → Bool) (cs : List Char) : Bool := (cs.head?.map p).getD false

/-- The rest behind digits with single underscores between them. -/
def afterDigits? (isDigit : Char → Bool) : List Char → Option (List Char)
  | c :: '_' :: rest => if isDigit c then afterDigits? isDigit rest else none
  | c :: rest =>
    if isDigit c then if startsWith isDigit rest then afterDigits? isDigit rest else some rest
    else none
  | [] => none

def isWordChar (c : Char) : Bool := c.isAlphanum || c = '_' || 128 ≤ c.toNat

/-- Some words may directly follow a number; no other name may. -/
def mayFollowNumber (cs : List Char) : Bool :=
  match cs with
  | [] => true
  | c :: _ =>
    !isWordChar c ||
      ["and", "else", "for", "if", "in", "is", "or", "not"].any fun w => w.toList.isPrefixOf cs

def numberEnd? (imaginary : Bool) (cs : List Char) : Option (Bool × List Char) :=
  if mayFollowNumber cs then some (imaginary, cs) else none

/-- The letter of imaginary numbers, if it is there, and the end of the number. -/
def imaginaryEnd? (cs : List Char) : Option (Bool × List Char) :=
  match cs with
  | c :: rest => if c = 'j' || c = 'J' then numberEnd? true rest else numberEnd? false cs
  | [] => some (false, [])

/-- An exponent, if there is one, and the end of the number. -/
def exponentEnd? (cs : List Char) : Option (Bool × List Char) :=
  match cs with
  | c :: rest =>
    if c = 'e' || c = 'E' then
      match rest with
      | s :: more =>
        if s = '+' || s = '-' then (afterDigits? Char.isDigit more).bind imaginaryEnd?
        else if s.isDigit then (afterDigits? Char.isDigit rest).bind imaginaryEnd?
        else numberEnd? false cs
      | [] => numberEnd? false cs
    else imaginaryEnd? cs
  | [] => some (false, [])

/-- The digits behind a point, if there are any, and the end of the number. -/
def fractionEnd? (cs : List Char) : Option (Bool × List Char) :=
  match cs with
  | c :: _ => if c.isDigit then (afterDigits? Char.isDigit cs).bind exponentEnd?
      else exponentEnd? cs
  | [] => some (false, [])

/-- The digits of a number in another base, after its letter. -/
def basedEnd? (isDigit : Char → Bool) (cs : List Char) : Option (Bool × List Char) :=
  let digits := match cs with
    | '_' :: rest => rest
    | _ => cs
  match afterDigits? isDigit digits with
  | some rest =>
    if startsWith Char.isDigit rest then none else numberEnd? false rest
  | none => none

/-- Decimal digits, and what is behind them. A whole number other than zero has no leading zero and
at most so many digits as can be converted. -/
def decimalEnd? (cs : List Char) : Option (Bool × List Char) :=
  match afterDigits? Char.isDigit cs with
  | none => none
  | some rest =>
    let digits := (cs.take (cs.length - rest.length)).filter (· != '_')
    match rest with
    | '.' :: more => fractionEnd? more
    | c :: more =>
      if c = 'j' || c = 'J' then numberEnd? true more
      else
        let isPower := (c = 'e' || c = 'E') &&
          match more with
          | s :: _ => s = '+' || s = '-' || s.isDigit
          | [] => false
        if isPower then exponentEnd? rest
        else if digits.head? = some '0' && digits.any (· != '0') then none
        else if Json.maxIntegerDigits < digits.length then none
        else numberEnd? false rest
    | [] => some (false, [])

/-- A number at the beginning of a text that begins with a digit: whether it is imaginary, and what
follows it. -/
def numberRest? (cs : List Char) : Option (Bool × List Char) :=
  match cs with
  | '0' :: c :: rest =>
    if c = 'x' || c = 'X' then basedEnd? (fun d => (Text.hexDigit? d).isSome) rest
    else if c = 'o' || c = 'O' then basedEnd? isOctal rest
    else if c = 'b' || c = 'B' then basedEnd? (fun d => d = '0' || d = '1') rest
    else decimalEnd? cs
  | _ => decimalEnd? cs

/-! ## String literals -/

/-- What the letters before the quotes of a literal say. -/
structure LiteralKind where
  raw : Bool
  bytes : Bool
  formatted : Bool

def literalKind? (letters : List Char) : Option LiteralKind :=
  let lower := String.ofList (letters.map Char.toLower)
  if lower = "" || lower = "u" then some ⟨false, false, false⟩
  else if lower = "r" then some ⟨true, false, false⟩
  else if lower = "b" then some ⟨false, true, false⟩
  else if lower = "br" || lower = "rb" then some ⟨true, true, false⟩
  else if lower = "f" then some ⟨false, false, true⟩
  else if lower = "fr" || lower = "rf" then some ⟨true, false, true⟩
  else none

def literalToken? (kind : LiteralKind) (body : List Char) : Option Token :=
  if kind.bytes then if isBytesBody kind.raw body then some (.text true []) else none
  else if kind.formatted then (formattedFields? kind.raw body).map (.text false)
  else if kind.raw || (literalValue? body).isSome then some (.text false [])
  else none

/-- A string literal after its first quote, and what follows it. -/
def literal? (kind : LiteralKind) (quote : Char) (cs : List Char) : Option (Token × List Char) :=
  let read := match cs with
    | a :: b :: rest =>
      if a = quote then
        if b = quote then literalBody quote true [] rest else some ([], b :: rest)
      else literalBody quote false [] cs
    | [a] => if a = quote then some ([], []) else none
    | [] => none
  match read with
  | some (body, rest) => (literalToken? kind body).map (·, rest)
  | none => none

/-! ## Marks -/

/-- The marks of several characters, longer ones first. -/
def longMarks : List String :=
  ["**=", "//=", "<<=", ">>=", "...", "!=", "%=", "&=", "**", "*=", "+=", "-=", "->", "//",
    "/=", ":=", "<<", "<=", "==", ">=", ">>", "@=", "^=", "|="]

/-- The marks of one character. -/
def shortMarks : List Char :=
  ['(', ')', '[', ']', '\x7b', '\x7d', ':', ',', ';', '+', '-', '*', '/', '|', '&', '<', '>',
    '=', '.', '%', '~', '^', '@']

def mark? (cs : List Char) : Option (String × List Char) :=
  match longMarks.find? fun m => m.toList.isPrefixOf cs with
  | some m => some (m, cs.drop m.length)
  | none =>
    match cs with
    | c :: rest => if shortMarks.contains c then some (c.toString, rest) else none
    | [] => none

/-! ## Lines and indentation -/

def maxIndents : Nat := 100

/-- The width of an indentation in columns, with tabs to every eighth column and to every column. -/
structure Indent where
  wide : Nat := 0
  narrow : Nat := 0
  deriving Repr, DecidableEq

/-- Measures the indentation of a line and answers the rest. The first line of continued blank lines
decides. -/
def indentOf (first? : Option Indent) (i : Indent) : List Char → Option (Indent × List Char)
  | ' ' :: rest => indentOf first? ⟨i.wide + 1, i.narrow + 1⟩ rest
  | '\t' :: rest => indentOf first? ⟨(i.wide / 8 + 1) * 8, i.narrow + 1⟩ rest
  | '\x0c' :: rest => indentOf first? {} rest
  | '\\' :: '\n' :: rest =>
    if rest.isEmpty then none
    else indentOf (some (first?.getD i)) i rest
  | '\\' :: _ => none
  | cs =>
    match first? with
    | some f => some (if f.wide = 0 then i else f, cs)
    | none => some (i, cs)

/-- The dedents that lead from the open blocks to a smaller indentation. -/
def closeBlocks (i : Indent) : List Indent → Option (List Token × List Indent)
  | [] => if i = {} then some ([], []) else none
  | b :: outer =>
    if i.wide < b.wide then
      match closeBlocks i outer with
      | some (found, blocks) => some (Token.dedent :: found, blocks)
      | none => none
    else if i = b then some ([], b :: outer) else none

/-- The tokens that a line's indentation gives, and the blocks open after it. -/
def openBlocks (i : Indent) (blocks : List Indent) : Option (List Token × List Indent) :=
  let current := (blocks.head?).getD {}
  if current.wide < i.wide then
    if maxIndents ≤ blocks.length + 1 || i.narrow ≤ current.narrow then none
    else some ([.indent], i :: blocks)
  else closeBlocks i blocks

/-! ## The whole text -/

structure Scan where
  /-- The indented blocks around this place, innermost first. -/
  blocks : List Indent := []
  /-- The brackets that have to be closed, innermost first. -/
  expected : List Char := []
  /-- At the beginning of a line. -/
  fresh : Bool := true
  /-- The tokens so far, reversed. -/
  tokens : List Token := []

namespace Scan

/-- The same scan inside a line, with one more token. -/
def push (s : Scan) (t : Token) : Scan := { s with fresh := false, tokens := t :: s.tokens }

/-- The same scan after a mark; brackets have to match. -/
def pushMark? (s : Scan) (m : String) : Option Scan :=
  if m = "(" || m = "[" || m = "\x7b" then
    if maxBrackets ≤ s.expected.length then none
    else some { s.push (.mark m) with expected := closing (m.toList.headD '(') :: s.expected }
  else if m = ")" || m = "]" || m = "\x7d" then
    match s.expected with
    | c :: outer => if m = c.toString then some { s.push (.mark m) with expected := outer }
        else none
    | [] => none
  else some (s.push (.mark m))

/-- The tokens of a text that has been read to its end. -/
def finish (s : Scan) : Option (List Token) :=
  if s.expected.isEmpty then some s.tokens.reverse else none

end Scan

/-- Reads a name, a reserved word or a literal that begins with letters. -/
def wordOrLiteral? (cs : List Char) : Option (Token × List Char) :=
  let letters := cs.takeWhile isWordChar
  let rest := cs.drop letters.length
  let plain := if Text.isIdentifier letters then some (Token.word (String.ofList letters), rest)
    else none
  match rest with
  | q :: more =>
    if q = '"' || q = '\'' then
      match literalKind? letters with
      | some kind => literal? kind q more
      | none => plain
    else plain
  | [] => plain

/-- A token inside a line that begins with neither a blank nor a line end. -/
def token? (cs : List Char) : Option (Token × List Char) :=
  match cs with
  | [] => none
  | c :: rest =>
    if c = '"' || c = '\'' then literal? ⟨false, false, false⟩ c rest
    else if c.isDigit then (numberRest? cs).map fun (imaginary, rest) => (.number imaginary, rest)
    else if c = '.' && startsWith Char.isDigit rest then
      (fractionEnd? rest).map fun (imaginary, rest) => (.number imaginary, rest)
    else if isWordChar c then wordOrLiteral? cs
    else (mark? cs).map fun (m, rest) => (.mark m, rest)

def scanFrom : (fuel : Nat) → Scan → List Char → Option (List Token)
  | 0, _, _ => none
  | fuel + 1, s, cs =>
    if s.fresh && s.expected.isEmpty then
      match indentOf none {} cs with
      | none => none
      | some (i, rest) =>
        match rest with
        | '\n' :: more => scanFrom fuel s more
        | '#' :: more => scanFrom fuel s (more.dropWhile (· != '\n') |>.drop 1)
        | _ =>
          match openBlocks i s.blocks with
          | none => none
          | some (found, blocks) =>
            scanFrom fuel
              { s with fresh := false, blocks := blocks, tokens := found.reverse ++ s.tokens } rest
    else
      match cs with
      | [] => s.finish
      | '\n' :: rest =>
        if s.expected.isEmpty then
          scanFrom fuel { s with fresh := true, tokens := .newline :: s.tokens } rest
        else scanFrom fuel s rest
      | '\\' :: '\n' :: rest => if rest.isEmpty then none else scanFrom fuel s rest
      | c :: rest =>
        if c = ' ' || c = '\t' || c = '\x0c' then scanFrom fuel s rest
        else if c = '#' then scanFrom fuel s (rest.dropWhile (· != '\n'))
        else
          match token? cs with
          | none => none
          | some (.mark m, rest) =>
            match s.pushMark? m with
            | some s => scanFrom fuel s rest
            | none => none
          | some (t, rest) => scanFrom fuel (s.push t) rest

/-- A text with a line feed at its end, unless it is empty. -/
def endLine (cs : List Char) : List Char :=
  if cs.isEmpty || cs.getLast? = some '\n' then cs else cs ++ ['\n']

/-- The tokens of a text; none if it has a character that ends texts, or cannot be cut into
tokens. -/
def tokens? (cs : List Char) : Option (List Token) :=
  if cs.contains '\x00' then none
  else
    let cs := endLine (Text.unifyLineEnds cs)
    scanFrom (2 * cs.length + 2) {} cs

end Graphwright.Grammar
