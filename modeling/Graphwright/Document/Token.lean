import Graphwright.Document.BlockText
import Graphwright.Text.Hex

/-!
# Tokens of documents

`Token.scan` cuts a source into tokens, dropping blanks, commas and comments. It stops at the first
character that begins no token; the tokens before it are kept, since a reader may fail earlier.
-/
namespace Graphwright.Document

inductive TokenKind where
  | endOfFile
  | mark (text : String)
  | name
  | int
  | float
  | string
  | blockString
  deriving Repr, DecidableEq, Inhabited

def TokenKind.text : TokenKind → String
  | endOfFile => "<EOF>"
  | mark text => "'" ++ text ++ "'"
  | name => "Name"
  | int => "Int"
  | float => "Float"
  | string => "String"
  | blockString => "BlockString"

/-- A token, what it means, and where it begins. -/
structure Token where
  kind : TokenKind
  value : String := ""
  start : Nat
  deriving Repr, Inhabited

def Token.text (t : Token) : String :=
  match t.kind with
  | .endOfFile | .mark _ => t.kind.text
  | _ => t.kind.text ++ " '" ++ t.value ++ "'"

/-- Why no token begins at a place. -/
structure LexFault where
  position : Nat
  reason : String
  /-- The text ends inside an escape. -/
  truncated : Bool := false
  deriving Repr

/-- The outcome of cutting a source: tokens in order, then the end or a fault. -/
inductive Tokens where
  | done (last : Token)
  | failed (fault : LexFault)
  | next (t : Token) (rest : Tokens)
  deriving Repr

def isNameStart (c : Char) : Bool := c.isAlpha || c == '_'

def isNameRest (c : Char) : Bool := c.isAlphanum || c == '_'

/-- The first character of a text as messages name it. -/
def codePoint : List Char → String
  | [] => "<EOF>"
  | c :: _ =>
    if 0x20 ≤ c.toNat && c.toNat ≤ 0x7e then
      if c = '"' then "'\"'" else "'" ++ c.toString ++ "'"
    else "U+" ++ Text.hex 4 c.toNat

/-- A lexeme: a kind, its value, how many characters it takes, and what follows. -/
structure Lexeme where
  kind : TokenKind
  value : String := ""
  length : Nat
  rest : List Char

/-! ## Numbers -/

/-- At least one digit. -/
def digits (position : Nat) (cs : List Char) : Except LexFault (List Char × List Char) :=
  let ds := cs.takeWhile Char.isDigit
  if ds.isEmpty then
    .error ⟨position, "Invalid number, expected digit but got: " ++ codePoint cs ++ ".", false⟩
  else .ok (ds, cs.dropWhile Char.isDigit)

def wholePart (position : Nat) (cs : List Char) : Except LexFault (List Char × List Char) :=
  match cs with
  | '0' :: rest =>
    match rest with
    | d :: _ =>
      if d.isDigit then
        .error ⟨position + 1,
          "Invalid number, unexpected digit after 0: " ++ codePoint rest ++ ".", false⟩
      else .ok (['0'], rest)
    | [] => .ok (['0'], [])
  | _ => digits position cs

/-- A number. Neither a point nor a name may follow it. -/
def number (position : Nat) (cs : List Char) : Except LexFault Lexeme := do
  let (sign, afterSign) := match cs with
    | '-' :: rest => (['-'], rest)
    | _ => ([], cs)
  let (whole, afterWhole) ← wholePart (position + sign.length) afterSign
  let soFar := sign ++ whole
  let (soFar, afterFraction, fractional) ← match afterWhole with
    | '.' :: rest => do
      let (ds, rest) ← digits (position + soFar.length + 1) rest
      pure (soFar ++ '.' :: ds, rest, true)
    | _ => pure (soFar, afterWhole, false)
  let (soFar, rest, fractional) ← match afterFraction with
    | e :: rest =>
      if e = 'e' || e = 'E' then do
        let (mark, rest) := match rest with
          | '+' :: more => ([e, '+'], more)
          | '-' :: more => ([e, '-'], more)
          | _ => ([e], rest)
        let (ds, rest) ← digits (position + soFar.length + mark.length) rest
        pure (soFar ++ mark ++ ds, rest, true)
      else pure (soFar, afterFraction, fractional)
    | [] => pure (soFar, afterFraction, fractional)
  let blocked := match rest with
    | c :: _ => c == '.' || isNameStart c
    | [] => false
  if blocked then
    .error ⟨position + soFar.length,
      "Invalid number, expected digit but got: " ++ codePoint rest ++ ".", false⟩
  else
    .ok ⟨if fractional then .float else .int, String.ofList soFar, soFar.length, rest⟩

/-! ## Strings -/

/-- A code point that is a character. -/
def isScalar (n : Nat) : Bool := n < 0xD800 || (0xE000 ≤ n && n ≤ 0x10FFFF)

/-- Reads hexadecimal digits up to a closing brace; `size` characters of the escape came before.
Gives the code point and the size of the escape, or the size of what is wrong. -/
def bracedEscape (limit : Nat) : (size point : Nat) → List Char → Except Nat (Nat × Nat)
  | size, _, [] => .error size
  | size, point, c :: rest =>
    if limit ≤ size then .error size
    else if c = '\x7d' then
      if size + 1 < 5 || !isScalar point then .error (size + 1) else .ok (point, size + 1)
    else
      match Text.hexDigit? c with
      | none => .error (size + 1)
      | some d => bracedEscape limit (size + 1) (point * 16 + d) rest

/-- An escape sequence, `cs` being the text from its backslash on: the character it stands for and
its size. -/
def escapeSequence (position : Nat) (cs : List Char) : Except LexFault (Char × Nat) :=
  let bad (what : String) (size : Nat) : Except LexFault (Char × Nat) :=
    .error ⟨position, "Invalid " ++ what ++ " escape sequence: '" ++ String.ofList (cs.take size)
      ++ "'.", false⟩
  match cs.drop 1 with
  | [] => .error ⟨position, "", true⟩
  | 'u' :: '\x7b' :: rest =>
    match bracedEscape (min 12 cs.length) 3 0 rest with
    | .ok (point, size) => .ok (Char.ofNat point, size)
    | .error size => bad "Unicode" size
  | 'u' :: rest =>
    if rest.length < 4 then .error ⟨position, "", true⟩
    else match Text.hexFour? rest with
    | none => bad "Unicode" 6
    | some (high, after) =>
      if isScalar high then .ok (Char.ofNat high, 6)
      else
        match after with
        | '\\' :: 'u' :: more =>
          if more.length < 4 then .error ⟨position, "", true⟩
          else match Text.hexFour? more with
          | some (low, _) =>
            if high < 0xDC00 && 0xDC00 ≤ low && low < 0xE000 then
              .ok (Char.ofNat (0x10000 + (high - 0xD800) * 0x400 + (low - 0xDC00)), 12)
            else bad "Unicode" 6
          | none => bad "Unicode" 6
        | _ => bad "Unicode" 6
  | c :: _ =>
    match ([('"', '"'), ('\\', '\\'), ('/', '/'), ('b', '\x08'), ('f', '\x0c'), ('n', '\n'),
        ('r', '\r'), ('t', '\t')] : List (Char × Char)).lookup c with
    | some image => .ok (image, 2)
    | none => bad "character" 2

/-- The rest of a string; `acc` holds its value so far, reversed. -/
def stringFrom : (fuel : Nat) → (start position : Nat) → (acc : List Char) → List Char →
    Except LexFault Lexeme
  | 0, _, position, _, _ => .error ⟨position, "Unterminated string.", false⟩
  | _, _, position, _, [] => .error ⟨position, "Unterminated string.", false⟩
  | fuel + 1, start, position, acc, c :: rest =>
    if c = '"' then .ok ⟨.string, String.ofList acc.reverse, position + 1 - start, rest⟩
    else if c = '\\' then do
      let (image, size) ← escapeSequence position (c :: rest)
      stringFrom fuel start (position + size) (image :: acc) (rest.drop (size - 1))
    else if c = '\r' || c = '\n' then .error ⟨position, "Unterminated string.", false⟩
    else stringFrom fuel start (position + 1) (c :: acc) rest

/-- The rest of a block string; `line` is the current line and `lines` the earlier ones, all
reversed. -/
def blockFrom : (fuel : Nat) → (start position : Nat) → (line : List Char) →
    (lines : List (List Char)) → List Char → Except LexFault Lexeme
  | 0, _, position, _, _, _ => .error ⟨position, "Unterminated string.", false⟩
  | _, _, position, _, _, [] => .error ⟨position, "Unterminated string.", false⟩
  | fuel + 1, start, position, line, lines, cs@(c :: rest) =>
    if tripleQuote.isPrefixOf cs then
      .ok ⟨.blockString, String.ofList (dedent (line.reverse :: lines).reverse),
        position + 3 - start, cs.drop 3⟩
    else if ('\\' :: tripleQuote).isPrefixOf cs then
      blockFrom fuel start (position + 4) ('"' :: '"' :: '"' :: line) lines (cs.drop 4)
    else if c = '\r' || c = '\n' then
      let size := if ['\r', '\n'].isPrefixOf cs then 2 else 1
      blockFrom fuel start (position + size) [] (line.reverse :: lines) (cs.drop size)
    else blockFrom fuel start (position + 1) (c :: line) lines rest

/-! ## Cutting -/

def marks : List Char := ['!', '$', '&', '(', ')', ':', '=', '@', '[', ']', '\x7b', '|', '\x7d']

/-- The lexeme at the front of a text that begins with no blank and no comment. -/
def lexeme (position : Nat) (cs : List Char) : Except LexFault Lexeme :=
  match cs with
  | [] => .ok ⟨.endOfFile, "", 0, []⟩
  | '"' :: '"' :: '"' :: rest =>
    blockFrom (rest.length + 1) position (position + 3) [] [] rest
  | '"' :: rest => stringFrom (rest.length + 1) position (position + 1) [] rest
  | '.' :: '.' :: '.' :: rest => .ok ⟨.mark "...", "", 3, rest⟩
  | c :: rest =>
    if marks.contains c then .ok ⟨.mark c.toString, "", 1, rest⟩
    else if c.isDigit || c = '-' then number position cs
    else if isNameStart c then
      let name := cs.takeWhile isNameRest
      .ok ⟨.name, String.ofList name, name.length, cs.dropWhile isNameRest⟩
    else if c = '\'' then
      .error ⟨position,
        "Unexpected single quote character ('), did you mean to use a double quote (\")?", false⟩
    else .error ⟨position, "Unexpected character: " ++ codePoint cs ++ ".", false⟩

/-- A blank between tokens; commas and byte order marks are blanks. -/
def isIgnored (c : Char) : Bool :=
  c == ' ' || c == '\t' || c == ',' || c == '\uFEFF' || c == '\n' || c == '\r'

def scanFrom : (fuel : Nat) → (position : Nat) → List Char → Tokens
  | 0, position, _ => .done ⟨.endOfFile, "", position⟩
  | fuel + 1, position, cs =>
    match cs with
    | '#' :: rest =>
      let comment := rest.takeWhile fun c => !(c = '\n' || c = '\r')
      scanFrom fuel (position + 1 + comment.length) (rest.drop comment.length)
    | c :: rest =>
      if isIgnored c then scanFrom fuel (position + 1) rest
      else
        match lexeme position cs with
        | .error fault => .failed fault
        | .ok l => .next ⟨l.kind, l.value, position⟩ (scanFrom fuel (position + l.length) l.rest)
    | [] => .done ⟨.endOfFile, "", position⟩

def Tokens.scan (s : Source) : Tokens :=
  let cs := s.body.toList
  scanFrom (cs.length + 1) 0 cs

end Graphwright.Document
