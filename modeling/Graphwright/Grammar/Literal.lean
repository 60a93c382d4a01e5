import Graphwright.Text.Hex

/-!
# String literals

The inside of string literals of generated modules: where a literal ends, which text its escapes
stand for, and which expressions a formatted literal holds.
-/
namespace Graphwright.Grammar

/-- The text of a literal from some place inside it up to its closing quotes, and what follows them;
a short literal ends on its line. `acc` holds the text before, reversed. -/
def literalBody (quote : Char) (long : Bool) (acc : List Char) :
    List Char → Option (List Char × List Char)
  | [] => none
  | '\\' :: c :: rest => literalBody quote long (c :: '\\' :: acc) rest
  | c :: rest =>
    if c = quote then
      if long then
        if rest.take 2 = [quote, quote] then some (acc.reverse, rest.drop 2)
        else literalBody quote long (c :: acc) rest
      else some (acc.reverse, rest)
    else if c = '\n' && !long then none
    else literalBody quote long (c :: acc) rest

/-! ## Escapes -/

/-- The character of a code point that is written with exactly `width` hexadecimal digits.
Surrogates become the replacement character. -/
def hexEscape? (width : Nat) (cs : List Char) : Option (List Char × List Char) :=
  if cs.length < width then none
  else
    match Text.hexValue? (cs.take width) with
    | some n =>
      if n < 0x110000 then
        let c := if 0xD800 ≤ n && n < 0xE000 then '\uFFFD' else Char.ofNat n
        some ([c], cs.drop width)
      else none
    | none => none

def isOctal (c : Char) : Bool := '0' ≤ c && c ≤ '7'

/-- The text of an escape after its backslash, and the rest. Names of characters are not looked up:
they stand for the replacement character. An unknown escape stands for itself. -/
def escapeValue? (bytes : Bool) : List Char → Option (List Char × List Char)
  | [] => some (['\\'], [])
  | '\n' :: rest => some ([], rest)
  | '\\' :: rest => some (['\\'], rest)
  | '\'' :: rest => some (['\''], rest)
  | '"' :: rest => some (['"'], rest)
  | 'a' :: rest => some (['\x07'], rest)
  | 'b' :: rest => some (['\x08'], rest)
  | 'f' :: rest => some (['\x0c'], rest)
  | 'n' :: rest => some (['\n'], rest)
  | 'r' :: rest => some (['\r'], rest)
  | 't' :: rest => some (['\t'], rest)
  | 'v' :: rest => some (['\x0b'], rest)
  | 'x' :: rest => hexEscape? 2 rest
  | c :: rest =>
    if isOctal c then
      let more := (rest.take 2).takeWhile isOctal
      let value := (c :: more).foldl (fun n d => n * 8 + (d.toNat - 48)) 0
      some ([Char.ofNat value], rest.drop more.length)
    else if bytes then some (['\\', c], rest)
    else if c = 'u' then hexEscape? 4 rest
    else if c = 'U' then hexEscape? 8 rest
    else if c = 'N' then
      match rest with
      | '\x7b' :: more =>
        let name := more.takeWhile (· != '\x7d')
        if name.isEmpty || name.length = more.length then none
        else some (['\uFFFD'], more.drop (name.length + 1))
      | _ => none
    else some (['\\', c], rest)

/-- The text of a literal after the first `fuel` steps, given what came before, reversed. -/
def valueFrom (bytes : Bool) : (fuel : Nat) → (acc : List Char) → List Char → Option (List Char)
  | _, acc, [] => some acc.reverse
  | 0, _, _ => none
  | fuel + 1, acc, '\\' :: rest =>
    match escapeValue? bytes rest with
    | some (text, rest) => valueFrom bytes fuel (text.reverse ++ acc) rest
    | none => none
  | fuel + 1, acc, c :: rest => valueFrom bytes fuel (c :: acc) rest

/-- The text that the inside of a literal stands for; none if an escape is broken. -/
def literalValue? (cs : List Char) : Option (List Char) := valueFrom false cs.length [] cs

/-- The inside of a literal of bytes has no broken escape and only characters of one byte's lower
half. -/
def isBytesBody (raw : Bool) (cs : List Char) : Bool :=
  cs.all (·.toNat < 128) && (raw || (valueFrom true cs.length [] cs).isSome)

/-! ## Formatted literals -/

/-- The bracket that closes one. -/
def closing (c : Char) : Char := if c = '(' then ')' else if c = '[' then ']' else '\x7d'

def maxBrackets : Nat := 200

/-- Where a scan of an expression inside a formatted literal stands. -/
structure FieldScan where
  /-- The quotes around this place: their character, and whether there are three of them. -/
  quote? : Option (Char × Bool) := none
  /-- The brackets that have to be closed, innermost first. -/
  expected : List Char := []
  /-- The text so far, reversed. -/
  text : List Char := []

def FieldScan.push (s : FieldScan) (cs : List Char) : FieldScan :=
  { s with text := cs.reverse ++ s.text }

def mayEndField (c : Char) : Bool :=
  c = '!' || c = ':' || c = '\x7d' || c = '=' || c = '<' || c = '>'

/-- The text of an expression inside a formatted literal, and the rest from its end on: a colon, an
exclamation mark, an equals sign or a closing brace outside of all brackets and quotes. -/
def fieldText : (fuel : Nat) → FieldScan → List Char → Option (List Char × List Char)
  | 0, _, _ => none
  | _, _, [] => none
  | fuel + 1, s, c :: rest =>
    if c = '\\' then none
    else
      match s.quote? with
      | some (q, long) =>
        if c = q then
          if !long then fieldText fuel { s.push [c] with quote? := none } rest
          else if rest.take 2 = [q, q] then
            fieldText fuel { s.push [c, q, q] with quote? := none } (rest.drop 2)
          else fieldText fuel (s.push [c]) rest
        else fieldText fuel (s.push [c]) rest
      | none =>
        if c = '\'' || c = '"' then
          if rest.take 2 = [c, c] then
            fieldText fuel { s.push [c, c, c] with quote? := some (c, true) } (rest.drop 2)
          else fieldText fuel { s.push [c] with quote? := some (c, false) } rest
        else if c = '(' || c = '[' || c = '\x7b' then
          if maxBrackets ≤ s.expected.length then none
          else fieldText fuel { s.push [c] with expected := closing c :: s.expected } rest
        else if c = '#' then none
        else if s.expected.isEmpty && mayEndField c then
          if rest.head? = some '=' && c ≠ ':' && c ≠ '\x7d' then
            fieldText fuel (s.push [c, '=']) (rest.drop 1)
          else if c = '<' || c = '>' then fieldText fuel (s.push [c]) rest
          else some (s.text.reverse, c :: rest)
        else if c = ')' || c = ']' || c = '\x7d' then
          match s.expected with
          | [] => none
          | e :: outer =>
            if c = e then fieldText fuel { s.push [c] with expected := outer } rest else none
        else fieldText fuel (s.push [c]) rest

def isFieldBlank (c : Char) : Bool := c = ' ' || c = '\t' || c = '\n' || c = '\x0c'

/-- How the plain text between the expressions of a formatted literal ends. -/
inductive PlainEnd where
  /-- At a doubled brace, behind which more plain text may follow. -/
  | doubled
  /-- At a brace, or with the literal. -/
  | brace

/-- The plain text up to the next brace that counts or the end, and the rest. Braces are not doubled
in nested text. `acc` holds the text before, reversed. -/
def plainText (raw nested : Bool) : (fuel : Nat) → (acc : List Char) → List Char →
    Option (List Char × PlainEnd × List Char)
  | 0, _, _ => none
  | _, acc, [] => some (acc.reverse, .brace, [])
  | fuel + 1, acc, c :: rest =>
    let escaped := !raw && c = '\\' && !rest.isEmpty
    let acc := if escaped then c :: acc else acc
    let (c, rest) := match escaped, rest with
      | true, d :: more => (d, more)
      | _, _ => (c, rest)
    if escaped && c = 'N' && rest.head? = some '\x7b' then
      let name := rest.takeWhile (· != '\x7d')
      let more := rest.drop name.length
      plainText raw nested fuel (more.take 1 ++ name.reverse ++ c :: acc) (more.drop 1)
    else if c = '\x7b' || c = '\x7d' then
      if nested then some (acc.reverse, .brace, c :: rest)
      else if rest.head? = some c then some ((c :: acc).reverse, .doubled, rest.drop 1)
      else if c = '\x7d' then none
      else some (acc.reverse, .brace, c :: rest)
    else plainText raw nested fuel (c :: acc) rest

def afterConversion? : List Char → Option (List Char)
  | '!' :: c :: rest => if c = 's' || c = 'r' || c = 'a' then some rest else none
  | '!' :: [] => none
  | cs => some cs

mutual

/-- The expressions of a formatted literal from one of its plain texts on, and the rest: from the
closing brace on where the text is nested in a field. -/
def formattedFrom (raw : Bool) : (fuel depth : Nat) → List Char →
    Option (List (List Char) × List Char)
  | 0, _, _ => none
  | fuel + 1, depth, cs =>
    match plainText raw (depth ≠ 0) (cs.length + 1) [] cs with
    | none => none
    | some (text, ending, rest) =>
      if !raw && (literalValue? text).isNone then none
      else
        match ending, rest with
        | .doubled, _ => formattedFrom raw fuel depth rest
        | .brace, '\x7b' :: more =>
          match fieldFrom raw fuel depth more with
          | none => none
          | some (found, rest) =>
            match formattedFrom raw fuel depth rest with
            | none => none
            | some (others, rest) => some (found ++ others, rest)
        | .brace, _ => some ([], rest)

/-- The expressions of a field after its opening brace, and what follows the field. Fields nest
once. -/
def fieldFrom (raw : Bool) : (fuel depth : Nat) → List Char → Option (List (List Char) × List Char)
  | 0, _, _ => none
  | fuel + 1, depth, cs =>
    if 2 ≤ depth then none
    else
      match fieldText (cs.length + 1) {} cs with
      | none => none
      | some (expression, rest) =>
        if expression.all isFieldBlank then none
        else
          let rest := match rest with
            | '=' :: more => more.dropWhile fun c => c = ' ' || ('\t' ≤ c && c ≤ '\r')
            | _ => rest
          match afterConversion? rest with
          | none => none
          | some (':' :: format) =>
            match formattedFrom raw fuel (depth + 1) format with
            | some (found, '\x7d' :: rest) => some (expression :: found, rest)
            | _ => none
          | some ('\x7d' :: rest) => some ([expression], rest)
          | some _ => none

end

/-- The expressions inside a formatted literal, in order; none if it is broken. -/
def formattedFields? (raw : Bool) (cs : List Char) : Option (List (List Char)) :=
  match formattedFrom raw (2 * cs.length + 2) 0 cs with
  | some (found, []) => some found
  | _ => none

end Graphwright.Grammar
