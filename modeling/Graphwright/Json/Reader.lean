import Graphwright.Json.Basic

/-!
# Reading JSON

The whole text must be one value between blanks. Beyond the standard grammar the words `NaN`,
`Infinity` and `-Infinity` are numbers; of members with one key the last value counts, at the place
of the first. A whole number of more than 4300 digits is refused by a fault of its own, and so is
half of a surrogate pair, since no text holds one.
-/
namespace Graphwright.Json

inductive Fault where
  | malformed
  | integerTooLong
  /-- A string with half of a surrogate pair, behind the keys that lead to it. -/
  | halfPair (path : List String)
  deriving Repr, DecidableEq

def Fault.under (key : String) : Fault → Fault
  | halfPair path => halfPair (key :: path)
  | fault => fault

/-- Longest whole number that is converted. -/
def maxIntegerDigits : Nat := 4300

def isSpace (c : Char) : Bool := c == ' ' || c == '\t' || c == '\n' || c == '\r'

/-- The character of an escape after its backslash, and the rest. A pair of surrogates is one
character; one without the other is none. -/
def escape : List Char → Except Fault (Char × List Char)
  | '"' :: rest => .ok ('"', rest)
  | '\\' :: rest => .ok ('\\', rest)
  | '/' :: rest => .ok ('/', rest)
  | 'b' :: rest => .ok ('\x08', rest)
  | 'f' :: rest => .ok ('\x0c', rest)
  | 'n' :: rest => .ok ('\n', rest)
  | 'r' :: rest => .ok ('\r', rest)
  | 't' :: rest => .ok ('\t', rest)
  | 'u' :: rest =>
    match Text.hexFour? rest with
    | none => .error .malformed
    | some (high, rest) =>
      if 0xD800 ≤ high && high < 0xDC00 then
        match rest with
        | '\\' :: 'u' :: more =>
          match Text.hexFour? more with
          | some (low, tail) =>
            if 0xDC00 ≤ low && low < 0xE000 then
              .ok (Char.ofNat (0x10000 + (high - 0xD800) * 0x400 + (low - 0xDC00)), tail)
            else .error (.halfPair [])
          | none => .error .malformed
        | _ => .error (.halfPair [])
      else if 0xDC00 ≤ high && high < 0xE000 then .error (.halfPair [])
      else .ok (Char.ofNat high, rest)
  | _ => .error .malformed

/-- The rest of a string literal after its opening quote; `acc` holds what came before, reversed. -/
def stringFrom : (fuel : Nat) → (acc : List Char) → List Char → Except Fault (String × List Char)
  | 0, _, _ => .error .malformed
  | _, _, [] => .error .malformed
  | _, acc, '"' :: rest => .ok (String.ofList acc.reverse, rest)
  | fuel + 1, acc, '\\' :: rest => do
    let (c, rest) ← escape rest
    stringFrom fuel (c :: acc) rest
  | fuel + 1, acc, c :: rest =>
    if c.toNat < 0x20 then .error .malformed else stringFrom fuel (c :: acc) rest

def natOf (ds : List Char) : Nat := ds.foldl (fun n d => n * 10 + (d.toNat - 48)) 0

def exponent? (cs : List Char) : Option (Int × List Char) :=
  match cs with
  | e :: rest =>
    if e == 'e' || e == 'E' then
      let (negative, rest) := match rest with
        | '-' :: more => (true, more)
        | '+' :: more => (false, more)
        | _ => (false, rest)
      let ds := rest.takeWhile Char.isDigit
      if ds.isEmpty then none
      else some (if negative then -(natOf ds : Int) else natOf ds, rest.dropWhile Char.isDigit)
    else none
  | [] => none

def fraction? (cs : List Char) : Option (List Char × List Char) :=
  match cs with
  | '.' :: rest =>
    let ds := rest.takeWhile Char.isDigit
    if ds.isEmpty then none else some (ds, rest.dropWhile Char.isDigit)
  | _ => none

/-- A number after its sign. -/
def number (negative : Bool) (cs : List Char) : Except Fault (Json × List Char) :=
  let whole := match cs with
    | '0' :: _ => ['0']
    | _ => cs.takeWhile Char.isDigit
  let rest := cs.drop whole.length
  if whole.isEmpty then .error .malformed
  else
    match fraction? rest, exponent? rest with
    | some (frac, tail), _ =>
      let (e, tail) := (exponent? tail).getD (0, tail)
      .ok (.float (.ofDecimal negative (natOf (whole ++ frac)) (e - frac.length)), tail)
    | none, some (e, tail) => .ok (.float (.ofDecimal negative (natOf whole) e), tail)
    | none, none =>
      if maxIntegerDigits < whole.length then .error .integerTooLong
      else .ok (.int (if negative then -(natOf whole : Int) else natOf whole), rest)

/-- What follows a word, if the text begins with it. -/
def afterWord (word : String) (cs : List Char) : Option (List Char) :=
  if word.toList.isPrefixOf cs then some (cs.drop word.length) else none

def constant? (cs : List Char) : Option (Json × List Char) :=
  [("null", .null), ("true", .bool true), ("false", .bool false), ("NaN", .float .nan),
    ("Infinity", .float (.infinity false)), ("-Infinity", .float (.infinity true))].findSome?
    fun (word, value) => (afterWord word cs).map (value, ·)

mutual

/-- A value at the very beginning of the text. -/
def value : (fuel : Nat) → List Char → Except Fault (Json × List Char)
  | 0, _ => .error .malformed
  | fuel + 1, cs =>
    match constant? cs with
    | some r => .ok r
    | none =>
      match cs with
      | '"' :: rest => do
        let (s, rest) ← stringFrom (rest.length + 1) [] rest
        return (.str s, rest)
      | '[' :: rest =>
        match rest.dropWhile isSpace with
        | ']' :: rest => .ok (.arr [], rest)
        | rest => items fuel [] rest
      | '\x7b' :: rest =>
        match rest.dropWhile isSpace with
        | '\x7d' :: rest => .ok (.obj [], rest)
        | rest => members fuel [] rest
      | '-' :: rest => number true rest
      | _ => number false cs

/-- The items of a list from one of them on; `acc` holds those before, reversed. -/
def items : (fuel : Nat) → (acc : List Json) → List Char → Except Fault (Json × List Char)
  | 0, _, _ => .error .malformed
  | fuel + 1, acc, cs => do
    let (v, rest) ← value fuel cs
    match rest.dropWhile isSpace with
    | ',' :: rest => items fuel (v :: acc) (rest.dropWhile isSpace)
    | ']' :: rest => return (.arr (v :: acc).reverse, rest)
    | _ => .error .malformed

def members : (fuel : Nat) → (acc : List (String × Json)) → List Char →
    Except Fault (Json × List Char)
  | 0, _, _ => .error .malformed
  | fuel + 1, acc, cs =>
    match cs with
    | '"' :: rest => do
      let (key, rest) ← stringFrom (rest.length + 1) [] rest
      match rest.dropWhile isSpace with
      | ':' :: rest =>
        let (v, rest) ← (value fuel (rest.dropWhile isSpace)).mapError (·.under key)
        let acc := setMember acc key v
        match rest.dropWhile isSpace with
        | ',' :: rest => members fuel acc (rest.dropWhile isSpace)
        | '\x7d' :: rest => return (.obj acc, rest)
        | _ => .error .malformed
      | _ => .error .malformed
    | _ => .error .malformed

end

def read (s : String) : Except Fault Json := do
  let cs := s.toList
  let (v, rest) ← value (2 * cs.length + 1) (cs.dropWhile isSpace)
  if (rest.dropWhile isSpace).isEmpty then return v else .error .malformed

end Graphwright.Json
