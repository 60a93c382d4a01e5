import Graphwright.Grammar.Expression

/-!
# Patterns of generated modules

The patterns of case blocks: literals, captures, values, groups, sequences, mappings and classes.
-/
namespace Graphwright.Grammar

open Parse

/-- A number, perhaps negative; a real and an imaginary one may be added. -/
def patternNumber : Parse PUnit := do
  let real : Parse Bool := fun ts => match ts with
    | .number imaginary :: rest => some (imaginary, rest)
    | _ => none
  let _ ← skipMark "-"
  let imaginary ← real
  if ← skipAnyMark ["+", "-"] then
    if imaginary then failure
    else if ← real then return
    else failure
  else return

/-- A name with parts, given whether it has to have some. -/
def dottedName (fuel : Nat) (needed : Bool) : Parse PUnit := do
  let _ ← name
  match fuel with
  | 0 => failure
  | fuel + 1 =>
    if ← skipMark "." then dottedName fuel false
    else if needed then failure
    else return

/-- What a key of a mapping pattern or a literal pattern may be. -/
def literalPattern (fuel : Nat) : Parse PUnit := do
  match ← next? with
  | some (.text bytes _) =>
    let fields ← adjacentLiterals bytes fuel
    fieldExpressions fuel fields
  | some (.word w) => if constantWords.contains w then advance else failure
  | _ => patternNumber

def captureName : Parse PUnit := do
  let w ← name
  if w = "_" then failure else return

mutual

/-- A pattern, perhaps with a name for what it matches. -/
def pattern : (fuel : Nat) → Parse PUnit
  | 0 => failure
  | fuel + 1 => do
    alternatives fuel
    if ← skipWord "as" then
      captureName
      if (← isMark ".") || (← isMark "(") || (← isMark "=") then failure else return
    else return

/-- Patterns of which one has to match. -/
def alternatives : (fuel : Nat) → Parse PUnit
  | 0 => failure
  | fuel + 1 => do
    closedPattern fuel
    if ← skipMark "|" then alternatives fuel else return

/-- A pattern that needs no parentheses. -/
def closedPattern : (fuel : Nat) → Parse PUnit
  | 0 => failure
  | fuel + 1 => do
    match ← next? with
    | some (.mark "(") =>
      advance
      sequence fuel ")"
    | some (.mark "[") =>
      advance
      sequence fuel "]"
    | some (.mark "\x7b") =>
      advance
      mapping fuel false
    | some (.word w) =>
      if constantWords.contains w || w = "_" then advance
      else
        dottedName fuel false
        if ← skipMark "(" then classArguments fuel false
        else if ← isMark "=" then failure
        else return
    | _ => literalPattern fuel

/-- The patterns of a sequence or a group after its bracket. -/
def sequence : (fuel : Nat) → (close : String) → Parse PUnit
  | 0, _ => failure
  | fuel + 1, close => do
    if ← skipMark close then return
    else
      let starred ← isMark "*"
      starPattern fuel
      let (more, comma) ← moreItems (starPattern fuel) fuel
      if close = ")" && starred && more.isEmpty && !comma then failure
      else mark close

def starPattern : (fuel : Nat) → Parse PUnit
  | 0 => failure
  | fuel + 1 => do
    if ← skipMark "*" then
      let _ ← name
    else pattern fuel

/-- The members of a mapping pattern; the rest of the mapping comes last. -/
def mapping : (fuel : Nat) → (done : Bool) → Parse PUnit
  | 0, _ => failure
  | fuel + 1, done => do
    if ← skipMark "\x7d" then return
    else if done then failure
    else
      let rest ← skipMark "**"
      if rest then captureName
      else
        either (literalPattern fuel) (dottedName fuel true)
        mark ":"
        pattern fuel
      if ← skipMark "," then mapping fuel rest else mark "\x7d"

/-- The patterns for the parts of a class, those by keyword last. -/
def classArguments : (fuel : Nat) → (byKeyword : Bool) → Parse PUnit
  | 0, _ => failure
  | fuel + 1, byKeyword => do
    if ← skipMark ")" then return
    else
      let keyword ← isNameBefore "="
      if keyword then
        advance
        advance
      else if byKeyword then failure
      pattern fuel
      if ← skipMark "," then classArguments fuel keyword else mark ")"

end

/-- The patterns of a case: one pattern, or a sequence without brackets. -/
def patterns (fuel : Nat) : Parse PUnit := do
  let starred ← isMark "*"
  starPattern fuel
  let (more, comma) ← moreItems (starPattern fuel) fuel
  if starred && more.isEmpty && !comma then failure else return

end Graphwright.Grammar
