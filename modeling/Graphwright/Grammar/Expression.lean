import Graphwright.Grammar.Parse

/-!
# Expressions of generated modules

The expression grammar. Operators between operands need no precedence here, since any sequence of
them that one order of precedence allows is an expression; only negation, comparison, conditions and
named expressions have places of their own. Every function spends one unit of fuel per call, and a
call reads at least one token before it comes back to itself.
-/
namespace Graphwright.Grammar

open Parse

def arithmeticMarks : List String :=
  ["|", "^", "&", "<<", ">>", "+", "-", "*", "/", "//", "%", "@", "**"]

def comparisonMarks : List String := ["==", "!=", "<", "<=", ">", ">="]

def skipAnyMark (marks : List String) : Parse Bool := do
  match ← next? with
  | some (.mark m) =>
    if marks.contains m then
      advance
      return true
    else return false
  | _ => return false

def skipAnyWord (words : List String) : Parse Bool := do
  match ← next? with
  | some (.word w) =>
    if words.contains w then
      advance
      return true
    else return false
  | _ => return false

def skipComparison : Parse Bool := do
  if ← skipAnyMark comparisonMarks then return true
  else if ← skipWord "in" then return true
  else if ← skipWord "is" then
    let _ ← skipWord "not"
    return true
  else fun ts => match ts with
    | .word "not" :: .word "in" :: rest => some (true, rest)
    | _ => some (false, ts)

/-- Takes the signs before an operand and tells whether there were any. -/
def skipSigns : (fuel : Nat) → Parse Bool
  | 0 => return false
  | fuel + 1 => do
    if ← skipAnyMark ["+", "-", "~"] then
      let _ ← skipSigns fuel
      return true
    else return false

/-- Takes negations and tells whether there were any. -/
def skipNegations : (fuel : Nat) → Parse Bool
  | 0 => return false
  | fuel + 1 => do
    if ← skipWord "not" then
      let _ ← skipNegations fuel
      return true
    else return false

/-- Operands with operators between them; more than one have no shape of their own. -/
def chain (operand : Parse Shape) (operator : Parse Bool) : (fuel : Nat) → Parse Shape
  | 0 => failure
  | fuel + 1 => do
    let first ← operand
    if ← operator then
      let _ ← chain operand operator fuel
      return .other
    else return first

/-- Adjacent string literals: either all of bytes or none, and the expressions inside them. -/
def adjacentLiterals (bytes : Bool) : (fuel : Nat) → Parse (List (List Char))
  | 0 => failure
  | fuel + 1 => do
    match ← next? with
    | some (.text b fields) =>
      if b = bytes then
        advance
        return fields ++ (← adjacentLiterals bytes fuel)
      else failure
    | _ => return []

/-- The words that are expressions. -/
def constantWords : List String := ["True", "False", "None"]

/-! ## Parameters -/

/-- How far a list of parameters has got. -/
structure ParameterState where
  /-- Some parameter was read. -/
  any : Bool := false
  /-- Some parameter had a default. -/
  defaulted : Bool := false
  /-- The mark for parameters by position was read. -/
  slashed : Bool := false
  /-- Parameters by keyword have begun. -/
  starred : Bool := false
  /-- The next parameter has to be one by keyword. -/
  owed : Bool := false

/-- The parameters of a function, up to a closing mark; with `annotated` they may have
annotations. -/
def parameters (annotated : Bool) (close : String) (expression starExpression : Parse Shape) :
    (fuel : Nat) → ParameterState → Parse PUnit
  | 0, _ => failure
  | fuel + 1, s => do
    let annotation (type : Parse Shape) : Parse PUnit := do
      if annotated then
        if ← skipMark ":" then
          let _ ← type
    let continue' (s : ParameterState) : Parse PUnit := do
      if ← skipMark "," then parameters annotated close expression starExpression fuel s
      else if s.owed then failure
      else if ← isMark close then return
      else failure
    if ← isMark close then if s.owed then failure else return
    else if ← skipMark "/" then
      if s.slashed || s.starred || !s.any then failure else continue' { s with slashed := true }
    else if ← skipMark "**" then
      if s.owed then failure
      let _ ← name
      annotation expression
      let _ ← skipMark ","
      if ← isMark close then return else failure
    else if ← skipMark "*" then
      if s.starred then failure
      if ← isMark "," then continue' { s with starred := true, owed := true }
      else
        let _ ← name
        annotation starExpression
        continue' { s with starred := true }
    else
      let _ ← name
      annotation expression
      if ← skipMark "=" then
        let _ ← expression
        continue' { s with any := true, defaulted := true, owed := false }
      else if s.defaulted && !s.starred then failure
      else continue' { s with any := true, owed := false }

/-! ## Arguments -/

/-- How far a list of arguments has got. -/
inductive ArgumentPhase where
  | positional
  /-- A keyword was given. -/
  | keyword
  /-- A mapping was given. -/
  | mapping
  deriving DecidableEq

/-! ## Expressions -/

mutual

/-- An expression without a condition. -/
def disjunction : (fuel : Nat) → Parse Shape
  | 0 => failure
  | fuel + 1 => chain (inversion fuel) (skipAnyWord ["and", "or"]) fuel

/-- A comparison, or its negation. -/
def inversion : (fuel : Nat) → Parse Shape
  | 0 => failure
  | fuel + 1 => do
    let negated ← skipNegations fuel
    let s ← chain (arithmetic fuel) skipComparison fuel
    return if negated then .other else s

def arithmetic : (fuel : Nat) → Parse Shape
  | 0 => failure
  | fuel + 1 => chain (factor fuel) (skipAnyMark arithmeticMarks) fuel

/-- An operand with its signs. -/
def factor : (fuel : Nat) → Parse Shape
  | 0 => failure
  | fuel + 1 => do
    let signed ← skipSigns fuel
    let awaited ← skipWord "await"
    let s ← primary fuel
    return if signed || awaited then .other else s

/-- An atom, with attributes, calls and indices behind it. -/
def primary : (fuel : Nat) → Parse Shape
  | 0 => failure
  | fuel + 1 => do
    let s ← atom fuel
    trailers fuel s

/-- The attributes, calls and indices behind something. -/
def trailers : (fuel : Nat) → Shape → Parse Shape
  | 0, _ => failure
  | fuel + 1, s => do
    if ← skipMark "." then
      let _ ← name
      trailers fuel .part
    else if ← skipMark "(" then
      arguments fuel true .positional
      mark ")"
      trailers fuel .other
    else if ← skipMark "[" then
      let _ ← items fuel (slice fuel)
      mark "]"
      trailers fuel .part
    else return s

/-- The smallest expressions. -/
def atom : (fuel : Nat) → Parse Shape
  | 0 => failure
  | fuel + 1 => do
    match ← next? with
    | some (.word w) =>
      if constantWords.contains w then
        advance
        return .other
      else
        let _ ← name
        return .name
    | some (.number _) =>
      advance
      return .other
    | some (.text bytes _) =>
      let fields ← adjacentLiterals bytes fuel
      fieldExpressions fuel fields
      return .other
    | some (.mark "...") =>
      advance
      return .other
    | some (.mark "(") =>
      advance
      parenthesized fuel
    | some (.mark "[") =>
      advance
      bracketed fuel
    | some (.mark "\x7b") =>
      advance
      braced fuel
      return .other
    | _ => failure

/-- The expressions inside formatted literals, each as if in parentheses. -/
def fieldExpressions : (fuel : Nat) → List (List Char) → Parse PUnit
  | 0, _ => failure
  | _, [] => return
  | fuel + 1, f :: rest => do
    match tokens? ('(' :: f ++ [')']) with
    | none => failure
    | some ts =>
      match starExpressions fuel ts with
      | none => failure
      | some _ => fieldExpressions fuel rest

/-- What follows an opening parenthesis: nothing, one expression, a comprehension or several
items. -/
def parenthesized : (fuel : Nat) → Parse Shape
  | 0 => failure
  | fuel + 1 => do
    if ← skipMark ")" then return .tuple []
    else if ← isWord "yield" then
      yieldExpression fuel
      mark ")"
      return .other
    else
      let first ← starNamed fuel
      if ← isComprehension then
        if first.isValue then
          comprehension fuel
          mark ")"
          return .other
        else failure
      else
        let (more, comma) ← moreItems (starNamed fuel) fuel
        mark ")"
        if comma || !more.isEmpty then return .tuple (first :: more)
        else if first.isValue then return .group first
        else failure

def bracketed : (fuel : Nat) → Parse Shape
  | 0 => failure
  | fuel + 1 => do
    if ← skipMark "]" then return .list []
    else
      let first ← starNamed fuel
      if ← isComprehension then
        if first.isValue then
          comprehension fuel
          mark "]"
          return .other
        else failure
      else
        let (more, _) ← moreItems (starNamed fuel) fuel
        mark "]"
        return .list (first :: more)

/-- What follows an opening brace: a mapping or a set. -/
def braced : (fuel : Nat) → Parse PUnit
  | 0 => failure
  | fuel + 1 => do
    if ← skipMark "\x7d" then return
    else if ← isMark "**" then
      let _ ← items fuel (pair fuel)
      mark "\x7d"
    else
      let first ← starNamed fuel
      if first.isPlain && (← skipMark ":") then
        let _ ← expression fuel
        if ← isComprehension then comprehension fuel
        else
          let _ ← moreItems (pair fuel) fuel
      else if ← isComprehension then
        if first.isValue then comprehension fuel else failure
      else
        let _ ← moreItems (starNamed fuel) fuel
      mark "\x7d"

/-- A member of a mapping, or all members of another one. -/
def pair : (fuel : Nat) → Parse PUnit
  | 0 => failure
  | fuel + 1 => do
    if ← skipMark "**" then
      let _ ← arithmetic fuel
    else
      let _ ← expression fuel
      mark ":"
      let _ ← expression fuel

def isComprehension : Parse Bool := fun ts => match ts with
  | .word "for" :: _ => some (true, ts)
  | .word "async" :: .word "for" :: _ => some (true, ts)
  | _ => some (false, ts)

def comprehension : (fuel : Nat) → Parse PUnit
  | 0 => failure
  | fuel + 1 => do
    let _ ← skipWord "async"
    word "for"
    targets fuel
    word "in"
    let _ ← disjunction fuel
    conditions fuel
    if ← isComprehension then comprehension fuel else return

def conditions : (fuel : Nat) → Parse PUnit
  | 0 => failure
  | fuel + 1 => do
    if ← skipWord "if" then
      let _ ← disjunction fuel
      conditions fuel
    else return

/-- A target of an assignment, starred or not. -/
def target : (fuel : Nat) → Parse PUnit
  | 0 => failure
  | fuel + 1 => do
    let _ ← skipMark "*"
    let s ← primary fuel
    if s.isUnstarred then return else failure

/-- Targets with commas between them. -/
def targets : (fuel : Nat) → Parse PUnit
  | 0 => failure
  | fuel + 1 => do
    let _ ← items fuel (target fuel)

/-- The arguments of a call up to its closing parenthesis. A comprehension is the only argument. -/
def arguments : (fuel : Nat) → (comprehensions : Bool) → ArgumentPhase → Parse PUnit
  | 0, _, _ => failure
  | fuel + 1, comprehensions, phase => do
    if ← isMark ")" then return
    else if ← skipMark "**" then
      let _ ← expression fuel
      moreArguments fuel .mapping
    else if ← skipMark "*" then
      if phase = .mapping then failure
      else
        let _ ← expression fuel
        moreArguments fuel phase
    else if ← isNameBefore "=" then
      advance
      advance
      let _ ← expression fuel
      moreArguments fuel (if phase = .mapping then .mapping else .keyword)
    else if phase ≠ .positional then failure
    else
      let _ ← namedExpression fuel
      if comprehensions && (← isComprehension) then comprehension fuel
      else moreArguments fuel phase

/-- The arguments behind one of them. -/
def moreArguments : (fuel : Nat) → ArgumentPhase → Parse PUnit
  | 0, _ => failure
  | fuel + 1, phase => do
    if ← skipMark "," then arguments fuel false phase else return

/-- An index, a slice or a starred expression. -/
def slice : (fuel : Nat) → Parse PUnit
  | 0 => failure
  | fuel + 1 => do
    if ← skipMark "*" then
      let _ ← expression fuel
    else if ← isMark ":" then bounds fuel 2
    else
      let s ← namedExpression fuel
      if s.isPlain && (← isMark ":") then bounds fuel 2 else return

/-- The further bounds of a slice, each after a colon and each optional. -/
def bounds : (fuel : Nat) → (most : Nat) → Parse PUnit
  | 0, _ => failure
  | fuel + 1, most => do
    if most ≠ 0 && (← skipMark ":") then
      let _ ← attempt (expression fuel)
      bounds fuel (most - 1)
    else return

/-- An expression with an optional condition, or a function. -/
def expression : (fuel : Nat) → Parse Shape
  | 0 => failure
  | fuel + 1 => do
    if ← skipWord "lambda" then
      parameters false ":" (expression fuel) (expression fuel) fuel {}
      mark ":"
      let _ ← expression fuel
      return .other
    else
      let s ← disjunction fuel
      if ← skipWord "if" then
        let _ ← disjunction fuel
        word "else"
        let _ ← expression fuel
        return .other
      else return s

/-- An expression, perhaps with a name of its own. -/
def namedExpression : (fuel : Nat) → Parse Shape
  | 0 => failure
  | fuel + 1 => do
    if ← isNameBefore ":=" then
      advance
      advance
      let _ ← expression fuel
      return .named
    else expression fuel

def starNamed : (fuel : Nat) → Parse Shape
  | 0 => failure
  | fuel + 1 => do
    if ← skipMark "*" then return .starred (← arithmetic fuel) else namedExpression fuel

def starExpression : (fuel : Nat) → Parse Shape
  | 0 => failure
  | fuel + 1 => do
    if ← skipMark "*" then return .starred (← arithmetic fuel) else expression fuel

/-- Expressions with commas between them, and whether there was any comma. -/
def starExpressions : (fuel : Nat) → Parse (List Shape × Bool)
  | 0 => failure
  | fuel + 1 => items fuel (starExpression fuel)

def yieldExpression : (fuel : Nat) → Parse PUnit
  | 0 => failure
  | fuel + 1 => do
    word "yield"
    if ← skipWord "from" then
      let _ ← expression fuel
    else
      let _ ← attempt (starExpressions fuel)

end

end Graphwright.Grammar
