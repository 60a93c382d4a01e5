import Graphwright.Grammar.Pattern

/-!
# Statements of generated modules

The statement grammar, and the test whether a text is a module (`isModule`). Only the grammar
counts: a statement may stand where it has no meaning.
-/
namespace Graphwright.Grammar

open Parse

/-- The marks that assign the outcome of an operation. -/
def augmentedMarks : List String :=
  ["+=", "-=", "*=", "@=", "/=", "%=", "&=", "|=", "^=", "<<=", ">>=", "**=", "//="]

/-! ## Simple statements -/

def assignedValue (fuel : Nat) : Parse (Option (List Shape)) := do
  if ← isWord "yield" then
    yieldExpression fuel
    return none
  else return some (← starExpressions fuel).1

/-- The values behind the targets of an assignment. -/
def assignments (targets : List Shape) : (fuel : Nat) → Parse PUnit
  | 0 => failure
  | fuel + 1 => do
    if ← skipMark "=" then
      if Shape.areTargets targets then
        match ← assignedValue fuel with
        | some shapes => assignments shapes fuel
        | none => if ← isMark "=" then failure else return
      else failure
    else return

/-- A statement that begins with an expression. -/
def expressionStatement (fuel : Nat) : Parse PUnit := do
  let (shapes, comma) ← starExpressions fuel
  if ← isMark "=" then assignments shapes fuel
  else
    let single := match shapes, comma with
      | [s], false => s.isSingleTarget
      | _, _ => false
    if ← skipMark ":" then
      if single then
        let _ ← expression fuel
        if ← skipMark "=" then
          let _ ← assignedValue fuel
      else failure
    else if ← skipAnyMark augmentedMarks then
      if single then
        let _ ← assignedValue fuel
      else failure
    else return

def importedModule (fuel : Nat) : Parse PUnit := do
  dottedName fuel false
  if ← skipWord "as" then
    let _ ← name

def importedName : Parse PUnit := do
  let _ ← name
  if ← skipWord "as" then
    let _ ← name

/-- The dots before a relative module and whether there were any. -/
def skipDots : (fuel : Nat) → Parse Bool
  | 0 => return false
  | fuel + 1 => do
    if ← skipAnyMark [".", "..."] then
      let _ ← skipDots fuel
      return true
    else return false

def importFrom (fuel : Nat) : Parse PUnit := do
  let relative ← skipDots fuel
  if !(relative && (← isWord "import")) then dottedName fuel false
  word "import"
  if ← skipMark "*" then return
  else if ← skipMark "(" then
    let _ ← items fuel importedName
    mark ")"
  else
    let _ ← strictItems importedName fuel

/-- The values that a statement deletes. -/
def deletion (fuel : Nat) : Parse PUnit := do
  let (shapes, _) ← items fuel (primary fuel)
  if Shape.areDeletable shapes then return else failure

def simpleStatement (fuel : Nat) : Parse PUnit := do
  if ← skipAnyWord ["pass", "break", "continue"] then return
  else if ← skipWord "return" then
    let _ ← attempt (starExpressions fuel)
  else if ← skipWord "import" then
    let _ ← strictItems (importedModule fuel) fuel
  else if ← skipWord "from" then importFrom fuel
  else if ← skipWord "raise" then
    if (← attempt (expression fuel)).isSome then
      if ← skipWord "from" then
        let _ ← expression fuel
  else if ← skipWord "del" then deletion fuel
  else if ← skipWord "assert" then
    let _ ← expression fuel
    if ← skipMark "," then
      let _ ← expression fuel
  else if ← skipAnyWord ["global", "nonlocal"] then
    let _ ← strictItems name fuel
  else if ← isWord "yield" then yieldExpression fuel
  else expressionStatement fuel

/-- Simple statements up to the end of their line. -/
def simpleStatements : (fuel : Nat) → Parse PUnit
  | 0 => failure
  | fuel + 1 => do
    simpleStatement fuel
    if ← skipMark ";" then
      if ← skip .newline then return else simpleStatements fuel
    else token .newline

/-! ## Compound statements -/

def withItem (fuel : Nat) : Parse PUnit := do
  let _ ← expression fuel
  if ← skipWord "as" then target fuel

/-- The contexts of a with statement up to the colon, in parentheses or not. -/
def withItems (fuel : Nat) : Parse PUnit :=
  either
    (do
      mark "("
      let _ ← items fuel (withItem fuel)
      mark ")"
      mark ":")
    (do
      let _ ← strictItems (withItem fuel) fuel
      mark ":")

def decorators : (fuel : Nat) → Parse PUnit
  | 0 => failure
  | fuel + 1 => do
    if ← skipMark "@" then
      let _ ← namedExpression fuel
      token .newline
      decorators fuel
    else return

def isDefinition : Parse Bool := fun ts => match ts with
  | .word "async" :: .word w :: _ => some (w == "def", ts)
  | .word w :: _ => some (w == "def" || w == "class", ts)
  | _ => some (false, ts)

/-- The value that cases are tried on. -/
def subject (fuel : Nat) : Parse PUnit := do
  let first ← starNamed fuel
  let (more, comma) ← moreItems (starNamed fuel) fuel
  if first.isValue || comma || !more.isEmpty then return else failure

mutual

def statement : (fuel : Nat) → Parse PUnit
  | 0 => failure
  | fuel + 1 => do
    match ← next? with
    | some (.mark "@") =>
      decorators fuel
      if ← isDefinition then definition fuel else failure
    | some (.word w) =>
      if w = "def" || w = "class" || w = "async" then definition fuel
      else if w = "if" || w = "while" || w = "for" || w = "with" || w = "try" then compound fuel
      else if w = "match" then either (matching fuel) (simpleStatements fuel)
      else simpleStatements fuel
    | _ => simpleStatements fuel

/-- A function or a class, or a statement that is not synchronous. -/
def definition : (fuel : Nat) → Parse PUnit
  | 0 => failure
  | fuel + 1 => do
    if ← skipWord "class" then
      let _ ← name
      if ← skipMark "(" then
        arguments fuel false .positional
        mark ")"
      block fuel
    else
      let async ← skipWord "async"
      if ← skipWord "def" then
        let _ ← name
        mark "("
        parameters true ")" (expression fuel) (starExpression fuel) fuel {}
        mark ")"
        if ← skipMark "->" then
          let _ ← expression fuel
        block fuel
      else if async && ((← isWord "for") || (← isWord "with")) then compound fuel
      else failure

def compound : (fuel : Nat) → Parse PUnit
  | 0 => failure
  | fuel + 1 => do
    if ← skipWord "if" then branches fuel
    else if ← skipWord "while" then
      let _ ← namedExpression fuel
      block fuel
      otherwise fuel
    else if ← skipWord "for" then
      targets fuel
      word "in"
      let _ ← starExpressions fuel
      block fuel
      otherwise fuel
    else if ← skipWord "with" then
      withItems fuel
      blockBody fuel
    else
      word "try"
      block fuel
      if ← isWord "except" then
        advance
        let group ← isMark "*"
        handler fuel group
        handlers fuel group
        otherwise fuel
        if ← skipWord "finally" then block fuel
      else
        word "finally"
        block fuel

def branches : (fuel : Nat) → Parse PUnit
  | 0 => failure
  | fuel + 1 => do
    let _ ← namedExpression fuel
    block fuel
    if ← skipWord "elif" then branches fuel else otherwise fuel

/-- The block for all other cases, if there is one. -/
def otherwise : (fuel : Nat) → Parse PUnit
  | 0 => failure
  | fuel + 1 => do
    if ← skipWord "else" then block fuel

/-- The handler of an exception after its word, or of a group of them. -/
def handler : (fuel : Nat) → (group : Bool) → Parse PUnit
  | 0, _ => failure
  | fuel + 1, group => do
    if group then mark "*"
    if !group && (← isMark ":") then block fuel
    else
      let _ ← expression fuel
      if ← skipWord "as" then
        let _ ← name
      block fuel

def handlers : (fuel : Nat) → (group : Bool) → Parse PUnit
  | 0, _ => failure
  | fuel + 1, group => do
    if ← skipWord "except" then
      handler fuel group
      handlers fuel group

def matching : (fuel : Nat) → Parse PUnit
  | 0 => failure
  | fuel + 1 => do
    word "match"
    subject fuel
    mark ":"
    token .newline
    token .indent
    cases fuel

/-- At least one case, and the end of their block. -/
def cases : (fuel : Nat) → Parse PUnit
  | 0 => failure
  | fuel + 1 => do
    word "case"
    patterns fuel
    if ← skipWord "if" then
      let _ ← namedExpression fuel
    block fuel
    if ← skip .dedent then return else cases fuel

def block : (fuel : Nat) → Parse PUnit
  | 0 => failure
  | fuel + 1 => do
    mark ":"
    blockBody fuel

/-- A block on deeper lines, or on the same line. -/
def blockBody : (fuel : Nat) → Parse PUnit
  | 0 => failure
  | fuel + 1 => do
    if ← skip .newline then
      token .indent
      statement fuel
      statements fuel
      token .dedent
    else simpleStatements fuel

def statements : (fuel : Nat) → Parse PUnit
  | 0 => failure
  | fuel + 1 => do
    match ← next? with
    | none | some .dedent => return
    | _ =>
      statement fuel
      statements fuel

end

def isModule (text : String) : Bool :=
  match tokens? text.toList with
  | none => false
  | some ts =>
    match statements (20 * ts.length + 40) ts with
    | some (_, []) => true
    | _ => false

end Graphwright.Grammar
