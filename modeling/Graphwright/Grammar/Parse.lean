import Graphwright.Grammar.Lexer
import Graphwright.Naming.Identifier

/-!
# Recognising tokens

A recogniser takes tokens from the front of a list or fails. What it answers is the shape of what it
has read, as far as that decides where an expression may stand.
-/
namespace Graphwright.Grammar

/-- A recogniser. -/
abbrev Parse := StateT (List Token) Option

namespace Parse

def next? : Parse (Option Token) := fun ts => some (ts.head?, ts)

def isNext (t : Token) : Parse Bool := fun ts => some (ts.head? == some t, ts)

def isMark (m : String) : Parse Bool := isNext (.mark m)

def isWord (w : String) : Parse Bool := isNext (.word w)

def advance : Parse PUnit := fun ts => match ts with
  | _ :: rest => some ((), rest)
  | [] => none

def token (t : Token) : Parse PUnit := fun ts => match ts with
  | u :: rest => if u = t then some ((), rest) else none
  | [] => none

def mark (m : String) : Parse PUnit := token (.mark m)

def word (w : String) : Parse PUnit := token (.word w)

/-- Takes a given token if it is next, and tells whether it was. -/
def skip (t : Token) : Parse Bool := do
  if ← isNext t then
    advance
    return true
  else return false

def skipMark (m : String) : Parse Bool := skip (.mark m)

def skipWord (w : String) : Parse Bool := skip (.word w)

/-- A word that names something. -/
def isName (w : String) : Bool := w ∉ Naming.reservedWords

def name : Parse String := fun ts => match ts with
  | .word w :: rest => if isName w then some (w, rest) else none
  | _ => none

/-- The next two tokens are a name and a given mark. -/
def isNameBefore (m : String) : Parse Bool := fun ts => match ts with
  | .word w :: .mark n :: _ => some (isName w && n == m, ts)
  | _ => some (false, ts)

/-- What a recogniser reads, or nothing where it fails. -/
def attempt {α : Type} (p : Parse α) : Parse (Option α) := fun ts =>
  match p ts with
  | some (a, rest) => some (some a, rest)
  | none => some (none, ts)

/-- The first of two recognisers that does not fail. -/
def either {α : Type} (p q : Parse α) : Parse α := fun ts =>
  match p ts with
  | some r => some r
  | none => q ts

/-- Items that follow commas, and whether a comma ends them. -/
def moreItems {α : Type} (item : Parse α) : (fuel : Nat) → Parse (List α × Bool)
  | 0 => return ([], false)
  | fuel + 1 => do
    if ← skipMark "," then
      match ← attempt item with
      | some a =>
        let (rest, comma) ← moreItems item fuel
        return (a :: rest, comma)
      | none => return ([], true)
    else return ([], false)

/-- Items with commas between them; a comma may end them. Answers the items, and whether there was
any comma. -/
def items {α : Type} (fuel : Nat) (item : Parse α) : Parse (List α × Bool) := do
  let first ← item
  let (rest, comma) ← moreItems item fuel
  return (first :: rest, comma || !rest.isEmpty)

/-- Items with commas between them, and none at the end. -/
def strictItems {α : Type} (item : Parse α) : (fuel : Nat) → Parse (List α)
  | 0 => failure
  | fuel + 1 => do
    let first ← item
    if ← skipMark "," then return first :: (← strictItems item fuel) else return [first]

end Parse

/-! ## Shapes -/

/-- What an expression looks like from outside. -/
inductive Shape where
  | name
  /-- A part of a value: an attribute, or what an index selects. -/
  | part
  /-- An expression in parentheses. -/
  | group (inner : Shape)
  | tuple (items : List Shape)
  | list (items : List Shape)
  | starred (inner : Shape)
  /-- A named expression. -/
  | named
  /-- Any other expression. -/
  | other
  deriving Inhabited

namespace Shape

/-- Can be assigned to together with an operation. -/
def isSingleTarget : Shape → Bool
  | name | part => true
  | group s => s.isSingleTarget
  | _ => false

mutual

/-- Can be assigned to; parts of lists of targets may be starred. -/
def isTarget : Shape → Bool
  | name | part => true
  | group s => isUnstarred s
  | tuple ss | list ss => areTargets ss
  | starred s => isUnstarred s
  | named | other => false

/-- Can be assigned to, and is not starred. -/
def isUnstarred : Shape → Bool
  | name | part => true
  | group s => isUnstarred s
  | tuple ss | list ss => areTargets ss
  | starred _ | named | other => false

def areTargets : List Shape → Bool
  | [] => true
  | s :: rest => isTarget s && areTargets rest

end

mutual

def isDeletable : Shape → Bool
  | name | part => true
  | group s => isDeletable s
  | tuple ss | list ss => areDeletable ss
  | starred _ | named | other => false

def areDeletable : List Shape → Bool
  | [] => true
  | s :: rest => isDeletable s && areDeletable rest

end

/-- Neither starred nor named. -/
def isPlain : Shape → Bool
  | starred _ | named => false
  | _ => true

/-- Not starred. -/
def isValue : Shape → Bool
  | starred _ => false
  | _ => true

end Shape

end Graphwright.Grammar
