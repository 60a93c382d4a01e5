/-!
# Patterns for file names

In a pattern `*` stands for any characters, `?` for one, and a set in brackets for one of its
members; an exclamation mark in front turns a set around. A bracket that is not closed stands for
itself.
-/
namespace Graphwright.Files.Pattern

inductive Item where
  /-- Any characters. -/
  | any
  /-- One character of a kind. -/
  | one (p : Char → Bool)

def follows : List Item → List Char → Bool
  | [], cs => cs.isEmpty
  | .any :: rest, cs => (List.range (cs.length + 1)).any fun k => follows rest (cs.drop k)
  | .one p :: rest, c :: cs => p c && follows rest cs
  | .one _ :: _, [] => false

/-! ## Sets -/

/-- A hyphen between characters of a set, or one of them. -/
inductive SetPart where
  | char (c : Char)
  | hyphen

/-- The pieces of a set around those hyphens that may make ranges: the first after at least one
character, each further one after at least two. -/
def pieces (least : Nat) : (fuel : Nat) → List Char → List (List Char)
  | 0, cs => [cs]
  | fuel + 1, cs =>
    let skipped := cs.take least
    let run := (cs.drop least).takeWhile (· != '-')
    match cs.drop (least + run.length) with
    | [] => [cs]
    | _ :: rest => (skipped ++ run) :: pieces 2 fuel rest

/-- An empty piece at the end is a hyphen of the piece before it. -/
def closePieces : List (List Char) → List (List Char)
  | [p, []] => [p ++ ['-']]
  | p :: rest => p :: closePieces rest
  | [] => []

/-- Joins neighbours whose range would be empty, from the end on. -/
def joinEmpty : List (List Char) → List (List Char)
  | [] => []
  | p :: rest =>
    match joinEmpty rest with
    | [] => [p]
    | q :: more =>
      match p.getLast?, q.head? with
      | some a, some b => if b < a then (p.dropLast ++ q.drop 1) :: more else p :: q :: more
      | _, _ => p :: q :: more

def setParts (cs : List Char) : List SetPart :=
  if cs.contains '-' then
    let first := if cs.head? = some '!' then 2 else 1
    let ps := joinEmpty (closePieces (pieces first cs.length cs))
    ([SetPart.hyphen] : List SetPart).intercalate (ps.map (·.map .char))
  else cs.map .char

/-- The character is in the set that some parts describe. -/
def isMember (x : Char) : List SetPart → Bool
  | .char a :: .hyphen :: .char b :: rest => (a ≤ x && x ≤ b) || isMember x rest
  | .char a :: rest => x == a || isMember x rest
  | .hyphen :: rest => x == '-' || isMember x rest
  | [] => false

/-- One character of the set with some text. -/
def setItem (cs : List Char) : Item :=
  match setParts cs with
  | .char '!' :: rest => .one fun x => rest.isEmpty || !isMember x rest
  | ps => .one fun x => isMember x ps

/-- The length of the text of a set after its bracket, if it is closed. A closing bracket in front
is a member. -/
def setLength? (cs : List Char) : Option Nat :=
  let skip := if cs.head? = some '!' then 1 else 0
  let skip := if (cs.drop skip).head? = some ']' then skip + 1 else skip
  let run := (cs.drop skip).takeWhile (· != ']')
  if skip + run.length < cs.length then some (skip + run.length) else none

def items : (fuel : Nat) → List Char → List Item
  | 0, _ => []
  | _, [] => []
  | fuel + 1, '*' :: rest => .any :: items fuel (rest.dropWhile (· == '*'))
  | fuel + 1, '?' :: rest => .one (fun _ => true) :: items fuel rest
  | fuel + 1, '[' :: rest =>
    match setLength? rest with
    | some n => setItem (rest.take n) :: items fuel (rest.drop (n + 1))
    | none => .one (· == '[') :: items fuel rest
  | fuel + 1, c :: rest => .one (· == c) :: items fuel rest

def isMatch (pattern name : List Char) : Bool := follows (items pattern.length pattern) name

/-- The text has a character with a meaning in patterns. -/
def hasMeaning (cs : List Char) : Bool := cs.any fun c => c = '*' || c = '?' || c = '['

end Graphwright.Files.Pattern
