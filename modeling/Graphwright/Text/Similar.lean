import Graphwright.Text.Case

/-!
# Similar names

Suggestions for a misspelt name: the known names within an edit distance that grows with the length
of the name, nearest first and otherwise in natural order, in which runs of digits count as numbers.
A change of case alone is one edit, and so is the exchange of two neighbours.
-/
namespace Graphwright.Text

/-- The next row of the table of edit distances. `row2` and `row1` are the two rows before it, `c`
its character, `previous?` the character of the row before, and `left` its cell so far. The other
word is given by its characters `ys`, with `y?` the one before them, and `d2`, `d1` are the cells of
the rows before, to the upper left. -/
def nextCells (c : Char) (previous? : Option Char) (left : Nat) (y? : Option Char) :
    (ys : List Char) → (row2 row1 : List Nat) → List Nat
  | y :: ys, row2, d1 :: u :: row1 =>
    let base := min (min (u + 1) (left + 1)) (d1 + if c = y then 0 else 1)
    let cell := match row2 with
      | d2 :: _ =>
        if y? = some c && previous? = some y then min base (d2 + 1) else base
      | [] => base
    cell :: nextCells c previous? cell (some y) ys
      (if y?.isNone then row2 else row2.drop 1) (u :: row1)
  | _, _, _ => []

/-- The last row of the table of edit distances, from two rows on. -/
def lastRow (ys : List Char) (previous? : Option Char) (row2 row1 : List Nat) (index : Nat) :
    List Char → List Nat
  | [] => row1
  | x :: xs =>
    lastRow ys (some x) row1 (index :: nextCells x previous? index none ys row2 row1) (index + 1) xs

/-- The least number of insertions, deletions, replacements and exchanges of neighbours. -/
def editDistance (xs ys : List Char) : Nat :=
  ((lastRow ys none [] (List.range (ys.length + 1)) 1 xs).getLast?).getD 0

/-- The distance of two names, where a change of case counts as one edit. -/
def nameDistance (a b : String) : Nat :=
  if a = b then 0
  else
    let x := lower a.toList
    let y := lower b.toList
    if x = y then 1 else editDistance x y

/-- A text cut into runs of other characters and runs of digits. -/
inductive NaturalPart where
  | text (cs : List Char)
  | number (n : Nat) (cs : List Char)

/-- The parts of a text, digits and others in turn, beginning with others. -/
def naturalParts : (fuel : Nat) → List Char → List NaturalPart
  | 0, _ => []
  | fuel + 1, cs =>
    let words := cs.takeWhile (!·.isDigit)
    let rest := cs.dropWhile (!·.isDigit)
    if rest.isEmpty then [.text words]
    else
      let ds := rest.takeWhile (·.isDigit)
      .text words :: .number (ds.foldl (fun n d => n * 10 + (d.toNat - 48)) 0) ds ::
        naturalParts fuel (rest.dropWhile (·.isDigit))

/-- Earlier in lexicographic order by code points. -/
def charsBefore : List Char → List Char → Bool
  | [], [] => false
  | [], _ :: _ => true
  | _ :: _, [] => false
  | a :: as, b :: bs => if a = b then charsBefore as bs else a.toNat < b.toNat

/-- Earlier in natural order. -/
def partsBefore : List NaturalPart → List NaturalPart → Bool
  | [], [] => false
  | [], _ :: _ => true
  | _ :: _, [] => false
  | .text a :: as, .text b :: bs => if a = b then partsBefore as bs else charsBefore a b
  | .number m a :: as, .number n b :: bs =>
    if m = n then if a = b then partsBefore as bs else charsBefore a b else m < n
  | .number _ _ :: _, .text _ :: _ => true
  | .text _ :: _, .number _ _ :: _ => false

def naturalBefore (a b : String) : Bool :=
  partsBefore (naturalParts (a.length + 1) a.toList) (naturalParts (b.length + 1) b.toList)

/-- The known names near a name, nearest first. -/
def similar (name : String) (known : List String) : List String :=
  let threshold := name.length * 2 / 5 + 1
  let near := known.eraseDups.filterMap fun k =>
    let d := nameDistance name k
    if d ≤ threshold then some (d, k) else none
  let sorted := near.mergeSort fun a b =>
    if a.1 = b.1 then !naturalBefore b.2 a.2 else a.1 < b.1
  sorted.map (·.2)

def alternatives : List String → String
  | [] => ""
  | [a] => "'" ++ a ++ "'"
  | [a, b] => "'" ++ a ++ "' or '" ++ b ++ "'"
  | a :: rest =>
    let quotedNames := (a :: rest).map fun n => "'" ++ n ++ "'"
    ", ".intercalate quotedNames.dropLast ++ ", or " ++ (quotedNames.getLast?).getD ""

/-- A question after at most five suggestions, if there are any. -/
def didYouMean (suggestions : List String) : String :=
  if suggestions.isEmpty then ""
  else " Did you mean " ++ alternatives (suggestions.take 5) ++ "?"

end Graphwright.Text
