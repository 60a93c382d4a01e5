import Graphwright.Text.Word

/-!
# Lines, trimming, splitting and joining

Texts are handled as lists of characters. `splitLines` cuts at every line boundary of Unicode;
`fields` cuts at one character and keeps empty pieces, so that joining the pieces gives the text
back (`joinWith_fields`).
-/
namespace Graphwright.Text

/-- A character that ends a line: line feed, vertical tab, form feed, carriage return, the file,
group and record separators, next line, and the line and paragraph separators. -/
def isLineBreak (c : Char) : Bool :=
  inRanges [(0xa, 0xd), (0x1c, 0x1e), (0x85, 0x85), (0x2028, 0x2029)] c.toNat

/-- The lines of a text whose current line began with `acc` (reversed). A carriage return and the
line feed after it are one break; a break at the very end opens no further line. -/
def linesFrom (acc : List Char) : List Char → List (List Char)
  | [] => if acc.isEmpty then [] else [acc.reverse]
  | '\r' :: '\n' :: rest => acc.reverse :: linesFrom [] rest
  | c :: rest =>
    if isLineBreak c then acc.reverse :: linesFrom [] rest else linesFrom (c :: acc) rest

def splitLines (cs : List Char) : List (List Char) := linesFrom [] cs

def lines (s : String) : List String := (splitLines s.toList).map String.ofList

/-- The lines of a text with their breaks, the current one having begun with `acc` (reversed). -/
def keptLinesFrom (acc : List Char) : List Char → List (List Char)
  | [] => if acc.isEmpty then [] else [acc.reverse]
  | '\r' :: '\n' :: rest => ('\n' :: '\r' :: acc).reverse :: keptLinesFrom [] rest
  | c :: rest =>
    if isLineBreak c then (c :: acc).reverse :: keptLinesFrom [] rest
    else keptLinesFrom (c :: acc) rest

/-- The lines of a text with their breaks; together they are the text. -/
def keptLines (cs : List Char) : List (List Char) := keptLinesFrom [] cs

theorem flatten_keptLinesFrom (acc cs : List Char) :
    (keptLinesFrom acc cs).flatten = acc.reverse ++ cs := by
  fun_induction keptLinesFrom acc cs with
  | case1 acc h => simp_all
  | case2 acc => simp
  | case3 acc rest ih => simp [ih]
  | case4 acc c rest _ _ ih => simp [ih]
  | case5 acc c rest _ _ ih => simp [ih]

/-- No character is lost when a text is cut into lines with their breaks. -/
theorem flatten_keptLines (cs : List Char) : (keptLines cs).flatten = cs := by
  simp [keptLines, flatten_keptLinesFrom]

/-- A text with an indentation before each line that does not consist of blanks. -/
def indentLines (indentation : List Char) (cs : List Char) : List Char :=
  (keptLines cs).flatMap fun line => if line.all isBlank then line else indentation ++ line

/-- Carriage returns, alone or before a line feed, become line feeds. -/
def unifyLineEnds : List Char → List Char
  | '\r' :: '\n' :: rest => '\n' :: unifyLineEnds rest
  | '\r' :: rest => '\n' :: unifyLineEnds rest
  | c :: rest => c :: unifyLineEnds rest
  | [] => []

/-- Removes the leading and trailing characters that satisfy `p`. -/
def trimBy (p : Char → Bool) (cs : List Char) : List Char :=
  ((cs.dropWhile p).reverse.dropWhile p).reverse

def trim (cs : List Char) : List Char := trimBy isBlank cs

/-- The pieces of a text between the occurrences of a character; empty pieces are kept. -/
def fields (sep : Char) : List Char → List (List Char)
  | [] => [[]]
  | c :: rest =>
    if c = sep then [] :: fields sep rest
    else match fields sep rest with
      | [] => [[c]]
      | piece :: pieces => (c :: piece) :: pieces

/-- Texts one after another with a separator between neighbours. -/
def joinWith (sep : List Char) : List (List Char) → List Char
  | [] => []
  | [t] => t
  | t :: u :: rest => t ++ sep ++ joinWith sep (u :: rest)

theorem fields_ne_nil (sep : Char) (cs : List Char) : fields sep cs ≠ [] := by
  cases cs with
  | nil => simp [fields]
  | cons c rest =>
    simp only [fields]
    split
    · simp
    · split <;> simp

/-- Joining the pieces of a text with the character they were cut at gives the text back. -/
theorem joinWith_fields (sep : Char) (cs : List Char) : joinWith [sep] (fields sep cs) = cs := by
  induction cs with
  | nil => rfl
  | cons c rest ih =>
    obtain ⟨piece, pieces, h⟩ := List.exists_cons_of_ne_nil (fields_ne_nil sep rest)
    simp only [fields, h] at ih ⊢
    by_cases hc : c = sep
    · simp [hc, joinWith, ih]
    · simp only [hc, if_false]
      cases pieces with
      | nil => simpa [joinWith] using ih
      | cons q qs => simpa [joinWith] using ih

/-- The text before and after the last occurrence of a character; everything counts as after when
there is none. -/
def splitLast (sep : Char) (cs : List Char) : List Char × List Char :=
  let after := (cs.reverse.takeWhile (· != sep)).reverse
  (cs.take (cs.length - after.length - 1), after)

/-- Applies a function on characters to a string. -/
def onChars (f : List Char → List Char) (s : String) : String := String.ofList (f s.toList)

def repeated (n : Nat) (c : Char) : String := String.ofList (List.replicate n c)

/-- A string without the leading and trailing characters that satisfy `p`. -/
def strip (p : Char → Bool) (s : String) : String := onChars (trimBy p) s

/-- Right alignment in a column of `width` characters. -/
def padLeft (width : Nat) (s : String) : String := repeated (width - s.length) ' ' ++ s

end Graphwright.Text
