import Graphwright.Text.Printable

/-!
# Quoted text

The form in which messages and default values show a text: single quotes, or double quotes when the
text holds single quotes only; backslashes, the chosen quote, control characters and everything that
is not printable are escaped.
-/
namespace Graphwright.Text

/-- The last `width` lower case hexadecimal digits of a code point, after a mark. -/
def hexEscape (mark : Char) (width : Nat) (c : Char) : List Char :=
  let digits := Nat.toDigits 16 c.toNat
  '\\' :: mark :: (List.replicate (width - digits.length) '0' ++ digits)

def quotedChar (quote c : Char) : List Char :=
  if c = quote || c = '\\' then ['\\', c]
  else if c = '\t' then ['\\', 't']
  else if c = '\n' then ['\\', 'n']
  else if c = '\r' then ['\\', 'r']
  else if isPrintable c then [c]
  else if c.toNat < 0x100 then hexEscape 'x' 2 c
  else if c.toNat < 0x10000 then hexEscape 'u' 4 c
  else hexEscape 'U' 8 c

def quoteFor (cs : List Char) : Char :=
  if cs.contains '\'' && !cs.contains '"' then '"' else '\''

def quoted (s : String) : String :=
  let q := quoteFor s.toList
  String.ofList (q :: s.toList.flatMap (quotedChar q) ++ [q])

end Graphwright.Text
