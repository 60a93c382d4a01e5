import Graphwright.Text.Decimal
import Graphwright.Text.Hex
import Graphwright.Text.Quoted

/-!
# JSON values

Values of option files and of data handed to the library. Members keep the order in which they were
written, since messages and error lists follow it; whole numbers are kept apart from fractions.
`Json.shown` is the form in which messages show a value.
-/
namespace Graphwright

inductive Json where
  | null
  | bool (b : Bool)
  | int (n : Int)
  | float (x : Text.Binary64)
  | str (s : String)
  | arr (items : List Json)
  | obj (members : List (String × Json))
  deriving Inhabited

namespace Json

def intText (n : Int) : String :=
  String.ofList ((if n < 0 then ['-'] else []) ++ Nat.toDigits 10 n.natAbs)

mutual

/-- The form of a value in messages: quoted texts, capitalised constants, members in order. -/
def shown : Json → String
  | null => "None"
  | bool b => if b then "True" else "False"
  | int n => intText n
  | float x => x.text
  | str s => Text.quoted s
  | arr items => "[" ++ ", ".intercalate (shownAll items) ++ "]"
  | obj members => "\x7b" ++ ", ".intercalate (shownMembers members) ++ "\x7d"

def shownAll : List Json → List String
  | [] => []
  | v :: rest => shown v :: shownAll rest

def shownMembers : List (String × Json) → List String
  | [] => []
  | (k, v) :: rest => (Text.quoted k ++ ": " ++ shown v) :: shownMembers rest

end

/-- Sets a member: an old one keeps its place, a new one goes to the end. -/
def setMember (members : List (String × Json)) (key : String) (value : Json) :
    List (String × Json) :=
  if members.any (·.1 == key) then
    members.map fun m => if m.1 == key then (key, value) else m
  else members ++ [(key, value)]

def get? (v : Json) (key : String) : Option Json :=
  match v with
  | obj members => (members.find? (·.1 == key)).map (·.2)
  | _ => none

def escapedChar (c : Char) : String :=
  if c = '"' then "\\\"" else if c = '\\' then "\\\\"
  else if c.toNat < 0x20 || c.toNat = 0x7f then "\\u" ++ Text.hex 4 c.toNat
  else c.toString

def literal (s : String) : String :=
  "\"" ++ String.join (s.toList.map escapedChar) ++ "\""

mutual

/-- The JSON text of a value, without blanks. -/
def compact : Json → String
  | null => "null"
  | bool b => if b then "true" else "false"
  | int n => intText n
  | float x => x.text
  | str s => literal s
  | arr items => "[" ++ ",".intercalate (compactAll items) ++ "]"
  | obj members => "\x7b" ++ ",".intercalate (compactMembers members) ++ "\x7d"

def compactAll : List Json → List String
  | [] => []
  | v :: rest => compact v :: compactAll rest

def compactMembers : List (String × Json) → List String
  | [] => []
  | (k, v) :: rest => (literal k ++ ":" ++ compact v) :: compactMembers rest

end

end Json

end Graphwright
