import Graphwright.Json.Reader
import Graphwright.Document.Syntax

/-!
# Default values

The default of an input field as the generated module writes it: the plain value that a literal of a
schema spells out. Values of enums are texts; of object fields with one name the last counts. A
whole number that is too long to be converted has no plain value.
-/
namespace Graphwright.Types

open Document (Value)

def plainNumber (text : String) : Except Json.Fault Json :=
  match text.toList with
  | '-' :: digits => (Json.number true digits).map (·.1)
  | digits => (Json.number false digits).map (·.1)

mutual

def plain : Value → Except Json.Fault Json
  | .variable _ => .ok .null
  | .int text => plainNumber text
  | .float text => plainNumber text
  | .string text _ => .ok (.str text)
  | .boolean b => .ok (.bool b)
  | .null => .ok .null
  | .enum name => .ok (.str name)
  | .list items => (plainItems items).map .arr
  | .object fields => (plainFields [] fields).map .obj

def plainItems : List Value → Except Json.Fault (List Json)
  | [] => .ok []
  | v :: rest => do
    let first ← plain v
    return first :: (← plainItems rest)

/-- The plain values of the fields of an object, after those already read. -/
def plainFields (done : List (String × Json)) :
    List (String × Value) → Except Json.Fault (List (String × Json))
  | [] => .ok done
  | (name, v) :: rest => do
    let value ← plain v
    plainFields (Json.setMember done name value) rest

end

def defaultText (v : Value) : Except Json.Fault String := (plain v).map (·.shown)

end Graphwright.Types
