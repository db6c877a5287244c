import LiveQuery.Json.Basic
import LiveQuery.Json.Quoted
import LiveQuery.Binary64.Decimal

/-!
# Json/Writer — writing a JSON text

The compact form: no white space, members in the order of their keys, integers in decimal, floats by
the shortest decimal that reads back.  The text of a value never holds a line break, so it can stand
on a line of its own.
-/

namespace LiveQuery.Json

open Text

/-- A number in JSON. -/
def writeNumber : Number → List Char
  | .int n => digitsOfInt n.val
  | .float x => x.text Binary64.jsonLayout

mutual

/-- **The compact text of a value.** -/
def write : Json → List Char
  | .null => ['n', 'u', 'l', 'l']
  | .bool true => ['t', 'r', 'u', 'e']
  | .bool false => ['f', 'a', 'l', 's', 'e']
  | .number n => writeNumber n
  | .string s => quote s.toList
  | .array vs => '[' :: writeItems vs ++ [']']
  | .object ms => '\x7b' :: writeMembers ms ++ ['\x7d']

/-- The texts of items, with commas between them. -/
def writeItems : List Json → List Char
  | [] => []
  | v :: vs => write v ++ writeMoreItems vs

/-- The texts of further items, each after a comma. -/
def writeMoreItems : List Json → List Char
  | [] => []
  | v :: vs => ',' :: write v ++ writeMoreItems vs

/-- The texts of members, with commas between them. -/
def writeMembers : List (String × Json) → List Char
  | [] => []
  | (k, v) :: ms => quote k.toList ++ ':' :: write v ++ writeMoreMembers ms

/-- The texts of further members, each after a comma. -/
def writeMoreMembers : List (String × Json) → List Char
  | [] => []
  | (k, v) :: ms => ',' :: quote k.toList ++ ':' :: write v ++ writeMoreMembers ms

end

/-- The compact text of a value, as a string. -/
def text (v : Json) : String := String.ofList v.write

end LiveQuery.Json
