import LiveQuery.Json.Basic
import LiveQuery.Json.Quoted
import LiveQuery.Binary64.Decimal

/-!
# Json/Reader — reading a JSON text

The reader is strict: one value, white space only of the four kinds JSON names, nothing after it.
`value` recurses on **how many containers may still be opened**, so the limit on nesting is the
recursion itself; inside one container `sequence` reads item after item, at most as many as the text
has characters.  Any fault makes the whole text unreadable: the answer is a value or nothing.
-/

namespace LiveQuery.Json

open Text

/-- The white space between tokens. -/
def isSpace (c : Char) : Bool := c == ' ' || c == '\t' || c == '\n' || c == '\r'

/-- Drops the white space in front. -/
def skipSpace (cs : List Char) : List Char := cs.dropWhile isSpace

/-- **A reader of one item**: the item and what follows it. -/
abbrev Scan (α : Type) := List Char → Option (α × List Char)

/-! ## Numbers -/

/-- The numerals JSON allows: digits without a leading zero, and digits after a point. -/
def isStrictNumeral (n : Numeral) : Bool :=
  n.whole ≠ [] && (n.whole = ['0'] || n.whole.head? ≠ some '0') && n.fraction ≠ some []

/-- **The value of a numeral**: an integer if it is written as one and fits, else a float.  Minus
zero is a float, since no integer has its sign. -/
def numberOf? (n : Numeral) : Option Number :=
  let magnitude : Int := natOfDigits n.whole
  let asInteger :=
    if n.isWhole && !(n.negative && magnitude == 0) then
      Integer.ofInt? (if n.negative then -magnitude else magnitude)
    else none
  match asInteger with
  | some i => some (.int i)
  | none => (Binary64.ofDecimal n.decimal).finite?.map .float

/-- Reads a number. -/
def scanNumber (cs : List Char) : Option (Number × List Char) :=
  let (negative, digits) := match cs with
    | '-' :: rest => (true, rest)
    | _ => (false, cs)
  match Numeral.scan negative digits with
  | some (n, rest) => if isStrictNumeral n then (numberOf? n).map (·, rest) else none
  | none => none

/-! ## Containers -/

/-- **One or more items with commas between them, up to a closing character**, after the items
already read (latest first).  The count bounds the number of items. -/
def sequence {α : Type} (item : Scan α) (close : Char) (read : List α) :
    Nat → List Char → Option (List α × List Char)
  | 0, _ => none
  | n + 1, cs =>
    match item cs with
    | none => none
    | some (a, rest) =>
      match skipSpace rest with
      | [] => none
      | c :: rest =>
        if c = ',' then sequence item close (a :: read) n rest
        else if c = close then some ((a :: read).reverse, rest)
        else none

/-- Items up to a closing character; there may be none. -/
def items {α : Type} (item : Scan α) (close : Char) (bound : Nat) (cs : List Char) :
    Option (List α × List Char) :=
  match skipSpace cs with
  | [] => none
  | c :: rest => if c = close then some ([], rest) else sequence item close [] bound (c :: rest)

/-- A quoted key, a colon and a value. -/
def member (value : Scan Json) (cs : List Char) : Option ((String × Json) × List Char) :=
  match skipSpace cs with
  | '"' :: rest =>
    match scanQuoted rest with
    | none => none
    | some (key, rest) =>
      match skipSpace rest with
      | ':' :: rest => (value rest).map fun (v, rest) => ((String.ofList key, v), rest)
      | _ => none
  | _ => none

/-- **Reads a value**, white space before it skipped, in which at most `depth` containers are open
at once and none holds more than `bound` items. -/
def value (bound : Nat) : (depth : Nat) → List Char → Option (Json × List Char)
  | 0, cs => scalar (skipSpace cs)
  | depth + 1, cs =>
    match skipSpace cs with
    | '[' :: rest =>
      (items (value bound depth) ']' bound rest).map fun (vs, rest) => (.array vs, rest)
    | '\x7b' :: rest =>
      (items (member (value bound depth)) '\x7d' bound rest).map fun (ms, rest) =>
        (ofMembers ms, rest)
    | cs => scalar cs
where
  /-- Reads a value that is no container. -/
  scalar : List Char → Option (Json × List Char)
    | 'n' :: 'u' :: 'l' :: 'l' :: rest => some (.null, rest)
    | 't' :: 'r' :: 'u' :: 'e' :: rest => some (.bool true, rest)
    | 'f' :: 'a' :: 'l' :: 's' :: 'e' :: rest => some (.bool false, rest)
    | '"' :: rest => (scanQuoted rest).map fun (s, rest) => (.string (String.ofList s), rest)
    | cs => (scanNumber cs).map fun (n, rest) => (.number n, rest)

/-- How many containers may be open at once in a text from outside. -/
def maxDepth : Nat := 127

/-- **Reads a text that is one value and nothing else**, white space around it apart. -/
def readWithin? (depth : Nat) (cs : List Char) : Option Json :=
  match value cs.length depth cs with
  | some (v, rest) => if skipSpace rest = [] then some v else none
  | none => none

/-- **Reads a JSON text from outside.** -/
def read? (s : String) : Option Json := readWithin? maxDepth s.toList

end LiveQuery.Json
