import LiveQuery.Settings.Basic
import LiveQuery.Json.Quoted
import LiveQuery.Text.Blank
import LiveQuery.Word

/-!
# Settings/File — assignments written in a file

A file is read line by line.  A line is blank, names the table that the following keys belong to
(`[table]`), or assigns a text in quotes or an integer to a key; a comment may follow.  A line that
is none of these, a table named twice or a key assigned twice make the file unreadable as a whole.
-/

namespace LiveQuery.Settings

open Text

/-- The white space inside a line. -/
def isLineSpace (c : Char) : Bool := c == ' ' || c == '\t'

/-- Drops the white space in front. -/
def skipLineSpace (cs : List Char) : List Char := cs.dropWhile isLineSpace

/-- Whether a rest of a line says nothing more. -/
def saysNothing (cs : List Char) : Bool :=
  match skipLineSpace cs with
  | [] => true
  | c :: _ => c == '#'

/-! ## Lines -/

/-- **Cuts a text into lines**; a carriage return before a line feed belongs to the end of the
line. -/
def linesOfText (cs : List Char) : List (List Char) :=
  let close (line : List Char) : List Char :=
    match line with
    | '\r' :: rest => rest.reverse
    | line => line.reverse
  let rec go (line : List Char) : List Char → List (List Char)
    | [] => [line.reverse]
    | c :: cs => if c = '\n' then close line :: go [] cs else go (c :: line) cs
  go [] cs

/-! ## Names -/

/-- A character of a name. -/
def isKeyChar (c : Char) : Bool := c.isAlphanum || c == '_' || c == '-'

/-- A name, and what follows it and the white space after it. -/
def scanName? (cs : List Char) : Option (String × List Char) :=
  let (name, rest) := (skipLineSpace cs).span isKeyChar
  if name = [] then none else some (String.ofList name, skipLineSpace rest)

/-- **A path of names with points between them**, of at most so many names, and what follows it. -/
def scanPath? : Nat → List Char → Option (List String × List Char)
  | 0, _ => none
  | n + 1, cs =>
    match scanName? cs with
    | none => none
    | some (name, '.' :: rest) => (scanPath? n rest).map fun (names, rest) => (name :: names, rest)
    | some (name, rest) => some ([name], rest)

/-! ## Values -/

/-- The character that `n` digits of base sixteen write, and what follows them. -/
def scanUnicode? (n : Nat) (cs : List Char) : Option (Char × List Char) := do
  let digits := cs.take n
  if digits.length ≠ n then none
  else
    let value ← digits.foldlM (fun v c => (Json.hexValue? c).map (v * 16 + ·)) 0
    if h : value.isValidChar then some (Char.ofNatAux value h, cs.drop n) else none

/-- **A text from after its opening quote mark**, after the characters already read (latest first),
and what follows the closing one; escapes are read. -/
def scanText? (read : List Char) : Nat → List Char → Option (String × List Char)
  | 0, _ => none
  | _ + 1, [] => none
  | _ + 1, '"' :: rest => some (String.ofList read.reverse, rest)
  | n + 1, '\\' :: 'u' :: rest =>
    match scanUnicode? 4 rest with
    | some (c, rest) => scanText? (c :: read) n rest
    | none => none
  | n + 1, '\\' :: 'U' :: rest =>
    match scanUnicode? 8 rest with
    | some (c, rest) => scanText? (c :: read) n rest
    | none => none
  | n + 1, '\\' :: c :: rest =>
    match if c = '/' then none else Json.shortEscape? c with
    | some c => scanText? (c :: read) n rest
    | none => none
  | n + 1, c :: rest =>
    if (c.toNat < 0x20 ∧ c ≠ '\t') ∨ c.toNat = 0x7F then none else scanText? (c :: read) n rest

/-- Whether the underscores among some digits each stand between two of them. -/
def wellSpaced : List Char → Bool
  | [] => false
  | [c] => c.isDigit
  | c :: d :: rest => (c.isDigit || (c == '_' && d.isDigit)) && wellSpaced (d :: rest)

/-- **An integer**: a sign, and digits without a leading zero, in which underscores may stand; it
has to fit 64 signed bits. -/
def readInteger? (cs : List Char) : Option Int :=
  let (negative, digits) := scanSign cs
  let plain := digits.filter (· ≠ '_')
  if wellSpaced digits && digits.head? ≠ some '_' && (plain.head? ≠ some '0' || plain = ['0']) then
    let n : Int := natOfDigits plain
    let n := if negative then -n else n
    if IsSigned n then some n else none
  else none

/-- **A value**, and what follows it. -/
def scanValue? (cs : List Char) : Option (Scalar × List Char) :=
  match cs with
  | '"' :: rest => (scanText? [] (rest.length + 1) rest).map fun (s, rest) => (.text s, rest)
  | '\'' :: rest =>
    match rest.span (· ≠ '\'') with
    | (s, _ :: rest) => some (.text (String.ofList s), rest)
    | (_, []) => none
  | cs =>
    let (word, rest) := cs.span fun c => !isLineSpace c && c != '#'
    (readInteger? word).map fun n => (.integer n, rest)

/-! ## The file -/

/-- What has been read of a file: the table that keys now belong to, the tables named, and the
assignments, latest first. -/
structure Draft where
  table : List String
  tables : List (List String)
  assigned : List Assignment

/-- A table named on a line, of which the opening bracket is read. -/
def Draft.header (d : Draft) (cs : List Char) : Option Draft :=
  match scanPath? (cs.length + 1) cs with
  | some (path, ']' :: rest) =>
    if saysNothing rest && !(d.tables.contains path) &&
        !(d.assigned.any fun a => a.path.isPrefixOf path) then
      some { d with table := path, tables := path :: d.tables }
    else none
  | _ => none

/-- A key assigned on a line. -/
def Draft.entry (d : Draft) (cs : List Char) : Option Draft := do
  match scanPath? (cs.length + 1) cs with
  | some (path, '=' :: rest) =>
    let (value, rest) ← scanValue? (skipLineSpace rest)
    let a : Assignment := ⟨d.table ++ path, value⟩
    if saysNothing rest && !(d.assigned.any fun b => overlap a.path b.path) &&
        !(d.tables.any fun t => a.path.isPrefixOf t) then
      some { d with assigned := a :: d.assigned }
    else none
  | _ => none

/-- **One line further.** -/
def Draft.line (d : Draft) (cs : List Char) : Option Draft :=
  if saysNothing cs then some d
  else
    match skipLineSpace cs with
    | '[' :: rest => d.header rest
    | cs => d.entry cs

/-- **The assignments of a file**, if all of it can be read. -/
def layerOfFile? (contents : String) : Option (List Assignment) :=
  ((linesOfText contents.toList).foldlM Draft.line ⟨[], [], []⟩).map fun d => d.assigned.reverse

end LiveQuery.Settings
