/-!
# Json/Quoted — a text inside double quotes

`quote` writes a text as a JSON string: the quote mark, the backslash and the control characters are
escaped, everything else stands for itself.  `scanQuoted` reads one back from after its opening
quote mark, by the strict rules: no raw control characters, no unknown escapes, and an escaped
surrogate only in a pair.
-/

namespace LiveQuery.Json

/-! ## Writing -/

/-- A digit of base sixteen, in lower case. -/
def hexDigit (n : Nat) : Char :=
  if n < 10 then Char.ofNat ('0'.toNat + n) else Char.ofNat ('a'.toNat + (n - 10))

/-- **How a character is written inside quotes.** -/
def escape (c : Char) : List Char :=
  if c = '"' then ['\\', '"']
  else if c = '\\' then ['\\', '\\']
  else if c = '\x08' then ['\\', 'b']
  else if c = '\x0c' then ['\\', 'f']
  else if c = '\n' then ['\\', 'n']
  else if c = '\r' then ['\\', 'r']
  else if c = '\t' then ['\\', 't']
  else if c.toNat < 0x20 then
    ['\\', 'u', '0', '0', hexDigit (c.toNat / 16), hexDigit (c.toNat % 16)]
  else [c]

/-- **A text as a JSON string.** -/
def quote (cs : List Char) : List Char := '"' :: cs.flatMap escape ++ ['"']

/-! ## Reading -/

/-- The value of a digit of base sixteen, in either case. -/
def hexValue? (c : Char) : Option Nat :=
  if '0' ≤ c ∧ c ≤ '9' then some (c.toNat - '0'.toNat)
  else if 'a' ≤ c ∧ c ≤ 'f' then some (c.toNat - 'a'.toNat + 10)
  else if 'A' ≤ c ∧ c ≤ 'F' then some (c.toNat - 'A'.toNat + 10)
  else none

/-- The code unit that four digits of base sixteen write. -/
def unit? (a b c d : Char) : Option Nat := do
  let a ← hexValue? a
  let b ← hexValue? b
  let c ← hexValue? c
  let d ← hexValue? d
  some (((a * 16 + b) * 16 + c) * 16 + d)

/-- The first half of a surrogate pair. -/
def isHighSurrogate (u : Nat) : Bool := 0xD800 ≤ u && u ≤ 0xDBFF

/-- The second half of a surrogate pair. -/
def isLowSurrogate (u : Nat) : Bool := 0xDC00 ≤ u && u ≤ 0xDFFF

/-- The character that a surrogate pair stands for. -/
def joinSurrogates (high low : Nat) : Char :=
  Char.ofNat (0x10000 + (high - 0xD800) * 0x400 + (low - 0xDC00))

/-- The character that a one-letter escape stands for. -/
def shortEscape? (c : Char) : Option Char :=
  if c = '"' then some '"'
  else if c = '\\' then some '\\'
  else if c = '/' then some '/'
  else if c = 'b' then some '\x08'
  else if c = 'f' then some '\x0c'
  else if c = 'n' then some '\n'
  else if c = 'r' then some '\r'
  else if c = 't' then some '\t'
  else none

/-- What one piece of a string's written form gives: a character, or a code unit of an escape. -/
inductive Piece where
  | char (c : Char)
  | unit (u : Nat)

/-- Reads pieces up to the closing quote mark, in front of those already read (latest first), and
returns what follows it. -/
def scanPieces (read : List Piece) : List Char → Option (List Piece × List Char)
  | [] => none
  | '"' :: rest => some (read.reverse, rest)
  | '\\' :: 'u' :: a :: b :: c :: d :: rest =>
    match unit? a b c d with
    | some u => scanPieces (.unit u :: read) rest
    | none => none
  | '\\' :: c :: rest =>
    match shortEscape? c with
    | some c => scanPieces (.char c :: read) rest
    | none => none
  | c :: rest => if c.toNat < 0x20 ∨ c = '\\' then none else scanPieces (.char c :: read) rest

/-- The text that pieces spell, after the characters already read (latest first); a surrogate counts
only in a pair. -/
def joinPieces (read : List Char) : List Piece → Option (List Char)
  | [] => some read.reverse
  | .char c :: rest => joinPieces (c :: read) rest
  | .unit u :: rest =>
    if isLowSurrogate u then none
    else if isHighSurrogate u then
      match rest with
      | .unit low :: rest =>
        if isLowSurrogate low then joinPieces (joinSurrogates u low :: read) rest else none
      | _ => none
    else joinPieces (Char.ofNat u :: read) rest

/-- **Reads a string from after its opening quote mark**, and returns what follows the closing
one. -/
def scanQuoted (cs : List Char) : Option (List Char × List Char) :=
  match scanPieces [] cs with
  | some (pieces, rest) => (joinPieces [] pieces).map (·, rest)
  | none => none

end LiveQuery.Json
