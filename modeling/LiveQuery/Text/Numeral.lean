/-!
# Text/Numeral — the written form of a decimal number

A numeral is an optional sign, digits with an optional point, and an optional exponent.  One scanner
reads the longest numeral at the front of a text (`Numeral.scan`); each reader that uses it adds its
own condition on what was read.  `Numeral.decimal` is the number a numeral denotes, as an integer
times a power of ten, without any rounding.
-/

namespace LiveQuery.Text

/-- **A decimal**: `± digits · 10 ^ exponent`, exactly. -/
structure Decimal where
  negative : Bool
  digits : Nat
  exponent : Int
deriving DecidableEq, Repr

/-- The number that a run of digits writes in base ten; the empty run writes zero. -/
def natOfDigits (ds : List Char) : Nat := Nat.ofDigitChars 10 ds 0

/-- The digits of a number in base ten, without leading zeros. -/
def digitsOfNat (n : Nat) : List Char := Nat.toDigits 10 n

theorem natOfDigits_digitsOfNat (n : Nat) : natOfDigits (digitsOfNat n) = n :=
  Nat.ofDigitChars_toDigits (by decide) (by decide)

theorem isDigit_of_mem_digitsOfNat {n : Nat} {c : Char} (h : c ∈ digitsOfNat n) :
    c.isDigit = true :=
  Nat.isDigit_of_mem_toDigits (by decide) (by decide) h

/-- The digits of an integer in base ten, after a minus sign if it is negative. -/
def digitsOfInt (n : Int) : List Char :=
  if n < 0 then '-' :: digitsOfNat n.natAbs else digitsOfNat n.natAbs

/-! ## Whole numbers -/

/-- A text that is nothing but digits, at least one, as a number. -/
def readNat? (cs : List Char) : Option Nat :=
  if cs ≠ [] ∧ cs.all Char.isDigit then some (natOfDigits cs) else none

/-- An optional plus sign and digits, as a number below `limit`. -/
def readUnsigned? (limit : Nat) (cs : List Char) : Option Nat :=
  let digits := match cs with
    | '+' :: rest => rest
    | _ => cs
  (readNat? digits).filter (· < limit)

/-- An optional sign and digits, as an integer. -/
def readInt? (cs : List Char) : Option Int :=
  match cs with
  | '-' :: rest => (readNat? rest).map fun n => -(n : Int)
  | '+' :: rest => (readNat? rest).map Int.ofNat
  | _ => (readNat? cs).map Int.ofNat

/-! ## Numerals -/

/-- **A numeral, part by part**: `fraction` is absent without a point and `exponent` without an
exponent part; a point with no digits after it is the empty fraction. -/
structure Numeral where
  negative : Bool
  whole : List Char
  fraction : Option (List Char)
  exponent : Option Int
deriving DecidableEq, Repr

/-- The digits in front of a text, and what follows them. -/
def scanDigits (cs : List Char) : List Char × List Char := cs.span Char.isDigit

/-- A point and the digits after it, if a point comes first. -/
def scanFraction : List Char → Option (List Char) × List Char
  | '.' :: rest => let (ds, rest') := scanDigits rest; (some ds, rest')
  | cs => (none, cs)

/-- An optional sign, and whether it was a minus. -/
def scanSign : List Char → Bool × List Char
  | '-' :: rest => (true, rest)
  | '+' :: rest => (false, rest)
  | cs => (false, cs)

/-- The letter `e`, an optional sign and digits, if the letter comes first; a letter without digits
after it makes the whole numeral ill-formed. -/
def scanExponent (cs : List Char) : Option (Option Int × List Char) :=
  match cs with
  | c :: rest =>
    if c = 'e' ∨ c = 'E' then
      let (negative, rest) := scanSign rest
      let (ds, rest) := scanDigits rest
      if ds = [] then none
      else
        let n : Int := natOfDigits ds
        some (some (if negative then -n else n), rest)
    else some (none, cs)
  | [] => some (none, [])

/-- **The longest unsigned numeral in front of a text**, given the sign already read. -/
def Numeral.scan (negative : Bool) (cs : List Char) : Option (Numeral × List Char) :=
  let (whole, rest) := scanDigits cs
  let (fraction, rest) := scanFraction rest
  (scanExponent rest).map fun (exponent, rest) => (⟨negative, whole, fraction, exponent⟩, rest)

/-- The digits of a numeral, without the point. -/
def Numeral.digits (n : Numeral) : List Char := n.whole ++ n.fraction.getD []

/-- Neither a point nor an exponent was written. -/
def Numeral.isWhole (n : Numeral) : Bool := n.fraction.isNone && n.exponent.isNone

/-- **The number a numeral denotes.** -/
def Numeral.decimal (n : Numeral) : Decimal where
  negative := n.negative
  digits := natOfDigits n.digits
  exponent := n.exponent.getD 0 - (n.fraction.getD []).length

end LiveQuery.Text
