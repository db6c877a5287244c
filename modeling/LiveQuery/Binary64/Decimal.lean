import LiveQuery.Binary64.Basic
import LiveQuery.Text.Numeral

/-!
# Binary64/Decimal — reading a decimal and finding the shortest one that reads back

`ofDecimal` rounds a decimal to the nearest binary64 number.  `shortest` goes the other way: it
tries one digit, then two, up to seventeen, and takes the first decimal of that many digits that
`ofDecimal` reads back as the same number; of two such neighbours the nearer, a tie going to the
even digit.  **Every candidate is checked by reading it back**, and the exact decimal expansion
stands behind the search, so the result reads back by construction.
-/

namespace LiveQuery

open Text

namespace Binary64

/-! ## Reading -/

/-- **The binary64 number nearest to a decimal.**  Exponents so large or small that the answer is
infinite or zero are settled without computing the power of ten. -/
def ofDecimal (d : Decimal) : Extended :=
  if d.digits = 0 then .finite (zero d.negative)
  else if 400 < d.exponent then .infinite d.negative
  else if d.digits.log2 + 1 + 3 * d.exponent < -1100 then .finite (zero d.negative)
  else if 0 ≤ d.exponent then
    nearest d.negative (d.digits * Nat.pow 10 d.exponent.toNat * unitsPerOne) 1
  else nearest d.negative (d.digits * unitsPerOne) (Nat.pow 10 (-d.exponent).toNat)

/-! ## The shortest decimal -/

/-- The exact decimal expansion: every binary64 number has one. -/
def exactDecimal (x : Binary64) : Decimal :=
  ⟨x.negative, x.magnitude * Nat.pow 5 unitScale, -unitScale⟩

/-- Where the decimal point stands before the first digit: `p` with `10 ^ (p - 1) ≤ |x| < 10 ^ p`,
from the binary logarithm and one comparison. -/
def pointOf (x : Binary64) : Int :=
  let p := ((x.magnitude.log2 : Int) - unitScale) * 30103 / 100000 + 1
  let reaches :=
    if 0 ≤ p then unitsPerOne * Nat.pow 10 p.toNat ≤ x.magnitude
    else unitsPerOne ≤ x.magnitude * Nat.pow 10 (-p).toNat
  if reaches then p + 1 else p

/-- The magnitude as a fraction of `10 ^ e`. -/
def overPowerOfTen (x : Binary64) (e : Int) : Nat × Nat :=
  if 0 ≤ e then (x.magnitude, unitsPerOne * Nat.pow 10 e.toNat)
  else (x.magnitude * Nat.pow 10 (-e).toNat, unitsPerOne)

/-- Whether a decimal reads back as `x`. -/
def readsBack (x : Binary64) (d : Decimal) : Bool := decide (ofDecimal d = .finite x)

/-- **The decimal on the grid `10 ^ e` that reads back as `x`**, the nearer of its two neighbours
there if both do. -/
def decimalOnGrid? (x : Binary64) (e : Int) : Option Decimal :=
  let (num, den) := x.overPowerOfTen e
  let below : Decimal := ⟨x.negative, num / den, e⟩
  let above : Decimal := ⟨x.negative, num / den + 1, e⟩
  let twice := 2 * (num % den)
  let nearer := if den < twice ∨ (twice = den ∧ num / den % 2 = 1) then above else below
  let farther := if den < twice ∨ (twice = den ∧ num / den % 2 = 1) then below else above
  if x.readsBack nearer then some nearer
  else if x.readsBack farther then some farther
  else none

/-- **The shortest decimal that reads back as `x`.** -/
def shortest (x : Binary64) : Decimal :=
  if x.magnitude = 0 then ⟨x.negative, 0, 0⟩
  else
    let p := x.pointOf
    ((List.range 17).findSome? fun n : Nat => x.decimalOnGrid? (p - (n + 1))).getD x.exactDecimal

/-! ## The written form -/

/-- **How a number is laid out**: the positions of the point that are written without an exponent,
and whether a whole number keeps `.0`. -/
structure Layout where
  isPositional : Int → Bool
  keepsFraction : Bool

/-- A value inside a JSON text: positional from `0.00001` up to sixteen whole digits, always with a
fraction there. -/
def jsonLayout : Layout := ⟨fun p => decide (-5 < p ∧ p ≤ 16), true⟩

/-- A number inside a message: always positional, a whole number without a fraction. -/
def plainLayout : Layout := ⟨fun _ => true, false⟩

/-- Digits without the zeros at their end; a zero keeps one. -/
def significantDigits (n : Nat) : List Char :=
  match ((digitsOfNat n).reverse.dropWhile (· == '0')).reverse with
  | [] => ['0']
  | ds => ds

/-- Digits with the point written at position `p`. -/
def positional (keepsFraction : Bool) (ds : List Char) (p : Int) : List Char :=
  if p ≤ 0 then '0' :: '.' :: List.replicate (-p).toNat '0' ++ ds
  else if p.toNat < ds.length then ds.take p.toNat ++ '.' :: ds.drop p.toNat
  else ds ++ List.replicate (p.toNat - ds.length) '0' ++ if keepsFraction then ['.', '0'] else []

/-- Digits with the point after the first one and an exponent that always has a sign. -/
def scientific (ds : List Char) (p : Int) : List Char :=
  let e := p - 1
  let sign := if e < 0 then '-' else '+'
  let fraction := if ds.tail = [] then [] else '.' :: ds.tail
  ds.take 1 ++ fraction ++ 'e' :: sign :: digitsOfNat e.natAbs

/-- **The text of a number in a layout**: its shortest decimal, laid out. -/
def text (layout : Layout) (x : Binary64) : List Char :=
  let d := x.shortest
  let ds := significantDigits d.digits
  let p : Int := if d.digits = 0 then 1 else (digitsOfNat d.digits).length + d.exponent
  let body := if layout.isPositional p then positional layout.keepsFraction ds p
    else scientific ds p
  if x.negative then '-' :: body else body

end Binary64

end LiveQuery
