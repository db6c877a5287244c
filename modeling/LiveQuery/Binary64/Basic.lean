/-!
# Binary64/Basic — finite binary floating-point numbers, and rounding to them

A finite number of the IEEE 754 format binary64 is `± significand · 2 ^ scale` **units**, where one
unit is the smallest positive number, `2 ^ -1074`.  Counting in units makes every value an integer
(`Binary64.units`), so comparing two numbers is comparing two integers.

All arithmetic goes through one function: `nearest` takes the exact magnitude of a result as a
fraction of units and returns the binary64 number closest to it, a tie going to the even
significand.  Magnitudes beyond the largest finite number become infinite.
-/

namespace LiveQuery

/-- **A finite binary64 number**, in its one canonical form: the significand has all its 53 bits
unless the scale is the smallest. -/
structure Binary64 where
  negative : Bool
  significand : Nat
  scale : Nat
  significand_lt : significand < Nat.pow 2 53
  scale_le : scale ≤ 2045
  canonical : Nat.pow 2 52 ≤ significand ∨ scale = 0
deriving DecidableEq, Repr

namespace Binary64

/-- The smallest positive number is `2 ^ -1074`. -/
def unitScale : Nat := 1074

/-- How many units make one. -/
def unitsPerOne : Nat := Nat.pow 2 unitScale

theorem unitsPerOne_eq : unitsPerOne = Nat.pow 2 unitScale := by unfold unitsPerOne; exact Eq.refl _

/-- Zero, with a sign. -/
def zero (negative : Bool) : Binary64 := ⟨negative, 0, 0, by decide, by decide, .inr rfl⟩

instance : Inhabited Binary64 := ⟨zero false⟩

/-- The magnitude, in units. -/
def magnitude (x : Binary64) : Nat := x.significand * Nat.pow 2 x.scale

/-- **The value, in units.** -/
def units (x : Binary64) : Int := if x.negative then -(x.magnitude : Int) else x.magnitude

@[simp] theorem units_zero (negative : Bool) : (zero negative).units = 0 := by
  cases negative <;> rfl

/-- Two numbers are numerically equal: both zeros are. -/
def eq (x y : Binary64) : Bool := x.units == y.units

/-- The numerical order. -/
def lt (x y : Binary64) : Bool := decide (x.units < y.units)

/-- The same magnitude with the other sign. -/
def neg (x : Binary64) : Binary64 := { x with negative := !x.negative }

end Binary64

/-- **Any binary64 result**: a finite number, an infinity, or no number at all. -/
inductive Extended where
  | finite (x : Binary64)
  | infinite (negative : Bool)
  | notANumber
deriving DecidableEq, Repr

/-- The finite number a result is, if it is one. -/
def Extended.finite? : Extended → Option Binary64
  | .finite x => some x
  | .infinite _ => none
  | .notANumber => none

namespace Binary64

/-! ## Rounding

`roundDiv` is division rounded to the nearest whole number; `roundParts` chooses the scale at which
53 bits remain and divides there. -/

/-- **`num / den` to the nearest whole number**, a half to the even neighbour. -/
def roundDiv (num den : Nat) : Nat :=
  let q := num / den
  let r := num % den
  if den < 2 * r ∨ (2 * r = den ∧ q % 2 = 1) then q + 1 else q

theorem div_le_roundDiv (num den : Nat) : num / den ≤ roundDiv num den := by
  simp only [roundDiv]; split <;> omega

theorem roundDiv_le (num den : Nat) : roundDiv num den ≤ num / den + 1 := by
  simp only [roundDiv]; split <;> omega

/-- A whole quotient is its own rounding. -/
theorem roundDiv_mul_right (q : Nat) {den : Nat} (h : 0 < den) : roundDiv (q * den) den = q := by
  simp [roundDiv, Nat.mul_div_cancel q h, Nat.ne_of_lt h]

/-- The scale at which a magnitude of `num / den` units keeps 53 bits. -/
def scaleFor (num den : Nat) : Nat := (num / den).log2 - 52

/-- **Significand and scale of `num / den` units**, rounded to 53 bits; rounding up to `2 ^ 53`
carries into the scale. -/
def roundParts (num den : Nat) : Nat × Nat :=
  let s := scaleFor num den
  let m := roundDiv num (den * Nat.pow 2 s)
  if m < Nat.pow 2 53 then (m, s) else (Nat.pow 2 52, s + 1)

theorem roundParts_lt (num den : Nat) : (roundParts num den).1 < Nat.pow 2 53 := by
  simp only [roundParts]
  split
  · assumption
  · exact Nat.pow_lt_pow_right (by decide) (by decide)

/-- Above the smallest scale the rounded significand has all its bits. -/
theorem roundParts_canonical (num den : Nat) :
    Nat.pow 2 52 ≤ (roundParts num den).1 ∨ (roundParts num den).2 = 0 := by
  simp only [roundParts, Nat.pow_eq]
  split
  · rename_i h
    by_cases hs : scaleFor num den = 0
    · exact .inr hs
    · left
      have hlog : 52 < (num / den).log2 := by simp only [scaleFor] at hs; omega
      have hq : num / den ≠ 0 := by intro h0; simp [h0] at hlog
      have hpow : Nat.pow 2 (52 + scaleFor num den) ≤ num / den := by
        have := Nat.log2_self_le hq
        rwa [show 52 + scaleFor num den = (num / den).log2 by simp only [scaleFor]; omega]
      refine Nat.le_trans ?_ (div_le_roundDiv _ _)
      rw [← Nat.div_div_eq_div_mul]
      rw [Nat.le_div_iff_mul_le (Nat.two_pow_pos _), ← Nat.pow_add]
      exact hpow
  · exact .inl (Nat.le_refl _)

/-- The scale stays in range below `2 ^ 2097` units. -/
theorem roundParts_scale_le {num den k : Nat} (h : num / den < Nat.pow 2 k) (hk : k ≤ 2097) :
    (roundParts num den).2 ≤ 2045 := by
  have hlog : (num / den).log2 ≤ 2096 := by
    by_cases h0 : num / den = 0
    · simp [h0]
    · have := (Nat.log2_lt h0).2 h
      omega
  have hs : scaleFor num den ≤ 2044 := by simp only [scaleFor]; omega
  simp only [roundParts]
  split
  · exact Nat.le_succ_of_le hs
  · exact Nat.succ_le_succ hs

/-- **The binary64 number nearest to a magnitude of `num / den` units**, or an infinity. -/
def nearest (negative : Bool) (num den : Nat) : Extended :=
  if h : (roundParts num den).2 ≤ 2045 then
    .finite ⟨negative, (roundParts num den).1, (roundParts num den).2, roundParts_lt num den, h,
      roundParts_canonical num den⟩
  else .infinite negative

end Binary64

end LiveQuery
