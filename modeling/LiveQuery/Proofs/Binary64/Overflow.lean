import LiveQuery.Proofs.Binary64.Closest

/-!
# Proofs/Binary64/Overflow — where the numbers end

A magnitude is rounded to a finite number as long as it lies below the middle between the largest
number and the power of two above it, `2 ^ 1024`; the middle itself is rounded up, since the largest
significand is odd (`succ_le_roundDiv_iff`).

Together with the law of the closest number this is all of `nearest`: **a rounding is the closest
number of the given sign to a magnitude that is in range** (`nearest_eq_finite_iff`), and so is the
reading of a decimal (`ofDecimal_eq_finite_iff`).
-/

namespace LiveQuery.Binary64

open Text

variable {negative : Bool} {num den : Nat} {x y : Binary64} {d : Decimal}

/-! ## Rounding up -/

/-- **From the middle behind an odd number on, a quotient is rounded up**: the middle is a tie, and
the number above is even. -/
theorem succ_le_roundDiv_iff {k : Nat} (hodd : k % 2 = 1) (hden : 0 < den) :
    k + 1 ≤ roundDiv num den ↔ (2 * k + 1) * den ≤ 2 * num := by
  have hnum : num / den * den + num % den = num := Nat.div_add_mod' num den
  have hrem : num % den < den := Nat.mod_lt num hden
  rw [Nat.add_mul, Nat.mul_assoc, Nat.one_mul]
  rcases Nat.lt_trichotomy (num / den) k with hlt | heq | hgt
  · have hround := roundDiv_le num den
    have hbelow := Nat.mul_le_mul_right den (Nat.succ_le_of_lt hlt)
    rw [Nat.succ_mul] at hbelow
    exact iff_of_false (by omega) (by omega)
  · rw [heq] at hnum
    simp only [roundDiv, heq]
    split <;> omega
  · have hround := div_le_roundDiv num den
    have habove := Nat.mul_le_mul_right den (Nat.succ_le_of_lt hgt)
    rw [Nat.succ_mul] at habove
    exact iff_of_true (by omega) (by omega)

/-! ## The scale -/

theorem scaleFor_le_roundParts (num den : Nat) : scaleFor num den ≤ (roundParts num den).2 := by
  simp only [roundParts]
  split
  · exact Nat.le_refl _
  · exact Nat.le_succ _

theorem roundParts_le_scaleFor (num den : Nat) : (roundParts num den).2 ≤ scaleFor num den + 1 := by
  simp only [roundParts]
  split
  · exact Nat.le_succ _
  · exact Nat.le_refl _

/-- A magnitude of a smaller scale lies below the smallest full significand. -/
theorem lt_two_pow_mul {s : Nat} (hden : 0 < den) (h : scaleFor num den < s) :
    num < Nat.pow 2 52 * (den * Nat.pow 2 s) := by
  have hlog : (num / den).log2 + 1 ≤ 52 + s := by rw [scaleFor] at h; omega
  have hquot : num / den < 2 ^ (52 + s) :=
    Nat.lt_of_lt_of_le Nat.lt_log2_self (Nat.pow_le_pow_right (by decide) hlog)
  calc num < 2 ^ (52 + s) * den := (Nat.div_lt_iff_lt_mul hden).mp hquot
    _ = 2 ^ 52 * (den * 2 ^ s) := by rw [Nat.pow_add, Nat.mul_assoc, Nat.mul_comm den]

/-- **The scale is at most `s` below the middle behind the largest number of that scale.** -/
theorem roundParts_scale_le_iff (hden : 0 < den) (s : Nat) :
    (roundParts num den).2 ≤ s ↔ 2 * num < (Nat.pow 2 54 - 1) * (den * Nat.pow 2 s) := by
  have h52 : Nat.pow 2 52 = 4503599627370496 := by decide
  have h54 : Nat.pow 2 54 - 1 = 18014398509481983 := by decide
  rcases Nat.lt_trichotomy (scaleFor num den) s with hlt | rfl | hgt
  · have hround := roundParts_le_scaleFor num den
    have hbelow := lt_two_pow_mul hden hlt
    rw [h52] at hbelow
    rw [h54]
    exact iff_of_true (by omega) (by omega)
  · -- At the scale itself, a carry out of the significand is what leaves it.
    have hup : Nat.pow 2 53 ≤ roundDiv num (spacing num den)
        ↔ (Nat.pow 2 54 - 1) * spacing num den ≤ 2 * num :=
      succ_le_roundDiv_iff (k := 9007199254740991) (by decide) (spacing_pos hden)
    rw [← Nat.not_le, ← spacing, ← hup]
    simp only [roundParts]
    split
    case isTrue hm => exact iff_of_true (Nat.le_refl _) (Nat.not_le_of_lt hm)
    case isFalse hm =>
      exact iff_of_false (Nat.not_succ_le_self _) (not_not_intro (Nat.le_of_not_lt hm))
  · have hround := scaleFor_le_roundParts num den
    have habove := two_pow_mul_le (Nat.zero_lt_of_lt hgt)
    have hstep : 2 * (den * Nat.pow 2 s) ≤ spacing num den :=
      calc 2 * (den * 2 ^ s) = den * 2 ^ (s + 1) := by
            rw [Nat.pow_succ, Nat.mul_comm 2, Nat.mul_assoc]
        _ ≤ den * 2 ^ scaleFor num den :=
            Nat.mul_le_mul_left _ (Nat.pow_le_pow_right (by decide) hgt)
    have hpos : 0 < den * Nat.pow 2 s := Nat.mul_pos hden (Nat.two_pow_pos s)
    rw [h52] at habove
    rw [h54]
    exact iff_of_false (by omega) (by omega)

/-! ## What is rounded to a number -/

/-- The scale of the largest numbers. -/
def topScale : Nat := 2045

/-- **Whether a magnitude of `num / den` units is rounded to a number**: it lies below the middle
between the largest one, `(2 ^ 53 - 1) * 2 ^ topScale`, and the next power of two. -/
def InRange (num den : Nat) : Prop :=
  2 * num < (Nat.pow 2 54 - 1) * (den * Nat.pow 2 topScale)

/-- A number is its magnitude and its sign. -/
theorem eq_of_magnitude (hnegative : x.negative = y.negative) (h : x.magnitude = y.magnitude) :
    x = y := by
  have hx := nearest_magnitude x
  rw [hnegative, h, nearest_magnitude y] at hx
  exact (Extended.finite.inj hx).symm

/-- **A rounding is the closest number** with the given sign, to a magnitude in range. -/
theorem nearest_eq_finite_iff (hden : 0 < den) :
    nearest negative num den = .finite x ↔
      InRange num den ∧ x.negative = negative ∧ x.IsClosest num den := by
  rw [InRange, ← roundParts_scale_le_iff hden]
  constructor
  · intro h
    refine ⟨?_, nearest_isClosest hden h⟩
    rw [(roundParts_of_nearest h).2]
    exact x.scale_le
  · rintro ⟨hrange, hnegative, hclosest⟩
    obtain ⟨y, hy⟩ : ∃ y, nearest negative num den = .finite y := ⟨_, dif_pos hrange⟩
    obtain ⟨hnegative', hclosest'⟩ := nearest_isClosest hden hy
    rw [hy, eq_of_magnitude (hnegative'.trans hnegative.symm)
      (hclosest'.magnitude_eq hden hclosest)]

/-- **The number that a decimal is read as**: the closest one with its sign. -/
def IsReading (x : Binary64) (d : Decimal) : Prop :=
  InRange (unitsAbove d) (unitsBelow d) ∧ x.negative = d.negative ∧
    x.IsClosest (unitsAbove d) (unitsBelow d)

theorem ofDecimal_eq_finite_iff : ofDecimal d = .finite x ↔ x.IsReading d := by
  rw [ofDecimal_eq_nearest, nearest_eq_finite_iff (unitsBelow_pos d), IsReading]

end LiveQuery.Binary64
