import LiveQuery.Binary64.Decimal
import Mathlib.Algebra.Order.Ring.Nat
import Mathlib.Tactic.Ring

/-!
# Proofs/Binary64/Nearest — rounding sees the value only

Rounding does not depend on how a fraction is written (`nearest_congr`), and a magnitude that is
representable is its own rounding (`nearest_magnitude`).

Reading a decimal has shortcuts for values far out of range.  **They change nothing**
(`ofDecimal_eq_nearest`): a decimal is read as the rounding of its exact value.  So decimals of one
value are read as one number (`ofDecimal_shift`).
-/

namespace LiveQuery.Binary64

open Text

variable {negative : Bool} {num den num' den' k : Nat}

/-! ## Fractions of one value -/

theorem roundDiv_mul_left (hk : 0 < k) : roundDiv (k * num) (k * den) = roundDiv num den := by
  have hhalf : 2 * (k * (num % den)) = k * (2 * (num % den)) := Nat.mul_left_comm ..
  simp only [roundDiv, Nat.mul_div_mul_left _ _ hk, Nat.mul_mod_mul_left, hhalf,
    Nat.mul_lt_mul_left hk, Nat.mul_right_inj (Nat.ne_of_gt hk)]

theorem roundParts_mul_left (hk : 0 < k) :
    roundParts (k * num) (k * den) = roundParts num den := by
  have hscale : scaleFor (k * num) (k * den) = scaleFor num den := by
    rw [scaleFor, Nat.mul_div_mul_left _ _ hk, scaleFor]
  have hdiv : ∀ s, roundDiv (k * num) (k * den * s) = roundDiv num (den * s) := fun s => by
    rw [Nat.mul_assoc, roundDiv_mul_left hk]
  simp only [roundParts, hscale]
  rw [hdiv]

/-- A fraction may be extended. -/
theorem nearest_mul_left (hk : 0 < k) :
    nearest negative (k * num) (k * den) = nearest negative num den := by
  simp only [nearest, roundParts_mul_left hk]

/-- **Fractions of one value have one rounding.** -/
theorem nearest_congr (hden : 0 < den) (hden' : 0 < den') (h : num * den' = num' * den) :
    nearest negative num den = nearest negative num' den' := by
  rw [← nearest_mul_left hden', Nat.mul_comm den', h, Nat.mul_comm num', Nat.mul_comm den' den,
    nearest_mul_left hden]

/-- **The rounding is finite where its scale is in range**, with the parts rounded to. -/
theorem nearest_of_roundParts {x : Binary64}
    (h : roundParts num den = (x.significand, x.scale)) :
    nearest x.negative num den = .finite x := by
  simp only [nearest, h, dif_pos x.scale_le]

/-! ## What is representable -/

/-- The scale of a number is the one that keeps 53 bits of its magnitude. -/
theorem scaleFor_magnitude (x : Binary64) : scaleFor x.magnitude 1 = x.scale := by
  rw [scaleFor, Nat.div_one, magnitude]
  rcases x.canonical with hfull | hzero
  · have hpos : 0 < x.significand * Nat.pow 2 x.scale :=
      Nat.mul_pos (Nat.lt_of_lt_of_le (Nat.two_pow_pos 52) hfull) (Nat.two_pow_pos _)
    have hlog : (x.significand * Nat.pow 2 x.scale).log2 = 52 + x.scale := by
      refine (Nat.log2_eq_iff (Nat.ne_of_gt hpos)).mpr ⟨?_, ?_⟩
      · rw [Nat.pow_add]
        exact Nat.mul_le_mul_right _ hfull
      · rw [Nat.add_right_comm, Nat.pow_add]
        exact Nat.mul_lt_mul_of_pos_right x.significand_lt (Nat.two_pow_pos _)
    rw [hlog, Nat.add_sub_cancel_left]
  · have hlog : x.significand.log2 ≤ 52 := by
      rcases Nat.eq_zero_or_pos x.significand with hnone | hpos
      · rw [hnone, Nat.log2_zero]
        exact Nat.zero_le _
      · exact Nat.le_of_lt_succ ((Nat.log2_lt (Nat.ne_of_gt hpos)).mpr x.significand_lt)
    rw [hzero, Nat.pow_eq, Nat.pow_zero, Nat.mul_one, Nat.sub_eq_zero_of_le hlog]

/-- **A magnitude that is representable is its own rounding.** -/
theorem nearest_magnitude (x : Binary64) : nearest x.negative x.magnitude 1 = .finite x := by
  have hdiv : roundDiv x.magnitude (1 * Nat.pow 2 x.scale) = x.significand := by
    rw [Nat.one_mul, magnitude]
    exact roundDiv_mul_right _ (Nat.two_pow_pos _)
  refine nearest_of_roundParts ?_
  simp only [roundParts, scaleFor_magnitude, hdiv, if_pos x.significand_lt]

/-! ## Far out of range -/

/-- **Less than half a unit rounds to nothing.** -/
theorem nearest_of_two_mul_lt (h : 2 * num < den) :
    nearest negative num den = .finite (zero negative) := by
  have hquot : num / den = 0 := Nat.div_eq_of_lt (by omega)
  have hscale : scaleFor num den = 0 := by rw [scaleFor, hquot]; rfl
  have hdiv : roundDiv num (den * Nat.pow 2 0) = 0 := by
    have hrem : num % den = num := Nat.mod_eq_of_lt (by omega)
    rw [Nat.pow_eq, Nat.pow_zero, Nat.mul_one, roundDiv]
    simp only [hquot, hrem]
    exact if_neg (by omega)
  refine nearest_of_roundParts (x := zero negative) ?_
  simp only [roundParts, hscale, hdiv]
  rfl

/-- **A magnitude beyond every scale is infinite.** -/
theorem nearest_of_two_pow_le (hk : 2098 ≤ k) (h : 2 ^ k ≤ num) :
    nearest negative num 1 = .infinite negative := by
  have hne : num ≠ 0 := Nat.ne_of_gt (Nat.lt_of_lt_of_le (Nat.two_pow_pos _) h)
  have hlog : k ≤ num.log2 := (Nat.le_log2 hne).mpr h
  have hscale : 2046 ≤ scaleFor num 1 := by rw [scaleFor, Nat.div_one]; omega
  have hparts : 2046 ≤ (roundParts num 1).2 := by
    simp only [roundParts]
    split
    · exact hscale
    · exact Nat.le_succ_of_le hscale
  exact dif_neg (by omega)

/-! ## Reading a decimal -/

/-- The magnitude of a decimal in units, above the fraction line. -/
def unitsAbove (d : Decimal) : Nat := d.digits * Nat.pow 10 d.exponent.toNat * unitsPerOne

/-- The magnitude of a decimal in units, below the fraction line. -/
def unitsBelow (d : Decimal) : Nat := Nat.pow 10 (-d.exponent).toNat

theorem unitsBelow_pos (d : Decimal) : 0 < unitsBelow d := Nat.pow_pos (by decide)

theorem two_pow_three_mul_le (n : Nat) : 2 ^ (3 * n) ≤ 10 ^ n := by
  rw [Nat.pow_mul]
  exact Nat.pow_le_pow_left (by decide) n

theorem two_pow_le_unitsAbove {d : Decimal} (hdigits : d.digits ≠ 0) :
    2 ^ (3 * d.exponent.toNat + unitScale) ≤ unitsAbove d := by
  have hten : 2 ^ (3 * d.exponent.toNat) ≤ d.digits * 10 ^ d.exponent.toNat :=
    Nat.le_trans (two_pow_three_mul_le _) (Nat.le_mul_of_pos_left _ (Nat.pos_of_ne_zero hdigits))
  rw [Nat.pow_add, unitsAbove, unitsPerOne_eq, Nat.pow_eq, Nat.pow_eq]
  generalize unitScale = k
  exact Nat.mul_le_mul_right _ hten

theorem two_mul_unitsAbove_lt {d : Decimal}
    (h : d.digits.log2 + 1 + 3 * d.exponent < -1100) : 2 * unitsAbove d < unitsBelow d := by
  have hwhole : d.exponent.toNat = 0 := by omega
  have hlog : d.digits.log2 + 1 + (unitScale + 1) ≤ 3 * (-d.exponent).toNat := by
    rw [unitScale]; omega
  calc 2 * unitsAbove d = d.digits * 2 ^ (unitScale + 1) := by
        rw [unitsAbove, hwhole, unitsPerOne_eq, Nat.pow_eq, Nat.pow_eq]
        ring
    _ < 2 ^ (d.digits.log2 + 1) * 2 ^ (unitScale + 1) :=
      Nat.mul_lt_mul_of_pos_right Nat.lt_log2_self (Nat.two_pow_pos _)
    _ = 2 ^ (d.digits.log2 + 1 + (unitScale + 1)) := (Nat.pow_add ..).symm
    _ ≤ 2 ^ (3 * (-d.exponent).toNat) := Nat.pow_le_pow_right (by decide) hlog
    _ ≤ unitsBelow d := two_pow_three_mul_le _

/-- **The shortcuts change nothing**: a decimal is read as the rounding of its exact value. -/
theorem ofDecimal_eq_nearest (d : Decimal) :
    ofDecimal d = nearest d.negative (unitsAbove d) (unitsBelow d) := by
  have hbelow : 0 ≤ d.exponent → unitsBelow d = 1 := fun he => by
    rw [unitsBelow, show (-d.exponent).toNat = 0 by omega, Nat.pow_eq, Nat.pow_zero]
  rw [ofDecimal]
  split_ifs with hzero hhuge htiny hwhole
  · have habove : unitsAbove d = 0 := by rw [unitsAbove, hzero, Nat.zero_mul, Nat.zero_mul]
    rw [habove, nearest_of_two_mul_lt (unitsBelow_pos d)]
  · have hscale : 2098 ≤ 3 * d.exponent.toNat + unitScale := by rw [unitScale]; omega
    rw [hbelow (by omega), nearest_of_two_pow_le hscale (two_pow_le_unitsAbove hzero)]
  · rw [nearest_of_two_mul_lt (two_mul_unitsAbove_lt htiny)]
  · rw [hbelow hwhole, unitsAbove]
  · have habove : unitsAbove d = d.digits * unitsPerOne := by
      rw [unitsAbove, show d.exponent.toNat = 0 by omega, Nat.pow_eq, Nat.pow_zero, Nat.mul_one]
    rw [habove, unitsBelow]

/-- **Zeros at the end of the digits count as powers of ten.** -/
theorem ofDecimal_shift (negative : Bool) (n k : Nat) (e : Int) :
    ofDecimal ⟨negative, n * 10 ^ k, e⟩ = ofDecimal ⟨negative, n, e + k⟩ := by
  rw [ofDecimal_eq_nearest, ofDecimal_eq_nearest]
  refine nearest_congr (unitsBelow_pos _) (unitsBelow_pos _) ?_
  have hexp : k + e.toNat + (-(e + k)).toNat = (e + k).toNat + (-e).toNat := by omega
  simp only [unitsAbove, unitsBelow, Nat.pow_eq]
  calc n * 10 ^ k * 10 ^ e.toNat * unitsPerOne * 10 ^ (-(e + k)).toNat
      = n * 10 ^ (k + e.toNat + (-(e + k)).toNat) * unitsPerOne := by ring
    _ = n * 10 ^ ((e + k).toNat + (-e).toNat) * unitsPerOne := by rw [hexp]
    _ = n * 10 ^ (e + k).toNat * unitsPerOne * 10 ^ (-e).toNat := by ring

/-! ## The shortest decimal -/

/-- The exact expansion is read back. -/
theorem ofDecimal_exactDecimal (x : Binary64) : ofDecimal x.exactDecimal = .finite x := by
  rw [ofDecimal_eq_nearest, ← nearest_magnitude x]
  refine nearest_congr (unitsBelow_pos _) Nat.one_pos ?_
  have habove : unitsAbove x.exactDecimal = x.magnitude * Nat.pow 5 unitScale * unitsPerOne := by
    rw [unitsAbove, exactDecimal]
    simp only [Int.toNat_neg_natCast, Nat.pow_eq, Nat.pow_zero, Nat.mul_one]
  have hbelow : unitsBelow x.exactDecimal = Nat.pow 10 unitScale := by
    rw [unitsBelow, exactDecimal]
    simp only [Int.neg_neg, Int.toNat_natCast]
  have hten : ∀ n : Nat, 5 ^ n * 2 ^ n = 10 ^ n := fun n => (Nat.mul_pow 5 2 n).symm
  rw [habove, hbelow, unitsPerOne_eq, Nat.mul_one, Nat.mul_assoc, Nat.pow_eq, Nat.pow_eq, hten,
    Nat.pow_eq]

/-- A candidate is taken only if it is read back. -/
theorem ofDecimal_of_decimalOnGrid? {x : Binary64} {e : Int} {d : Decimal}
    (h : x.decimalOnGrid? e = some d) : ofDecimal d = .finite x := by
  simp only [decimalOnGrid?] at h
  split_ifs at h <;> cases h <;> exact of_decide_eq_true (by assumption)

/-- A number of no magnitude is a zero. -/
theorem eq_zero_of_magnitude {x : Binary64} (h : x.magnitude = 0) : x = zero x.negative := by
  obtain ⟨negative, significand, scale, hlt, hle, hcanonical⟩ := x
  have hsignificand : significand = 0 :=
    (Nat.mul_eq_zero.mp h).resolve_right (Nat.ne_of_gt (Nat.two_pow_pos _))
  subst hsignificand
  obtain rfl : scale = 0 := hcanonical.resolve_left (by decide)
  rfl

/-- **The shortest decimal of a number is read back as the number.** -/
theorem ofDecimal_shortest (x : Binary64) : ofDecimal x.shortest = .finite x := by
  rw [shortest]
  split
  case isTrue hzero => exact congrArg Extended.finite (eq_zero_of_magnitude hzero).symm
  case isFalse =>
    dsimp only
    cases hfound : (List.range 17).findSome? fun n : Nat =>
        x.decimalOnGrid? (x.pointOf - (n + 1)) with
    | none => exact ofDecimal_exactDecimal x
    | some d =>
      obtain ⟨n, -, hn⟩ := List.exists_of_findSome?_eq_some hfound
      exact ofDecimal_of_decimalOnGrid? hn

end LiveQuery.Binary64
