import LiveQuery.Proofs.Binary64.Nearest
import Mathlib.Data.Nat.Dist

/-!
# Proofs/Binary64/Closest — rounding finds the closest number

`nearest` picks a scale and divides.  **What it finds is the closest of all binary64 numbers, and
of two that are equally close the one with the even significand** (`nearest_isClosest`).

At the chosen scale the numbers are the multiples of one power of two, and among the multiples the
rounded quotient is closest (`dist_roundDiv_le`).  A number of a smaller scale need not be a
multiple, but then it lies below the smallest full significand, which itself lies below the exact
value (`magnitude_lt_of_scale_lt`, `two_pow_mul_le`).

There is one such magnitude (`IsClosest.magnitude_eq`), so the law says all there is to say about
rounding in range.
-/

namespace LiveQuery.Binary64

variable {negative : Bool} {num den k s : Nat} {x y : Binary64}

/-! ## The closest multiple -/

/-- **A rounded quotient is off by a half at most**, … -/
theorem two_mul_dist_roundDiv_le (num : Nat) (hden : 0 < den) :
    2 * Nat.dist (roundDiv num den * den) num ≤ den := by
  have hnum : num / den * den + num % den = num := Nat.div_add_mod' num den
  have hrem : num % den < den := Nat.mod_lt num hden
  simp only [roundDiv, Nat.dist]
  split
  · rw [Nat.add_mul, Nat.one_mul]
    omega
  · omega

/-- … and is even if it is off by a half. -/
theorem even_roundDiv_of_half (hden : 0 < den)
    (h : 2 * Nat.dist (roundDiv num den * den) num = den) : roundDiv num den % 2 = 0 := by
  have hnum : num / den * den + num % den = num := Nat.div_add_mod' num den
  have hrem : num % den < den := Nat.mod_lt num hden
  simp only [roundDiv, Nat.dist] at h ⊢
  split
  case isTrue hup =>
    rw [if_pos hup, Nat.add_mul, Nat.one_mul] at h
    omega
  case isFalse hdown =>
    rw [if_neg hdown] at h
    omega

/-- **Every other multiple is off by a half at least.** -/
theorem le_two_mul_dist (hden : 0 < den) (hk : k ≠ roundDiv num den) :
    den ≤ 2 * Nat.dist (k * den) num := by
  have hclose := two_mul_dist_roundDiv_le num hden
  have hapart : den ≤ Nat.dist (k * den) (roundDiv num den * den) := by
    rw [Nat.dist_mul_right]
    exact Nat.le_mul_of_pos_left den (Nat.dist_pos_of_ne hk)
  have hthrough := Nat.dist.triangle_inequality (k * den) num (roundDiv num den * den)
  rw [Nat.dist_comm num] at hthrough
  omega

/-- **No multiple is closer than the rounded quotient.** -/
theorem dist_roundDiv_le (num k : Nat) (hden : 0 < den) :
    Nat.dist (roundDiv num den * den) num ≤ Nat.dist (k * den) num := by
  by_cases hk : k = roundDiv num den
  · rw [hk]
  · have hclose := two_mul_dist_roundDiv_le num hden
    have hfar := le_two_mul_dist hden hk
    omega

/-! ## The numbers at a scale -/

/-- **What lies between two multiples at the chosen scale**, in units over `den`. -/
def spacing (num den : Nat) : Nat := den * Nat.pow 2 (scaleFor num den)

theorem spacing_pos (hden : 0 < den) : 0 < spacing num den :=
  Nat.mul_pos hden (Nat.two_pow_pos _)

/-- A multiple at the chosen scale, over `den`. -/
theorem mul_pow_mul_eq (k num den : Nat) :
    k * Nat.pow 2 (scaleFor num den) * den = k * spacing num den := by
  rw [spacing, Nat.mul_assoc, Nat.mul_comm den]

/-- A number of at least this scale is a multiple. -/
theorem magnitude_eq_of_le (h : s ≤ y.scale) :
    y.magnitude = y.significand * Nat.pow 2 (y.scale - s) * Nat.pow 2 s := by
  change y.significand * 2 ^ y.scale = y.significand * 2 ^ (y.scale - s) * 2 ^ s
  rw [Nat.mul_assoc, ← Nat.pow_add, Nat.sub_add_cancel h]

/-- **A number of a smaller scale lies below the smallest full significand.** -/
theorem magnitude_lt_of_scale_lt (h : y.scale < s) :
    y.magnitude < Nat.pow 2 52 * Nat.pow 2 s :=
  calc y.significand * 2 ^ y.scale
      < 2 ^ 53 * 2 ^ y.scale :=
        Nat.mul_lt_mul_of_pos_right y.significand_lt (Nat.two_pow_pos _)
    _ = 2 ^ 52 * 2 ^ (y.scale + 1) := by
        rw [← Nat.pow_add, ← Nat.pow_add, Nat.add_comm y.scale, ← Nat.add_assoc]
    _ ≤ 2 ^ 52 * 2 ^ s := Nat.mul_le_mul_left _ (Nat.pow_le_pow_right (by decide) h)

/-- Above the smallest scale, the smallest full significand lies below the exact value. -/
theorem two_pow_mul_le (hscale : 0 < scaleFor num den) :
    Nat.pow 2 52 * spacing num den ≤ num := by
  have hlog : 52 + scaleFor num den = (num / den).log2 := by rw [scaleFor] at hscale ⊢; omega
  have hne : num / den ≠ 0 := fun h => by
    rw [scaleFor, h, Nat.log2_zero] at hscale
    exact absurd hscale (Nat.not_lt_zero _)
  calc 2 ^ 52 * (den * 2 ^ scaleFor num den)
      = 2 ^ (num / den).log2 * den := by
        rw [← hlog, Nat.pow_add, Nat.mul_comm den, Nat.mul_assoc]
    _ ≤ num / den * den := Nat.mul_le_mul_right _ (Nat.log2_self_le hne)
    _ ≤ num := Nat.div_mul_le_self ..

/-- The quotient at the chosen scale has 53 bits, or is rounded up to the next power. -/
theorem roundDiv_le_two_pow (num den : Nat) :
    roundDiv num (spacing num den) ≤ Nat.pow 2 53 := by
  have hlog : (num / den).log2 + 1 ≤ 53 + scaleFor num den := by rw [scaleFor]; omega
  have hquot : num / spacing num den < Nat.pow 2 53 := by
    rw [spacing, ← Nat.div_div_eq_div_mul]
    refine (Nat.div_lt_iff_lt_mul (Nat.two_pow_pos _)).mpr ?_
    calc num / den < 2 ^ ((num / den).log2 + 1) := Nat.lt_log2_self
      _ ≤ 2 ^ (53 + scaleFor num den) := Nat.pow_le_pow_right (by decide) hlog
      _ = 2 ^ 53 * 2 ^ scaleFor num den := Nat.pow_add ..
  exact Nat.le_trans (roundDiv_le ..) hquot

/-- **The parts rounded to have the value of the rounded quotient**, also after a carry, and are
even if it is. -/
theorem roundParts_value (num den : Nat) :
    (roundParts num den).1 * Nat.pow 2 (roundParts num den).2
        = roundDiv num (spacing num den) * Nat.pow 2 (scaleFor num den) ∧
      (roundDiv num (spacing num den) % 2 = 0 → (roundParts num den).1 % 2 = 0) := by
  have hle := roundDiv_le_two_pow num den
  simp only [roundParts]
  split
  case isTrue => exact ⟨rfl, id⟩
  case isFalse hcarry =>
    rw [Nat.le_antisymm hle (Nat.not_lt.mp hcarry)]
    have heven : Nat.pow 2 52 % 2 = 0 := by decide
    refine ⟨?_, fun _ => heven⟩
    change 2 ^ 52 * 2 ^ (scaleFor num den + 1) = 2 ^ 53 * 2 ^ scaleFor num den
    rw [← Nat.pow_add, ← Nat.pow_add, Nat.add_left_comm, Nat.add_comm (scaleFor num den)]

/-! ## The closest number -/

/-- **The number of a magnitude of `num / den` units**: none is closer, and if another one is as
close then the significand is even. -/
structure IsClosest (x : Binary64) (num den : Nat) : Prop where
  dist_le (y : Binary64) :
    Nat.dist (x.magnitude * den) num ≤ Nat.dist (y.magnitude * den) num
  even_of_dist_eq (y : Binary64) :
    y.magnitude ≠ x.magnitude →
      Nat.dist (y.magnitude * den) num = Nat.dist (x.magnitude * den) num →
        x.significand % 2 = 0

/-- **A number is a multiple at the chosen scale, or farther off than one.** -/
theorem multiple_or_far (hden : 0 < den) (y : Binary64) :
    (∃ k, y.magnitude * den = k * spacing num den) ∨
      Nat.dist (Nat.pow 2 52 * spacing num den) num < Nat.dist (y.magnitude * den) num := by
  rcases Nat.lt_or_ge y.scale (scaleFor num den) with hlt | hle
  · have hbelow := two_pow_mul_le (Nat.zero_lt_of_lt hlt)
    have hfar : y.magnitude * den < Nat.pow 2 52 * spacing num den := by
      rw [← mul_pow_mul_eq]
      exact Nat.mul_lt_mul_of_pos_right (magnitude_lt_of_scale_lt hlt) hden
    refine .inr ?_
    rw [Nat.dist_eq_sub_of_le hbelow,
      Nat.dist_eq_sub_of_le (Nat.le_trans (Nat.le_of_lt hfar) hbelow)]
    exact Nat.sub_lt_sub_left (Nat.lt_of_lt_of_le hfar hbelow) hfar
  · refine .inl ⟨y.significand * Nat.pow 2 (y.scale - scaleFor num den), ?_⟩
    rw [magnitude_eq_of_le hle, mul_pow_mul_eq]

/-- A rounding that is finite consists of the parts rounded to. -/
theorem roundParts_of_nearest (h : nearest negative num den = .finite x) :
    x.negative = negative ∧ roundParts num den = (x.significand, x.scale) := by
  rw [nearest] at h
  split at h
  case isTrue =>
    obtain rfl := Extended.finite.inj h
    exact ⟨rfl, rfl⟩
  case isFalse => exact absurd h Extended.noConfusion

/-- **A rounding is the rounded quotient** at the chosen scale. -/
theorem magnitude_mul_of_nearest (h : nearest negative num den = .finite x) :
    x.magnitude * den = roundDiv num (spacing num den) * spacing num den := by
  have hvalue := (roundParts_value num den).1
  rw [(roundParts_of_nearest h).2] at hvalue
  rw [magnitude, hvalue, mul_pow_mul_eq]

/-- **Rounding finds the closest number.** -/
theorem nearest_isClosest (hden : 0 < den) (h : nearest negative num den = .finite x) :
    x.negative = negative ∧ x.IsClosest num den := by
  obtain ⟨hnegative, hparts⟩ := roundParts_of_nearest h
  have heven := (roundParts_value num den).2
  rw [hparts] at heven
  have hstep : 0 < spacing num den := spacing_pos hden
  have hx := magnitude_mul_of_nearest h
  refine ⟨hnegative, ⟨fun y => ?_, fun y hne heq => ?_⟩⟩
  · rw [hx]
    rcases multiple_or_far hden y with ⟨k, hk⟩ | hfar
    · rw [hk]
      exact dist_roundDiv_le num k hstep
    · exact Nat.le_trans (dist_roundDiv_le num _ hstep) (Nat.le_of_lt hfar)
  · rw [hx] at heq
    rcases multiple_or_far hden y with ⟨k, hk⟩ | hfar
    · rw [hk] at heq
      have hother : k ≠ roundDiv num (spacing num den) := fun h =>
        hne (Nat.eq_of_mul_eq_mul_right hden (by rw [hk, hx, h]))
      have hhalf := le_two_mul_dist hstep hother
      rw [heq] at hhalf
      exact heven (even_roundDiv_of_half hstep
        (Nat.le_antisymm (two_mul_dist_roundDiv_le num hstep) hhalf))
    · have hclose := dist_roundDiv_le num (Nat.pow 2 52) hstep
      exact absurd heq (Nat.ne_of_gt (Nat.lt_of_le_of_lt hclose hfar))

/-- Below the largest scale there is such a number. -/
theorem exists_nearest_of_lt (negative : Bool) (h : num / den < Nat.pow 2 k) (hk : k ≤ 2097) :
    ∃ x, nearest negative num den = .finite x :=
  ⟨_, dif_pos (roundParts_scale_le h hk)⟩

/-! ## Only one magnitude is closest -/

/-- **Between two numbers with even significands there is another.** -/
theorem exists_between (hx : x.significand % 2 = 0) (hy : y.significand % 2 = 0)
    (h : x.magnitude < y.magnitude) :
    ∃ z : Binary64, x.magnitude < z.magnitude ∧ z.magnitude < y.magnitude := by
  have hroom : x.significand + 1 < Nat.pow 2 53 := by
    have hlt := x.significand_lt
    have hpow : Nat.pow 2 53 = 9007199254740992 := by decide
    omega
  have hcanonical : Nat.pow 2 52 ≤ x.significand + 1 ∨ x.scale = 0 :=
    x.canonical.imp_left Nat.le_succ_of_le
  refine ⟨⟨x.negative, x.significand + 1, x.scale, hroom, x.scale_le, hcanonical⟩,
    Nat.mul_lt_mul_of_pos_right (Nat.lt_succ_self _) (Nat.two_pow_pos _), ?_⟩
  change (x.significand + 1) * Nat.pow 2 x.scale < y.magnitude
  rcases Nat.lt_or_ge y.scale x.scale with hlt | hle
  · -- A number of a smaller scale is not the larger one.
    have hfull : Nat.pow 2 52 ≤ x.significand :=
      x.canonical.resolve_right (Nat.ne_zero_of_lt hlt)
    have hless : y.magnitude < x.magnitude :=
      Nat.lt_of_lt_of_le (magnitude_lt_of_scale_lt hlt) (Nat.mul_le_mul_right _ hfull)
    exact absurd h (Nat.lt_asymm hless)
  · have heven : y.significand * Nat.pow 2 (y.scale - x.scale) % 2 = 0 := by
      rw [Nat.mul_mod, hy, Nat.zero_mul]
    rw [magnitude_eq_of_le hle] at h ⊢
    have hlt := Nat.lt_of_mul_lt_mul_right h
    exact Nat.mul_lt_mul_of_pos_right (by omega) (Nat.two_pow_pos _)

theorem IsClosest.magnitude_le (hden : 0 < den) (hx : x.IsClosest num den)
    (hy : y.IsClosest num den) : y.magnitude ≤ x.magnitude := by
  refine Nat.le_of_not_lt fun hlt => ?_
  have heq := Nat.le_antisymm (hx.dist_le y) (hy.dist_le x)
  obtain ⟨z, hxz, hzy⟩ := exists_between
    (hx.even_of_dist_eq y (Nat.ne_of_gt hlt) heq.symm)
    (hy.even_of_dist_eq x (Nat.ne_of_lt hlt) heq) hlt
  -- What lies between two numbers that are equally far off is closer than both.
  have hxz := Nat.mul_lt_mul_of_pos_right hxz hden
  have hzy := Nat.mul_lt_mul_of_pos_right hzy hden
  have hz := hx.dist_le z
  simp only [Nat.dist] at heq hz
  omega

/-- **What is closest is so alone**, up to its sign. -/
theorem IsClosest.magnitude_eq (hden : 0 < den) (hx : x.IsClosest num den)
    (hy : y.IsClosest num den) : x.magnitude = y.magnitude :=
  Nat.le_antisymm (hy.magnitude_le hden hx) (hx.magnitude_le hden hy)

end LiveQuery.Binary64
