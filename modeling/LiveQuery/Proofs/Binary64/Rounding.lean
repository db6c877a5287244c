import LiveQuery.Json.Basic
import LiveQuery.Proofs.Binary64.Closest
import LiveQuery.Proofs.Binary64.Whole

/-!
# Proofs/Binary64/Rounding — rounding keeps the order, and takes neighbours for one

`IsRounding` is rounding with the sign: the closest number to an exact value, with its sign.
**It never turns an order around** (`IsRounding.units_le`), for of two numbers in the wrong order
one would be closer to the other's value.

An integer of 64 bits is rounded by 1024 at most (`Integer.two_mul_natAbs_sub_le`).  So two of them
keep their order strictly if they are more than 2048 apart, or if one of them is below `2 ^ 53`
(`Integer.units_lt`).

A sum, difference or product of two such numbers is the rounding of the exact one, and never
infinite (`Integer.exists_add`, `exists_sub`, `exists_mul`).
-/

namespace LiveQuery

namespace Binary64

variable {x y : Binary64} {a b : Int} {m n den k : Nat}

/-! ## A number and its units -/

theorem natAbs_units (x : Binary64) : x.units.natAbs = x.magnitude := by
  rw [units]
  split
  · rw [Int.natAbs_neg, Int.natAbs_natCast]
  · exact Int.natAbs_natCast _

/-- The sign of what is not zero. -/
theorem negative_eq (h : x.units ≠ 0) : x.negative = decide (x.units < 0) := by
  have hmagnitude := natAbs_units x
  cases hsign : x.negative with
  | true =>
    have hunits : x.units = -(x.magnitude : Int) := by rw [units, hsign, if_pos rfl]
    exact (decide_eq_true (by omega)).symm
  | false =>
    have hunits : x.units = x.magnitude := by
      rw [units, hsign]
      rfl
    exact (decide_eq_false (by omega)).symm

/-- **Numbers of one value are one number**, unless they are zeros of different signs. -/
theorem eq_of_units (h : x.units = y.units) (hx : x.units = 0 → x.negative = false)
    (hy : y.units = 0 → y.negative = false) : x = y := by
  have hnegative : x.negative = y.negative := by
    by_cases hzero : x.units = 0
    · rw [hx hzero, hy (h ▸ hzero)]
    · rw [negative_eq hzero, negative_eq (h ▸ hzero), h]
  have hmagnitude : x.magnitude = y.magnitude := by rw [← natAbs_units, h, natAbs_units]
  refine Extended.finite.inj ?_
  rw [← nearest_magnitude x, hnegative, hmagnitude, nearest_magnitude]

/-! ## Rounding with the sign -/

/-- **The number that `num / den` units are rounded to.** -/
structure IsRounding (x : Binary64) (num : Int) (den : Nat) : Prop where
  negative_eq : x.negative = decide (num < 0)
  closest : x.IsClosest num.natAbs den

theorem isRounding_of_nearest {num : Int} (hden : 0 < den)
    (h : nearest (decide (num < 0)) num.natAbs den = .finite x) : x.IsRounding num den :=
  ⟨(nearest_isClosest hden h).1, (nearest_isClosest hden h).2⟩

/-- A rounding has the value's sign. -/
theorem IsRounding.units_eq (h : x.IsRounding a den) :
    x.units = if a < 0 then -(x.magnitude : Int) else x.magnitude := by
  simp only [units, h.negative_eq, decide_eq_true_eq]

/-! ## Order -/

/-- **The larger magnitude is not rounded to the smaller number.** -/
theorem IsClosest.magnitude_le_of_lt (hden : 0 < den) (hx : x.IsClosest m den)
    (hy : y.IsClosest n den) (h : m < n) : x.magnitude ≤ y.magnitude := by
  by_contra hlt
  have hlt := Nat.mul_lt_mul_of_pos_right (Nat.lt_of_not_le hlt) hden
  -- In the wrong order the two numbers would have their middle on the wrong side of both values.
  have hxy := hx.dist_le y
  have hyx := hy.dist_le x
  simp only [Nat.dist] at hxy hyx
  omega

/-- **Rounding keeps the order.** -/
theorem IsRounding.units_le (hden : 0 < den) (hx : x.IsRounding a den) (hy : y.IsRounding b den)
    (h : a < b) : x.units ≤ y.units := by
  rw [hx.units_eq, hy.units_eq]
  by_cases hb : b < 0
  · have hle := hy.closest.magnitude_le_of_lt hden hx.closest (by omega)
    rw [if_pos hb, if_pos (by omega)]
    omega
  · rw [if_neg hb]
    by_cases ha : a < 0
    · rw [if_pos ha]
      omega
    · have hle := hx.closest.magnitude_le_of_lt hden hy.closest (by omega)
      rw [if_neg ha]
      omega

/-! ## Error -/

/-- **A rounding is off by half the spacing at most.** -/
theorem two_mul_dist_le_spacing {negative : Bool} (hden : 0 < den)
    (h : nearest negative m den = .finite x) :
    2 * Nat.dist (x.magnitude * den) m ≤ spacing m den := by
  rw [magnitude_mul_of_nearest h]
  exact two_mul_dist_roundDiv_le m (spacing_pos hden)

/-- Below `2 ^ 64` the numbers are 2048 apart at most. -/
theorem spacing_word_le (hm : m < 2 ^ 64) :
    spacing (m * unitsPerOne) 1 ≤ 2048 * unitsPerOne := by
  have hlog : (m * unitsPerOne).log2 ≤ 63 + unitScale := by
    rcases Nat.eq_zero_or_pos (m * unitsPerOne) with hzero | hpos
    · rw [hzero, Nat.log2_zero]
      exact Nat.zero_le _
    · refine Nat.le_of_lt_succ ((Nat.log2_lt (Nat.ne_of_gt hpos)).mpr ?_)
      rw [unitsPerOne_eq]
      generalize unitScale = k
      calc m * 2 ^ k < 2 ^ 64 * 2 ^ k := Nat.mul_lt_mul_of_pos_right hm (Nat.two_pow_pos k)
        _ = 2 ^ (63 + k + 1) := by rw [← Nat.pow_add, Nat.add_right_comm]
  have hscale : scaleFor (m * unitsPerOne) 1 ≤ 11 + unitScale := by
    rw [scaleFor, Nat.div_one]
    omega
  rw [spacing, Nat.one_mul]
  calc 2 ^ scaleFor (m * unitsPerOne) 1
      ≤ 2 ^ (11 + unitScale) := Nat.pow_le_pow_right (by decide) hscale
    _ = 2048 * unitsPerOne := by
      rw [unitsPerOne_eq]
      generalize unitScale = k
      exact Nat.pow_add ..

/-! ## Operations -/

theorem isRounding_zero (hden : 0 < den) : (zero false).IsRounding 0 den :=
  isRounding_of_nearest hden (nearest_of_two_mul_lt hden)

/-- **A sum is the rounding of the exact one**, unless it is a negative zero or out of range. -/
theorem exists_add_isRounding (hnegative : x.negative → y.negative → x.units + y.units ≠ 0)
    (hbound : (x.units + y.units).natAbs < Nat.pow 2 k) (hk : k ≤ 2097) :
    ∃ z, x.add y = .finite z ∧ z.IsRounding (x.units + y.units) 1 := by
  rw [add]
  by_cases hzero : x.units + y.units = 0
  · have hpositive : (x.negative && y.negative) = false := by
      rw [← Bool.not_eq_true, Bool.and_eq_true]
      exact fun h => hnegative h.1 h.2 hzero
    rw [if_pos hzero, hpositive, hzero]
    exact ⟨_, rfl, isRounding_zero Nat.one_pos⟩
  · rw [if_neg hzero]
    rw [← Nat.div_one (x.units + y.units).natAbs] at hbound
    obtain ⟨z, hz⟩ := exists_nearest_of_lt (decide (x.units + y.units < 0)) hbound hk
    exact ⟨z, hz, isRounding_of_nearest Nat.one_pos hz⟩

theorem magnitude_neg (x : Binary64) : x.neg.magnitude = x.magnitude := rfl

theorem natAbs_units_add_lt (hx : x.magnitude < Nat.pow 2 k) (hy : y.magnitude < Nat.pow 2 k) :
    (x.units + y.units).natAbs < Nat.pow 2 (k + 1) := by
  have htwice : Nat.pow 2 (k + 1) = Nat.pow 2 k * 2 := Nat.pow_succ ..
  rw [← natAbs_units] at hx hy
  omega

/-- **A product is the rounding of the exact one**, unless it is a negative zero or out of
range. -/
theorem exists_mul_isRounding
    (hnegative : (x.negative != y.negative) = decide (x.units * y.units < 0))
    (hbound : x.magnitude * y.magnitude / unitsPerOne < Nat.pow 2 k) (hk : k ≤ 2097) :
    ∃ z, x.mul y = .finite z ∧ z.IsRounding (x.units * y.units) unitsPerOne := by
  have hmagnitude : (x.units * y.units).natAbs = x.magnitude * y.magnitude := by
    rw [Int.natAbs_mul, natAbs_units, natAbs_units]
  obtain ⟨z, hz⟩ := exists_nearest_of_lt (decide (x.units * y.units < 0)) hbound hk
  refine ⟨z, by rw [mul, hnegative, hz], isRounding_of_nearest unitsPerOne_pos ?_⟩
  rw [hmagnitude, hz]

end Binary64

/-! ## Integers of 64 bits -/

namespace Integer

open Binary64

variable {a b : Integer}

theorem val_inj : a.val = b.val ↔ a = b := by
  refine ⟨fun h => ?_, congrArg val⟩
  obtain ⟨m, hm⟩ := a
  subst h
  rfl

/-- **The number an integer is taken for.** -/
def rounded (n : Integer) : Binary64 := (Number.int n).toBinary64

theorem nearest_rounded (n : Integer) :
    nearest (decide (n.val * unitsPerOne < 0)) (n.val * unitsPerOne).natAbs 1
      = .finite n.rounded := by
  rw [decide_eq_decide.mpr (mul_natCast_neg_iff unitsPerOne_pos), Int.natAbs_mul,
    Int.natAbs_natCast]
  exact ofInt_eq_ofWord n.isWord.natAbs_le

theorem isRounding_rounded (n : Integer) : n.rounded.IsRounding (n.val * unitsPerOne) 1 :=
  isRounding_of_nearest Nat.one_pos n.nearest_rounded

theorem mul_units_lt {m n : Int} (h : m < n) : m * unitsPerOne < n * unitsPerOne :=
  Int.mul_lt_mul_of_pos_right h (Int.natCast_pos.mpr unitsPerOne_pos)

/-- **Integers are never rounded into the wrong order.** -/
theorem units_le (h : a.val ≤ b.val) : a.rounded.units ≤ b.rounded.units := by
  rcases Int.lt_or_eq_of_le h with hlt | heq
  · exact a.isRounding_rounded.units_le Nat.one_pos b.isRounding_rounded (mul_units_lt hlt)
  · rw [val_inj.mp heq]

/-- **An integer is off by 1024 at most.** -/
theorem two_mul_natAbs_sub_le (n : Integer) :
    2 * (n.rounded.units - n.val * unitsPerOne).natAbs ≤ 2048 * unitsPerOne := by
  have hword : n.val.natAbs < 2 ^ 64 := by
    have hn := n.isWord
    unfold IsWord at hn
    omega
  have hdist := two_mul_dist_le_spacing Nat.one_pos n.nearest_rounded
  have hspacing := spacing_word_le hword
  rw [← Int.natAbs_natCast unitsPerOne, ← Int.natAbs_mul, Int.natAbs_natCast] at hspacing
  rw [n.isRounding_rounded.units_eq]
  rw [Nat.mul_one, Nat.dist] at hdist
  split <;> omega

/-- **Up to `2 ^ 53` an integer is what it is taken for.** -/
theorem units_eq_of_le {n : Integer} (h : n.val.natAbs ≤ wholeLimit) :
    n.rounded.units = n.val * unitsPerOne := by
  obtain ⟨x, hx, hwhole⟩ := ofInt_of_le h
  obtain rfl : n.rounded = x :=
    Extended.finite.inj ((ofInt_eq_ofWord n.isWord.natAbs_le).symm.trans hx)
  exact hwhole.units_eq

/-- Integers that are far enough apart keep their order. -/
theorem units_lt_of_far (h : a.val + 2048 < b.val) : a.rounded.units < b.rounded.units := by
  have ha := a.two_mul_natAbs_sub_le
  have hb := b.two_mul_natAbs_sub_le
  have hfar := mul_units_lt h
  rw [Int.add_mul] at hfar
  omega

/-- Integers with two exact ones between them keep their order. -/
theorem units_lt_of_between {c d : Integer} (hac : a.val ≤ c.val) (hcd : c.val < d.val)
    (hdb : d.val ≤ b.val) (hc : c.val.natAbs ≤ wholeLimit) (hd : d.val.natAbs ≤ wholeLimit) :
    a.rounded.units < b.rounded.units :=
  calc a.rounded.units ≤ c.rounded.units := units_le hac
    _ = c.val * unitsPerOne := units_eq_of_le hc
    _ < d.val * unitsPerOne := mul_units_lt hcd
    _ = d.rounded.units := (units_eq_of_le hd).symm
    _ ≤ b.rounded.units := units_le hdb

/-- **Integers that are far apart, or of which one is small, keep their order.** -/
theorem units_lt (h : a.val < b.val) (hapart : a.val + 2048 < b.val ∨
    a.val.natAbs < wholeLimit ∨ b.val.natAbs < wholeLimit) :
    a.rounded.units < b.rounded.units := by
  have ha := a.isWord
  have hb := b.isWord
  unfold IsWord at ha hb
  rcases hapart with hfar | hsmall | hsmall
  · exact units_lt_of_far hfar
  · rw [wholeLimit] at hsmall
    have hword : IsWord (min b.val wholeLimit) := by unfold IsWord wholeLimit; omega
    exact units_lt_of_between (c := a) (d := ⟨_, hword⟩) (Int.le_refl _)
      (by dsimp only [wholeLimit]; omega) (Int.min_le_left ..) (Nat.le_of_lt hsmall)
      (by dsimp only [wholeLimit]; omega)
  · rw [wholeLimit] at hsmall
    have hword : IsWord (max a.val (-wholeLimit)) := by unfold IsWord wholeLimit; omega
    exact units_lt_of_between (c := ⟨_, hword⟩) (d := b) (Int.le_max_left ..)
      (by dsimp only [wholeLimit]; omega) (Int.le_refl _) (by dsimp only [wholeLimit]; omega)
      (Nat.le_of_lt hsmall)

/-- **Different integers that are taken for one are close, and none of them is small.** -/
theorem close_of_units_eq (h : a.rounded.units = b.rounded.units) (hne : a.val ≠ b.val) :
    (a.val - b.val).natAbs ≤ 2048 ∧
      wholeLimit ≤ a.val.natAbs ∧ wholeLimit ≤ b.val.natAbs := by
  by_contra hnot
  rcases Int.lt_or_gt_of_ne hne with hlt | hlt
  · exact absurd h (Int.ne_of_lt (units_lt hlt (by omega)))
  · exact absurd h (Int.ne_of_gt (units_lt hlt (by omega)))

/-! ## Operations on such integers -/

/-- Zero. -/
def zero : Integer := ⟨0, by decide⟩

theorem units_zero : zero.rounded.units = 0 :=
  (units_eq_of_le (Nat.zero_le _)).trans (Int.zero_mul _)

/-- An integer is taken for a negative number if it is one, … -/
theorem units_neg_iff (n : Integer) : n.rounded.units < 0 ↔ n.val < 0 := by
  constructor
  · intro h
    by_contra hle
    have hunits : zero.rounded.units ≤ n.rounded.units := units_le (Int.not_lt.mp hle)
    rw [units_zero] at hunits
    exact absurd h (Int.not_lt.mpr hunits)
  · intro h
    have hunits : n.rounded.units < zero.rounded.units := units_lt h (.inr (.inr (by decide)))
    rwa [units_zero] at hunits

/-- …and for a positive one if it is one. -/
theorem units_pos {n : Integer} (h : 0 < n.val) : 0 < n.rounded.units := by
  have hunits : zero.rounded.units < n.rounded.units := units_lt h (.inr (.inl (by decide)))
  rwa [units_zero] at hunits

theorem mul_neg_iff_of_pos {u v : Int} (h : 0 < u) : u * v < 0 ↔ v < 0 := by
  simpa only [Int.mul_zero] using Int.mul_lt_mul_left (b := v) (c := 0) h

/-- No integer is taken for a negative zero. -/
theorem negative_rounded (n : Integer) : n.rounded.negative = decide (n.rounded.units < 0) := by
  rw [n.isRounding_rounded.negative_eq, decide_eq_decide, mul_natCast_neg_iff unitsPerOne_pos,
    units_neg_iff]

theorem magnitude_rounded_lt (n : Integer) :
    n.rounded.magnitude < Nat.pow 2 (65 + unitScale) := by
  have hword := mul_units_lt n.isWord.2
  have hword' := Int.mul_le_mul_of_nonneg_right n.isWord.1 (Int.natCast_nonneg unitsPerOne)
  have hclose := n.two_mul_natAbs_sub_le
  have hpos := unitsPerOne_pos
  have hunits : n.rounded.magnitude < 2 ^ 65 * unitsPerOne := by
    rw [← natAbs_units]
    omega
  rw [unitsPerOne_eq] at hunits
  generalize unitScale = k at hunits ⊢
  exact Nat.lt_of_lt_of_eq hunits (Nat.pow_add ..).symm

theorem sum_scale_le : 65 + unitScale + 1 ≤ 2097 := by decide

/-- **A sum of integers is the rounding of the exact sum** of what they are taken for, … -/
theorem exists_add (a b : Integer) : ∃ z, a.rounded.add b.rounded = .finite z ∧
    z.IsRounding (a.rounded.units + b.rounded.units) 1 := by
  refine exists_add_isRounding (fun ha hb => ?_)
    (natAbs_units_add_lt a.magnitude_rounded_lt b.magnitude_rounded_lt) sum_scale_le
  rw [negative_rounded, decide_eq_true_eq] at ha hb
  omega

/-- …**so is a difference**, … -/
theorem exists_sub (a b : Integer) : ∃ z, a.rounded.sub b.rounded = .finite z ∧
    z.IsRounding (a.rounded.units - b.rounded.units) 1 := by
  have hb : b.rounded.neg.magnitude < Nat.pow 2 (65 + unitScale) := by
    rw [magnitude_neg]
    exact b.magnitude_rounded_lt
  rw [sub, Int.sub_eq_add_neg, ← units_neg]
  refine exists_add_isRounding (fun ha hb => ?_)
    (natAbs_units_add_lt a.magnitude_rounded_lt hb) sum_scale_le
  rw [negative_rounded, decide_eq_true_eq] at ha
  rw [neg, negative_rounded, Bool.not_eq_true', decide_eq_false_iff_not] at hb
  rw [units_neg]
  omega

/-- …**and so is a product**, if one of them is positive. -/
theorem exists_mul (h : 0 < a.val ∨ 0 < b.val) :
    ∃ z, a.rounded.mul b.rounded = .finite z ∧
      z.IsRounding (a.rounded.units * b.rounded.units) unitsPerOne := by
  have hbound : a.rounded.magnitude * b.rounded.magnitude / unitsPerOne
      < Nat.pow 2 (130 + unitScale) := by
    refine (Nat.div_lt_iff_lt_mul unitsPerOne_pos).mpr ?_
    calc a.rounded.magnitude * b.rounded.magnitude
        < Nat.pow 2 (65 + unitScale) * Nat.pow 2 (65 + unitScale) :=
          Nat.mul_lt_mul'' a.magnitude_rounded_lt b.magnitude_rounded_lt
      _ = Nat.pow 2 (130 + unitScale) * unitsPerOne := by
        rw [unitsPerOne_eq]
        generalize unitScale = k
        simp only [Nat.pow_eq, ← Nat.pow_add]
        congr 1
        omega
  refine exists_mul_isRounding ?_ hbound (by decide)
  rw [negative_rounded, negative_rounded]
  rcases h with h | h
  · rw [decide_eq_false (Int.not_lt.mpr (Int.le_of_lt (units_pos h))), Bool.false_bne,
      decide_eq_decide.mpr (mul_neg_iff_of_pos (units_pos h))]
  · rw [decide_eq_false (Int.not_lt.mpr (Int.le_of_lt (units_pos h))), Bool.bne_false,
      Int.mul_comm, decide_eq_decide.mpr (mul_neg_iff_of_pos (units_pos h))]

end Integer

end LiveQuery
