import LiveQuery.Binary64.Arithmetic
import LiveQuery.Proofs.Binary64.Nearest

/-!
# Proofs/Binary64/Whole — integers as binary64 numbers

Every integer of magnitude up to `2 ^ 53` **is** a binary64 number (`ofInt_of_le`): its value in
units is a whole multiple of one, and it is negative exactly if the integer is (`IsWhole`).

So nothing is lost while sums stay that small: a sum or difference of two such integers is the
number of the exact result (`add_ofInt`, `sub_ofInt`), and a quotient is the number nearest to the
exact one (`divBy_ofInt`).
-/

namespace LiveQuery

namespace Binary64

variable {m : Nat} {a b : Int} {x y : Binary64}

/-- **Up to this magnitude every integer is a binary64 number**: `2 ^ 53`. -/
def wholeLimit : Nat := 9007199254740992

/-- **A number that is an integer**; zero is taken as positive. -/
structure IsWhole (x : Binary64) (a : Int) : Prop where
  magnitude_eq : x.magnitude = a.natAbs * unitsPerOne
  negative_eq : x.negative = decide (a < 0)

theorem unitsPerOne_pos : 0 < unitsPerOne := by
  rw [unitsPerOne_eq, Nat.pow_eq]
  generalize unitScale = k
  exact Nat.two_pow_pos k

/-! ## Integers that are numbers -/

/-- A whole number below `2 ^ 53` is shifted until its significand is full. -/
theorem exists_magnitude_of_lt (negative : Bool) (hpos : 0 < m) (hm : m < 2 ^ 53) :
    ∃ x : Binary64, x.magnitude = m * unitsPerOne ∧ x.negative = negative := by
  have hne : m ≠ 0 := Nat.ne_of_gt hpos
  obtain ⟨k, hk⟩ := Nat.exists_eq_add_of_le (Nat.le_of_lt_succ ((Nat.log2_lt hne).mpr hm))
  have hfull : Nat.pow 2 52 ≤ m * Nat.pow 2 k :=
    calc 2 ^ 52 = 2 ^ m.log2 * 2 ^ k := by rw [hk, Nat.pow_add]
      _ ≤ m * 2 ^ k := Nat.mul_le_mul_right _ (Nat.log2_self_le hne)
  have hlt : m * Nat.pow 2 k < Nat.pow 2 53 :=
    calc m * 2 ^ k < 2 ^ (m.log2 + 1) * 2 ^ k :=
          Nat.mul_lt_mul_of_pos_right Nat.lt_log2_self (Nat.two_pow_pos k)
      _ = 2 ^ 53 := by rw [← Nat.pow_add, Nat.add_right_comm, ← hk]
  refine ⟨⟨negative, m * Nat.pow 2 k, 1022 + m.log2, hlt, by omega, .inl hfull⟩, ?_, rfl⟩
  have hscale : unitScale = k + (1022 + m.log2) := by rw [unitScale]; omega
  change m * Nat.pow 2 k * Nat.pow 2 (1022 + m.log2) = _
  rw [unitsPerOne_eq, hscale, Nat.mul_assoc]
  exact congrArg (m * ·) (Nat.pow_add ..).symm

/-- **Every whole number up to `2 ^ 53` is a binary64 number**, with either sign. -/
theorem exists_magnitude (negative : Bool) (hm : m ≤ wholeLimit) :
    ∃ x : Binary64, x.magnitude = m * unitsPerOne ∧ x.negative = negative := by
  rcases Nat.eq_zero_or_pos m with rfl | hpos
  · exact ⟨zero negative, by rw [Nat.zero_mul]; exact Nat.zero_mul _, rfl⟩
  rcases Nat.lt_or_eq_of_le hm with hlt | rfl
  · exact exists_magnitude_of_lt negative hpos hlt
  · refine ⟨⟨negative, Nat.pow 2 52, 1 + unitScale, by decide, by decide, .inl (Nat.le_refl _)⟩,
      ?_, rfl⟩
    change Nat.pow 2 52 * Nat.pow 2 (1 + unitScale) = _
    rw [unitsPerOne_eq]
    generalize unitScale = k
    calc 2 ^ 52 * 2 ^ (1 + k) = 2 ^ 52 * 2 * 2 ^ k := by
          rw [Nat.pow_add, Nat.pow_one, Nat.mul_assoc]
      _ = wholeLimit * 2 ^ k := rfl

/-- **An integer up to `2 ^ 53` is a number.** -/
theorem ofInt_of_le (h : a.natAbs ≤ wholeLimit) : ∃ x, ofInt a = .finite x ∧ x.IsWhole a := by
  obtain ⟨x, hmagnitude, hnegative⟩ := exists_magnitude (decide (a < 0)) h
  refine ⟨x, ?_, hmagnitude, hnegative⟩
  rw [ofInt, ← hnegative, ← hmagnitude, nearest_magnitude]

/-- The value of an integer, in units. -/
theorem IsWhole.units_eq (h : x.IsWhole a) : x.units = a * unitsPerOne := by
  rw [units, h.negative_eq, h.magnitude_eq, Int.natCast_mul]
  rcases Int.lt_or_le a 0 with hneg | hpos
  · rw [if_pos (decide_eq_true hneg), Int.ofNat_natAbs_of_nonpos (Int.le_of_lt hneg), Int.neg_mul,
      Int.neg_neg]
  · rw [if_neg (by simpa using hpos), Int.natAbs_of_nonneg hpos]

/-! ## Sums and differences -/

theorem ofInt_zero : ofInt 0 = .finite (zero false) := by
  rw [ofInt, Int.natAbs_zero, Nat.zero_mul]
  exact nearest_magnitude (zero false)

theorem units_neg (x : Binary64) : x.neg.units = -x.units := by
  obtain ⟨negative, significand, scale, -, -, -⟩ := x
  cases negative
  · rfl
  · exact (Int.neg_neg _).symm

theorem mul_natCast_neg_iff {k : Nat} (hk : 0 < k) : a * k < 0 ↔ a < 0 := by
  simpa only [Int.zero_mul] using Int.mul_lt_mul_right (c := 0) (Int.natCast_pos.mpr hk)

/-- **So many whole units together are rounded as the integer they are**, provided that no zero
comes out negative. -/
theorem add_of_units (hx : x.units = a * unitsPerOne) (hy : y.units = b * unitsPerOne)
    (hsign : x.negative = true → y.negative = true → a + b ≠ 0) : x.add y = ofInt (a + b) := by
  have hpos : (0 : Int) < unitsPerOne := Int.natCast_pos.mpr unitsPerOne_pos
  have hsum : x.units + y.units = (a + b) * unitsPerOne := by rw [hx, hy, Int.add_mul]
  rw [add, hsum]
  by_cases hzero : a + b = 0
  · have hpositive : (x.negative && y.negative) = false := by
      rw [← Bool.not_eq_true, Bool.and_eq_true]
      exact fun h => hsign h.1 h.2 hzero
    rw [if_pos (by rw [hzero, Int.zero_mul]), hpositive, hzero, ofInt_zero]
  · rw [if_neg (Int.mul_ne_zero hzero (Int.ne_of_gt hpos)), ofInt, Int.natAbs_mul,
      Int.natAbs_natCast, decide_eq_decide.mpr (mul_natCast_neg_iff unitsPerOne_pos)]

/-- **A sum of integers is exact**: it is the number of their sum. -/
theorem add_ofInt (ha : a.natAbs ≤ wholeLimit) (hb : b.natAbs ≤ wholeLimit) :
    (ofInt a).add (ofInt b) = ofInt (a + b) := by
  obtain ⟨x, hx, hxa⟩ := ofInt_of_le ha
  obtain ⟨y, hy, hyb⟩ := ofInt_of_le hb
  rw [hx, hy]
  refine add_of_units hxa.units_eq hyb.units_eq fun hxneg hyneg => ?_
  have hx0 : a < 0 := of_decide_eq_true (hxa.negative_eq.symm.trans hxneg)
  have hy0 : b < 0 := of_decide_eq_true (hyb.negative_eq.symm.trans hyneg)
  omega

/-- **…and so is a difference.** -/
theorem sub_ofInt (ha : a.natAbs ≤ wholeLimit) (hb : b.natAbs ≤ wholeLimit) :
    (ofInt a).sub (ofInt b) = ofInt (a - b) := by
  obtain ⟨x, hx, hxa⟩ := ofInt_of_le ha
  obtain ⟨y, hy, hyb⟩ := ofInt_of_le hb
  have hneg : y.neg.units = -b * unitsPerOne := by rw [units_neg, hyb.units_eq, Int.neg_mul]
  rw [hx, hy, Int.sub_eq_add_neg]
  refine add_of_units hxa.units_eq hneg fun hxneg hyneg => ?_
  have hx0 : a < 0 := of_decide_eq_true (hxa.negative_eq.symm.trans hxneg)
  have hy0 : ¬ b < 0 := by
    rw [neg, hyb.negative_eq] at hyneg
    simpa using hyneg
  omega

/-! ## Quotients -/

/-- **A quotient of integers is the number nearest to the exact quotient.** -/
theorem divBy_ofInt (ha : a.natAbs ≤ wholeLimit) (hpos : 0 < m) (hm : m ≤ wholeLimit) :
    ∃ y, ofInt m = .finite y ∧
      (ofInt a).divBy y = nearest (decide (a < 0)) (a.natAbs * unitsPerOne) m := by
  obtain ⟨x, hx, hxa⟩ := ofInt_of_le ha
  obtain ⟨y, hy, hym⟩ := ofInt_of_le (a := m) hm
  refine ⟨y, hy, ?_⟩
  have hmagnitude : y.magnitude = unitsPerOne * m := by
    rw [hym.magnitude_eq, Int.natAbs_natCast, Nat.mul_comm]
  have hne : y.magnitude ≠ 0 := by
    rw [hmagnitude]
    exact Nat.ne_of_gt (Nat.mul_pos unitsPerOne_pos hpos)
  have hpositive : y.negative = false := by
    rw [hym.negative_eq]
    exact decide_eq_false (Int.not_lt.mpr (Int.natCast_nonneg m))
  rw [hx]
  change x.div y = _
  rw [div, if_neg hne, hpositive, Bool.bne_false, hxa.negative_eq, hxa.magnitude_eq, hmagnitude,
    Nat.mul_comm _ unitsPerOne, nearest_mul_left unitsPerOne_pos]

end Binary64

end LiveQuery
