import LiveQuery.Proofs.Statement.Comparison

/-!
# Proofs/Statement/Integers — where integers are exact, and where they are floats

A JSON number keeps every integer of 64 bits, signed or unsigned.  Arithmetic is exact on the signed
ones alone: sum, difference and product are the exact integer or an overflow.  **As soon as an
operand is beyond them both are taken for floats, and so is the result**
(`integers_are_exact_or_floats`): it is never an overflow and never an integer again, not even where
the exact result is one (`large_integers_become_floats`).

Comparison takes all integers for floats.  It never turns an order around, but **integers that are
rounded to one number are taken for equal** (`neighbours_are_taken_for_equal`).  These are close
together and none of them is below `2 ^ 53`; any others compare as integers do
(`integers_compare_or_are_taken_for_equal`).
-/

namespace LiveQuery

open Binary64

variable {a b : Integer} {op : ArithOp} {n : Int}

/-! ## Arithmetic -/

/-- **A result that is the exact integer, or an overflow** if that is no signed integer of 64
bits. -/
inductive IsExactOrOverflow (name : String) (n : Int) : Except EvalError Json → Prop
  | exact (i : Integer) (val_eq : i.val = n) (h : IsSigned n) :
      IsExactOrOverflow name n (.ok (.number (.int i)))
  | overflow (h : ¬ IsSigned n) : IsExactOrOverflow name n (.error (.overflow name))

/-- **A result that is a float**, the rounding of `num / den` units. -/
inductive IsRoundedFloat (num : Int) (den : Nat) : Except EvalError Json → Prop
  | float (z : Binary64) (h : z.IsRounding num den) :
      IsRoundedFloat num den (.ok (.number (.float z)))

/-- A float is no exact integer and no overflow. -/
theorem IsRoundedFloat.not_isExactOrOverflow {num : Int} {den : Nat} {name : String}
    {result : Except EvalError Json} (h : IsRoundedFloat num den result) :
    ¬ IsExactOrOverflow name n result := by
  obtain ⟨z, -⟩ := h
  intro hexact
  cases hexact

namespace ArithOp

theorem exact?_int (op : ArithOp) (a b : Integer) :
    op.exact? (.number (.int a)) (.number (.int b))
      = if IsSigned a.val ∧ IsSigned b.val then op.onIntegers? a.val b.val else none := by
  have hsigned (n : Integer) : (Json.number (.int n)).signed?
      = if IsSigned n.val then some n.val else none := rfl
  unfold ArithOp.exact?
  rw [hsigned, hsigned]
  by_cases ha : IsSigned a.val
  · rw [if_pos ha]
    by_cases hb : IsSigned b.val
    · rw [if_pos hb, if_pos ⟨ha, hb⟩]
      rfl
    · rw [if_neg hb, if_neg (not_and_of_not_right _ hb)]
      rfl
  · rw [if_neg ha, if_neg (not_and_of_not_left _ ha)]
    rfl

/-- **Signed integers are combined as integers.** -/
theorem apply_of_signed (op : ArithOp) (ha : IsSigned a.val) (hb : IsSigned b.val)
    (hop : op.onIntegers? a.val b.val = some n) :
    IsExactOrOverflow op.name n (op.apply (.number (.int a)) (.number (.int b))) := by
  have hexact : op.exact? (.number (.int a)) (.number (.int b)) = some n := by
    rw [exact?_int, if_pos ⟨ha, hb⟩, hop]
  have happly : op.apply (.number (.int a)) (.number (.int b))
      = if IsSigned n then .ok (Json.ofInt n) else .error (.overflow op.name) := by
    rw [apply, hexact]
    rfl
  rw [happly]
  split
  case isTrue hn =>
    have hword : Json.ofInt n = .number (.int ⟨n, hn.isWord⟩) := by
      rw [Json.ofInt, Integer.ofInt?, dif_pos hn.isWord]
    rw [hword]
    exact .exact _ rfl hn
  case isFalse hn => exact .overflow hn

/-- **Beyond the signed integers, they are combined as floats.** -/
theorem apply_of_unsigned (op : ArithOp) {num : Int} {den : Nat}
    (h : ¬ (IsSigned a.val ∧ IsSigned b.val)) (hop : op ≠ .divide)
    (hfloat : ∃ z, op.onFloats a.rounded b.rounded = .finite z ∧ z.IsRounding num den) :
    IsRoundedFloat num den (op.apply (.number (.int a)) (.number (.int b))) := by
  obtain ⟨z, hz, hrounding⟩ := hfloat
  have hexact : op.exact? (.number (.int a)) (.number (.int b)) = none := by
    rw [exact?_int, if_neg h]
  have happly : op.apply (.number (.int a)) (.number (.int b)) = .ok (.number (.float z)) := by
    rw [apply, hexact]
    refine (if_neg fun hdivide => hop hdivide.1).trans ?_
    rw [Integer.rounded, Integer.rounded] at hz
    rw [hz]
  rw [happly]
  exact .float z hrounding

/-- An integer beyond the signed ones is positive. -/
theorem pos_of_not_isSigned (h : ¬ IsSigned a.val) : 0 < a.val := by
  have ha := a.isWord
  unfold IsWord at ha
  unfold IsSigned at h
  omega

end ArithOp

/-- **Integers are combined exactly, or as floats.**

* Two signed integers of 64 bits give the exact sum, difference and product, or an overflow.
* If one of two is beyond them, each is rounded to a float, and so is the exact result on these. -/
theorem integers_are_exact_or_floats (a b : Integer) :
    let result (op : ArithOp) := op.apply (.number (.int a)) (.number (.int b))
    (IsSigned a.val ∧ IsSigned b.val →
      IsExactOrOverflow "Add" (a.val + b.val) (result .add) ∧
      IsExactOrOverflow "Subtract" (a.val - b.val) (result .subtract) ∧
      IsExactOrOverflow "Multiply" (a.val * b.val) (result .multiply)) ∧
    (¬ (IsSigned a.val ∧ IsSigned b.val) → ∃ x y : Binary64,
      x.IsRounding (a.val * unitsPerOne) 1 ∧ y.IsRounding (b.val * unitsPerOne) 1 ∧
      IsRoundedFloat (x.units + y.units) 1 (result .add) ∧
      IsRoundedFloat (x.units - y.units) 1 (result .subtract) ∧
      IsRoundedFloat (x.units * y.units) unitsPerOne (result .multiply)) := by
  intro result
  refine ⟨fun h => ⟨ArithOp.apply_of_signed .add h.1 h.2 rfl,
    ArithOp.apply_of_signed .subtract h.1 h.2 rfl,
    ArithOp.apply_of_signed .multiply h.1 h.2 rfl⟩, fun h => ?_⟩
  have hpos : 0 < a.val ∨ 0 < b.val :=
    (not_and_or.mp h).imp ArithOp.pos_of_not_isSigned ArithOp.pos_of_not_isSigned
  exact ⟨a.rounded, b.rounded, a.isRounding_rounded, b.isRounding_rounded,
    ArithOp.apply_of_unsigned .add h (by decide) (Integer.exists_add a b),
    ArithOp.apply_of_unsigned .subtract h (by decide) (Integer.exists_sub a b),
    ArithOp.apply_of_unsigned .multiply h (by decide) (Integer.exists_mul hpos)⟩

/-- **Exact results are lost beyond the signed integers.**  From `2 ^ 63` on

* one less is a signed integer, and the result is a float that is larger by one;
* a sum of `2 ^ 64` is no overflow;
* and nothing is left of a number less itself but a float. -/
theorem large_integers_become_floats :
    let large : Integer := ⟨9223372036854775808, by decide⟩
    let one : Integer := ⟨1, by decide⟩
    let result (op : ArithOp) (a b : Integer) := op.apply (.number (.int a)) (.number (.int b))
    (IsSigned (large.val - one.val) ∧
      (result .subtract large one).map Json.write = .ok "9.223372036854776e+18".toList ∧
      ¬ IsExactOrOverflow "Subtract" (large.val - one.val) (result .subtract large one)) ∧
    (result .add large large).map Json.write = .ok "1.8446744073709552e+19".toList ∧
    (result .subtract large large).map Json.write = .ok "0.0".toList := by
  intro large one result
  have hfloat := ArithOp.apply_of_unsigned (a := large) (b := one) .subtract (by decide)
    (by decide) (Integer.exists_sub large one)
  exact ⟨⟨by decide, by decide +kernel, hfloat.not_isExactOrOverflow⟩, by decide +kernel,
    by decide +kernel⟩

/-! ## Comparison -/

/-- **Where the roundings differ they are in the order of the integers.** -/
theorem Integer.compare_units_eq (h : a.rounded.units = b.rounded.units → a.val = b.val) :
    compare a.rounded.units b.rounded.units = compare a.val b.val := by
  rcases Int.lt_trichotomy a.val b.val with hlt | heq | hgt
  · have hle := units_le (Int.le_of_lt hlt)
    rw [Int.compare_eq_lt.mpr hlt, Int.compare_eq_lt.mpr (by omega)]
  · rw [val_inj.mp heq, Int.compare_eq_eq.mpr rfl, Int.compare_eq_eq.mpr rfl]
  · have hle := units_le (Int.le_of_lt hgt)
    rw [Int.compare_eq_gt.mpr hgt, Int.compare_eq_gt.mpr (by omega)]

/-- **Integers compare as integers do, or they are different and taken for equal.**  The latter are
at most 2048 apart, and none of them is below `2 ^ 53`. -/
theorem integers_compare_or_are_taken_for_equal (a b : Integer) :
    let left : Json := .number (.int a)
    let right : Json := .number (.int b)
    left.ComparesAs right (compare a.val b.val) ∨
      (left.ComparesAs right .eq ∧ a.val ≠ b.val ∧ (a.val - b.val).natAbs ≤ 2048 ∧
        wholeLimit ≤ a.val.natAbs ∧ wholeLimit ≤ b.val.natAbs) := by
  intro left right
  have hcompare : left.ComparesAs right (compare a.rounded.units b.rounded.units) :=
    Json.comparesAs_number (.int a) (.int b)
  by_cases hapart : a.rounded.units = b.rounded.units → a.val = b.val
  · rw [Integer.compare_units_eq hapart] at hcompare
    exact .inl hcompare
  · obtain ⟨hunits, hval⟩ := Classical.not_imp.mp hapart
    rw [Int.compare_eq_eq.mpr hunits] at hcompare
    exact .inr ⟨hcompare, hval, Integer.close_of_units_eq hunits hval⟩

/-- **Different integers can be taken for equal**: the first beyond `2 ^ 53` and its neighbour, and
two that are 2048 apart. -/
theorem neighbours_are_taken_for_equal :
    let limit : Integer := ⟨9007199254740992, by decide⟩
    let next : Integer := ⟨9007199254740993, by decide⟩
    let low : Integer := ⟨9223372036854778880, by decide⟩
    let high : Integer := ⟨9223372036854780928, by decide⟩
    let json (n : Integer) : Json := .number (.int n)
    limit.val < next.val ∧ (json limit).ComparesAs (json next) .eq ∧
      ¬ (json limit).ComparesAs (json next) (compare limit.val next.val) ∧
      high.val - low.val = 2048 ∧ (json low).ComparesAs (json high) .eq := by
  intro limit next low high json
  have hnext : compare limit.rounded.units next.rounded.units = .eq := by decide +kernel
  have hhigh : compare low.rounded.units high.rounded.units = .eq := by decide +kernel
  have hequal : (json limit).ComparesAs (json next) .eq :=
    hnext ▸ Json.comparesAs_number (.int limit) (.int next)
  refine ⟨by decide, hequal, fun h => ?_, by decide,
    hhigh ▸ Json.comparesAs_number (.int low) (.int high)⟩
  have hverdicts := (hequal .equal).symm.trans (h .equal)
  exact absurd hverdicts (by decide)

end LiveQuery
