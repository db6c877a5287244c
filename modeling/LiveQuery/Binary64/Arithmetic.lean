import LiveQuery.Binary64.Basic

/-!
# Binary64/Arithmetic — sums, differences, products and quotients

Each operation computes its **exact** result in units and rounds it once with `nearest`.  A zero has
no magnitude to take a sign from, so the sign of a zero result is stated separately: an exact zero
sum is negative only if both terms are, and products and quotients multiply their signs.
-/

namespace LiveQuery

namespace Binary64

/-- **The sum**, rounded once. -/
def add (x y : Binary64) : Extended :=
  let s := x.units + y.units
  if s = 0 then .finite (zero (x.negative && y.negative))
  else nearest (decide (s < 0)) s.natAbs 1

/-- **The difference**, rounded once. -/
def sub (x y : Binary64) : Extended := x.add y.neg

/-- **The product**, rounded once. -/
def mul (x y : Binary64) : Extended :=
  nearest (x.negative != y.negative) (x.magnitude * y.magnitude) unitsPerOne

/-- **The quotient**, rounded once; a zero divisor leaves no finite number. -/
def div (x y : Binary64) : Extended :=
  if y.magnitude = 0 then
    if x.magnitude = 0 then .notANumber else .infinite (x.negative != y.negative)
  else nearest (x.negative != y.negative) (x.magnitude * unitsPerOne) y.magnitude

/-- The binary64 number nearest to an integer. -/
def ofInt (n : Int) : Extended := nearest (decide (n < 0)) (n.natAbs * unitsPerOne) 1

theorem mul_two_pow_lt {n a u b : Nat} (hu : u = Nat.pow 2 b) (hn : n ≤ Nat.pow 2 a) :
    n * u < Nat.pow 2 (a + b + 1) := by
  subst hu
  refine Nat.lt_of_le_of_lt (Nat.mul_le_mul hn (Nat.le_refl _)) ?_
  rw [Nat.pow_eq, Nat.pow_eq, Nat.pow_eq, ← Nat.pow_add]
  exact Nat.pow_lt_pow_right (by decide) (Nat.lt_succ_self _)

theorem wordSize_le : UInt64.size ≤ Nat.pow 2 64 := by decide

/-- A 64-bit integer lies far below the largest binary64 number. -/
theorem natAbs_units_lt {n : Int} (h : n.natAbs ≤ UInt64.size) :
    n.natAbs * unitsPerOne / 1 < Nat.pow 2 (64 + unitScale + 1) := by
  rw [Nat.div_one]
  exact mul_two_pow_lt unitsPerOne_eq (Nat.le_trans h wordSize_le)

theorem ofWord_scale_le {n : Int} (h : n.natAbs ≤ UInt64.size) :
    (roundParts (n.natAbs * unitsPerOne) 1).2 ≤ 2045 :=
  roundParts_scale_le (natAbs_units_lt h) (by decide)

/-- **The binary64 number nearest to a 64-bit integer**, which is always finite. -/
def ofWord (n : Int) (h : n.natAbs ≤ UInt64.size) : Binary64 where
  negative := decide (n < 0)
  significand := (roundParts (n.natAbs * unitsPerOne) 1).1
  scale := (roundParts (n.natAbs * unitsPerOne) 1).2
  significand_lt := roundParts_lt _ _
  scale_le := ofWord_scale_le h
  canonical := roundParts_canonical _ _

theorem ofInt_eq_ofWord {n : Int} (h : n.natAbs ≤ UInt64.size) :
    ofInt n = .finite (ofWord n h) := by
  simp only [ofInt, nearest, ofWord]
  rw [dif_pos (ofWord_scale_le h)]

end Binary64

namespace Extended

/-- Zero. -/
def zero : Extended := .finite (.zero false)

/-- The other sign. -/
def neg : Extended → Extended
  | .finite x => .finite x.neg
  | .infinite s => .infinite !s
  | .notANumber => .notANumber

/-- **The sum of any two results**; opposite infinities have none. -/
def add : Extended → Extended → Extended
  | .finite x, .finite y => x.add y
  | .infinite s, .infinite t => if s = t then .infinite s else .notANumber
  | .notANumber, _ => .notANumber
  | _, .notANumber => .notANumber
  | .infinite s, .finite _ => .infinite s
  | .finite _, .infinite t => .infinite t

/-- The difference of any two results. -/
def sub (x y : Extended) : Extended := x.add y.neg

/-- **The quotient of any result by a finite number.** -/
def divBy : Extended → Binary64 → Extended
  | .finite x, y => x.div y
  | .infinite s, y => .infinite (s != y.negative)
  | .notANumber, _ => .notANumber

end Extended

end LiveQuery
