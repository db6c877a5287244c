/-!
# Word — the integers of 64 bits

Two ranges of integers matter: the **signed** ones, on which arithmetic is exact, and all those of
64 bits **signed or unsigned**, which a JSON number keeps as they are written.
-/

namespace LiveQuery

/-- **The signed integers of 64 bits**: from `-2 ^ 63` to before `2 ^ 63`. -/
def IsSigned (n : Int) : Prop := -9223372036854775808 ≤ n ∧ n < 9223372036854775808

instance (n : Int) : Decidable (IsSigned n) := inferInstanceAs (Decidable (_ ∧ _))

/-- **The integers of 64 bits, signed or unsigned**: from `-2 ^ 63` to before `2 ^ 64`. -/
def IsWord (n : Int) : Prop := -9223372036854775808 ≤ n ∧ n < 18446744073709551616

instance (n : Int) : Decidable (IsWord n) := inferInstanceAs (Decidable (_ ∧ _))

/-- A signed integer is one of all those of 64 bits. -/
theorem IsSigned.isWord {n : Int} (h : IsSigned n) : IsWord n := by
  unfold IsSigned at h; unfold IsWord; omega

/-- An integer of 64 bits has at most 64 bits without its sign. -/
theorem IsWord.natAbs_le {n : Int} (h : IsWord n) : n.natAbs ≤ UInt64.size := by
  unfold IsWord at h; simp only [UInt64.size]; omega

end LiveQuery
