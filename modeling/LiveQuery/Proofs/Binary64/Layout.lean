import LiveQuery.Proofs.Binary64.Nearest
import LiveQuery.Proofs.Text.Numeral
import Mathlib.Data.List.DropRight

/-!
# Proofs/Binary64/Layout — the text of a number is a numeral of the number

A layout moves the point and leaves out zeros, and either is a numeral (`Layout.numeral`).
**Whatever the layout, the numeral denotes the number again** (`ofDecimal_numeral`): the digits kept
and the place of the point say the same as the shortest decimal (`ofDecimal_shift`).
-/

namespace LiveQuery.Binary64

open Text

variable {negative keepsFraction : Bool} {ds : List Char} {p : Int}

/-! ## The digits that are kept -/

theorem digitsOfNat_zero : digitsOfNat 0 = ['0'] := Nat.toDigits_zero 10

theorem significantDigits_zero : significantDigits 0 = ['0'] := by
  rw [significantDigits, digitsOfNat_zero]
  rfl

/-- **What is left out of the digits are zeros at their end.** -/
theorem exists_significantDigits (n : Nat) :
    ∃ k, digitsOfNat n = significantDigits n ++ List.replicate k '0' := by
  have hsplit : (digitsOfNat n).rdropWhile (· == '0') ++ (digitsOfNat n).rtakeWhile (· == '0')
      = digitsOfNat n := List.rdropWhile_append_rtakeWhile
  have hzeros : (digitsOfNat n).rtakeWhile (· == '0')
      = List.replicate ((digitsOfNat n).rtakeWhile (· == '0')).length '0' :=
    List.eq_replicate_iff.mpr ⟨rfl, fun c hc => by simpa using List.mem_rtakeWhile_imp hc⟩
  rw [hzeros] at hsplit
  cases hkept : (digitsOfNat n).rdropWhile (· == '0') with
  | nil =>
    -- Only zero is written with nothing but zeros.
    have hnone : n = 0 := by
      have hvalue := natOfDigits_append_zeros [] ((digitsOfNat n).rtakeWhile (· == '0')).length
      rw [← hkept, hsplit, natOfDigits_digitsOfNat, hkept] at hvalue
      exact hvalue.trans (Nat.zero_mul _)
    rw [hnone, digitsOfNat_zero, significantDigits_zero]
    exact ⟨0, rfl⟩
  | cons d ds =>
    have hds : significantDigits n = d :: ds := by
      rw [List.rdropWhile] at hkept
      rw [significantDigits, hkept]
    exact ⟨_, by rw [hds, ← hkept, hsplit]⟩

theorem significantDigits_ne_nil (n : Nat) : significantDigits n ≠ [] := by
  rw [significantDigits]
  split
  · exact List.cons_ne_nil _ _
  · assumption

theorem all_isDigit_significantDigits (n : Nat) :
    (significantDigits n).all Char.isDigit = true := by
  obtain ⟨k, hk⟩ := exists_significantDigits n
  have hall := all_isDigit_digitsOfNat n
  rw [hk, List.all_append, Bool.and_eq_true] at hall
  exact hall.1

/-! ## Layouts as numerals -/

/-- Digits with the point written at position `p`, as a numeral. -/
def positionalNumeral (negative keepsFraction : Bool) (ds : List Char) (p : Int) : Numeral :=
  if p ≤ 0 then ⟨negative, ['0'], some (List.replicate (-p).toNat '0' ++ ds), none⟩
  else if p.toNat < ds.length then ⟨negative, ds.take p.toNat, some (ds.drop p.toNat), none⟩
  else ⟨negative, ds ++ List.replicate (p.toNat - ds.length) '0',
    if keepsFraction then some ['0'] else none, none⟩

/-- Digits with the point after the first one and an exponent, as a numeral. -/
def scientificNumeral (negative : Bool) (ds : List Char) (p : Int) : Numeral :=
  ⟨negative, ds.take 1, if ds.tail = [] then none else some ds.tail, some (p - 1)⟩

theorem unsigned_positionalNumeral (negative keepsFraction : Bool) (ds : List Char) (p : Int) :
    (positionalNumeral negative keepsFraction ds p).unsigned = positional keepsFraction ds p := by
  rw [positionalNumeral, positional]
  split_ifs <;> simp [Numeral.unsigned, writeFraction, writeExponent]

theorem unsigned_scientificNumeral (negative : Bool) (ds : List Char) (p : Int) :
    (scientificNumeral negative ds p).unsigned = scientific ds p := by
  rw [scientificNumeral, scientific]
  by_cases h : ds.tail = [] <;> simp [h, Numeral.unsigned, writeFraction, writeExponent]

theorem isWritable_positionalNumeral (hne : ds ≠ []) (hds : ds.all Char.isDigit = true) :
    (positionalNumeral negative keepsFraction ds p).IsWritable := by
  have hzeros : ∀ n, (List.replicate n '0').all Char.isDigit = true := fun n =>
    List.all_eq_true.mpr fun c hc => by rw [List.eq_of_mem_replicate hc]; rfl
  have hparts : ds.take p.toNat ++ ds.drop p.toNat = ds := List.take_append_drop ..
  rw [positionalNumeral]
  split_ifs with hsmall hinside
  · refine ⟨List.cons_ne_nil _ _, rfl, fun cs hcs => ?_⟩
    obtain rfl := Option.some.inj hcs
    rw [List.all_append, hzeros, hds]
    rfl
  · rw [← hparts, List.all_append, Bool.and_eq_true] at hds
    refine ⟨fun hnil => ?_, hds.1, fun cs hcs => ?_⟩
    · rcases List.take_eq_nil_iff.mp hnil with hzero | hnone
      · omega
      · exact hne hnone
    · obtain rfl := Option.some.inj hcs
      exact hds.2
  · refine ⟨fun hnil => hne (List.append_eq_nil_iff.mp hnil).1, ?_, fun cs hcs => ?_⟩
    · rw [List.all_append, hzeros, hds]
      rfl
    · obtain rfl := Option.some.inj hcs
      rfl
  · refine ⟨fun hnil => hne (List.append_eq_nil_iff.mp hnil).1, ?_, fun cs hcs => nomatch hcs⟩
    rw [List.all_append, hzeros, hds]
    rfl

theorem isWritable_scientificNumeral (hne : ds ≠ []) (hds : ds.all Char.isDigit = true) :
    (scientificNumeral negative ds p).IsWritable := by
  obtain ⟨d, ds, rfl⟩ := List.exists_cons_of_ne_nil hne
  rw [List.all_cons, Bool.and_eq_true] at hds
  refine ⟨List.cons_ne_nil _ _, ?_, fun cs hcs => ?_⟩
  · rw [scientificNumeral, List.take_succ_cons, List.take_zero, List.all_cons, hds.1]
    rfl
  · cases ds with
    | nil => cases hcs
    | cons c cs' =>
      obtain rfl : c :: cs' = cs := Option.some.inj hcs
      exact hds.2

/-! ## What the numerals denote -/

/-- **Wherever the point is written, the value is that of the digits times a power of ten.** -/
theorem ofDecimal_positionalNumeral :
    ofDecimal (positionalNumeral negative keepsFraction ds p).decimal
      = ofDecimal ⟨negative, natOfDigits ds, p - ds.length⟩ := by
  rw [positionalNumeral]
  split_ifs with hsmall hinside
  · have hdigits : natOfDigits ('0' :: (List.replicate (-p).toNat '0' ++ ds)) = natOfDigits ds :=
      natOfDigits_zeros_append ((-p).toNat + 1) ds
    have hexp : (0 : Int) - (List.replicate (-p).toNat '0' ++ ds).length = p - ds.length := by
      rw [List.length_append, List.length_replicate]; omega
    exact congrArg ofDecimal (congr (congrArg _ hdigits) hexp)
  · have hdigits : natOfDigits (ds.take p.toNat ++ ds.drop p.toNat) = natOfDigits ds := by
      rw [List.take_append_drop]
    have hexp : (0 : Int) - (ds.drop p.toNat).length = p - ds.length := by
      rw [List.length_drop]; omega
    exact congrArg ofDecimal (congr (congrArg _ hdigits) hexp)
  · -- One more zero stands after the point.
    have hdigits : ds ++ List.replicate (p.toNat - ds.length) '0' ++ ['0']
        = ds ++ List.replicate (p.toNat - ds.length + 1) '0' := by
      rw [List.replicate_succ', List.append_assoc]
    have hexp : (0 : Int) - 1 + (p.toNat - ds.length + 1 : Nat) = p - ds.length := by omega
    have hvalue := ofDecimal_shift negative (natOfDigits ds) (p.toNat - ds.length + 1) (0 - 1)
    rw [← natOfDigits_append_zeros, ← hdigits, hexp] at hvalue
    exact hvalue
  · have hexp : (0 : Int) + (p.toNat - ds.length : Nat) = p - ds.length := by omega
    have hvalue := ofDecimal_shift negative (natOfDigits ds) (p.toNat - ds.length) 0
    rw [← natOfDigits_append_zeros, hexp] at hvalue
    rw [← hvalue, Numeral.decimal, Numeral.digits]
    simp only [Option.getD_none, List.append_nil, List.length_nil]
    rfl

theorem decimal_scientificNumeral (hne : ds ≠ []) :
    (scientificNumeral negative ds p).decimal = ⟨negative, natOfDigits ds, p - ds.length⟩ := by
  obtain ⟨d, ds, rfl⟩ := List.exists_cons_of_ne_nil hne
  cases ds with
  | nil => exact congrArg _ (Int.sub_zero (p - 1))
  | cons c cs =>
    have hexp : p - 1 - ((c :: cs).length : Int) = p - (d :: c :: cs).length := by
      simp only [List.length_cons]; omega
    exact congrArg _ hexp

/-! ## The text of a number -/

/-- The place of the point in the text of a number, before the first digit's place if it is zero. -/
def pointPlace (d : Decimal) : Int :=
  if d.digits = 0 then 1 else (digitsOfNat d.digits).length + d.exponent

/-- **The numeral that a number is written as.** -/
def Layout.numeral (layout : Layout) (x : Binary64) : Numeral :=
  let ds := significantDigits x.shortest.digits
  let p := pointPlace x.shortest
  if layout.isPositional p then positionalNumeral x.negative layout.keepsFraction ds p
  else scientificNumeral x.negative ds p

theorem negative_numeral (layout : Layout) (x : Binary64) :
    (layout.numeral x).negative = x.negative := by
  rw [Layout.numeral]
  split
  · rw [positionalNumeral]
    split_ifs <;> rfl
  · rfl

/-- **The text of a number is its numeral, written out.** -/
theorem text_eq_write (layout : Layout) (x : Binary64) :
    x.text layout = (layout.numeral x).write := by
  have hbody : (layout.numeral x).unsigned
      = if layout.isPositional (pointPlace x.shortest) then
          positional layout.keepsFraction (significantDigits x.shortest.digits)
            (pointPlace x.shortest)
        else scientific (significantDigits x.shortest.digits) (pointPlace x.shortest) := by
    rw [Layout.numeral]
    split
    · exact unsigned_positionalNumeral ..
    · exact unsigned_scientificNumeral ..
  rw [Numeral.write, negative_numeral, hbody]
  rfl

theorem isWritable_numeral (layout : Layout) (x : Binary64) : (layout.numeral x).IsWritable := by
  have hne := significantDigits_ne_nil x.shortest.digits
  have hds := all_isDigit_significantDigits x.shortest.digits
  rw [Layout.numeral]
  split
  · exact isWritable_positionalNumeral hne hds
  · exact isWritable_scientificNumeral hne hds

/-- The sign of what is read is the sign of the decimal. -/
theorem negative_of_ofDecimal {d : Decimal} {x : Binary64} (h : ofDecimal d = .finite x) :
    x.negative = d.negative := by
  rw [ofDecimal_eq_nearest, nearest] at h
  split at h
  · cases h; rfl
  · cases h

/-- **The digits that are kept, with the point in its place, say the same as the shortest
decimal.** -/
theorem ofDecimal_significantDigits (d : Decimal) :
    ofDecimal ⟨d.negative, natOfDigits (significantDigits d.digits),
        pointPlace d - (significantDigits d.digits).length⟩ = ofDecimal d := by
  obtain ⟨negative, n, e⟩ := d
  by_cases hzero : n = 0
  · subst hzero
    have hdigits : natOfDigits (significantDigits 0) = 0 := by rw [significantDigits_zero]; rfl
    rw [ofDecimal, ofDecimal, if_pos hdigits, if_pos rfl]
  · obtain ⟨k, hk⟩ := exists_significantDigits n
    have hn : natOfDigits (significantDigits n) * 10 ^ k = n := by
      rw [← natOfDigits_append_zeros, ← hk, natOfDigits_digitsOfNat]
    have hexp : pointPlace ⟨negative, n, e⟩ - (significantDigits n).length = e + k := by
      simp only [pointPlace, hzero, if_false]
      rw [hk, List.length_append, List.length_replicate]
      omega
    rw [hexp, ← ofDecimal_shift, hn]

/-- **The numeral of a number denotes it**, in every layout. -/
theorem ofDecimal_numeral (layout : Layout) (x : Binary64) :
    ofDecimal (layout.numeral x).decimal = .finite x := by
  have hsign : x.negative = x.shortest.negative := negative_of_ofDecimal (ofDecimal_shortest x)
  rw [← ofDecimal_shortest x, ← ofDecimal_significantDigits x.shortest, Layout.numeral, hsign]
  split
  · exact ofDecimal_positionalNumeral
  · exact congrArg ofDecimal (decimal_scientificNumeral (significantDigits_ne_nil _))

/-- **In a layout that keeps fractions no number looks like an integer.** -/
theorem isWhole_numeral {layout : Layout} (h : layout.keepsFraction = true) (x : Binary64) :
    (layout.numeral x).isWhole = false := by
  rw [Layout.numeral]
  split
  · simp only [positionalNumeral, h, if_true]
    split_ifs <;> rfl
  · exact Bool.and_false _

end LiveQuery.Binary64
