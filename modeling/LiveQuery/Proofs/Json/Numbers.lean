import LiveQuery.Json.Reader
import LiveQuery.Json.Writer
import LiveQuery.Proofs.Binary64.Layout

/-!
# Proofs/Json/Numbers — a number is read back from its text

Either kind of number is written as a numeral (`Number.numeral`), an integer without a point and a
float with a point or an exponent, and this is how the reader tells them apart.  The reader also
wants a numeral without needless zeros: **no number is written with a zero too many in front**
(`isStrictNumeral_numeral`), because the digits of a number other than zero begin with another
digit.

Whatever follows is not touched, as long as it does not go on like a numeral
(`scanNumber_writeNumber`).
-/

namespace LiveQuery

open Text

variable {rest : List Char}

/-! ## The first digit -/

namespace Text

theorem eq_zero_of_digitChar : ∀ n < 10, n.digitChar = '0' → n = 0 := by decide

/-- **Only zero begins with the digit zero.** -/
theorem head?_digitsOfNat {n : Nat} (h : n ≠ 0) : (digitsOfNat n).head? ≠ some '0' := by
  induction n using Nat.strongRecOn with
  | ind n ih =>
    rw [digitsOfNat, Nat.toDigits_eq_if (by decide)]
    split
    case isTrue hlt => exact fun hhead => h (eq_zero_of_digitChar n hlt (Option.some.inj hhead))
    case isFalse hge =>
      rw [List.head?_append_of_ne_nil _ Nat.toDigits_ne_nil]
      exact ih (n / 10) (Nat.div_lt_self (by omega) (by decide)) (by omega)

/-- Digits that are a zero alone, or do not begin with one. -/
def IsStrict (ds : List Char) : Prop := ds = ['0'] ∨ ds.head? ≠ some '0'

theorem isStrict_digitsOfNat (n : Nat) : IsStrict (digitsOfNat n) := by
  by_cases h : n = 0
  · exact Or.inl (h ▸ Nat.toDigits_zero 10)
  · exact Or.inr (head?_digitsOfNat h)

end Text

namespace Binary64

theorem head?_significantDigits {n : Nat} (h : n ≠ 0) :
    (significantDigits n).head? ≠ some '0' := by
  obtain ⟨k, hk⟩ := exists_significantDigits n
  have hhead := head?_digitsOfNat h
  rwa [hk, List.head?_append_of_ne_nil _ (significantDigits_ne_nil n)] at hhead

/-- Cutting digits short, or putting zeros after them, leaves the first one. -/
theorem isStrict_whole_positionalNumeral {negative keepsFraction : Bool} {ds : List Char} {p : Int}
    (hne : ds ≠ []) (hhead : ds.head? ≠ some '0') :
    IsStrict (positionalNumeral negative keepsFraction ds p).whole := by
  rw [positionalNumeral]
  split_ifs with hsmall hinside
  · exact Or.inl rfl
  · refine Or.inr ?_
    rwa [List.head?_take, if_neg (by omega)]
  · refine Or.inr ?_
    rwa [List.head?_append_of_ne_nil _ hne]
  · refine Or.inr ?_
    rwa [List.head?_append_of_ne_nil _ hne]

/-- **A number is written with no zero too many in front**, in every layout. -/
theorem isStrict_whole_numeral (layout : Layout) (x : Binary64) :
    IsStrict (layout.numeral x).whole := by
  rw [Layout.numeral]
  by_cases hzero : x.shortest.digits = 0
  · rw [pointPlace, if_pos hzero, hzero, significantDigits_zero]
    split
    · exact Or.inl rfl
    · exact Or.inl rfl
  · have hhead := head?_significantDigits hzero
    split
    · exact isStrict_whole_positionalNumeral (significantDigits_ne_nil _) hhead
    · refine Or.inr ?_
      rwa [scientificNumeral, List.head?_take, if_neg (by decide)]

/-- A point has digits after it. -/
theorem fraction_numeral_ne (layout : Layout) (x : Binary64) :
    (layout.numeral x).fraction ≠ some [] := by
  have hne := significantDigits_ne_nil x.shortest.digits
  rw [Layout.numeral]
  split
  · rw [positionalNumeral]
    split_ifs with hsmall hinside
    · exact fun h => hne (List.append_eq_nil_iff.mp (Option.some.inj h)).2
    · intro h
      have hlength := congrArg List.length (Option.some.inj h)
      rw [List.length_drop, List.length_nil] at hlength
      omega
    · exact fun h => List.cons_ne_nil _ _ (Option.some.inj h)
    · exact (Option.some_ne_none _).symm
  · rw [scientificNumeral]
    split_ifs with htail
    · exact (Option.some_ne_none _).symm
    · exact fun h => htail (Option.some.inj h)

end Binary64

/-! ## Numbers as numerals -/

/-- **The numeral that a number is written as.** -/
def Number.numeral : Number → Numeral
  | .int n => ⟨decide (n.val < 0), digitsOfNat n.val.natAbs, none, none⟩
  | .float x => Binary64.jsonLayout.numeral x

namespace Json

theorem writeNumber_eq (n : Number) : writeNumber n = n.numeral.write := by
  cases n with
  | int n =>
    have hunsigned : (Number.numeral (.int n)).unsigned = digitsOfNat n.val.natAbs :=
      List.append_nil _
    rw [writeNumber, digitsOfInt, Numeral.write, hunsigned, Number.numeral]
    simp only [decide_eq_true_eq]
  | float x => exact Binary64.text_eq_write Binary64.jsonLayout x

theorem isWritable_numeral (n : Number) : n.numeral.IsWritable := by
  cases n with
  | int n =>
    exact ⟨digitsOfNat_ne_nil _, all_isDigit_digitsOfNat _,
      fun _ hds => absurd hds (Option.not_mem_none _)⟩
  | float x => exact Binary64.isWritable_numeral Binary64.jsonLayout x

/-- **Every number is written as JSON allows.** -/
theorem isStrictNumeral_numeral (n : Number) : isStrictNumeral n.numeral = true := by
  have hstrict : IsStrict n.numeral.whole ∧ n.numeral.fraction ≠ some [] := by
    cases n with
    | int n => exact ⟨isStrict_digitsOfNat _, (Option.some_ne_none _).symm⟩
    | float x =>
      exact ⟨Binary64.isStrict_whole_numeral _ x, Binary64.fraction_numeral_ne _ x⟩
  rw [isStrictNumeral, Bool.and_eq_true, Bool.and_eq_true, Bool.or_eq_true, decide_eq_true_eq,
    decide_eq_true_eq, decide_eq_true_eq, decide_eq_true_eq]
  exact ⟨⟨(isWritable_numeral n).whole_ne_nil, hstrict.1⟩, hstrict.2⟩

/-- **An integer is read from its digits as an integer.** -/
theorem numberOf?_int (n : Integer) : numberOf? (Number.numeral (.int n)) = some (.int n) := by
  have hval : (natOfDigits (digitsOfNat n.val.natAbs) : Int) = n.val.natAbs := by
    rw [natOfDigits_digitsOfNat]
  have hsign : (decide (n.val < 0) && ((n.val.natAbs : Int) == 0)) = false := by
    rw [Bool.and_eq_false_imp]
    intro hneg
    exact beq_eq_false_iff_ne.mpr fun hzero => by have := of_decide_eq_true hneg; omega
  have hint : (if decide (n.val < 0) = true then -(n.val.natAbs : Int) else n.val.natAbs)
      = n.val := by
    split
    case isTrue hneg => have := of_decide_eq_true hneg; omega
    case isFalse hpos => have := mt decide_eq_true hpos; omega
  have hword : Integer.ofInt? n.val = some n := dif_pos n.isWord
  rw [numberOf?]
  simp only [Number.numeral, Numeral.isWhole, hval, hsign, hint, hword, Option.isNone_none,
    Bool.and_self, Bool.not_false, if_true]

/-- **A numeral with a point or an exponent is read as a float.** -/
theorem numberOf?_float (x : Binary64) :
    numberOf? (Number.numeral (.float x)) = some (.float x) := by
  have hwhole : (Number.numeral (.float x)).isWhole = false := Binary64.isWhole_numeral rfl x
  have hvalue : Binary64.ofDecimal (Number.numeral (.float x)).decimal = .finite x :=
    Binary64.ofDecimal_numeral Binary64.jsonLayout x
  rw [numberOf?]
  simp only [hwhole, hvalue, Bool.false_and, Bool.false_eq_true, if_false]
  rfl

theorem numberOf?_numeral (n : Number) : numberOf? n.numeral = some n := by
  cases n with
  | int n => exact numberOf?_int n
  | float x => exact numberOf?_float x

/-- The sign of a numeral is read first. -/
theorem scanNumber_write {n : Numeral} (h : n.IsWritable) (rest : List Char) :
    scanNumber (n.write ++ rest)
      = match Numeral.scan n.negative (n.unsigned ++ rest) with
        | some (n, rest) => if isStrictNumeral n then (numberOf? n).map (·, rest) else none
        | none => none := by
  rw [Numeral.write]
  split
  case isTrue hneg =>
    rw [hneg]
    rfl
  case isFalse hpos =>
    obtain ⟨d, ds, hds, hd⟩ := exists_unsigned h
    have hminus : ∀ tail, d :: (ds ++ rest) = '-' :: tail → False := fun tail heq => by
      obtain rfl : d = '-' := (List.cons.inj heq).1
      exact absurd hd (by decide)
    rw [hds, Bool.eq_false_iff.mpr hpos]
    exact scanNumber.eq_2 (d :: (ds ++ rest)) hminus

/-- **A number is read back from its text**, up to what does not go on like a numeral. -/
theorem scanNumber_writeNumber (n : Number) (hrest : ∀ c ∈ rest.head?, isNumeralChar c = false) :
    scanNumber (writeNumber n ++ rest) = some (n, rest) := by
  have hwritable := isWritable_numeral n
  rw [writeNumber_eq, scanNumber_write hwritable, scan_unsigned_append hwritable hrest]
  simp only [isStrictNumeral_numeral, numberOf?_numeral, if_true, Option.map_some]

/-- **A number is written with the characters of numerals.** -/
theorem all_isNumeralChar_writeNumber (n : Number) : (writeNumber n).all isNumeralChar = true := by
  obtain ⟨used, hused, hall⟩ := Consumed.scan (scan_unsigned (isWritable_numeral n))
  rw [List.append_nil] at hused
  subst hused
  rw [writeNumber_eq, Numeral.write]
  split
  · rw [List.all_cons, hall]
    rfl
  · exact hall

theorem writeNumber_ne_nil (n : Number) : writeNumber n ≠ [] := by
  obtain ⟨d, ds, hds, -⟩ := exists_unsigned (isWritable_numeral n)
  rw [writeNumber_eq, Numeral.write, hds]
  split <;> exact List.cons_ne_nil _ _

end Json

end LiveQuery
