import LiveQuery.Text.Numeral
import Mathlib.Algebra.Ring.Nat
import Mathlib.Data.List.TakeDrop
import Mathlib.Data.List.TakeWhile

/-!
# Proofs/Text/Numeral — numerals written out, and read back

Two views of the scanner of numerals.  From the side of the text, **what it reads is made of the
characters of numerals** (`Consumed.scan`), so a number never holds a parenthesis or a comma.  From
the side of the writer, a numeral put together from digits, a fraction and an exponent is scanned
back part by part (`scan_unsigned_append`), and the digits of a number denote it again
(`natOfDigits_append`, `readInt?_digitsOfInt`).
-/

namespace LiveQuery.Text

variable {cs ds rest : List Char} {c : Char}

/-! ## What a numeral is made of -/

/-- **The characters of numerals.** -/
def isNumeralChar (c : Char) : Bool :=
  c.isDigit || c == '+' || c == '-' || c == '.' || c == 'e' || c == 'E'

theorem isNumeralChar_of_isDigit (h : c.isDigit = true) : isNumeralChar c = true := by
  rw [isNumeralChar, h]
  rfl

/-- The characters of numerals are printed. -/
theorem graphic_of_isNumeralChar (h : isNumeralChar c = true) :
    0x20 < c.toNat ∧ c.toNat < 0x7f := by
  simp only [isNumeralChar, Bool.or_eq_true, beq_iff_eq] at h
  rcases h with ((((hdigit | rfl) | rfl) | rfl) | rfl) | rfl
  · obtain ⟨hge, hle⟩ := Bool.and_eq_true_iff.mp hdigit
    have hge : 48 ≤ c.toNat := UInt32.le_iff_toNat_le.mp (of_decide_eq_true hge)
    have hle : c.toNat ≤ 57 := UInt32.le_iff_toNat_le.mp (of_decide_eq_true hle)
    omega
  all_goals decide

theorem all_isNumeralChar_of_digits (h : ds.all Char.isDigit = true) :
    ds.all isNumeralChar = true :=
  List.all_eq_true.mpr fun _ hc => isNumeralChar_of_isDigit (List.all_eq_true.mp h _ hc)

/-- A scanner has read characters of numerals, up to `rest`. -/
def Consumed (cs rest : List Char) : Prop :=
  ∃ used, used ++ rest = cs ∧ used.all isNumeralChar = true

namespace Consumed

theorem refl (cs : List Char) : Consumed cs cs := ⟨[], rfl, rfl⟩

theorem trans {as bs cs : List Char} (h : Consumed as bs) (h' : Consumed bs cs) :
    Consumed as cs := by
  obtain ⟨used, rfl, hused⟩ := h
  obtain ⟨used', rfl, hused'⟩ := h'
  exact ⟨used ++ used', List.append_assoc .., by rw [List.all_append, hused, hused']; rfl⟩

theorem cons (hc : isNumeralChar c = true) (h : Consumed cs rest) : Consumed (c :: cs) rest :=
  trans ⟨[c], rfl, by rw [List.all_cons, hc]; rfl⟩ h

end Consumed

theorem scanDigits_eq (cs : List Char) :
    scanDigits cs = (cs.takeWhile Char.isDigit, cs.dropWhile Char.isDigit) :=
  List.span_eq_takeWhile_dropWhile ..

theorem Consumed.scanDigits (cs : List Char) : Consumed cs (scanDigits cs).2 := by
  rw [scanDigits_eq]
  refine ⟨cs.takeWhile Char.isDigit, List.takeWhile_append_dropWhile, ?_⟩
  exact all_isNumeralChar_of_digits (List.all_eq_true.mpr fun _ => List.mem_takeWhile_imp)

theorem Consumed.scanSign (cs : List Char) : Consumed cs (scanSign cs).2 := by
  unfold Text.scanSign
  split
  · exact .cons rfl (.refl _)
  · exact .cons rfl (.refl _)
  · exact .refl _

theorem Consumed.scanFraction (cs : List Char) : Consumed cs (scanFraction cs).2 := by
  unfold Text.scanFraction
  split
  · exact .cons rfl (.scanDigits _)
  · exact .refl _

theorem Consumed.scanExponent {e : Option Int} (h : scanExponent cs = some (e, rest)) :
    Consumed cs rest := by
  unfold Text.scanExponent at h
  split at h
  case h_1 c cs =>
    split at h
    case isTrue hc =>
      simp only at h
      split at h
      case isTrue => cases h
      case isFalse =>
        cases h
        refine .cons ?_ ((Consumed.scanSign cs).trans (.scanDigits _))
        rcases hc with rfl | rfl <;> rfl
    case isFalse =>
      cases h
      exact .refl _
  case h_2 =>
    cases h
    exact .refl _

/-- **Scanning a numeral reads characters of numerals.** -/
theorem Consumed.scan {negative : Bool} {n : Numeral}
    (h : Numeral.scan negative cs = some (n, rest)) : Consumed cs rest := by
  obtain ⟨⟨e, rest'⟩, he, heq⟩ := Option.map_eq_some_iff.mp h
  obtain rfl : rest' = rest := congrArg Prod.snd heq
  exact (Consumed.scanDigits cs).trans ((Consumed.scanFraction _).trans (.scanExponent he))

/-! ## Numbers and their digits -/

/-- **Digits after digits**: the first ones count for more. -/
theorem natOfDigits_append (as bs : List Char) :
    natOfDigits (as ++ bs) = natOfDigits as * 10 ^ bs.length + natOfDigits bs := by
  rw [natOfDigits, Nat.ofDigitChars_append, Nat.ofDigitChars_eq_ofDigitChars_zero, Nat.mul_comm]
  rfl

/-- Zeros in front of the digits count for nothing. -/
theorem natOfDigits_zeros_append (n : Nat) (ds : List Char) :
    natOfDigits (List.replicate n '0' ++ ds) = natOfDigits ds := by
  have hzeros : natOfDigits (List.replicate n '0') = 0 := Nat.ofDigitChars_replicate_zero
  rw [natOfDigits_append, hzeros, Nat.zero_mul, Nat.zero_add]

/-- Zeros after the digits count for powers of ten. -/
theorem natOfDigits_append_zeros (ds : List Char) (n : Nat) :
    natOfDigits (ds ++ List.replicate n '0') = natOfDigits ds * 10 ^ n := by
  have hzeros : natOfDigits (List.replicate n '0') = 0 := Nat.ofDigitChars_replicate_zero
  rw [natOfDigits_append, hzeros, List.length_replicate, Nat.add_zero]

theorem digitsOfNat_ne_nil (n : Nat) : digitsOfNat n ≠ [] := Nat.toDigits_ne_nil

theorem all_isDigit_digitsOfNat (n : Nat) : (digitsOfNat n).all Char.isDigit = true :=
  List.all_eq_true.mpr fun _ => isDigit_of_mem_digitsOfNat

theorem readNat?_digitsOfNat (n : Nat) : readNat? (digitsOfNat n) = some n := by
  rw [readNat?, if_pos ⟨digitsOfNat_ne_nil n, all_isDigit_digitsOfNat n⟩, natOfDigits_digitsOfNat]

/-- **An integer is read back from its digits.** -/
theorem readInt?_digitsOfInt (n : Int) : readInt? (digitsOfInt n) = some n := by
  rw [digitsOfInt]
  split
  case isTrue hneg =>
    have hread : readInt? ('-' :: digitsOfNat n.natAbs) = some (-(n.natAbs : Int)) := by
      simp [readInt?, readNat?_digitsOfNat]
    rw [hread]
    exact congrArg some (by omega)
  case isFalse hpos =>
    have habs : Int.ofNat n.natAbs = n := by rw [Int.ofNat_eq_natCast]; omega
    -- The digits begin with no sign, so they are read as they are.
    have hplain : readInt? (digitsOfNat n.natAbs)
        = (readNat? (digitsOfNat n.natAbs)).map Int.ofNat := by
      have hdigit := all_isDigit_digitsOfNat n.natAbs
      cases hds : digitsOfNat n.natAbs with
      | nil => rfl
      | cons d ds =>
        rw [hds, List.all_cons, Bool.and_eq_true] at hdigit
        rw [readInt?]
        · rintro rest ⟨⟩; exact absurd hdigit.1 (by decide)
        · rintro rest ⟨⟩; exact absurd hdigit.1 (by decide)
    rw [hplain, readNat?_digitsOfNat, Option.map_some, habs]

theorem readNat?_eq_some_iff {ds : List Char} :
    readNat? ds = some n ↔ ds ≠ [] ∧ ds.all Char.isDigit = true ∧ natOfDigits ds = n := by
  rw [readNat?]
  split
  case isTrue h => simp [h]
  case isFalse h => exact iff_of_false (fun hn => by cases hn) fun hds => h ⟨hds.1, hds.2.1⟩

/-- A number is read after its plus sign, if it has one. -/
theorem readUnsigned?_append {plus digits : List Char} (hplus : plus = [] ∨ plus = ['+'])
    (hdigits : digits.all Char.isDigit = true) :
    readUnsigned? limit (plus ++ digits) = (readNat? digits).filter (· < limit) := by
  rcases hplus with rfl | rfl
  · refine readUnsigned?.eq_2 limit digits fun rest hrest => ?_
    rw [hrest, List.all_cons, Bool.and_eq_true] at hdigits
    exact absurd hdigits.1 (by decide)
  · rfl

/-- **What is read as a number is digits, after at most a plus sign.** -/
theorem readUnsigned?_eq_some_iff :
    readUnsigned? limit cs = some n ↔
      n < limit ∧ ∃ plus digits, cs = plus ++ digits ∧ (plus = [] ∨ plus = ['+']) ∧
        digits ≠ [] ∧ digits.all Char.isDigit = true ∧ natOfDigits digits = n := by
  constructor
  · intro h
    have hread : ∃ plus digits, cs = plus ++ digits ∧ (plus = [] ∨ plus = ['+']) ∧
        (readNat? digits).filter (· < limit) = some n := by
      unfold readUnsigned? at h
      split at h
      case h_1 rest => exact ⟨['+'], rest, rfl, .inr rfl, h⟩
      case h_2 => exact ⟨[], cs, rfl, .inl rfl, h⟩
    obtain ⟨plus, digits, hcs, hplus, hfilter⟩ := hread
    obtain ⟨hn, hlimit⟩ := Option.filter_eq_some_iff.mp hfilter
    exact ⟨of_decide_eq_true hlimit, plus, digits, hcs, hplus, readNat?_eq_some_iff.mp hn⟩
  · rintro ⟨hlimit, plus, digits, rfl, hplus, hne, hdigits, hvalue⟩
    rw [readUnsigned?_append hplus hdigits, readNat?_eq_some_iff.mpr ⟨hne, hdigits, hvalue⟩]
    exact Option.filter_eq_some_iff.mpr ⟨rfl, decide_eq_true hlimit⟩

/-- **A text read as an integer is digits after at most a sign.** -/
theorem isDigit_of_readInt? {n : Int} (h : readInt? cs = some n) :
    ∀ c ∈ cs, c.isDigit = true ∨ c = '+' ∨ c = '-' := by
  have key : ∀ {ds : List Char} {m : Nat}, readNat? ds = some m → ∀ c ∈ ds, c.isDigit = true := by
    intro ds m hm
    rw [readNat?] at hm
    split at hm
    case isTrue hds => exact List.all_eq_true.mp hds.2
    case isFalse => cases hm
  unfold readInt? at h
  split at h
  case h_1 ds =>
    cases hm : readNat? ds with
    | none => simp [hm] at h
    | some m =>
      exact List.forall_mem_cons.mpr ⟨Or.inr (Or.inr rfl), fun c hc => Or.inl (key hm c hc)⟩
  · obtain ⟨m, hm, -⟩ := Option.map_eq_some_iff.mp h
    exact List.forall_mem_cons.mpr ⟨Or.inr (Or.inl rfl), fun c hc => Or.inl (key hm c hc)⟩
  · obtain ⟨m, hm, -⟩ := Option.map_eq_some_iff.mp h
    exact fun c hc => Or.inl (key hm c hc)

/-! ## A numeral put together -/

/-- The written form of a fraction. -/
def writeFraction : Option (List Char) → List Char
  | none => []
  | some ds => '.' :: ds

/-- The written form of an exponent, which always has a sign. -/
def writeExponent : Option Int → List Char
  | none => []
  | some e => 'e' :: (if e < 0 then '-' else '+') :: digitsOfNat e.natAbs

/-- Digits are scanned up to what is no digit. -/
theorem scanDigits_append (hds : ds.all Char.isDigit = true)
    (hrest : ∀ c ∈ rest.head?, c.isDigit = false) : scanDigits (ds ++ rest) = (ds, rest) := by
  have hall := List.all_eq_true.mp hds
  have htake : rest.takeWhile Char.isDigit = [] ∧ rest.dropWhile Char.isDigit = rest := by
    cases rest with
    | nil => exact ⟨rfl, rfl⟩
    | cons c rest =>
      have hc : ¬ c.isDigit = true := Bool.eq_false_iff.mp (hrest c rfl)
      exact ⟨List.takeWhile_cons_of_neg hc, List.dropWhile_cons_of_neg hc⟩
  rw [scanDigits_eq, List.takeWhile_append_of_pos hall, List.dropWhile_append_of_pos hall,
    htake.1, htake.2, List.append_nil]

theorem scanExponent_write (e : Option Int) (hrest : ∀ c ∈ rest.head?, isNumeralChar c = false) :
    scanExponent (writeExponent e ++ rest) = some (e, rest) := by
  cases e with
  | none =>
    cases rest with
    | nil => rfl
    | cons c rest =>
      have hc : ¬ (c = 'e' ∨ c = 'E') := by
        rintro (rfl | rfl) <;> exact absurd (hrest _ rfl) (by decide)
      exact if_neg hc
  | some e =>
    have hdigits : ∀ c ∈ rest.head?, c.isDigit = false := fun c hc =>
      Bool.eq_false_iff.mpr (mt isNumeralChar_of_isDigit (Bool.eq_false_iff.mp (hrest c hc)))
    have hscan := scanDigits_append (all_isDigit_digitsOfNat e.natAbs) hdigits
    rw [writeExponent, List.cons_append, List.cons_append]
    split
    case isTrue hneg =>
      have hval : -((natOfDigits (digitsOfNat e.natAbs) : Nat) : Int) = e := by
        rw [natOfDigits_digitsOfNat]; omega
      simp only [scanExponent, scanSign, hscan, digitsOfNat_ne_nil, hval, true_or, if_true,
        if_false]
    case isFalse hpos =>
      have hval : ((natOfDigits (digitsOfNat e.natAbs) : Nat) : Int) = e := by
        rw [natOfDigits_digitsOfNat]; omega
      simp only [scanExponent, scanSign, hscan, digitsOfNat_ne_nil, hval, true_or, if_true,
        if_false, Bool.false_eq_true]

/-- A numeral written out, without its sign. -/
def Numeral.unsigned (n : Numeral) : List Char :=
  n.whole ++ (writeFraction n.fraction ++ writeExponent n.exponent)

/-- **A numeral that can be written out**: digits before the point, and digits after it. -/
structure Numeral.IsWritable (n : Numeral) : Prop where
  whole_ne_nil : n.whole ≠ []
  whole_digits : n.whole.all Char.isDigit = true
  fraction_digits : ∀ ds ∈ n.fraction, ds.all Char.isDigit = true

/-- **A numeral written out is scanned back part by part**, up to what is no part of a numeral. -/
theorem scan_unsigned_append {n : Numeral} (h : n.IsWritable)
    (hrest : ∀ c ∈ rest.head?, isNumeralChar c = false) :
    Numeral.scan n.negative (n.unsigned ++ rest) = some (n, rest) := by
  obtain ⟨negative, whole, fraction, e⟩ := n
  have hexp : ∀ c ∈ (writeExponent e ++ rest).head?, c.isDigit = false ∧ c ≠ '.' := fun c hc => by
    cases e with
    | none =>
      have hnot := hrest c hc
      refine ⟨Bool.eq_false_iff.mpr (mt isNumeralChar_of_isDigit (Bool.eq_false_iff.mp hnot)), ?_⟩
      rintro rfl
      exact absurd hnot (by decide)
    | some e =>
      obtain rfl : 'e' = c := Option.some.inj hc
      exact ⟨rfl, by decide⟩
  have hdigit : ∀ c ∈ (writeExponent e ++ rest).head?, c.isDigit = false := fun c hc =>
    (hexp c hc).1
  have hafter : ∀ c ∈ (writeFraction fraction ++ (writeExponent e ++ rest)).head?,
      c.isDigit = false := by
    cases fraction with
    | none => exact hdigit
    | some ds => exact fun c hc => by obtain rfl : '.' = c := Option.some.inj hc; rfl
  have hscan : scanFraction (writeFraction fraction ++ (writeExponent e ++ rest))
      = (fraction, writeExponent e ++ rest) := by
    cases fraction with
    | none =>
      rw [writeFraction, List.nil_append, scanFraction]
      intro cs hcs
      exact (hexp '.' (by rw [hcs]; rfl)).2 rfl
    | some ds =>
      rw [writeFraction, List.cons_append, scanFraction,
        scanDigits_append (h.fraction_digits ds rfl) hdigit]
  rw [Numeral.scan, Numeral.unsigned, List.append_assoc, List.append_assoc,
    scanDigits_append h.whole_digits hafter]
  simp only [hscan, scanExponent_write e hrest, Option.map_some]

theorem scan_unsigned {n : Numeral} (h : n.IsWritable) :
    Numeral.scan n.negative n.unsigned = some (n, []) := by
  have hscan : Numeral.scan n.negative (n.unsigned ++ []) = some (n, []) :=
    scan_unsigned_append h fun c hc => absurd hc (Option.not_mem_none c)
  rwa [List.append_nil] at hscan

/-- **A numeral written out.** -/
def Numeral.write (n : Numeral) : List Char := if n.negative then '-' :: n.unsigned else n.unsigned

/-- A numeral begins with a digit, after its sign. -/
theorem exists_unsigned {n : Numeral} (h : n.IsWritable) :
    ∃ d ds, n.unsigned = d :: ds ∧ d.isDigit = true := by
  obtain ⟨d, ds, hwhole⟩ := List.exists_cons_of_ne_nil h.whole_ne_nil
  have hd := List.all_eq_true.mp h.whole_digits d (hwhole ▸ List.mem_cons_self)
  exact ⟨d, _, by rw [Numeral.unsigned, hwhole]; rfl, hd⟩

theorem scanSign_write {n : Numeral} (h : n.IsWritable) :
    scanSign n.write = (n.negative, n.unsigned) := by
  rw [Numeral.write]
  split
  case isTrue hneg => rw [hneg]; rfl
  case isFalse hpos =>
    obtain ⟨d, ds, hds, hd⟩ := exists_unsigned h
    rw [hds, scanSign, Bool.eq_false_iff.mpr hpos]
    · rintro rest ⟨⟩; exact absurd hd (by decide)
    · rintro rest ⟨⟩; exact absurd hd (by decide)

/-- **A numeral with a point or an exponent is no integer.** -/
theorem readInt?_write {n : Numeral} (h : n.isWhole = false) : readInt? n.write = none := by
  have hmark : '.' ∈ n.unsigned ∨ 'e' ∈ n.unsigned := by
    obtain ⟨negative, whole, fraction, e⟩ := n
    cases fraction with
    | some ds => exact Or.inl (List.mem_append_right _ List.mem_cons_self)
    | none =>
      cases e with
      | some e => exact Or.inr (List.mem_append_right _ List.mem_cons_self)
      | none => cases h
  have hsub : ∀ c ∈ n.unsigned, c ∈ n.write := by
    intro c hc
    rw [Numeral.write]
    split
    · exact List.mem_cons_of_mem _ hc
    · exact hc
  refine Option.eq_none_iff_forall_ne_some.mpr fun i hi => ?_
  rcases hmark with hc | hc <;> exact absurd (isDigit_of_readInt? hi _ (hsub _ hc)) (by decide)

end LiveQuery.Text
