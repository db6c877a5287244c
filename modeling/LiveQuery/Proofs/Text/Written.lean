import LiveQuery.Proofs.Text.Numeral

/-!
# Proofs/Text/Written — which texts are numbers

`WritesInt` and `WritesNumeral` are grammars: a sign that may be missing, digits, a point among
them, an exponent.  They say what is written and what it denotes, without saying how it is found.

**The readers accept these grammars and nothing else** (`readInt?_eq_some_iff`,
`scan_eq_some_nil_iff`).  The scanner of numerals takes its parts one after the other and never goes
back; that it still finds every numeral is because no part begins like the end of the one before it
(`IsPoint.head_not_isDigit`, `IsExponent.head_not_isDigit`).
-/

namespace LiveQuery.Text

/-! ## The grammars -/

/-- A sign that may be missing, and whether it is a minus. -/
inductive IsSign : List Char → Bool → Prop
  | none : IsSign [] false
  | plus : IsSign ['+'] false
  | minus : IsSign ['-'] true

/-- **A text that writes an integer**: a sign that may be missing, and digits. -/
inductive WritesInt : List Char → Int → Prop
  | intro {sign digits : List Char} {negative : Bool} (hsign : IsSign sign negative)
      (hne : digits ≠ []) (hdigits : digits.all Char.isDigit = true) :
      WritesInt (sign ++ digits) (if negative then -natOfDigits digits else natOfDigits digits)

/-- A point and the digits after it; both may be missing, or the digits alone. -/
inductive IsPoint : List Char → Option (List Char) → Prop
  | none : IsPoint [] none
  | point {digits : List Char} (hdigits : digits.all Char.isDigit = true) :
      IsPoint ('.' :: digits) (some digits)

/-- An exponent that may be missing: a letter and an integer. -/
inductive IsExponent : List Char → Option Int → Prop
  | none : IsExponent [] none
  | letter {c : Char} {cs : List Char} {e : Int} (hc : c = 'e' ∨ c = 'E') (he : WritesInt cs e) :
      IsExponent (c :: cs) (some e)

/-- **A text that writes a numeral**: a sign that may be missing, digits with a point that may be
missing, at least one digit before or after it, and an exponent that may be missing. -/
inductive WritesNumeral : List Char → Numeral → Prop
  | intro {sign whole point exponent : List Char} {negative : Bool}
      {fraction : Option (List Char)} {e : Option Int} (hsign : IsSign sign negative)
      (hwhole : whole.all Char.isDigit = true) (hpoint : IsPoint point fraction)
      (hexponent : IsExponent exponent e) (hne : whole ++ fraction.getD [] ≠ []) :
      WritesNumeral (sign ++ (whole ++ (point ++ exponent))) ⟨negative, whole, fraction, e⟩

variable {cs ds rest sign : List Char} {negative : Bool}

/-! ## Signs -/

theorem exists_isSign (cs : List Char) :
    ∃ sign, cs = sign ++ (scanSign cs).2 ∧ IsSign sign (scanSign cs).1 := by
  unfold scanSign
  split
  · exact ⟨['-'], rfl, .minus⟩
  · exact ⟨['+'], rfl, .plus⟩
  · exact ⟨[], rfl, .none⟩

/-- **A sign is read** in front of what does not begin with another. -/
theorem IsSign.scanSign_append (h : IsSign sign negative)
    (hrest : ∀ c ∈ rest.head?, c ≠ '-' ∧ c ≠ '+') : scanSign (sign ++ rest) = (negative, rest) := by
  cases h with
  | minus => rfl
  | plus => rfl
  | none =>
    rw [List.nil_append, scanSign]
    · rintro cs rfl
      exact (hrest '-' rfl).1 rfl
    · rintro cs rfl
      exact (hrest '+' rfl).2 rfl

theorem head_isDigit (hne : ds ≠ []) (hds : ds.all Char.isDigit = true) (rest : List Char) :
    ∀ c ∈ (ds ++ rest).head?, c.isDigit = true := by
  obtain ⟨d, ds, rfl⟩ := List.exists_cons_of_ne_nil hne
  intro c hc
  obtain rfl : d = c := Option.some.inj hc
  exact List.all_eq_true.mp hds d List.mem_cons_self

theorem ne_sign_of_isDigit {c : Char} (h : c.isDigit = true) : c ≠ '-' ∧ c ≠ '+' := by
  constructor <;> rintro rfl <;> cases h

/-! ## Integers -/

/-- An integer is read after its sign. -/
theorem readInt?_eq (cs : List Char) :
    readInt? cs = (readNat? (scanSign cs).2).map fun n : Nat =>
      if (scanSign cs).1 then -(n : Int) else n := by
  unfold readInt? scanSign
  split
  · cases readNat? _ <;> rfl
  · rfl
  · rfl

/-- **What is read as an integer writes it**, and the other way round. -/
theorem readInt?_eq_some_iff {n : Int} : readInt? cs = some n ↔ WritesInt cs n := by
  constructor
  · intro h
    rw [readInt?_eq] at h
    obtain ⟨sign, hcs, hsign⟩ := exists_isSign cs
    generalize scanSign cs = signed at h hcs hsign
    obtain ⟨m, hm, rfl⟩ := Option.map_eq_some_iff.mp h
    obtain ⟨hne, hdigits, rfl⟩ := readNat?_eq_some_iff.mp hm
    exact hcs ▸ .intro hsign hne hdigits
  · rintro ⟨hsign, hne, hdigits⟩
    rename_i sign digits negative
    have hhead := head_isDigit hne hdigits []
    rw [List.append_nil] at hhead
    rw [readInt?_eq, hsign.scanSign_append fun c hc => ne_sign_of_isDigit (hhead c hc),
      readNat?_eq_some_iff.mpr ⟨hne, hdigits, rfl⟩, Option.map_some]

/-! ## The parts of a numeral -/

theorem exists_isPoint (cs : List Char) :
    ∃ point, cs = point ++ (scanFraction cs).2 ∧ IsPoint point (scanFraction cs).1 := by
  unfold scanFraction
  split
  case h_1 rest =>
    rw [scanDigits_eq]
    refine ⟨'.' :: rest.takeWhile Char.isDigit, ?_, .point ?_⟩
    · rw [List.cons_append, List.takeWhile_append_dropWhile]
    · exact List.all_eq_true.mpr fun _ => List.mem_takeWhile_imp
  case h_2 => exact ⟨[], rfl, .none⟩

theorem IsPoint.head_not_isDigit {point : List Char} {fraction : Option (List Char)}
    (h : IsPoint point fraction) (hrest : ∀ c ∈ rest.head?, c.isDigit = false) :
    ∀ c ∈ (point ++ rest).head?, c.isDigit = false := by
  cases h with
  | none => exact hrest
  | point _ =>
    intro c hc
    obtain rfl : '.' = c := Option.some.inj hc
    rfl

/-- **A point and its digits are read** in front of what is neither. -/
theorem IsPoint.scanFraction_append {point : List Char} {fraction : Option (List Char)}
    (h : IsPoint point fraction) (hrest : ∀ c ∈ rest.head?, c.isDigit = false ∧ c ≠ '.') :
    scanFraction (point ++ rest) = (fraction, rest) := by
  cases h with
  | none =>
    rw [List.nil_append, scanFraction]
    rintro cs rfl
    exact (hrest '.' rfl).2 rfl
  | point hdigits =>
    rw [List.cons_append, scanFraction, scanDigits_append hdigits fun c hc => (hrest c hc).1]

theorem IsExponent.head_not_isDigit {exponent : List Char} {e : Option Int}
    (h : IsExponent exponent e) : ∀ c ∈ exponent.head?, c.isDigit = false ∧ c ≠ '.' := by
  intro c hc
  cases h with
  | none => cases hc
  | letter hletter _ =>
    obtain rfl := Option.some.inj hc
    rcases hletter with rfl | rfl <;> exact ⟨rfl, by decide⟩

theorem scanDigits_of_all (h : cs.all Char.isDigit = true) : scanDigits cs = (cs, []) := by
  have hscan : scanDigits (cs ++ []) = (cs, []) :=
    scanDigits_append h fun c hc => absurd hc (Option.not_mem_none c)
  rwa [List.append_nil] at hscan

theorem all_isDigit_of_scanDigits (h : (scanDigits cs).2 = []) : cs.all Char.isDigit = true := by
  rw [scanDigits_eq] at h
  exact List.all_eq_true.mpr (List.dropWhile_eq_nil_iff.mp h)

/-- **After its letter an exponent is an integer.** -/
theorem scanExponent_letter {c : Char} (hc : c = 'e' ∨ c = 'E') {e : Option Int} :
    scanExponent (c :: cs) = some (e, []) ↔ ∃ n, readInt? cs = some n ∧ e = some n := by
  simp only [scanExponent, if_pos hc, readInt?_eq]
  generalize scanSign cs = signed
  obtain ⟨negative, digits⟩ := signed
  constructor
  · intro h
    dsimp only at h ⊢
    split at h
    case isTrue => cases h
    case isFalse hne =>
      obtain ⟨he, hrest⟩ := Prod.mk.inj (Option.some.inj h)
      have hall := all_isDigit_of_scanDigits hrest
      rw [scanDigits_of_all hall] at he hne
      exact ⟨_, by rw [readNat?_eq_some_iff.mpr ⟨hne, hall, rfl⟩, Option.map_some], he.symm⟩
  · rintro ⟨n, hn, rfl⟩
    obtain ⟨m, hm, rfl⟩ := Option.map_eq_some_iff.mp hn
    obtain ⟨hne, hall, rfl⟩ := readNat?_eq_some_iff.mp hm
    dsimp only at hne hall ⊢
    rw [scanDigits_of_all hall, if_neg hne]

/-- **What is read as an exponent to the end is one**, and the other way round. -/
theorem scanExponent_eq_some_nil_iff {e : Option Int} :
    scanExponent cs = some (e, []) ↔ IsExponent cs e := by
  constructor
  · intro h
    cases cs with
    | nil =>
      cases h
      exact .none
    | cons c cs =>
      by_cases hc : c = 'e' ∨ c = 'E'
      · obtain ⟨n, hn, rfl⟩ := (scanExponent_letter hc).mp h
        exact .letter hc (readInt?_eq_some_iff.mp hn)
      · rw [scanExponent, if_neg hc] at h
        cases h
  · intro h
    cases h with
    | none => rfl
    | letter hc he => exact (scanExponent_letter hc).mpr ⟨_, readInt?_eq_some_iff.mpr he, rfl⟩

/-! ## Numerals -/

theorem scan_eq (negative : Bool) (cs : List Char) :
    Numeral.scan negative cs
      = (scanExponent (scanFraction (scanDigits cs).2).2).map fun p =>
          (⟨negative, (scanDigits cs).1, (scanFraction (scanDigits cs).2).1, p.1⟩, p.2) := rfl

/-- **What is scanned as a numeral to the end writes it**, sign apart, and the other way round. -/
theorem scan_eq_some_nil_iff {n : Numeral} :
    Numeral.scan negative cs = some (n, []) ↔
      ∃ point exponent, cs = n.whole ++ (point ++ exponent) ∧ n.negative = negative ∧
        n.whole.all Char.isDigit = true ∧ IsPoint point n.fraction ∧
        IsExponent exponent n.exponent := by
  constructor
  · intro h
    rw [scan_eq] at h
    obtain ⟨⟨e, rest⟩, hexponent, hn⟩ := Option.map_eq_some_iff.mp h
    dsimp only at hn
    obtain ⟨rfl, rfl⟩ := Prod.mk.inj hn
    obtain ⟨point, hpoint, hfraction⟩ := exists_isPoint (scanDigits cs).2
    refine ⟨point, _, ?_, rfl, ?_, hfraction, scanExponent_eq_some_nil_iff.mp hexponent⟩
    · dsimp only
      rw [← hpoint, scanDigits_eq, List.takeWhile_append_dropWhile]
    · dsimp only
      rw [scanDigits_eq]
      exact List.all_eq_true.mpr fun _ => List.mem_takeWhile_imp
  · rintro ⟨point, exponent, rfl, rfl, hwhole, hfraction, hexponent⟩
    have hafter := hexponent.head_not_isDigit
    have hpoint := hfraction.scanFraction_append hafter
    have hdigits := scanDigits_append hwhole
      (hfraction.head_not_isDigit fun c hc => (hafter c hc).1)
    rw [Numeral.scan, hdigits]
    simp only [hpoint, scanExponent_eq_some_nil_iff.mpr hexponent, Option.map_some]

/-- Digits with a point among them begin with no sign. -/
theorem IsPoint.head_ne_sign {whole point : List Char} {fraction : Option (List Char)}
    (h : IsPoint point fraction) (hwhole : whole.all Char.isDigit = true)
    (hne : whole ++ fraction.getD [] ≠ []) (rest : List Char) :
    ∀ c ∈ (whole ++ (point ++ rest)).head?, c ≠ '-' ∧ c ≠ '+' := by
  by_cases hnil : whole = []
  · subst hnil
    cases h with
    | none => exact absurd rfl hne
    | point _ =>
      intro c hc
      obtain rfl : '.' = c := Option.some.inj hc
      decide
  · exact fun c hc => ne_sign_of_isDigit (head_isDigit hnil hwhole _ c hc)

/-- **A text writes a numeral if a sign and then the numeral are read**, with a digit in it. -/
theorem writesNumeral_iff {n : Numeral} :
    WritesNumeral cs n ↔
      Numeral.scan (scanSign cs).1 (scanSign cs).2 = some (n, []) ∧ n.digits ≠ [] := by
  constructor
  · rintro ⟨hsign, hwhole, hpoint, hexponent, hne⟩
    rw [hsign.scanSign_append (hpoint.head_ne_sign hwhole hne _)]
    exact ⟨scan_eq_some_nil_iff.mpr ⟨_, _, rfl, rfl, hwhole, hpoint, hexponent⟩, hne⟩
  · rintro ⟨hscan, hne⟩
    obtain ⟨sign, hcs, hsign⟩ := exists_isSign cs
    obtain ⟨point, exponent, hrest, hnegative, hwhole, hpoint, hexponent⟩ :=
      scan_eq_some_nil_iff.mp hscan
    obtain ⟨negative, whole, fraction, e⟩ := n
    dsimp only at hrest hnegative hwhole hpoint hexponent
    rw [hcs, hrest]
    exact .intro (hnegative ▸ hsign) hwhole hpoint hexponent hne

end LiveQuery.Text
