import LiveQuery.Proofs.Binary64.Layout
import LiveQuery.Proofs.Json.Quoted
import LiveQuery.Proofs.Statement.Nested

/-!
# Proofs/Statement/Literal — literals are read back from their JSON text

Statements write numbers more freely than JSON does, so the text of a literal is in general not the
text it was read from.  But **every value that is read is read again from its own text**
(`read?_write`): an integer from its digits, a float from its numeral, which never looks like an
integer, and a text from its quoted form.
-/

namespace LiveQuery.Literal

open Text

variable {cs : List Char}

/-- **A number is read as an integer if it can be, and else as a float.** -/
theorem read?_number {c : Char} (hc : startsNumber c = true) :
    read? (c :: cs)
      = match (readInt? (c :: cs)).bind signed? with
        | some n => some (.number (.int n))
        | none => (readFloat? (c :: cs)).map fun x => .number (.float x) := by
  have hquote : c ≠ '"' := by rintro rfl; cases hc
  rw [read?]
  · exact if_pos hc
  · exact hquote

theorem startsNumber_of_isDigit {c : Char} (h : c.isDigit = true) : startsNumber c = true := by
  rw [startsNumber, h]
  rfl

/-! ## Integers -/

theorem signed?_of_isSigned {n : Int} (h : IsSigned n) : signed? n = some ⟨n, h.isWord⟩ := by
  rw [signed?, if_pos h, Integer.ofInt?, dif_pos h.isWord]

theorem isSigned_of_signed? {n : Int} {i : Integer} (h : signed? n = some i) : IsSigned i.val := by
  rw [signed?] at h
  split at h
  case isFalse => cases h
  case isTrue hsigned =>
    rw [Integer.ofInt?, dif_pos hsigned.isWord] at h
    cases h
    exact hsigned

theorem exists_digitsOfInt (n : Int) :
    ∃ c cs, digitsOfInt n = c :: cs ∧ startsNumber c = true := by
  rw [digitsOfInt]
  split
  · exact ⟨_, _, rfl, rfl⟩
  · obtain ⟨d, ds, hds⟩ := List.exists_cons_of_ne_nil (digitsOfNat_ne_nil n.natAbs)
    have hd := List.all_eq_true.mp (all_isDigit_digitsOfNat n.natAbs) d (hds ▸ List.mem_cons_self)
    exact ⟨d, ds, hds, startsNumber_of_isDigit hd⟩

/-- **A signed integer is read from its digits.** -/
theorem read?_digitsOfInt {i : Integer} (h : IsSigned i.val) :
    read? (digitsOfInt i.val) = some (.number (.int i)) := by
  obtain ⟨c, cs, hcs, hc⟩ := exists_digitsOfInt i.val
  have hread : (readInt? (c :: cs)).bind signed? = some i := by
    rw [← hcs, readInt?_digitsOfInt, Option.bind_some, signed?_of_isSigned h]
  rw [hcs, read?_number hc, hread]

/-! ## Floats -/

theorem exists_numeral {n : Numeral} (h : n.IsWritable) :
    ∃ c cs, n.write = c :: cs ∧ startsNumber c = true := by
  rw [Numeral.write]
  split
  · exact ⟨_, _, rfl, rfl⟩
  · obtain ⟨d, ds, hds, hd⟩ := exists_unsigned h
    exact ⟨d, ds, hds, startsNumber_of_isDigit hd⟩

/-- **A numeral with a point or an exponent is read as the float it denotes.** -/
theorem read?_numeral {n : Numeral} (h : n.IsWritable) (hpoint : n.isWhole = false) {x : Binary64}
    (hx : Binary64.ofDecimal n.decimal = .finite x) :
    read? n.write = some (.number (.float x)) := by
  have hdigits : n.digits ≠ [] := fun hnil => h.whole_ne_nil (List.append_eq_nil_iff.mp hnil).1
  have hfloat : readFloat? n.write = some x := by
    rw [readFloat?, scanSign_write h]
    simp only [scan_unsigned h, if_neg hdigits, hx, Extended.finite?]
  obtain ⟨c, cs, hcs, hc⟩ := exists_numeral h
  have hint := readInt?_write hpoint
  rw [hcs] at hint hfloat ⊢
  rw [read?_number hc, hint, hfloat]
  rfl

/-- **A float is read from its text.** -/
theorem read?_text (x : Binary64) :
    read? (x.text Binary64.jsonLayout) = some (.number (.float x)) := by
  rw [Binary64.text_eq_write]
  exact read?_numeral (Binary64.isWritable_numeral _ x) (Binary64.isWhole_numeral rfl x)
    (Binary64.ofDecimal_numeral _ x)

/-! ## Texts -/

/-- **A text is read from its quoted form.** -/
theorem read?_quote (s : String) : read? (Json.quote s.toList) = some (.string s) := by
  have hscan : Json.scanQuoted (s.toList.flatMap Json.escape ++ ['"']) = some (s.toList, []) :=
    Json.scanQuoted_flatMap_escape _ _
  rw [Json.quote, List.cons_append, read?, hscan]
  simp only [String.ofList_toList]

/-! ## All literals -/

/-- **A value that can be written as a literal.** -/
inductive IsLiteral : Json → Prop
  | int {i : Integer} (h : IsSigned i.val) : IsLiteral (.number (.int i))
  | float (x : Binary64) : IsLiteral (.number (.float x))
  | string (s : String) : IsLiteral (.string s)

theorem isLiteral_of_read? {v : Json} (h : read? cs = some v) : IsLiteral v := by
  unfold read? at h
  split at h
  case h_1 => cases h
  case h_2 =>
    split at h
    case h_1 => cases h; exact .string _
    case h_2 => cases h
  case h_3 =>
    split at h
    case isFalse => cases h
    case isTrue =>
      split at h
      case h_1 i hi =>
        cases h
        obtain ⟨n, -, hn⟩ := Option.bind_eq_some_iff.mp hi
        exact .int (isSigned_of_signed? hn)
      case h_2 =>
        obtain ⟨x, -, rfl⟩ := Option.map_eq_some_iff.mp h
        exact .float x

/-- **Every literal is read from its JSON text.** -/
theorem IsLiteral.read?_write {v : Json} (h : IsLiteral v) : read? v.write = some v := by
  cases h with
  | int h => rw [Json.write]; exact read?_digitsOfInt h
  | float x => rw [Json.write]; exact read?_text x
  | string s => rw [Json.write]; exact read?_quote s

theorem not_isBlank_of_isNumeralChar {c : Char} (h : isNumeralChar c = true) :
    isBlank c = false := not_isBlank_of_graphic (graphic_of_isNumeralChar h)

/-- A number is written without quote marks. -/
theorem exists_writeNumber (n : Number) :
    ∃ c cs, Json.writeNumber n = c :: cs ∧ startsNumber c = true := by
  cases n with
  | int i => exact exists_digitsOfInt i.val
  | float x =>
    rw [Json.writeNumber, Binary64.text_eq_write]
    exact exists_numeral (Binary64.isWritable_numeral _ x)

/-- **The text of a literal has no blanks at its ends.** -/
theorem IsLiteral.isTrimmed_write {v : Json} (h : IsLiteral v) : IsTrimmed v.write := by
  have hnumber : ∀ n, v = .number n → IsTrimmed v.write := by
    rintro n rfl
    have hquote : (Json.write (.number n)).head? ≠ some '"' := by
      obtain ⟨c, cs, hcs, hc⟩ := exists_writeNumber n
      rw [Json.write, hcs]
      intro hhead
      obtain rfl : c = '"' := Option.some.inj hhead
      cases hc
    have hall := List.all_eq_true.mp (Call.all_isNumeralChar_of_read? h.read?_write hquote)
    exact ⟨fun c hc => not_isBlank_of_isNumeralChar (hall c (List.mem_of_mem_head? hc)),
      fun c hc => not_isBlank_of_isNumeralChar (hall c (List.mem_of_mem_getLast? hc))⟩
  cases h with
  | int h => exact hnumber _ rfl
  | float x => exact hnumber _ rfl
  | string s =>
    constructor
    · intro c hc
      obtain rfl : '"' = c := Option.some.inj hc
      rfl
    · intro c hc
      rw [Json.write, Json.quote, List.getLast?_concat] at hc
      obtain rfl : '"' = c := Option.some.inj hc
      rfl

end LiveQuery.Literal
