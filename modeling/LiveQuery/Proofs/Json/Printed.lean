import LiveQuery.Proofs.Json.ReadBack
import LiveQuery.Proofs.Text.Trim

/-!
# Proofs/Json/Printed — the characters of a written value

Whatever characters a value holds, **its text has no control character**
(`Nested.all_isPrinted_write`): inside quotes they are written as escapes, and outside there are
only printed ones.  The first and the last character of a text are printed and no blanks, so there
is nothing to trim (`isTrimmed_write`).
-/

namespace LiveQuery.Json

open Text

variable {c : Char} {n : Nat} {v : Json}

/-- The characters that values begin with are printed. -/
theorem graphic_of_startsValue (h : startsValue c = true) : 0x20 < c.toNat ∧ c.toNat < 0x7f := by
  simp only [startsValue, Bool.or_eq_true, beq_iff_eq] at h
  rcases h with (((((hnumeral | rfl) | rfl) | rfl) | rfl) | rfl) | rfl
  · exact graphic_of_isNumeralChar hnumeral
  all_goals decide

/-- Whether a character is no control character. -/
def isPrinted (c : Char) : Bool := decide (0x20 ≤ c.toNat)

/-- No control character is left in what is written for a character. -/
theorem all_isPrinted_escape (c : Char) : (escape c).all isPrinted = true := by
  rcases escape_cases c with hshort | ⟨hcontrol, -, hescape⟩ | ⟨hraw, -, -, hescape⟩
  · rcases hshort with rfl | rfl | rfl | rfl | rfl | rfl | rfl <;> rfl
  · have hdigit : ∀ k < 16, isPrinted (hexDigit k) = true := by decide
    have hdigits : [hexDigit (c.toNat / 16), hexDigit (c.toNat % 16)].all isPrinted = true := by
      rw [List.all_cons, List.all_cons, hdigit _ (by omega), hdigit _ (by omega)]
      rfl
    rw [hescape]
    exact hdigits
  · have hprinted : isPrinted c = true := decide_eq_true (by omega)
    rw [hescape, List.all_cons, hprinted]
    rfl

theorem all_isPrinted_quote (cs : List Char) : (quote cs).all isPrinted = true := by
  have hall : (cs.flatMap escape).all isPrinted = true := by
    rw [List.all_flatMap]
    exact List.all_eq_true.mpr fun c _ => all_isPrinted_escape c
  rw [quote, List.all_append, List.all_cons, hall]
  rfl

theorem all_commaSeparated {α : Type} {w : α → List Char} {as : List α} {p : Char → Bool}
    (hcomma : p ',' = true) (h : ∀ a ∈ as, (w a).all p = true) :
    (commaSeparated w as).all p = true := by
  cases as with
  | nil => rfl
  | cons a as =>
    have hmore : (as.flatMap fun b => ',' :: w b).all p = true := by
      rw [List.all_flatMap]
      refine List.all_eq_true.mpr fun b hb => ?_
      rw [List.all_cons, hcomma, h b (List.mem_cons_of_mem a hb)]
      rfl
    rw [commaSeparated, List.all_append, h a List.mem_cons_self, hmore]
    rfl

/-- **The text of a value has no control character.** -/
theorem Nested.all_isPrinted_write (h : Nested n v) : (write v).all isPrinted = true := by
  induction h with
  | null => rfl
  | bool n b => cases b <;> rfl
  | number n k =>
    have hall := List.all_eq_true.mp (all_isNumeralChar_writeNumber k)
    refine List.all_eq_true.mpr fun c hc => decide_eq_true ?_
    exact Nat.le_of_lt (graphic_of_isNumeralChar (hall c hc)).1
  | string n s => exact all_isPrinted_quote s.toList
  | @array n vs h ih =>
    rw [write_array, List.all_cons, List.all_append, all_commaSeparated rfl ih]
    rfl
  | @object n ms hkeys h ih =>
    have hmember : ∀ m ∈ ms, (writeMember m).all isPrinted = true := fun m hm => by
      rw [writeMember, List.all_append, List.all_cons, all_isPrinted_quote, ih m hm]
      rfl
    rw [write_object, List.all_cons, List.all_append, all_commaSeparated rfl hmember]
    rfl

/-- **The text of a value has no blank at its ends.** -/
theorem isTrimmed_write (v : Json) : IsTrimmed (write v) := by
  constructor
  · intro c hc
    obtain ⟨d, ds, hds, hd⟩ := exists_write v
    rw [hds] at hc
    obtain rfl : d = c := Option.some.inj hc
    exact not_isBlank_of_graphic (graphic_of_startsValue hd)
  · intro c hc
    have hclosed : ∀ (cs : List Char) {close : Char}, write v = cs ++ [close] →
        isBlank close = false → isBlank c = false := fun cs close hcs hclose => by
      rw [hcs, List.getLast?_concat] at hc
      obtain rfl := Option.some.inj hc
      exact hclose
    cases v with
    | null => exact hclosed ['n', 'u', 'l'] rfl rfl
    | bool b =>
      cases b with
      | true => exact hclosed ['t', 'r', 'u'] rfl rfl
      | false => exact hclosed ['f', 'a', 'l', 's'] rfl rfl
    | number k =>
      have hall := List.all_eq_true.mp (all_isNumeralChar_writeNumber k)
      have hchar := hall c (List.mem_of_mem_getLast? hc)
      exact not_isBlank_of_graphic (graphic_of_isNumeralChar hchar)
    | string s => exact hclosed ('"' :: s.toList.flatMap escape) rfl rfl
    | array vs => exact hclosed ('[' :: commaSeparated write vs) (write_array vs) rfl
    | object ms =>
      exact hclosed ('\x7b' :: commaSeparated writeMember ms) (write_object ms) rfl

theorem write_ne_nil (v : Json) : write v ≠ [] := by
  obtain ⟨c, cs, hcs, -⟩ := exists_write v
  rw [hcs]
  exact List.cons_ne_nil c cs

end LiveQuery.Json
