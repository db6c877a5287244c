/-!
# Text/Blank — white space in the Unicode sense, and trimming

Statements, client lines and feed lines are trimmed of **every** character that Unicode calls white
space, not only of the ASCII ones.  `isBlank` is that property as a table; `trim` removes it at both
ends and never lengthens a text (`length_trim_le`).
-/

namespace LiveQuery.Text

/-- **Unicode `White_Space`**: the twenty-five characters that have the property. -/
def isBlank (c : Char) : Bool :=
  let n := c.toNat
  (0x09 ≤ n && n ≤ 0x0D) || n == 0x20 || n == 0x85 || n == 0xA0 || n == 0x1680 ||
    (0x2000 ≤ n && n ≤ 0x200A) || n == 0x2028 || n == 0x2029 || n == 0x202F ||
    n == 0x205F || n == 0x3000

/-- The characters core calls white space are blank. -/
theorem isBlank_of_isWhitespace {c : Char} (h : c.isWhitespace = true) : isBlank c = true := by
  simp only [Char.isWhitespace, Bool.or_eq_true, decide_eq_true_eq] at h
  rcases h with ((h | h) | h) | h <;> subst h <;> decide

/-- Drops the blanks at the start. -/
def trimStart (cs : List Char) : List Char := cs.dropWhile isBlank

/-- Drops the blanks at the end. -/
def trimEnd (cs : List Char) : List Char := (cs.reverse.dropWhile isBlank).reverse

/-- **Drops the blanks at both ends.** -/
def trim (cs : List Char) : List Char := trimEnd (trimStart cs)

/-- Whether a text holds nothing but blanks. -/
def isBlankText (cs : List Char) : Bool := cs.all isBlank

@[simp] theorem trim_nil : trim [] = [] := rfl

theorem length_dropWhile_le (p : Char → Bool) (cs : List Char) :
    (cs.dropWhile p).length ≤ cs.length :=
  (List.dropWhile_suffix p).length_le

/-- Trimming never lengthens a text. -/
theorem length_trim_le (cs : List Char) : (trim cs).length ≤ cs.length := by
  unfold trim trimEnd trimStart
  have h₁ := length_dropWhile_le isBlank (cs.dropWhile isBlank).reverse
  have h₂ := length_dropWhile_le isBlank cs
  simp only [List.length_reverse] at h₁ ⊢
  omega

end LiveQuery.Text
