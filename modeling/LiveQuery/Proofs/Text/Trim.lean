import LiveQuery.Text.Blank
import Mathlib.Data.List.DropRight

/-!
# Proofs/Text/Trim — what trimming leaves

A trimmed text is what stands between two runs of blanks (`exists_trim`), and it has no blank at
either end.  **A text without blanks at its ends is its own trimmed form** (`trim_eq_self`), so
trimming twice is trimming once.
-/

namespace LiveQuery.Text

/-- Whether neither the first nor the last character of a text is a blank. -/
structure IsTrimmed (cs : List Char) : Prop where
  head : ∀ c ∈ cs.head?, isBlank c = false
  last : ∀ c ∈ cs.getLast?, isBlank c = false

/-- The printed characters of ASCII are no blanks. -/
theorem not_isBlank_of_graphic {c : Char} (h : 0x20 < c.toNat ∧ c.toNat < 0x7f) :
    isBlank c = false := by
  simp only [isBlank, Bool.or_eq_false_iff, Bool.and_eq_false_iff, decide_eq_false_iff_not,
    beq_eq_false_iff_ne, ne_eq]
  omega

theorem trimEnd_eq (cs : List Char) : trimEnd cs = cs.rdropWhile isBlank := rfl

/-- **A text without blanks at its ends is trimmed already.** -/
theorem trim_eq_self {cs : List Char} (h : IsTrimmed cs) : trim cs = cs := by
  cases cs with
  | nil => rfl
  | cons c cs =>
    have hstart : trimStart (c :: cs) = c :: cs :=
      List.dropWhile_cons_of_neg (by rw [h.head c rfl]; exact Bool.false_ne_true)
    rw [trim, hstart, trimEnd_eq, List.rdropWhile_eq_self_iff]
    intro hne
    rw [h.last _ (List.getLast?_eq_getLast_of_ne_nil hne)]
    exact Bool.false_ne_true

/-- **What is left after trimming has no blank at its ends.** -/
theorem isTrimmed_trim (cs : List Char) : IsTrimmed (trim cs) := by
  have hstart : ∀ c ∈ (trimStart cs).head?, isBlank c = false := by
    intro c hc
    have hnot := List.head?_dropWhile_not isBlank cs
    rw [← trimStart, Option.mem_def.mp hc] at hnot
    exact hnot
  constructor
  · intro c hc
    obtain ⟨rest, hrest⟩ := List.rdropWhile_prefix isBlank (trimStart cs)
    refine hstart c ?_
    rw [← hrest, ← trimEnd_eq, ← trim, List.head?_append, hc]
    rfl
  · intro c hc
    obtain ⟨hne, rfl⟩ := List.mem_getLast?_eq_getLast hc
    exact Bool.eq_false_iff.mpr (List.rdropWhile_last_not isBlank (trimStart cs) hne)

/-- **Trimming twice is trimming once.** -/
theorem trim_trim (cs : List Char) : trim (trim cs) = trim cs := trim_eq_self (isTrimmed_trim cs)

/-- **A text is its trimmed form between blanks.** -/
theorem exists_trim (cs : List Char) : ∃ before after,
    cs = before ++ trim cs ++ after ∧ before.all isBlank = true ∧ after.all isBlank = true := by
  refine ⟨cs.takeWhile isBlank, (trimStart cs).rtakeWhile isBlank, ?_, ?_, ?_⟩
  · rw [List.append_assoc, trim, trimEnd_eq, List.rdropWhile_append_rtakeWhile, trimStart,
      List.takeWhile_append_dropWhile]
  · exact List.all_eq_true.mpr fun _ => List.mem_takeWhile_imp
  · exact List.all_eq_true.mpr fun _ => List.mem_rtakeWhile_imp

/-- **A text of blanks is one that trimming leaves nothing of.** -/
theorem trim_eq_nil_iff (cs : List Char) : trim cs = [] ↔ isBlankText cs = true := by
  constructor
  · intro h
    obtain ⟨before, after, hcs, hbefore, hafter⟩ := exists_trim cs
    rw [hcs, h, List.append_nil, isBlankText, List.all_append, hbefore, hafter]
    rfl
  · intro h
    have hstart : trimStart cs = [] := List.dropWhile_eq_nil_iff.mpr (List.all_eq_true.mp h)
    rw [trim, hstart]
    rfl

end LiveQuery.Text
