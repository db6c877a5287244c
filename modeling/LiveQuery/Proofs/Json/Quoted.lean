import LiveQuery.Json.Quoted
import Mathlib.Tactic.IntervalCases

/-!
# Proofs/Json/Quoted — a quoted text is read back

Every character has one written form, and the reader takes each written form as one piece
(`scanPieces_escape`): the character itself, or for a control character without a letter of its own
the code unit of its escape.  Piece by piece, **a quoted text reads back as what was quoted**,
whatever follows it (`scanQuoted_flatMap_escape`).
-/

namespace LiveQuery.Json

/-- The piece that the reader makes of a written character. -/
def pieceOf (c : Char) : Piece := if (escape c).length = 6 then .unit c.toNat else .char c

/-- The characters that are written as a backslash and one more character. -/
def HasShortEscape (c : Char) : Prop :=
  c = '"' ∨ c = '\\' ∨ c = '\x08' ∨ c = '\x0c' ∨ c = '\n' ∨ c = '\r' ∨ c = '\t'

/-- The two digits of base sixteen in the escape of a control character write its code. -/
theorem unit?_hexDigit {n : Nat} (h : n < 0x20) :
    unit? '0' '0' (hexDigit (n / 16)) (hexDigit (n % 16)) = some n := by
  interval_cases n <;> rfl

/-- **The three written forms of a character**: a backslash and one more character, the escape of a
control character, or the character itself. -/
theorem escape_cases (c : Char) :
    HasShortEscape c ∨
    (c.toNat < 0x20 ∧ pieceOf c = .unit c.toNat ∧
      escape c = ['\\', 'u', '0', '0', hexDigit (c.toNat / 16), hexDigit (c.toNat % 16)]) ∨
    (¬ (c.toNat < 0x20 ∨ c = '\\') ∧ c ≠ '"' ∧ pieceOf c = .char c ∧ escape c = [c]) := by
  by_cases hshort : HasShortEscape c
  · exact Or.inl hshort
  have hne := hshort
  simp only [HasShortEscape, not_or] at hne
  by_cases hcontrol : c.toNat < 0x20
  · have hescape : escape c
        = ['\\', 'u', '0', '0', hexDigit (c.toNat / 16), hexDigit (c.toNat % 16)] := by
      simp only [escape, hne, hcontrol, if_true, if_false]
    exact Or.inr (Or.inl ⟨hcontrol, by rw [pieceOf, hescape]; rfl, hescape⟩)
  · have hescape : escape c = [c] := by simp only [escape, hne, hcontrol, if_false]
    exact Or.inr (Or.inr ⟨not_or.mpr ⟨hcontrol, hne.2.1⟩, hne.1,
      by rw [pieceOf, hescape]; rfl, hescape⟩)

/-- **What is written for a character is read as one piece.** -/
theorem scanPieces_escape (read : List Piece) (c : Char) (rest : List Char) :
    scanPieces read (escape c ++ rest) = scanPieces (pieceOf c :: read) rest := by
  rcases escape_cases c with hshort | ⟨hcontrol, hpiece, hescape⟩ | ⟨hraw, hquote, hpiece, hescape⟩
  · rcases hshort with rfl | rfl | rfl | rfl | rfl | rfl | rfl <;> rfl
  · rw [hescape, hpiece]
    simp only [List.cons_append, List.nil_append, scanPieces, unit?_hexDigit hcontrol]
  · have hslash : c ≠ '\\' := fun h => hraw (.inr h)
    rw [hescape, hpiece, List.singleton_append, scanPieces, if_neg hraw]
    all_goals simp_all

/-- **The piece of a written character spells it.** -/
theorem joinPieces_pieceOf (read : List Char) (c : Char) (rest : List Piece) :
    joinPieces read (pieceOf c :: rest) = joinPieces (c :: read) rest := by
  rcases escape_cases c with hshort | ⟨hcontrol, hpiece, -⟩ | ⟨-, -, hpiece, -⟩
  · rcases hshort with rfl | rfl | rfl | rfl | rfl | rfl | rfl <;> rfl
  · -- No control character is half of a surrogate pair.
    have hlow : isLowSurrogate c.toNat = false := by
      simp only [isLowSurrogate, Bool.and_eq_false_iff, decide_eq_false_iff_not]; omega
    have hhigh : isHighSurrogate c.toNat = false := by
      simp only [isHighSurrogate, Bool.and_eq_false_iff, decide_eq_false_iff_not]; omega
    rw [hpiece, joinPieces.eq_def]
    simp only [hlow, hhigh, Bool.false_eq_true, if_false, Char.ofNat_toNat]
  · rw [hpiece, joinPieces]

/-- **A quoted text is read back**, up to its closing quote mark. -/
theorem scanQuoted_flatMap_escape (cs rest : List Char) :
    scanQuoted (cs.flatMap escape ++ '"' :: rest) = some (cs, rest) := by
  have hscan : ∀ read, scanPieces read (cs.flatMap escape ++ '"' :: rest)
      = some (read.reverse ++ cs.map pieceOf, rest) := by
    induction cs with
    | nil => intro read; rw [List.map_nil, List.append_nil]; rfl
    | cons c cs ih =>
      intro read
      rw [List.flatMap_cons, List.append_assoc, scanPieces_escape, ih, List.reverse_cons,
        List.append_assoc, List.singleton_append, List.map_cons]
  have hjoin : ∀ read, joinPieces read (cs.map pieceOf) = some (read.reverse ++ cs) := by
    clear hscan
    induction cs with
    | nil => intro read; rw [List.append_nil]; rfl
    | cons c cs ih =>
      intro read
      rw [List.map_cons, joinPieces_pieceOf, ih, List.reverse_cons, List.append_assoc,
        List.singleton_append]
  simp only [scanQuoted, hscan, List.reverse_nil, List.nil_append, hjoin, Option.map_some]

end LiveQuery.Json
