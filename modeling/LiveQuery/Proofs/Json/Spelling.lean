import LiveQuery.Proofs.Json.Quoted

/-!
# Proofs/Json/Spelling — which texts are JSON strings, and what they say

`Spells inner v` is the grammar of what may stand between the quote marks of a JSON string: printed
characters as they are, escapes of one letter, and escapes by code unit, alone or as a surrogate
pair.  **The reader accepts this grammar and nothing else, and reads what it spells**
(`scanQuoted_eq_some_iff`).

The reader works in two passes, first into pieces and then from pieces into characters.  The first
pass is cut at each piece by `IsPieces`; the second joins surrogates, so the induction behind
`spells_of_joinPieces` follows `joinPieces` and looks at two pieces at a time.
-/

namespace LiveQuery.Json

/-! ## The grammar -/

/-- **A text and what it spells between quote marks.** -/
inductive Spells : List Char → List Char → Prop
  | nil : Spells [] []
  | raw {c : Char} {inner v : List Char} (hc : 0x20 ≤ c.toNat) (hquote : c ≠ '"')
      (hslash : c ≠ '\\') (h : Spells inner v) : Spells (c :: inner) (c :: v)
  | short {letter c : Char} {inner v : List Char} (hc : shortEscape? letter = some c)
      (h : Spells inner v) : Spells ('\\' :: letter :: inner) (c :: v)
  | unit {a b c d : Char} {u : Nat} {inner v : List Char} (hu : unit? a b c d = some u)
      (hlow : isLowSurrogate u = false) (hhigh : isHighSurrogate u = false) (h : Spells inner v) :
      Spells ('\\' :: 'u' :: a :: b :: c :: d :: inner) (Char.ofNat u :: v)
  | pair {a b c d a' b' c' d' : Char} {high low : Nat} {inner v : List Char}
      (hu : unit? a b c d = some high) (hhigh : isHighSurrogate high = true)
      (hu' : unit? a' b' c' d' = some low) (hlow : isLowSurrogate low = true)
      (h : Spells inner v) :
      Spells ('\\' :: 'u' :: a :: b :: c :: d :: '\\' :: 'u' :: a' :: b' :: c' :: d' :: inner)
        (joinSurrogates high low :: v)

/-- **A JSON text of a text**: quote marks, and between them what spells it. -/
def IsText (cs v : List Char) : Prop := ∃ inner, cs = '"' :: (inner ++ ['"']) ∧ Spells inner v

/-! ## Pieces -/

/-- A text between quote marks and the pieces that it is made of. -/
inductive IsPieces : List Char → List Piece → Prop
  | nil : IsPieces [] []
  | raw {c : Char} {inner : List Char} {ps : List Piece} (hc : 0x20 ≤ c.toNat) (hquote : c ≠ '"')
      (hslash : c ≠ '\\') (h : IsPieces inner ps) : IsPieces (c :: inner) (.char c :: ps)
  | short {letter c : Char} {inner : List Char} {ps : List Piece}
      (hc : shortEscape? letter = some c) (h : IsPieces inner ps) :
      IsPieces ('\\' :: letter :: inner) (.char c :: ps)
  | unit {a b c d : Char} {u : Nat} {inner : List Char} {ps : List Piece}
      (hu : unit? a b c d = some u) (h : IsPieces inner ps) :
      IsPieces ('\\' :: 'u' :: a :: b :: c :: d :: inner) (.unit u :: ps)

variable {inner cs rest v : List Char} {ps : List Piece}

theorem scanPieces_raw (read : List Piece) {c : Char} (hc : 0x20 ≤ c.toNat) (hquote : c ≠ '"')
    (hslash : c ≠ '\\') (cs : List Char) :
    scanPieces read (c :: cs) = scanPieces (.char c :: read) cs := by
  have hraw : ¬(c.toNat < 0x20 ∨ c = '\\') := not_or.mpr ⟨Nat.not_lt_of_le hc, hslash⟩
  rw [scanPieces, if_neg hraw]
  all_goals simp_all

theorem scanPieces_short (read : List Piece) {letter c : Char} (hc : shortEscape? letter = some c)
    (cs : List Char) :
    scanPieces read ('\\' :: letter :: cs) = scanPieces (.char c :: read) cs := by
  rw [shortEscape?] at hc
  split_ifs at hc with h h h h h h h h <;> cases h <;> cases hc <;> rfl

theorem scanPieces_unit (read : List Piece) {a b c d : Char} {u : Nat} (hu : unit? a b c d = some u)
    (cs : List Char) :
    scanPieces read ('\\' :: 'u' :: a :: b :: c :: d :: cs) = scanPieces (.unit u :: read) cs := by
  rw [scanPieces, hu]

/-- **What is read up to a closing quote mark is made of pieces**, which come after those already
read. -/
theorem isPieces_of_scanPieces {read : List Piece} (h : scanPieces read cs = some (ps, rest)) :
    ∃ inner new, cs = inner ++ '"' :: rest ∧ IsPieces inner new ∧ ps = read.reverse ++ new := by
  induction read, cs using scanPieces.induct with
  | case1 read => cases h
  | case2 read rest' =>
    cases h
    exact ⟨[], [], rfl, .nil, (List.append_nil _).symm⟩
  | case3 read a b c d cs u hu ih =>
    rw [scanPieces_unit read hu] at h
    obtain ⟨inner, new, rfl, hnew, rfl⟩ := ih h
    exact ⟨_, _, rfl, .unit hu hnew, by rw [List.reverse_cons, List.append_assoc]; rfl⟩
  | case4 read a b c d cs hu =>
    rw [scanPieces, hu] at h
    cases h
  | case5 read letter cs hletter c hc ih =>
    rw [scanPieces_short read hc] at h
    obtain ⟨inner, new, rfl, hnew, rfl⟩ := ih h
    exact ⟨_, _, rfl, .short hc hnew, by rw [List.reverse_cons, List.append_assoc]; rfl⟩
  | case6 read letter cs hletter hc =>
    rw [scanPieces, hc] at h
    · cases h
    · exact hletter
  | case7 read c cs hquote hunit hshort hraw =>
    rw [scanPieces, if_pos hraw] at h
    · cases h
    · exact hquote
    · exact hunit
    · exact hshort
  | case8 read c cs hquote hunit hshort hraw ih =>
    obtain ⟨hcontrol, hslash⟩ := not_or.mp hraw
    have hcontrol := Nat.le_of_not_lt hcontrol
    rw [scanPieces_raw read hcontrol hquote hslash] at h
    obtain ⟨inner, new, rfl, hnew, rfl⟩ := ih h
    exact ⟨_, _, rfl, .raw hcontrol hquote hslash hnew,
      by rw [List.reverse_cons, List.append_assoc]; rfl⟩

/-- **The pieces of a text are read**, up to the closing quote mark. -/
theorem IsPieces.scanPieces_append (h : IsPieces inner ps) (read : List Piece) (rest : List Char) :
    scanPieces read (inner ++ '"' :: rest) = some (read.reverse ++ ps, rest) := by
  induction h generalizing read with
  | nil => rw [List.append_nil]; rfl
  | raw hc hquote hslash _ ih =>
    rw [List.cons_append, scanPieces_raw read hc hquote hslash, ih, List.reverse_cons,
      List.append_assoc, List.singleton_append]
  | short hc _ ih =>
    rw [List.cons_append, List.cons_append, scanPieces_short read hc, ih, List.reverse_cons,
      List.append_assoc, List.singleton_append]
  | unit hu _ ih =>
    simp only [List.cons_append]
    rw [scanPieces_unit read hu, ih, List.reverse_cons, List.append_assoc, List.singleton_append]

/-! ## What pieces spell -/

/-- **Pieces that can be joined spell a text.** -/
theorem spells_of_joinPieces {read : List Char} (hps : IsPieces inner ps)
    (h : joinPieces read ps = some v) : ∃ new, v = read.reverse ++ new ∧ Spells inner new := by
  fun_induction joinPieces read ps generalizing inner with
  | case1 read =>
    cases hps
    exact ⟨[], by rw [List.append_nil]; exact (Option.some.inj h).symm, .nil⟩
  | case2 read c ps ih =>
    cases hps with
    | raw hc hquote hslash hps =>
      obtain ⟨new, rfl, hnew⟩ := ih hps h
      exact ⟨_, by rw [List.reverse_cons, List.append_assoc]; rfl, .raw hc hquote hslash hnew⟩
    | short hc hps =>
      obtain ⟨new, rfl, hnew⟩ := ih hps h
      exact ⟨_, by rw [List.reverse_cons, List.append_assoc]; rfl, .short hc hnew⟩
  | case3 => cases h
  | case4 read high hnotlow hhigh low ps hlow ih =>
    -- Only an escape by code unit gives a unit, so both halves of the pair are written so.
    obtain _ | _ | _ | ⟨hu, _ | _ | _ | ⟨hu', hps⟩⟩ := hps
    obtain ⟨new, rfl, hnew⟩ := ih hps h
    exact ⟨_, by rw [List.reverse_cons, List.append_assoc]; rfl, .pair hu hhigh hu' hlow hnew⟩
  | case5 => cases h
  | case6 => cases h
  | case7 read u ps hlow hhigh ih =>
    cases hps with
    | unit hu hps =>
      obtain ⟨new, rfl, hnew⟩ := ih hps h
      exact ⟨_, by rw [List.reverse_cons, List.append_assoc]; rfl,
        .unit hu (Bool.eq_false_iff.mpr hlow) (Bool.eq_false_iff.mpr hhigh) hnew⟩

theorem joinPieces_unit (read : List Char) {u : Nat} (hlow : isLowSurrogate u = false)
    (hhigh : isHighSurrogate u = false) (ps : List Piece) :
    joinPieces read (.unit u :: ps) = joinPieces (Char.ofNat u :: read) ps := by
  rw [joinPieces.eq_def]
  simp only [hlow, hhigh, Bool.false_eq_true, if_false]

theorem joinPieces_pair (read : List Char) {high low : Nat} (hhigh : isHighSurrogate high = true)
    (hlow : isLowSurrogate low = true) (ps : List Piece) :
    joinPieces read (.unit high :: .unit low :: ps)
      = joinPieces (joinSurrogates high low :: read) ps := by
  have hnotlow : isLowSurrogate high = false := by
    simp only [isHighSurrogate, isLowSurrogate, Bool.and_eq_true, decide_eq_true_eq] at hhigh ⊢
    rw [Bool.and_eq_false_iff]
    exact .inl (decide_eq_false (by omega))
  rw [joinPieces.eq_def]
  simp only [hnotlow, hhigh, hlow, Bool.false_eq_true, if_false, if_true]

/-- **What spells a text is made of pieces that join to it.** -/
theorem Spells.exists_isPieces (h : Spells inner v) :
    ∃ ps, IsPieces inner ps ∧ ∀ read, joinPieces read ps = some (read.reverse ++ v) := by
  induction h with
  | nil => exact ⟨[], .nil, fun read => by rw [List.append_nil]; rfl⟩
  | raw hc hquote hslash _ ih =>
    obtain ⟨ps, hps, hjoin⟩ := ih
    refine ⟨_, .raw hc hquote hslash hps, fun read => ?_⟩
    rw [joinPieces, hjoin, List.reverse_cons, List.append_assoc, List.singleton_append]
  | short hc _ ih =>
    obtain ⟨ps, hps, hjoin⟩ := ih
    refine ⟨_, .short hc hps, fun read => ?_⟩
    rw [joinPieces, hjoin, List.reverse_cons, List.append_assoc, List.singleton_append]
  | unit hu hlow hhigh _ ih =>
    obtain ⟨ps, hps, hjoin⟩ := ih
    refine ⟨_, .unit hu hps, fun read => ?_⟩
    rw [joinPieces_unit read hlow hhigh, hjoin, List.reverse_cons, List.append_assoc,
      List.singleton_append]
  | pair hu hhigh hu' hlow _ ih =>
    obtain ⟨ps, hps, hjoin⟩ := ih
    refine ⟨_, .unit hu (.unit hu' hps), fun read => ?_⟩
    rw [joinPieces_pair read hhigh hlow, hjoin, List.reverse_cons, List.append_assoc,
      List.singleton_append]

/-! ## The reader -/

/-- **The reader reads what is spelled up to a closing quote mark, and nothing else.** -/
theorem scanQuoted_eq_some_iff :
    scanQuoted cs = some (v, rest) ↔ ∃ inner, cs = inner ++ '"' :: rest ∧ Spells inner v := by
  constructor
  · intro h
    rw [scanQuoted] at h
    split at h
    case h_1 ps rest' hscan =>
      obtain ⟨w, hjoin, heq⟩ := Option.map_eq_some_iff.mp h
      cases heq
      obtain ⟨inner, new, rfl, hnew, rfl⟩ := isPieces_of_scanPieces hscan
      obtain ⟨v, rfl, hv⟩ := spells_of_joinPieces hnew hjoin
      exact ⟨inner, rfl, hv⟩
    case h_2 => cases h
  · rintro ⟨inner, rfl, hv⟩
    obtain ⟨ps, hps, hjoin⟩ := hv.exists_isPieces
    rw [scanQuoted, hps.scanPieces_append [] rest]
    exact congrArg (Option.map (·, rest)) (hjoin [])

/-- **The quoted form of a text is one of its JSON texts.** -/
theorem isText_quote (v : List Char) : IsText (quote v) v := by
  obtain ⟨inner, hinner, hv⟩ := scanQuoted_eq_some_iff.mp (scanQuoted_flatMap_escape v [])
  rw [List.append_left_inj] at hinner
  exact ⟨v.flatMap escape, rfl, hinner ▸ hv⟩

end LiveQuery.Json
