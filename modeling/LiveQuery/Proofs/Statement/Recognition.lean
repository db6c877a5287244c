import LiveQuery.Proofs.Binary64.Overflow
import LiveQuery.Proofs.Json.Spelling
import LiveQuery.Proofs.Statement.Canonical
import LiveQuery.Proofs.Text.Written

/-!
# Proofs/Statement/Recognition — which texts are literals

A text is an integer if it writes one of 64 signed bits (`read?_eq_int_iff`), a float if it writes a
numeral, is no such integer and has a closest number (`read?_eq_float_iff`), a text if it is a JSON
text (`read?_eq_string_iff`), **and no literal otherwise** (`read?_eq_none_iff`).

The engine is `read?_cases`: a literal comes from one of three readers.  The first character settles
which one is asked, so the way back says how a text of the grammar begins
(`exists_startsNumber_of_writesInt`, `exists_startsNumber_of_writesNumeral`); the rest is what the
readers themselves accept.
-/

namespace LiveQuery.Literal

open Text

variable {cs : List Char} {n : Int} {i : Integer} {x : Binary64} {s : String}

/-! ## How numbers begin -/

theorem startsNumber_of_isSign {sign rest : List Char} {negative : Bool} (h : IsSign sign negative)
    (hrest : ∃ c cs, rest = c :: cs ∧ startsNumber c = true) :
    ∃ c cs, sign ++ rest = c :: cs ∧ startsNumber c = true := by
  cases h with
  | none => exact hrest
  | plus => exact ⟨_, _, rfl, rfl⟩
  | minus => exact ⟨_, _, rfl, rfl⟩

theorem startsNumber_of_digits {ds : List Char} (hne : ds ≠ [])
    (hds : ds.all Char.isDigit = true) (rest : List Char) :
    ∃ c cs, ds ++ rest = c :: cs ∧ startsNumber c = true := by
  obtain ⟨d, ds, rfl⟩ := List.exists_cons_of_ne_nil hne
  exact ⟨d, _, rfl, startsNumber_of_isDigit (List.all_eq_true.mp hds d List.mem_cons_self)⟩

theorem exists_startsNumber_of_writesInt (h : WritesInt cs n) :
    ∃ c rest, cs = c :: rest ∧ startsNumber c = true := by
  obtain ⟨hsign, hne, hdigits⟩ := h
  have := startsNumber_of_digits hne hdigits []
  rw [List.append_nil] at this
  exact startsNumber_of_isSign hsign this

theorem exists_startsNumber_of_writesNumeral {n : Numeral} (h : WritesNumeral cs n) :
    ∃ c rest, cs = c :: rest ∧ startsNumber c = true := by
  obtain ⟨hsign, hwhole, hpoint, -, hne⟩ := h
  rename_i whole _ _ _ _ _
  refine startsNumber_of_isSign hsign ?_
  by_cases hnil : whole = []
  · subst hnil
    cases hpoint with
    | none => exact absurd rfl hne
    | point _ => exact ⟨_, _, rfl, rfl⟩
  · exact startsNumber_of_digits hnil hwhole _

/-! ## The readers -/

theorem signed?_eq_some_iff : signed? n = some i ↔ IsSigned n ∧ i.val = n := by
  constructor
  · intro h
    have hsigned : IsSigned n := by
      rw [signed?] at h
      split at h
      case isTrue hsigned => exact hsigned
      case isFalse => cases h
    rw [signed?_of_isSigned hsigned] at h
    exact ⟨hsigned, by rw [← Option.some.inj h]⟩
  · rintro ⟨hsigned, rfl⟩
    exact signed?_of_isSigned hsigned

/-- **What is read as an integer of 64 signed bits.** -/
theorem readInt?_bind_signed?_eq_some_iff :
    (readInt? cs).bind signed? = some i ↔ WritesInt cs i.val ∧ IsSigned i.val := by
  rw [Option.bind_eq_some_iff]
  constructor
  · rintro ⟨n, hn, hi⟩
    obtain ⟨hsigned, rfl⟩ := signed?_eq_some_iff.mp hi
    exact ⟨readInt?_eq_some_iff.mp hn, hsigned⟩
  · rintro ⟨hwrites, hsigned⟩
    exact ⟨i.val, readInt?_eq_some_iff.mpr hwrites, signed?_of_isSigned hsigned⟩

theorem finite?_eq_some_iff {r : Extended} : r.finite? = some x ↔ r = .finite x := by
  cases r with
  | finite y => exact Option.some_inj.trans ⟨congrArg _, Extended.finite.inj⟩
  | infinite _ => exact iff_of_false (fun h => by cases h) (fun h => by cases h)
  | notANumber => exact iff_of_false (fun h => by cases h) (fun h => by cases h)

theorem readFloat?_eq (cs : List Char) :
    readFloat? cs = match Numeral.scan (scanSign cs).1 (scanSign cs).2 with
      | some (n, []) => if n.digits = [] then none else (Binary64.ofDecimal n.decimal).finite?
      | _ => none := rfl

/-- **What is read as a float**: a numeral that has a closest number. -/
theorem readFloat?_eq_some_iff :
    readFloat? cs = some x ↔ ∃ n, WritesNumeral cs n ∧ x.IsReading n.decimal := by
  rw [readFloat?_eq]
  constructor
  · intro h
    split at h
    case h_1 n hscan =>
      split at h
      case isTrue => cases h
      case isFalse hne =>
        exact ⟨n, writesNumeral_iff.mpr ⟨hscan, hne⟩,
          Binary64.ofDecimal_eq_finite_iff.mp (finite?_eq_some_iff.mp h)⟩
    case h_2 => cases h
  · rintro ⟨n, hwrites, hreading⟩
    obtain ⟨hscan, hne⟩ := writesNumeral_iff.mp hwrites
    simp only [hscan, if_neg hne]
    exact finite?_eq_some_iff.mpr (Binary64.ofDecimal_eq_finite_iff.mpr hreading)

/-! ## The three kinds of literals -/

/-- **Which reader has read a literal.** -/
theorem read?_cases {v : Json} (h : read? cs = some v) :
    (∃ s, v = .string s ∧ Json.IsText cs s.toList) ∨
      (∃ i, v = .number (.int i) ∧ (readInt? cs).bind signed? = some i) ∨
      ∃ x, v = .number (.float x) ∧ (readInt? cs).bind signed? = none ∧ readFloat? cs = some x := by
  unfold read? at h
  split at h
  case h_1 => cases h
  case h_2 rest =>
    split at h
    case h_1 text htext =>
      obtain ⟨inner, rfl, hspells⟩ := Json.scanQuoted_eq_some_iff.mp htext
      exact .inl ⟨_, (Option.some.inj h).symm, inner, rfl, by rwa [String.toList_ofList]⟩
    case h_2 => cases h
  case h_3 =>
    split at h
    case isFalse => cases h
    case isTrue =>
      split at h
      case h_1 i hi => exact .inr (.inl ⟨i, (Option.some.inj h).symm, hi⟩)
      case h_2 hnone =>
        obtain ⟨x, hx, rfl⟩ := Option.map_eq_some_iff.mp h
        exact .inr (.inr ⟨x, rfl, hnone, hx⟩)

/-- **A text is read as an integer if it writes one** of 64 signed bits. -/
theorem read?_eq_int_iff :
    read? cs = some (.number (.int i)) ↔ WritesInt cs i.val ∧ IsSigned i.val := by
  rw [← readInt?_bind_signed?_eq_some_iff]
  constructor
  · intro h
    obtain ⟨_, heq, -⟩ | ⟨_, heq, hi⟩ | ⟨_, heq, -⟩ := read?_cases h
    · cases heq
    · cases heq
      exact hi
    · cases heq
  · intro h
    obtain ⟨hwrites, -⟩ := readInt?_bind_signed?_eq_some_iff.mp h
    obtain ⟨c, rest, rfl, hc⟩ := exists_startsNumber_of_writesInt hwrites
    rw [read?_number hc, h]

/-- **Whether a text is an integer** of 64 signed bits. -/
def IsInteger (cs : List Char) : Prop := ∃ n, WritesInt cs n ∧ IsSigned n

theorem readInt?_bind_signed?_eq_none_iff :
    (readInt? cs).bind signed? = none ↔ ¬IsInteger cs := by
  rw [Option.eq_none_iff_forall_ne_some]
  constructor
  · rintro h ⟨n, hwrites, hsigned⟩
    exact h ⟨n, hsigned.isWord⟩ (readInt?_bind_signed?_eq_some_iff.mpr ⟨hwrites, hsigned⟩)
  · exact fun h i hi => h ⟨i.val, readInt?_bind_signed?_eq_some_iff.mp hi⟩

/-- **A text is read as a float if it is no integer and writes a numeral that has a closest
number.** -/
theorem read?_eq_float_iff :
    read? cs = some (.number (.float x)) ↔
      ¬IsInteger cs ∧ ∃ n, WritesNumeral cs n ∧ x.IsReading n.decimal := by
  rw [← readInt?_bind_signed?_eq_none_iff, ← readFloat?_eq_some_iff]
  constructor
  · intro h
    obtain ⟨_, heq, -⟩ | ⟨_, heq, -⟩ | ⟨_, heq, hnone, hx⟩ := read?_cases h
    · cases heq
    · cases heq
    · cases heq
      exact ⟨hnone, hx⟩
  · rintro ⟨hnone, hfloat⟩
    obtain ⟨n, hwrites, -⟩ := readFloat?_eq_some_iff.mp hfloat
    obtain ⟨c, rest, rfl, hc⟩ := exists_startsNumber_of_writesNumeral hwrites
    rw [read?_number hc, hnone, hfloat]
    rfl

/-- **A text is read as a text if it is one of its JSON texts.** -/
theorem read?_eq_string_iff : read? cs = some (.string s) ↔ Json.IsText cs s.toList := by
  constructor
  · intro h
    obtain ⟨_, heq, htext⟩ | ⟨_, heq, -⟩ | ⟨_, heq, -⟩ := read?_cases h
    · cases heq
      exact htext
    · cases heq
    · cases heq
  · rintro ⟨inner, rfl, hspells⟩
    rw [read?, Json.scanQuoted_eq_some_iff.mpr ⟨inner, rfl, hspells⟩]
    simp only [String.ofList_toList]

/-- **All else is no literal.** -/
theorem read?_eq_none_iff :
    read? cs = none ↔
      ¬IsInteger cs ∧ (¬∃ n, WritesNumeral cs n ∧ ∃ x : Binary64, x.IsReading n.decimal) ∧
        ¬∃ v, Json.IsText cs v := by
  constructor
  · intro h
    have hinteger : ¬IsInteger cs := by
      rintro ⟨n, hwrites, hsigned⟩
      rw [read?_eq_int_iff (i := ⟨n, hsigned.isWord⟩) |>.mpr ⟨hwrites, hsigned⟩] at h
      cases h
    refine ⟨hinteger, ?_, ?_⟩
    · rintro ⟨n, hwrites, x, hreading⟩
      rw [read?_eq_float_iff.mpr ⟨hinteger, n, hwrites, hreading⟩] at h
      cases h
    · rintro ⟨v, hv⟩
      rw [← String.toList_ofList (l := v)] at hv
      rw [read?_eq_string_iff.mpr hv] at h
      cases h
  · rintro ⟨hinteger, hnumeral, htext⟩
    cases h : read? cs with
    | none => rfl
    | some v =>
      cases isLiteral_of_read? h with
      | int _ =>
        obtain ⟨hwrites, hsigned⟩ := read?_eq_int_iff.mp h
        exact absurd ⟨_, hwrites, hsigned⟩ hinteger
      | float x =>
        obtain ⟨-, n, hwrites, hreading⟩ := read?_eq_float_iff.mp h
        exact absurd ⟨n, hwrites, x, hreading⟩ hnumeral
      | string s => exact absurd ⟨_, read?_eq_string_iff.mp h⟩ htext

/-! ## Texts as statements -/

theorem isTrimmed_of_isText {v : List Char} (h : Json.IsText cs v) : IsTrimmed cs := by
  obtain ⟨inner, rfl, -⟩ := h
  constructor
  · intro c hc
    obtain rfl : '"' = c := Option.some.inj hc
    rfl
  · intro c hc
    rw [← List.cons_append, List.getLast?_concat] at hc
    obtain rfl : '"' = c := Option.some.inj hc
    rfl

/-- **A JSON text is a statement**, which means the text it spells. -/
theorem parseChars_of_isText (h : Json.IsText cs s.toList) :
    Expr.parseChars cs = .ok (.literal (.string s)) := by
  have hne : cs ≠ [] := by
    obtain ⟨inner, rfl, -⟩ := h
    exact List.cons_ne_nil _ _
  rw [Expr.parseChars_eq, trim_eq_self (isTrimmed_of_isText h), if_neg hne,
    read?_eq_string_iff.mpr h]

/-- **Under `GetDeep` it is the path of a field**, unless it spells nothing. -/
theorem parseChars_getDeep_of_isText (h : Json.IsText cs s.toList) (hne : s ≠ "") :
    Expr.parseChars (Expr.call₁ "GetDeep" cs) = .ok (.field s) := by
  rw [Expr.parseChars_call₁ (by decide) (parseChars_of_isText h)]
  exact if_neg hne

/-! ## Everything together -/

/-- **Literals are recognised exactly.**

* A text is an integer if it writes one of 64 signed bits; a float if it is no such integer and
  writes a numeral whose closest number is finite; a text if it is a JSON text; and no literal
  otherwise.
* Every text has a JSON text.  Each of its JSON texts is a statement that means the text, and under
  `GetDeep` one that means the field of that path, whatever the path is, unless it is empty. -/
theorem literals_are_recognised_exactly :
    (∀ cs : List Char,
      (∀ i : Integer,
        read? cs = some (.number (.int i)) ↔ WritesInt cs i.val ∧ IsSigned i.val) ∧
      (∀ x : Binary64,
        read? cs = some (.number (.float x)) ↔
          ¬IsInteger cs ∧ ∃ n, WritesNumeral cs n ∧ x.IsReading n.decimal) ∧
      (∀ s : String, read? cs = some (.string s) ↔ Json.IsText cs s.toList) ∧
      (read? cs = none ↔
        ¬IsInteger cs ∧ (¬∃ n, WritesNumeral cs n ∧ ∃ x : Binary64, x.IsReading n.decimal) ∧
          ¬∃ v, Json.IsText cs v)) ∧
    ∀ v : String, Json.IsText (Json.quote v.toList) v.toList ∧
      ∀ text : String, Json.IsText text.toList v.toList →
        Expr.parse text = .ok (.literal (.string v)) ∧
          (v ≠ "" → Expr.parse ("GetDeep(" ++ text ++ ")") = .ok (.field v)) := by
  refine ⟨fun cs => ⟨fun _ => read?_eq_int_iff, fun _ => read?_eq_float_iff,
    fun _ => read?_eq_string_iff, read?_eq_none_iff⟩, fun v => ⟨Json.isText_quote v.toList, ?_⟩⟩
  intro text htext
  refine ⟨parseChars_of_isText htext, fun hne => ?_⟩
  have hcall : ("GetDeep(" ++ text ++ ")").toList = Expr.call₁ "GetDeep" text.toList := by
    rw [String.toList_append, String.toList_append]
    rfl
  rw [Expr.parse, hcall]
  exact parseChars_getDeep_of_isText htext hne

/-- A path of a parenthesis, a comma and a character beyond the basic plane, escaped as a pair. -/
theorem escaped_pair_in_a_path :
    Json.IsText "\"(,\\ud83d\\ude00\"".toList "(,😀".toList ∧ "(,😀" ≠ "" ∧
      Expr.parse ("GetDeep(" ++ "\"(,\\ud83d\\ude00\"" ++ ")") = .ok (.field "(,😀") := by
  have hscan : Json.scanQuoted "(,\\ud83d\\ude00\"".toList = some ("(,😀".toList, []) := by
    decide +kernel
  have hquote : "\"(,\\ud83d\\ude00\"".toList = '"' :: "(,\\ud83d\\ude00\"".toList := by
    decide +kernel
  obtain ⟨inner, hinner, hspells⟩ := Json.scanQuoted_eq_some_iff.mp hscan
  have htext : Json.IsText "\"(,\\ud83d\\ude00\"".toList "(,😀".toList :=
    ⟨inner, by rw [hquote, hinner], hspells⟩
  have hne : "(,😀" ≠ "" := by decide
  exact ⟨htext, hne, ((literals_are_recognised_exactly.2 _).2 _ htext).2 hne⟩

/-- Words, numbers out of range and a lone quote mark are no literals. -/
example : read? "-inf".toList = none ∧ read? "NaN".toList = none ∧ read? "1e999".toList = none ∧
    read? "\"".toList = none := by decide +kernel

end LiveQuery.Literal
