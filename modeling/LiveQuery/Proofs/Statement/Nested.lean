import LiveQuery.Proofs.Statement.Nesting
import LiveQuery.Proofs.Text.Numeral
import LiveQuery.Statement.Parser
import Mathlib.Data.List.Forall2

/-!
# Proofs/Statement/Nested — whatever parses may be nested, and means the same there

Two scanners read quoted texts: the one that reads them as values, and the one that looks for the
commas between arguments.  They agree on where a quoted text ends (`Nesting.across_scanPieces`), and
from this **every text that parses is crossed from outside to outside** (`across_of_parse`), so it
can stand as an argument of any call.

A call put together from such texts is taken apart again (`split_write`), and parsing it is parsing
its arguments from the left and then building (`parseChars_write`).
-/

namespace LiveQuery

open Text

namespace Call

variable {cs rest : List Char} {c : Char}

/-! ## Quoted texts -/

namespace Nesting

/-- Inside quotes, outside all parentheses. -/
def inQuotes : Nesting := ⟨0, true, false⟩

theorem across_escape_cons (c : Char) (cs : List Char) :
    inQuotes.across ('\\' :: c :: cs) = inQuotes.across cs := by
  have hsep : (⟨0, true, true⟩ : Nesting).separates c = false := Bool.and_false _
  have hescaped : inQuotes.across ('\\' :: c :: cs)
      = ((⟨0, true, true⟩ : Nesting).within? c).bind (·.across cs) := rfl
  rw [hescaped, within?_of_separates hsep]
  rfl

theorem across_raw_cons (hquote : c ≠ '"') (hslash : c ≠ '\\') (cs : List Char) :
    inQuotes.across (c :: cs) = inQuotes.across cs := by
  have hsep : inQuotes.separates c = false := Bool.and_false _
  have hnext : inQuotes.next c = some inQuotes := by
    simp only [next, inQuotes, hslash, hquote, if_true, if_false, Bool.false_eq_true]
  rw [across_cons, within?_of_separates hsep, hnext]
  rfl

/-- A digit of base sixteen is raw text. -/
theorem across_hex_cons {v : Nat} (h : Json.hexValue? c = some v) (cs : List Char) :
    inQuotes.across (c :: cs) = inQuotes.across cs := by
  refine across_raw_cons ?_ ?_ cs
  · rintro rfl; cases h
  · rintro rfl; cases h

/-- **A quoted text that can be read ends where the nesting says it does.** -/
theorem across_scanPieces {read pieces : List Json.Piece}
    (h : Json.scanPieces read cs = some (pieces, rest)) :
    ∃ used, used ++ rest = cs ∧ inQuotes.across used = some outside := by
  fun_induction Json.scanPieces read cs with
  | case1 => cases h
  | case2 =>
    cases h
    exact ⟨['"'], rfl, rfl⟩
  | case3 read a b c d tail u hu ih =>
    obtain ⟨used, rfl, hused⟩ := ih h
    refine ⟨'\\' :: 'u' :: a :: b :: c :: d :: used, rfl, ?_⟩
    obtain ⟨va, ha, hu⟩ := Option.bind_eq_some_iff.mp hu
    obtain ⟨vb, hb, hu⟩ := Option.bind_eq_some_iff.mp hu
    obtain ⟨vc, hc, hu⟩ := Option.bind_eq_some_iff.mp hu
    obtain ⟨vd, hd, -⟩ := Option.bind_eq_some_iff.mp hu
    rw [across_escape_cons, across_hex_cons ha, across_hex_cons hb, across_hex_cons hc,
      across_hex_cons hd, hused]
  | case4 => cases h
  | case5 read c tail _ c' hc' ih =>
    obtain ⟨used, rfl, hused⟩ := ih h
    exact ⟨'\\' :: c :: used, rfl, by rw [across_escape_cons, hused]⟩
  | case6 => cases h
  | case7 => cases h
  | case8 read c tail hquote _ _ hraw ih =>
    obtain ⟨used, rfl, hused⟩ := ih h
    refine ⟨c :: used, rfl, ?_⟩
    rw [across_raw_cons (fun hc => hquote hc) (fun hc => hraw (Or.inr hc)), hused]

end Nesting

/-! ## Literals and paths -/

theorem isPlain_isNumeralChar : Nesting.IsPlain isNumeralChar := ⟨rfl, rfl, rfl, rfl⟩

theorem isPlain_isBlank : Nesting.IsPlain isBlank := ⟨rfl, rfl, rfl, rfl⟩

theorem isPlain_isPathChar : Nesting.IsPlain Expr.isPathChar := ⟨rfl, rfl, rfl, rfl⟩

theorem isPlain_isNameChar : Nesting.IsPlain isNameChar := ⟨rfl, rfl, rfl, rfl⟩

/-- **A literal without quotes is made of the characters of numerals.** -/
theorem all_isNumeralChar_of_read? {v : Json} (h : Literal.read? cs = some v)
    (hquote : cs.head? ≠ some '"') : cs.all isNumeralChar = true := by
  have key : ∀ c ∈ cs, isNumeralChar c = true := by
    unfold Literal.read? at h
    split at h
    case h_1 => cases h
    case h_2 => exact absurd rfl hquote
    case h_3 c cs _ =>
      split at h
      case isFalse => cases h
      case isTrue =>
        split at h
        case h_1 n hn =>
          obtain ⟨m, hm, -⟩ := Option.bind_eq_some_iff.mp hn
          intro d hd
          rcases isDigit_of_readInt? hm d hd with hdigit | rfl | rfl
          · exact isNumeralChar_of_isDigit hdigit
          · rfl
          · rfl
        case h_2 =>
          obtain ⟨x, hx, -⟩ := Option.map_eq_some_iff.mp h
          simp only [Literal.readFloat?] at hx
          split at hx
          case h_1 n hscan =>
            obtain ⟨used, hused, hall⟩ := (Consumed.scanSign (c :: cs)).trans (.scan hscan)
            rw [List.append_nil] at hused
            exact hused ▸ List.all_eq_true.mp hall
          case h_2 => cases hx
  exact List.all_eq_true.mpr key

/-- **A literal is crossed from outside to outside.** -/
theorem across_of_read? {v : Json} (h : Literal.read? cs = some v) :
    Nesting.outside.across cs = some .outside := by
  by_cases hquote : cs.head? = some '"'
  · obtain ⟨cs, rfl⟩ : ∃ rest, cs = '"' :: rest := by
      cases cs with
      | nil => cases hquote
      | cons c cs => exact ⟨cs, congrArg (· :: cs) (Option.some.inj hquote)⟩
    have hscan : ∃ s, Json.scanQuoted cs = some (s, []) := by
      rw [Literal.read?] at h
      split at h
      case h_1 s hs => exact ⟨s, hs⟩
      case h_2 => cases h
    obtain ⟨s, hs⟩ := hscan
    rw [Json.scanQuoted] at hs
    split at hs
    case h_2 => cases hs
    case h_1 pieces rest hpieces =>
      obtain ⟨_, -, hrest⟩ := Option.map_eq_some_iff.mp hs
      obtain rfl : rest = [] := congrArg Prod.snd hrest
      obtain ⟨used, hused, hacross⟩ := Nesting.across_scanPieces hpieces
      rw [List.append_nil] at hused
      exact hused ▸ hacross
  · exact isPlain_isNumeralChar.across (all_isNumeralChar_of_read? h hquote)

/-! ## Calls -/

/-- **A call written out**: its name, and its arguments with commas between them. -/
def write (name : List Char) (args : List (List Char)) : List Char :=
  name ++ '(' :: ([','].intercalate args ++ [')'])

/-- A name: letters, digits and underscores, at least one. -/
def IsName (name : List Char) : Prop := name ≠ [] ∧ name.all isNameChar = true

instance (name : List Char) : Decidable (IsName name) := inferInstanceAs (Decidable (_ ∧ _))

variable {name inside : List Char} {args : List (List Char)}

theorem ne_open_of_isNameChar (h : isNameChar c = true) : c ≠ '(' := by
  rintro rfl
  cases h

theorem not_isBlank_of_isNameChar (h : isNameChar c = true) : isBlank c = false := by
  rcases eq_or_ne c '_' with rfl | hne
  · rfl
  · have hcode : (48 ≤ c.toNat ∧ c.toNat ≤ 57) ∨ 65 ≤ c.toNat ∧ c.toNat ≤ 122 := by
      rw [isNameChar, Bool.or_eq_true, decide_eq_true_iff, or_iff_left hne] at h
      change (decide (c.val ≥ 'A'.val ∧ c.val ≤ 'Z'.val) ||
        (decide (c.val ≥ 'a'.val) && decide (c.val ≤ 'z'.val)) ||
        (decide (c.val ≥ '0'.val) && decide (c.val ≤ '9'.val))) = true at h
      simp only [Bool.or_eq_true, Bool.and_eq_true, decide_eq_true_eq, ge_iff_le,
        UInt32.le_iff_toNat_le] at h
      change ((65 ≤ c.toNat ∧ c.toNat ≤ 90) ∨ (97 ≤ c.toNat ∧ c.toNat ≤ 122)) ∨
        (48 ≤ c.toNat ∧ c.toNat ≤ 57) at h
      omega
    exact not_isBlank_of_graphic (by omega)

theorem shape?_write (h : IsName name) (inside : List Char) :
    shape? (name ++ '(' :: (inside ++ [')'])) = some (name, inside) := by
  have hname : ∀ c ∈ name, decide (c ≠ '(') = true := fun c hc =>
    decide_eq_true (ne_open_of_isNameChar (List.all_eq_true.mp h.2 c hc))
  have htake : (name ++ '(' :: (inside ++ [')'])).takeWhile (· ≠ '(') = name := by
    rw [List.takeWhile_append_of_pos hname]
    exact List.append_nil name
  have hdrop : (name ++ '(' :: (inside ++ [')'])).dropWhile (· ≠ '(')
      = '(' :: (inside ++ [')']) := by
    rw [List.dropWhile_append_of_pos hname]
    rfl
  have hall : name ≠ [] ∧ name.all isNameChar = true ∧ (inside ++ [')']).getLast? = some ')' :=
    ⟨h.1, h.2, List.getLast?_concat⟩
  simp only [shape?, htake, hdrop, List.dropLast_concat]
  exact if_pos hall

/-- **What has the shape of a call is one.** -/
theorem eq_of_shape? (h : shape? cs = some (name, inside)) :
    IsName name ∧ cs = name ++ '(' :: (inside ++ [')']) := by
  simp only [shape?] at h
  split at h
  case h_2 => cases h
  case h_1 rest hrest =>
    split at h
    case isFalse => cases h
    case isTrue hshape =>
      cases h
      refine ⟨⟨hshape.1, hshape.2.1⟩, ?_⟩
      have hlast := List.dropLast_append_getLast? ')' hshape.2.2
      rw [hlast, ← hrest, List.takeWhile_append_dropWhile]

/-- **A call that can be taken apart leaves nothing open.** -/
theorem across_of_split (h : split cs = .ok (some (name, args))) :
    Nesting.outside.across cs = some .outside := by
  rw [split] at h
  split at h
  case h_1 => cases h
  case h_2 name' inside hshape =>
    obtain ⟨hname, rfl⟩ := eq_of_shape? hshape
    -- The arguments are looked at only if their parentheses and quotes are closed.
    have hinside : Nesting.outside.after inside = some .outside := by
      cases hargs : arguments (name' ++ '(' :: (inside ++ [')'])) inside with
      | error e =>
        rw [hargs] at h
        cases h
      | ok as =>
        rw [arguments] at hargs
        split at hargs
        case h_1 => cases hargs
        case h_2 n hn =>
          have hescaped := Nesting.quoted_of_escaped hn id
          rw [hn]
          obtain ⟨depth, quoted, escaped⟩ := n
          grind [Nesting.outside]
    have hopen : ∀ cs, Nesting.outside.across ('(' :: cs) = Nesting.outside.deeper.across cs :=
      fun _ => rfl
    rw [Nesting.across_append, isPlain_isNameChar.across hname.2, Option.bind_some, hopen,
      Nesting.across_append, Nesting.across_deeper hinside]
    rfl

end Call

namespace Expr

open Call

variable {cs : List Char}

/-- Blanks around a statement mean nothing. -/
theorem parseChars_trim (cs : List Char) : parseChars (trim cs) = parseChars cs := by
  rw [parseChars_eq, trim_trim, ← parseChars_eq]

/-- **Whatever parses can be an argument.** -/
theorem isArgument_of_parse {e : Expr} (h : parseChars cs = .ok e) : IsArgument cs := by
  rw [parseChars_eq] at h
  split at h
  case isTrue => cases h
  case isFalse hne =>
    have htrim : Nesting.outside.across (trim cs) = some .outside := by
      split at h
      case h_1 v hv => exact across_of_read? hv
      case h_2 =>
        split at h
        case h_1 => cases h
        case h_3 name args hsplit => exact across_of_split hsplit
        case h_2 =>
          rw [parsePath] at h
          split at h
          case isFalse => cases h
          case isTrue hall => exact isPlain_isPathChar.across hall
    rw [isArgument_iff, ← Bool.not_eq_true, ← trim_eq_nil_iff]
    refine ⟨?_, hne⟩
    obtain ⟨before, after, hcs, hbefore, hafter⟩ := exists_trim cs
    rw [hcs, Nesting.across_append, Nesting.across_append, isPlain_isBlank.across hbefore,
      Option.bind_some, htrim, Option.bind_some, isPlain_isBlank.across hafter]

end Expr

/-! ## Parsing a call -/

namespace Call

variable {name : List Char} {args : List (List Char)}

theorem isTrimmed_write (h : IsName name) (args : List (List Char)) :
    IsTrimmed (write name args) := by
  constructor
  · intro c hc
    obtain ⟨d, ds, rfl⟩ := List.exists_cons_of_ne_nil h.1
    obtain rfl : d = c := Option.some.inj hc
    exact not_isBlank_of_isNameChar (List.all_eq_true.mp h.2 d List.mem_cons_self)
  · intro c hc
    have hlast : (write name args).getLast? = some ')' := by
      rw [write, ← List.cons_append, ← List.append_assoc, List.getLast?_concat]
    obtain rfl : ')' = c := Option.some.inj (hlast.symm.trans hc)
    rfl

/-- **A call is no literal.** -/
theorem read?_write (h : IsName name) (args : List (List Char)) :
    Literal.read? (write name args) = none := by
  refine Option.eq_none_iff_forall_ne_some.mpr fun v hv => ?_
  obtain ⟨d, ds, rfl⟩ := List.exists_cons_of_ne_nil h.1
  have hd : isNameChar d = true := List.all_eq_true.mp h.2 d List.mem_cons_self
  have hquote : (write (d :: ds) args).head? ≠ some '"' := by
    intro hhead
    obtain rfl : d = '"' := Option.some.inj hhead
    cases hd
  have hopen : '(' ∈ write (d :: ds) args :=
    List.mem_append_right _ List.mem_cons_self
  exact absurd (List.all_eq_true.mp (all_isNumeralChar_of_read? hv hquote) _ hopen) (by decide)

/-- **A call written out is taken apart again.** -/
theorem split_write (h : IsName name) (hargs : ∀ a ∈ args, IsArgument a) :
    split (write name args) = .ok (some (name, args.map trim)) := by
  have hshape : shape? (write name args) = some (name, [','].intercalate args) := shape?_write h _
  rw [split, hshape]
  simp only [arguments_intercalate _ hargs, Except.map]

/-- **Parsing a call is parsing its arguments from the left, and then building.** -/
theorem parseChars_write (h : IsName name) (hargs : ∀ a ∈ args, IsArgument a) :
    Expr.parseChars (write name args)
      = match collect (args.map Expr.parseChars) with
        | .error e => .error e
        | .ok es => Expr.build (String.ofList name) es := by
  have hne : write name args ≠ [] := by simp [write]
  have hparse : (args.map trim).map Expr.parseChars = args.map Expr.parseChars := by
    rw [List.map_map, (funext Expr.parseChars_trim : Expr.parseChars ∘ trim = Expr.parseChars)]
  rw [Expr.parseChars_eq, trim_eq_self (isTrimmed_write h args), if_neg hne, read?_write h,
    split_write h hargs]
  exact hparse ▸ rfl

end Call

/-! ## The law -/

section Collect

variable {ε α β : Type} {f : β → Except ε α}

theorem collect_of_forall₂ {xs : List β} {as : List α}
    (h : List.Forall₂ (fun x a => f x = .ok a) xs as) : collect (xs.map f) = .ok as := by
  induction h with
  | nil => rfl
  | cons hx _ ih => rw [List.map_cons, hx, collect, ih]; rfl

/-- **Either every result is there, or the leftmost error is the answer.** -/
theorem collect_cases (xs : List β) :
    (∃ as, List.Forall₂ (fun x a => f x = .ok a) xs as) ∨
      ∃ before x after e, xs = before ++ x :: after ∧ (∀ b ∈ before, ∃ a, f b = .ok a) ∧
        f x = .error e ∧ collect (xs.map f) = .error e := by
  induction xs with
  | nil => exact Or.inl ⟨[], .nil⟩
  | cons x xs ih =>
    cases hx : f x with
    | error e =>
      refine Or.inr ⟨[], x, xs, e, rfl, fun _ hb => absurd hb List.not_mem_nil, hx, ?_⟩
      rw [List.map_cons, hx, collect]
    | ok a =>
      rcases ih with ⟨as, has⟩ | ⟨before, y, after, e, rfl, hbefore, hy, hall⟩
      · exact Or.inl ⟨a :: as, .cons hx has⟩
      · refine Or.inr ⟨x :: before, y, after, e, rfl, ?_, hy, ?_⟩
        · exact List.forall_mem_cons.mpr ⟨⟨a, hx⟩, hbefore⟩
        · rw [List.map_cons, hx, collect, hall]
          rfl

/-- What is collected are the results in turn. -/
theorem forall₂_of_collect {xs : List β} {as : List α} (h : collect (xs.map f) = .ok as) :
    List.Forall₂ (fun x a => f x = .ok a) xs as := by
  rcases collect_cases (f := f) xs with ⟨as', has⟩ | ⟨_, _, _, _, _, _, _, hall⟩
  · obtain rfl : as' = as := Except.ok.inj ((collect_of_forall₂ has).symm.trans h)
    exact has
  · exact absurd (hall.symm.trans h) (by simp)

end Collect

/-- **A call as a statement**: its name, and its arguments with commas between them. -/
def Call.statement (name : String) (args : List String) : String :=
  name ++ "(" ++ ",".intercalate args ++ ")"

theorem Call.toList_statement (name : String) (args : List String) :
    (Call.statement name args).toList = Call.write name.toList (args.map String.toList) := by
  simp [Call.statement, Call.write, String.toList_intercalate]

namespace Expr

/-- **A call of texts that parse is built from what they mean.** -/
theorem parseChars_call {name : String} (hname : Call.IsName name.toList)
    {args : List (List Char)} {es : List Expr}
    (h : List.Forall₂ (fun a e => parseChars a = .ok e) args es) :
    parseChars (Call.write name.toList args) = build name es := by
  have hargs : ∀ a ∈ args, Call.IsArgument a := by
    clear hname
    induction h with
    | nil => exact fun _ ha => absurd ha List.not_mem_nil
    | cons ha _ ih => exact List.forall_mem_cons.mpr ⟨isArgument_of_parse ha, ih⟩
  rw [Call.parseChars_write hname hargs, collect_of_forall₂ h, String.ofList_toList]

/-- **Parsing a call**, of texts that can be its arguments. -/
theorem parse_statement {name : String} (hname : Call.IsName name.toList) {args : List String}
    (hargs : ∀ a ∈ args, Call.IsArgument a.toList) :
    parse (Call.statement name args)
      = match collect (args.map parse) with
        | .error e => .error e
        | .ok es => build name es := by
  have hargs' : ∀ cs ∈ args.map String.toList, Call.IsArgument cs :=
    List.forall_mem_map.mpr hargs
  rw [parse, Call.toList_statement, Call.parseChars_write hname hargs', List.map_map,
    String.ofList_toList]
  rfl

/-- **Whatever parses may be nested, and means the same there.**  Under any name

* a call of statements that parse, blanks around them or not, is built from what they mean;
* of texts that can be arguments, the leftmost that does not parse is what is reported, whatever the
  name and the number of arguments, and if all of them parse the call is built. -/
theorem nested_statements_keep_their_meaning {name : String} (hname : Call.IsName name.toList) :
    (∀ args es, List.Forall₂ (fun a e => parse a = .ok e) args es →
      parse (Call.statement name args) = build name es) ∧
    ∀ args : List String, (∀ a ∈ args, Call.IsArgument a.toList) →
      (∃ es, List.Forall₂ (fun a e => parse a = .ok e) args es ∧
        parse (Call.statement name args) = build name es) ∨
      ∃ before a after fault, args = before ++ a :: after ∧ (∀ b ∈ before, ∃ e, parse b = .ok e) ∧
        parse a = .error fault ∧ parse (Call.statement name args) = .error fault := by
  have hbuilt : ∀ args es, List.Forall₂ (fun a e => parse a = .ok e) args es →
      parse (Call.statement name args) = build name es := by
    intro args es h
    rw [parse, Call.toList_statement]
    exact parseChars_call hname (List.forall₂_map_left_iff.mpr h)
  refine ⟨hbuilt, fun args hargs => ?_⟩
  rcases collect_cases (f := parse) args with ⟨es, hes⟩ | ⟨before, a, after, e, hsplit, hb, ha, hc⟩
  · exact Or.inl ⟨es, hes, hbuilt args es hes⟩
  · refine Or.inr ⟨before, a, after, e, hsplit, hb, ha, ?_⟩
    rw [parse_statement hname hargs, hc]

/-- A comma inside quotes separates nothing, and a fault of the last argument hides that nothing has
the name. -/
theorem inner_fault_hides_the_name :
    parse (Call.statement "Less" [" x ", "\"a,(\""])
      = .ok (.compare .less (.field "x") (.literal (.string "a,("))) ∧
    parse (Call.statement "Nope" ["x", "Less(\"a,(\",)"])
      = .error (.emptyArgument "Less(\"a,(\",)") := by
  have hfield : parse " x " = .ok (.field "x") := by rw [parse, parseChars_eq]; rfl
  have hquoted : parse "\"a,(\"" = .ok (.literal (.string "a,(")) := by
    rw [parse, parseChars_eq]; rfl
  have hx : parse "x" = .ok (.field "x") := by rw [parse, parseChars_eq]; rfl
  have hfault : parse "Less(\"a,(\",)" = .error (.emptyArgument "Less(\"a,(\",)") := by
    rw [parse, parseChars_eq]; rfl
  obtain ⟨hbuilt, -⟩ :=
    nested_statements_keep_their_meaning (show Call.IsName "Less".toList by decide)
  obtain ⟨-, hfirst⟩ :=
    nested_statements_keep_their_meaning (show Call.IsName "Nope".toList by decide)
  refine ⟨hbuilt _ _ (.cons hfield (.cons hquoted .nil)), ?_⟩
  rcases hfirst ["x", "Less(\"a,(\",)"] (by decide) with
    ⟨es, hes, -⟩ | ⟨before, a, after, fault, hargs, -, ha, h⟩
  · obtain _ | ⟨-, _ | ⟨hlast, -⟩⟩ := hes
    exact absurd (hfault.symm.trans hlast) (by simp)
  · have hmem : a ∈ ["x", "Less(\"a,(\",)"] := hargs ▸ List.mem_append_right _ List.mem_cons_self
    rcases List.mem_pair.mp hmem with rfl | rfl
    · exact absurd (hx.symm.trans ha) (by simp)
    · rw [h, ← ha, hfault]

end Expr

end LiveQuery
