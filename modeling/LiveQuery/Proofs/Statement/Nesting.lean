import LiveQuery.Proofs.Text.Trim
import LiveQuery.Statement.Call

/-!
# Proofs/Statement/Nesting — texts that can stand between the commas of a call

A text is scanned from the outside in: `Nesting.after` says how deep its end lies.  `across` is the
same scan, stopped where a comma would separate arguments.  **What is crossed and leaves nothing
open is cut out whole** (`cut_intercalate`), whatever stands around it, and inside one more pair of
parentheses nothing separates at all (`across_deeper`).

`IsArgument` says in plain words which texts these are.
-/

namespace LiveQuery.Call

open Text

namespace Nesting

variable {n k : Nesting} {c : Char} {cs : List Char}

/-- One character further inside an argument; none where the argument would end. -/
def within? (n : Nesting) (c : Char) : Option Nesting := if n.separates c then none else n.next c

/-- **The nesting after a text that no comma separates.** -/
def across (n : Nesting) (cs : List Char) : Option Nesting := cs.foldlM within? n

theorem after_cons (n : Nesting) (c : Char) (cs : List Char) :
    n.after (c :: cs) = (n.next c).bind (·.after cs) := List.foldlM_cons

theorem after_append (n : Nesting) (as bs : List Char) :
    n.after (as ++ bs) = (n.after as).bind (·.after bs) := List.foldlM_append

theorem across_cons (n : Nesting) (c : Char) (cs : List Char) :
    n.across (c :: cs) = (n.within? c).bind (·.across cs) := List.foldlM_cons

theorem across_append (n : Nesting) (as bs : List Char) :
    n.across (as ++ bs) = (n.across as).bind (·.across bs) := List.foldlM_append

/-! ## Scanning with and without commas -/

theorem within?_eq_some (h : n.within? c = some k) : n.separates c = false ∧ n.next c = some k := by
  rw [within?] at h
  split at h
  case isTrue => cases h
  case isFalse hsep => exact ⟨Bool.eq_false_iff.mpr hsep, h⟩

theorem within?_of_separates (hsep : n.separates c = false) : n.within? c = n.next c :=
  if_neg (by rw [hsep]; exact Bool.false_ne_true)

/-- Only a comma separates. -/
theorem separates_of_ne (hc : c ≠ ',') : n.separates c = false := by
  rw [separates, decide_eq_false hc]
  rfl

/-- What is crossed is scanned alike. -/
theorem after_of_across (h : n.across cs = some k) : n.after cs = some k := by
  induction cs generalizing n with
  | nil => exact h
  | cons c cs ih =>
    rw [across_cons] at h
    obtain ⟨m, hm, hcs⟩ := Option.bind_eq_some_iff.mp h
    rw [after_cons, (within?_eq_some hm).2]
    exact ih hcs

/-- **A scanned text is crossed if none of its commas separates.** -/
theorem across_of_after (h : n.after cs = some k)
    (hcomma : ∀ before after m, cs = before ++ ',' :: after → n.after before = some m →
      m.separates ',' = false) : n.across cs = some k := by
  induction cs generalizing n with
  | nil => exact h
  | cons c cs ih =>
    rw [after_cons] at h
    obtain ⟨m, hm, hcs⟩ := Option.bind_eq_some_iff.mp h
    have hsep : n.separates c = false := by
      by_cases hc : c = ','
      · subst hc
        exact hcomma [] cs n rfl rfl
      · exact separates_of_ne hc
    rw [across_cons, within?_of_separates hsep, hm]
    refine ih hcs fun before after j hsplit hj => ?_
    refine hcomma (c :: before) after j (congrArg (c :: ·) hsplit) ?_
    rw [after_cons, hm]
    exact hj

/-- What is crossed has no comma that separates. -/
theorem not_separates_of_across {before after : List Char} {m : Nesting}
    (h : n.across (before ++ ',' :: after) = some k) (hm : n.after before = some m) :
    m.separates ',' = false := by
  rw [across_append] at h
  obtain ⟨j, hj, hrest⟩ := Option.bind_eq_some_iff.mp h
  obtain rfl : j = m := Option.some.inj ((after_of_across hj).symm.trans hm)
  rw [across_cons] at hrest
  obtain ⟨i, hi, -⟩ := Option.bind_eq_some_iff.mp hrest
  exact (within?_eq_some hi).1

/-- **A comma separates exactly outside all parentheses and quotes.** -/
theorem separates_comma_eq_false_iff (n : Nesting) :
    n.separates ',' = false ↔ 0 < n.depth ∨ n.quoted = true := by
  obtain ⟨depth, quoted, escaped⟩ := n
  cases quoted <;> cases depth <;> simp [separates]

/-! ## Plain characters -/

/-- A kind of characters that means nothing to the nesting outside quotes. -/
structure IsPlain (p : Char → Bool) : Prop where
  quote : p '"' = false
  opening : p '(' = false
  closing : p ')' = false
  comma : p ',' = false

variable {p : Char → Bool}

theorem IsPlain.within? (hp : IsPlain p) (hc : p c = true) :
    outside.within? c = some outside := by
  have hne : ∀ {d}, p d = false → c ≠ d := by
    rintro d hd rfl
    exact Bool.false_ne_true (hd.symm.trans hc)
  rw [within?_of_separates (separates_of_ne (hne hp.comma)), next, if_neg (by decide),
    if_neg (hne hp.quote), if_neg (hne hp.opening), if_neg (hne hp.closing)]

/-- **A text of plain characters is crossed outside everything.** -/
theorem IsPlain.across (hp : IsPlain p) (h : cs.all p = true) :
    outside.across cs = some outside := by
  induction cs with
  | nil => rfl
  | cons c cs ih =>
    rw [List.all_cons, Bool.and_eq_true] at h
    rw [across_cons, hp.within? h.1]
    exact ih h.2

/-! ## Inside one more pair of parentheses -/

/-- One parenthesis further in. -/
def deeper (n : Nesting) : Nesting := { n with depth := n.depth + 1 }

theorem within?_deeper (h : n.next c = some k) : n.deeper.within? c = some k.deeper := by
  have hsep : n.deeper.separates c = false := by simp [separates, deeper]
  rw [within?_of_separates hsep]
  obtain ⟨depth, quoted, escaped⟩ := n
  grind [next, deeper]

/-- **Inside a pair of parentheses nothing separates.** -/
theorem across_deeper (h : n.after cs = some k) : n.deeper.across cs = some k.deeper := by
  induction cs generalizing n with
  | nil => exact congrArg _ (congrArg deeper (Option.some.inj h))
  | cons c cs ih =>
    rw [after_cons] at h
    obtain ⟨m, hm, hcs⟩ := Option.bind_eq_some_iff.mp h
    rw [across_cons, within?_deeper hm]
    exact ih hcs

/-- Only inside quotes is a character escaped. -/
theorem quoted_of_escaped (h : n.after cs = some k) (hn : n.escaped = true → n.quoted = true) :
    k.escaped = true → k.quoted = true := by
  induction cs generalizing n with
  | nil => exact Option.some.inj h ▸ hn
  | cons c cs ih =>
    rw [after_cons] at h
    obtain ⟨m, hm, hcs⟩ := Option.bind_eq_some_iff.mp h
    refine ih hcs ?_
    obtain ⟨depth, quoted, escaped⟩ := n
    simp only [next] at hm
    split_ifs at hm <;> cases hm <;> simp_all

end Nesting

/-! ## Arguments -/

/-- **A text that can be an argument**: it closes its own parentheses and quotes and no others, its
commas lie inside them, and it is not blank. -/
structure IsArgument (cs : List Char) : Prop where
  closed : isClosed cs = true
  comma_inside : ∀ before after n, cs = before ++ ',' :: after →
    Nesting.outside.after before = some n → 0 < n.depth ∨ n.quoted = true
  not_blank : isBlankText cs = false

/-- **An argument is a text that is crossed from outside to outside** and is not blank. -/
theorem isArgument_iff (cs : List Char) :
    IsArgument cs ↔ Nesting.outside.across cs = some .outside ∧ isBlankText cs = false := by
  constructor
  · intro h
    refine ⟨Nesting.across_of_after (of_decide_eq_true h.closed) fun before after n hcs hn => ?_,
      h.not_blank⟩
    exact n.separates_comma_eq_false_iff.mpr (h.comma_inside before after n hcs hn)
  · rintro ⟨hacross, hblank⟩
    refine ⟨decide_eq_true (Nesting.after_of_across hacross), fun before after n hcs hn => ?_,
      hblank⟩
    rw [hcs] at hacross
    exact n.separates_comma_eq_false_iff.mp (Nesting.not_separates_of_across hacross hn)

instance (cs : List Char) : Decidable (IsArgument cs) := decidable_of_iff _ (isArgument_iff cs).symm

theorem IsArgument.across {cs : List Char} (h : IsArgument cs) :
    Nesting.outside.across cs = some .outside := ((isArgument_iff cs).mp h).1

theorem IsArgument.trim_ne_nil {cs : List Char} (h : IsArgument cs) : trim cs ≠ [] := by
  rw [Ne, trim_eq_nil_iff, h.not_blank]
  exact Bool.false_ne_true

/-! ## Cutting at the commas -/

variable {n k : Nesting} {a rest : List Char}

/-- What is crossed is one piece. -/
theorem cut_of_across (h : n.across a = some k) : cut n a = [a] := by
  induction a generalizing n with
  | nil => rfl
  | cons c a ih =>
    rw [Nesting.across_cons] at h
    obtain ⟨m, hm, ha⟩ := Option.bind_eq_some_iff.mp h
    obtain ⟨hsep, hnext⟩ := Nesting.within?_eq_some hm
    simp only [cut, hsep, hnext, Option.getD_some, ih ha, Bool.false_eq_true, if_false]

/-- **A piece ends at the first comma that lies outside it.** -/
theorem cut_append_comma (h : n.across a = some .outside) :
    cut n (a ++ ',' :: rest) = a :: cut .outside rest := by
  induction a generalizing n with
  | nil =>
    obtain rfl : n = .outside := Option.some.inj h
    rfl
  | cons c a ih =>
    rw [Nesting.across_cons] at h
    obtain ⟨m, hm, ha⟩ := Option.bind_eq_some_iff.mp h
    obtain ⟨hsep, hnext⟩ := Nesting.within?_eq_some hm
    simp only [List.cons_append, cut, hsep, hnext, Option.getD_some, ih ha, Bool.false_eq_true,
      if_false]

variable {as : List (List Char)}

/-- **Arguments with commas between them are cut out again.** -/
theorem cut_intercalate (hne : as ≠ []) (h : ∀ a ∈ as, IsArgument a) :
    cut .outside ([','].intercalate as) = as := by
  induction as with
  | nil => exact absurd rfl hne
  | cons a as ih =>
    obtain ⟨ha, has⟩ := List.forall_mem_cons.mp h
    cases as with
    | nil => rw [List.intercalate_singleton, cut_of_across ha.across]
    | cons b bs =>
      rw [List.intercalate_cons_cons, List.append_assoc, List.singleton_append,
        cut_append_comma ha.across, ih (List.cons_ne_nil _ _) has]

/-- Arguments leave nothing open together. -/
theorem after_intercalate (h : ∀ a ∈ as, IsArgument a) :
    Nesting.outside.after ([','].intercalate as) = some .outside := by
  induction as with
  | nil => rfl
  | cons a as ih =>
    obtain ⟨ha, has⟩ := List.forall_mem_cons.mp h
    have hafter := Nesting.after_of_across ha.across
    cases as with
    | nil => rw [List.intercalate_singleton, hafter]
    | cons b bs =>
      rw [List.intercalate_cons_cons, List.append_assoc, Nesting.after_append, hafter]
      exact ih has

/-- **The arguments of a call are what stands between its commas**, trimmed. -/
theorem arguments_intercalate (statement : List Char) (h : ∀ a ∈ as, IsArgument a) :
    arguments statement ([','].intercalate as) = .ok (as.map trim) := by
  rw [arguments, after_intercalate h]
  rcases eq_or_ne as [] with rfl | hne
  · rfl
  · have hmem : [] ∉ as.map trim := fun hnil => by
      obtain ⟨a, ha, htrim⟩ := List.mem_map.mp hnil
      exact (h a ha).trim_ne_nil htrim
    have hone : as.map trim ≠ [[]] := fun hone => hmem (hone ▸ List.mem_singleton_self _)
    have hcut : (cut .outside ([','].intercalate as)).map trim = as.map trim :=
      congrArg (List.map trim) (cut_intercalate hne h)
    have hquoted : Nesting.outside.quoted = false := rfl
    have hdepth : Nesting.outside.depth = 0 := rfl
    simp only [hcut, hquoted, hdepth, Bool.false_eq_true, if_false, ne_eq, not_true_eq_false,
      if_neg hone, if_neg hmem]

end LiveQuery.Call
