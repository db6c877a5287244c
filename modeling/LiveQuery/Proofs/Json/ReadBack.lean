import LiveQuery.Proofs.Json.Numbers
import LiveQuery.Proofs.Json.Quoted
import Mathlib.Data.String.Basic

/-!
# Proofs/Json/ReadBack — a value is read back from its text

The reader is given a number of containers that may be open at once, so the values it reads back
are those that nest no deeper (`Nested`), and the proof follows this number.  A scalar is read up to
what may follow it (`Ends`); the items of an array and the members of an object are both a
**sequence with commas**, written by `commaSeparated` and read back by `items_commaSeparated` as
soon as each of them is.

Members come back in the order of their keys, and **each key once**: of a value that has them so,
nothing is changed (`ofMembers_eq`).
-/

namespace LiveQuery.Json

open Text

variable {rest : List Char} {c : Char}

/-! ## Values that can be read -/

/-- **A value that nests at most so deep**, the keys of its objects in order. -/
inductive Nested : Nat → Json → Prop where
  | null (n : Nat) : Nested n .null
  | bool (n : Nat) (b : Bool) : Nested n (.bool b)
  | number (n : Nat) (k : Number) : Nested n (.number k)
  | string (n : Nat) (s : String) : Nested n (.string s)
  | array {n : Nat} {vs : List Json} (h : ∀ v ∈ vs, Nested n v) : Nested (n + 1) (.array vs)
  | object {n : Nat} {ms : List (String × Json)} (hkeys : (ms.map Prod.fst).Pairwise (· < ·))
      (h : ∀ m ∈ ms, Nested n m.2) : Nested (n + 1) (.object ms)

/-- **What may follow a value**: nothing that a number would go on with. -/
def Ends (rest : List Char) : Prop := ∀ c ∈ rest.head?, isNumeralChar c = false

theorem ends_nil : Ends [] := fun c hc => absurd hc (Option.not_mem_none c)

theorem ends_cons (h : isNumeralChar c = false) (rest : List Char) : Ends (c :: rest) :=
  fun d hd => by obtain rfl : c = d := Option.some.inj hd; exact h

/-- **A reader reads back what a writer writes**, up to what follows. -/
def ReadsBack {α : Type} (item : Scan α) (w : α → List Char) (a : α) : Prop :=
  ∀ rest, Ends rest → item (w a ++ rest) = some (a, rest)

/-! ## Sequences with commas -/

section Sequences

variable {α : Type} {item : Scan α} {w : α → List Char} {a : α} {as : List α} {close : Char}

/-- **Texts with commas between them.** -/
def commaSeparated (w : α → List Char) : List α → List Char
  | [] => []
  | a :: as => w a ++ as.flatMap fun b => ',' :: w b

/-- The characters that close a container. -/
def IsCloser (c : Char) : Prop := c = ']' ∨ c = '\x7d'

theorem IsCloser.ends (h : IsCloser close) (rest : List Char) : Ends (close :: rest) := by
  rcases h with rfl | rfl <;> exact ends_cons rfl rest

theorem skipSpace_cons (h : isSpace c = false) (cs : List Char) : skipSpace (c :: cs) = c :: cs :=
  List.dropWhile_cons_of_neg (Bool.eq_false_iff.mp h)

theorem IsCloser.skipSpace (h : IsCloser close) (rest : List Char) :
    skipSpace (close :: rest) = close :: rest := by
  rcases h with rfl | rfl <;> exact skipSpace_cons rfl rest

/-- **One item or more, read up to the closing character.** -/
theorem sequence_flatMap (hclose : IsCloser close) (hitems : ∀ b ∈ a :: as, ReadsBack item w b)
    {n : Nat} (hn : as.length < n) (read : List α) (rest : List Char) :
    sequence item close read n (w a ++ ((as.flatMap fun b => ',' :: w b) ++ close :: rest))
      = some (read.reverse ++ a :: as, rest) := by
  induction as generalizing a read n with
  | nil =>
    obtain ⟨n, rfl⟩ := Nat.exists_eq_add_one.mpr hn
    have hcomma : close ≠ ',' := by rcases hclose with rfl | rfl <;> decide
    rw [List.flatMap_nil, List.nil_append, sequence,
      hitems a List.mem_cons_self _ (hclose.ends rest)]
    simp only [hclose.skipSpace, if_neg hcomma, if_true, List.reverse_cons]
  | cons b bs ih =>
    obtain ⟨n, rfl⟩ := Nat.exists_eq_add_one.mpr (Nat.zero_lt_of_lt hn)
    have htail := ih (fun x hx => hitems x (List.mem_cons_of_mem _ hx)) (Nat.lt_of_succ_lt_succ hn)
      (a :: read)
    rw [List.reverse_cons, List.append_assoc, List.singleton_append] at htail
    rw [List.flatMap_cons, List.cons_append, List.cons_append, List.append_assoc, sequence,
      hitems a List.mem_cons_self _ (ends_cons rfl _)]
    have hcomma : isSpace ',' = false := rfl
    simp only [skipSpace_cons hcomma, if_true, htail]

/-- **A sequence with commas is read back**, if each of its items is and none begins like the end of
the sequence. -/
theorem items_commaSeparated (hclose : IsCloser close) (hitems : ∀ b ∈ as, ReadsBack item w b)
    (hstart : ∀ b ∈ as, ∃ c cs, w b = c :: cs ∧ isSpace c = false ∧ c ≠ close) {bound : Nat}
    (hbound : as.length ≤ bound) (rest : List Char) :
    items item close bound (commaSeparated w as ++ close :: rest) = some (as, rest) := by
  cases as with
  | nil =>
    rw [commaSeparated, List.nil_append, items, hclose.skipSpace]
    exact if_pos rfl
  | cons a as =>
    obtain ⟨c, cs, hcs, hspace, hne⟩ := hstart a List.mem_cons_self
    have hread := sequence_flatMap hclose hitems hbound [] rest
    rw [hcs, List.cons_append] at hread
    rw [commaSeparated, List.append_assoc, hcs, List.cons_append, items, skipSpace_cons hspace]
    exact (if_neg hne).trans hread

/-- An item is no longer than the sequence, … -/
theorem length_le_commaSeparated (h : a ∈ as) : (w a).length ≤ (commaSeparated w as).length := by
  cases as with
  | nil => cases h
  | cons b bs =>
    rw [commaSeparated, List.length_append]
    rcases List.mem_cons.mp h with rfl | h
    · exact Nat.le_add_right _ _
    · have hmem : ',' :: w a ∈ bs.map fun b => ',' :: w b := List.mem_map_of_mem h
      have hle := (List.sublist_flatten_of_mem hmem).length_le
      rw [← List.flatMap_def, List.length_cons] at hle
      omega

/-- … and there are not more items than characters, one for the closing character counted. -/
theorem length_le_length_commaSeparated (w : α → List Char) (as : List α) :
    as.length ≤ (commaSeparated w as).length + 1 := by
  have hcommas : ∀ bs : List α, bs.length ≤ (bs.flatMap fun b => ',' :: w b).length := by
    intro bs
    induction bs with
    | nil => exact Nat.le_refl _
    | cons b bs ih =>
      rw [List.flatMap_cons, List.length_append, List.length_cons, List.length_cons]
      omega
  cases as with
  | nil => exact Nat.zero_le _
  | cons a as =>
    have hle := hcommas as
    rw [commaSeparated, List.length_append, List.length_cons]
    omega

end Sequences

/-! ## The texts of containers -/

/-- The text of a member. -/
def writeMember (m : String × Json) : List Char := quote m.1.toList ++ ':' :: write m.2

theorem writeItems_eq (vs : List Json) : writeItems vs = commaSeparated write vs := by
  have hmore : ∀ us, writeMoreItems us = us.flatMap fun v => ',' :: write v := by
    intro us
    induction us with
    | nil => rfl
    | cons u us ih =>
      rw [writeMoreItems, ih]
      rfl
  cases vs with
  | nil => rfl
  | cons v vs => rw [writeItems, hmore, commaSeparated]

theorem writeMembers_eq (ms : List (String × Json)) :
    writeMembers ms = commaSeparated writeMember ms := by
  have hmore : ∀ ns, writeMoreMembers ns = ns.flatMap fun m => ',' :: writeMember m := by
    intro ns
    induction ns with
    | nil => rfl
    | cons m ns ih =>
      rw [writeMoreMembers, ih]
      rfl
  cases ms with
  | nil => rfl
  | cons m ms =>
    rw [writeMembers, hmore, commaSeparated]
    rfl

theorem write_array (vs : List Json) :
    write (.array vs) = '[' :: (commaSeparated write vs ++ [']']) := by
  rw [write, writeItems_eq]
  rfl

theorem write_object (ms : List (String × Json)) :
    write (.object ms) = '\x7b' :: (commaSeparated writeMember ms ++ ['\x7d']) := by
  rw [write, writeMembers_eq]
  rfl

theorem quote_append (cs rest : List Char) :
    quote cs ++ rest = '"' :: (cs.flatMap escape ++ '"' :: rest) := by
  rw [quote, List.cons_append, List.cons_append, List.append_assoc]
  rfl

/-! ## How values begin -/

/-- **The characters that values begin with.** -/
def startsValue (c : Char) : Bool :=
  isNumeralChar c || c == 'n' || c == 't' || c == 'f' || c == '"' || c == '[' || c == '\x7b'

theorem exists_write (v : Json) : ∃ c cs, write v = c :: cs ∧ startsValue c = true := by
  cases v with
  | null => exact ⟨_, _, rfl, rfl⟩
  | bool b => cases b <;> exact ⟨_, _, rfl, rfl⟩
  | number n =>
    obtain ⟨c, cs, hcs⟩ := List.exists_cons_of_ne_nil (writeNumber_ne_nil n)
    have hc := List.all_eq_true.mp (all_isNumeralChar_writeNumber n) c (hcs ▸ List.mem_cons_self)
    exact ⟨c, cs, by rw [write, hcs], by rw [startsValue, hc]; rfl⟩
  | string s => exact ⟨_, _, rfl, rfl⟩
  | array vs => exact ⟨_, _, write_array vs, rfl⟩
  | object ms => exact ⟨_, _, write_object ms, rfl⟩

theorem not_isSpace_of_startsValue (h : startsValue c = true) : isSpace c = false := by
  refine Bool.eq_false_iff.mpr fun hspace => ?_
  simp only [isSpace, Bool.or_eq_true, beq_iff_eq] at hspace
  rcases hspace with ((rfl | rfl) | rfl) | rfl <;> exact absurd h (by decide)

/-! ## Scalars -/

/-- **What does not begin like a container is read as a scalar.** -/
theorem value_of_scalar (bound n : Nat) (hspace : isSpace c = false) (harray : c ≠ '[')
    (hobject : c ≠ '\x7b') (cs : List Char) : value bound n (c :: cs) = value.scalar (c :: cs) := by
  cases n with
  | zero => rw [value, skipSpace_cons hspace]
  | succ n =>
    rw [value, skipSpace_cons hspace]
    split
    case h_1 heq => exact absurd (List.cons.inj heq).1 harray
    case h_2 heq => exact absurd (List.cons.inj heq).1 hobject
    case h_3 => rfl

theorem value_number (bound n : Nat) (k : Number) :
    ReadsBack (value bound n) write (.number k) := by
  intro rest hrest
  obtain ⟨c, cs, hcs⟩ := List.exists_cons_of_ne_nil (writeNumber_ne_nil k)
  have hc := List.all_eq_true.mp (all_isNumeralChar_writeNumber k) c (hcs ▸ List.mem_cons_self)
  have hspace : isSpace c = false :=
    not_isSpace_of_startsValue (by rw [startsValue, hc]; rfl)
  have hread := scanNumber_writeNumber k hrest
  rw [hcs, List.cons_append] at hread
  rw [write, hcs, List.cons_append, value_of_scalar bound n hspace
    (by rintro rfl; exact absurd hc (by decide)) (by rintro rfl; exact absurd hc (by decide)),
    value.scalar, hread]
  · rfl
  all_goals
    intro tail heq
    obtain rfl := (List.cons.inj heq).1
    exact absurd hc (by decide)

theorem value_string (bound n : Nat) (s : String) :
    ReadsBack (value bound n) write (.string s) := by
  intro rest _
  rw [write, quote_append, value_of_scalar bound n rfl (by decide) (by decide)]
  have hread := scanQuoted_flatMap_escape s.toList rest
  rw [value.scalar, hread]
  exact congrArg (fun t => some (Json.string t, rest)) String.ofList_toList

/-! ## Members -/

theorem member_writeMember {value : Scan Json} {m : String × Json}
    (h : ReadsBack value write m.2) : ReadsBack (member value) writeMember m := by
  intro rest hrest
  have hvalue := h rest hrest
  rw [writeMember, List.append_assoc, quote_append, member, skipSpace_cons rfl]
  have hcolon : isSpace ':' = false := rfl
  simp only [scanQuoted_flatMap_escape, List.cons_append, skipSpace_cons hcolon, hvalue,
    Option.map_some, String.ofList_toList]

/-- A key behind all others is added at the end. -/
theorem insertMember_of_lt {key : String} {ms : List (String × Json)} (v : Json)
    (h : ∀ m ∈ ms, m.1 < key) : insertMember key v ms = ms ++ [(key, v)] := by
  induction ms with
  | nil => rfl
  | cons m ms ih =>
    obtain ⟨hfirst, hrest⟩ := List.forall_mem_cons.mp h
    obtain ⟨k, u⟩ := m
    rw [insertMember, if_neg (lt_asymm hfirst), if_neg (ne_of_gt hfirst), ih hrest]
    rfl

/-- **Members that are in order stay as they are.** -/
theorem ofMembers_eq {ms : List (String × Json)} (h : (ms.map Prod.fst).Pairwise (· < ·)) :
    ofMembers ms = .object ms := by
  have hfold : ∀ sorted, ((sorted ++ ms).map Prod.fst).Pairwise (· < ·) →
      ms.foldl (fun sorted m => insertMember m.1 m.2 sorted) sorted = sorted ++ ms := by
    clear h
    induction ms with
    | nil => exact fun sorted _ => (List.append_nil sorted).symm
    | cons m ms ih =>
      intro sorted hsorted
      have hlast : ∀ x ∈ sorted, x.1 < m.1 := by
        rw [List.map_append, List.pairwise_append] at hsorted
        exact fun x hx => hsorted.2.2 x.1 (List.mem_map_of_mem hx) m.1 List.mem_cons_self
      rw [List.append_cons] at hsorted ⊢
      rw [List.foldl_cons, insertMember_of_lt m.2 hlast]
      exact ih _ hsorted
  exact congrArg object (hfold [] h)

/-! ## Values -/

/-- **A value is read back from its text**, up to what follows it. -/
theorem value_write {n : Nat} {v : Json} (h : Nested n v) {bound : Nat}
    (hbound : (write v).length ≤ bound) : ReadsBack (value bound n) write v := by
  induction h with
  | null n => exact fun rest _ => value_of_scalar bound n rfl (by decide) (by decide) _
  | bool n b =>
    cases b with
    | true => exact fun rest _ => value_of_scalar bound n rfl (by decide) (by decide) _
    | false => exact fun rest _ => value_of_scalar bound n rfl (by decide) (by decide) _
  | number n k => exact value_number bound n k
  | string n s => exact value_string bound n s
  | @array n vs h ih =>
    intro rest _
    rw [write_array, List.length_cons, List.length_append, List.length_singleton] at hbound
    have hlength := length_le_length_commaSeparated write vs
    have hitems : ∀ v ∈ vs, ReadsBack (value bound n) write v := fun v hv => by
      have hle : (write v).length ≤ _ := length_le_commaSeparated hv
      exact ih v hv (by omega)
    have hstart : ∀ v ∈ vs, ∃ c cs, write v = c :: cs ∧ isSpace c = false ∧ c ≠ ']' := by
      intro v _
      obtain ⟨c, cs, hcs, hc⟩ := exists_write v
      exact ⟨c, cs, hcs, not_isSpace_of_startsValue hc, by rintro rfl; exact absurd hc (by decide)⟩
    have hcount : vs.length ≤ bound := by omega
    have hread := items_commaSeparated (Or.inl rfl) hitems hstart hcount rest
    rw [write_array, List.cons_append, List.append_assoc, List.singleton_append, value,
      skipSpace_cons rfl]
    simp only [hread, Option.map_some]
  | @object n ms hkeys h ih =>
    intro rest _
    rw [write_object, List.length_cons, List.length_append, List.length_singleton] at hbound
    have hlength := length_le_length_commaSeparated writeMember ms
    have hitems : ∀ m ∈ ms, ReadsBack (member (value bound n)) writeMember m := fun m hm => by
      have hle : (writeMember m).length ≤ _ := length_le_commaSeparated hm
      rw [writeMember, List.length_append, List.length_cons] at hle
      exact member_writeMember (ih m hm (by omega))
    have hstart : ∀ m ∈ ms, ∃ c cs, writeMember m = c :: cs ∧ isSpace c = false ∧ c ≠ '\x7d' :=
      fun m _ => ⟨_, _, quote_append _ _, rfl, by decide⟩
    have hcount : ms.length ≤ bound := by omega
    have hread := items_commaSeparated (Or.inr rfl) hitems hstart hcount rest
    rw [write_object, List.cons_append, List.append_assoc, List.singleton_append, value,
      skipSpace_cons rfl]
    simp only [hread, Option.map_some, ofMembers_eq hkeys]

/-- **The text of a value is read as the value.** -/
theorem readWithin?_write {n : Nat} {v : Json} (h : Nested n v) :
    readWithin? n (write v) = some v := by
  have hread := value_write h (Nat.le_refl _) [] ends_nil
  rw [List.append_nil] at hread
  rw [readWithin?, hread]
  exact if_pos rfl

end LiveQuery.Json
