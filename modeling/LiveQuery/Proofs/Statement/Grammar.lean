import LiveQuery.Proofs.Statement.Nested
import Mathlib.Data.List.Infix

/-!
# Proofs/Statement/Grammar — the texts that are calls, and what is wrong with the others

Taking a call apart is one scan that counts parentheses, minds quotes and cuts at commas.  The
grammar of calls is said here without it: `levelOf` reads a whole text and may go below zero,
`IsPiece` says of one text what may stand between two commas, and `IsCall` puts such texts together.
**`split` accepts exactly this grammar, and names the first of four faults otherwise**
(`split_accepts_the_call_grammar`).

The engine is `Nesting.after_cases`: a scan that stops was below zero somewhere, and a scan that
goes through ends where `levelOf` says.  With `after_cut`, each piece that is cut out of a text that
leaves nothing open leaves nothing open itself.
-/

namespace LiveQuery.Call

open Text

/-! ## Levels -/

/-- **Where a point of a text lies**: how many more parentheses were opened than closed before it,
whether it is inside quotes, and whether a backslash escapes what comes next. -/
structure Level where
  depth : Int
  quoted : Bool
  escaped : Bool

/-- One character further. -/
def Level.next (l : Level) (c : Char) : Level :=
  if l.quoted then
    if l.escaped then { l with escaped := false }
    else { l with quoted := c ≠ '"', escaped := c = '\\' }
  else if c = '(' then { l with depth := l.depth + 1 }
  else if c = ')' then { l with depth := l.depth - 1 }
  else { l with quoted := c = '"' }

/-- **Where the end of a text lies**, read from outside everything. -/
def levelOf (cs : List Char) : Level := cs.foldl Level.next ⟨0, false, false⟩

/-- Whether somewhere in a text more parentheses were closed than opened. -/
def goesBelow (cs : List Char) : Bool := cs.inits.any fun before => (levelOf before).depth < 0

/-- **A text that closes what it opens**, and nothing else. -/
structure IsBalanced (cs : List Char) : Prop where
  never_below : goesBelow cs = false
  depth : (levelOf cs).depth = 0
  unquoted : (levelOf cs).quoted = false

/-! ## The grammar -/

/-- **A text that may stand between two commas of a call**: it closes what it opens, and its own
commas are inside parentheses or quotes. -/
structure IsPiece (cs : List Char) : Prop where
  balanced : IsBalanced cs
  comma_inside : ∀ before after, cs = before ++ ',' :: after →
    (levelOf before).depth ≠ 0 ∨ (levelOf before).quoted = true

/-- **The arguments that pieces stand for**: each piece is one, without the blanks around it, and a
single blank piece is none. -/
inductive Lists : List (List Char) → List (List Char) → Prop
  | trimmed {pieces : List (List Char)} (ne_nil : pieces ≠ [])
      (each : ∀ p ∈ pieces, IsPiece p ∧ isBlankText p = false) : Lists pieces (pieces.map trim)
  | nothing {piece : List Char} (blank : isBlankText piece = true) : Lists [piece] []

/-- **A call**: a name, and in parentheses its pieces with commas between them. -/
structure IsCall (cs name : List Char) (pieces args : List (List Char)) : Prop where
  named : IsName name
  written : cs = write name pieces
  lists : Lists pieces args

/-- **What is wrong with a text in parentheses that lists no arguments**: the first of four faults
that applies. -/
def fault (statement inside : List Char) : ParseError :=
  if goesBelow inside then .unbalancedParens (String.ofList statement)
  else if (levelOf inside).quoted then .unbalancedQuotes (String.ofList statement)
  else if 0 < (levelOf inside).depth then .unbalancedParens (String.ofList statement)
  else .emptyArgument (String.ofList statement)

/-! ## The scan and the levels -/

namespace Nesting

variable {n k : Nesting} {cs : List Char}

/-- A nesting as a level. -/
def level (n : Nesting) : Level := ⟨n.depth, n.quoted, n.escaped⟩

/-- A scan stops where the level falls below zero, and follows it until then. -/
theorem next_cases (n : Nesting) (c : Char) :
    (∃ k, n.next c = some k ∧ n.level.next c = k.level) ∨
      n.next c = none ∧ (n.level.next c).depth < 0 := by
  obtain ⟨depth, quoted, escaped⟩ := n
  simp only [next, level, Level.next]
  split_ifs <;> simp_all
  omega

/-- **A scan goes through a text exactly if its level is never below zero**, and ends where the text
does. -/
theorem after_cases (n : Nesting) (cs : List Char) :
    (∃ k, n.after cs = some k ∧ cs.foldl Level.next n.level = k.level ∧
        ∀ before, before <+: cs → 0 ≤ (before.foldl Level.next n.level).depth) ∨
      n.after cs = none ∧
        ∃ before, before <+: cs ∧ (before.foldl Level.next n.level).depth < 0 := by
  induction cs generalizing n with
  | nil =>
    refine Or.inl ⟨n, rfl, rfl, fun before hbefore => ?_⟩
    rw [List.prefix_nil.mp hbefore]
    exact Int.natCast_nonneg n.depth
  | cons c cs ih =>
    rw [after_cons]
    rcases n.next_cases c with ⟨k, hk, hlevel⟩ | ⟨hnone, hbelow⟩
    · rw [hk, Option.bind_some, List.foldl_cons, hlevel]
      rcases ih k with ⟨m, hm, hend, habove⟩ | ⟨hnone, before, hbefore, hbelow⟩
      · refine Or.inl ⟨m, hm, hend, fun before hbefore => ?_⟩
        rcases List.prefix_cons_iff.mp hbefore with rfl | ⟨tail, rfl, htail⟩
        · exact Int.natCast_nonneg n.depth
        · rw [List.foldl_cons, hlevel]
          exact habove tail htail
      · refine Or.inr ⟨hnone, c :: before, (List.prefix_cons_inj c).mpr hbefore, ?_⟩
        rw [List.foldl_cons, hlevel]
        exact hbelow
    · exact Or.inr ⟨by rw [hnone]; rfl, [c], ⟨cs, rfl⟩, hbelow⟩

/-- **From outside, a scan stops if the text goes below zero**, and else ends at its level. -/
theorem scan_cases (cs : List Char) :
    (∃ k, outside.after cs = some k ∧ levelOf cs = k.level ∧ goesBelow cs = false) ∨
      outside.after cs = none ∧ goesBelow cs = true := by
  rcases outside.after_cases cs with ⟨k, hk, hend, habove⟩ | ⟨hnone, before, hbefore, hbelow⟩
  · refine Or.inl ⟨k, hk, hend, List.any_eq_false.mpr fun before hbefore => ?_⟩
    have := habove before ((List.mem_inits _ _).mp hbefore)
    exact fun hlt => absurd (of_decide_eq_true hlt) (Int.not_lt.mpr this)
  · refine Or.inr ⟨hnone, List.any_eq_true.mpr ⟨before, (List.mem_inits _ _).mpr hbefore, ?_⟩⟩
    exact decide_eq_true hbelow

theorem levelOf_of_after (h : outside.after cs = some k) : levelOf cs = k.level := by
  rcases scan_cases cs with ⟨m, hm, hend, -⟩ | ⟨hnone, -⟩
  · rw [← Option.some.inj (hm.symm.trans h)]
    exact hend
  · exact absurd (hnone.symm.trans h) (by simp)

/-- **At depth zero outside quotes a scan is outside everything.** -/
theorem eq_outside (h : outside.after cs = some k) (hdepth : k.depth = 0)
    (hquoted : k.quoted = false) : k = outside := by
  have hescaped := quoted_of_escaped h id
  obtain ⟨depth, quoted, escaped⟩ := k
  simp_all [outside]

end Nesting

/-- **A text is balanced if the scan leads from outside to outside.** -/
theorem isBalanced_iff (cs : List Char) :
    IsBalanced cs ↔ Nesting.outside.after cs = some .outside := by
  constructor
  · rintro ⟨hnever, hdepth, hunquoted⟩
    rcases Nesting.scan_cases cs with ⟨k, hk, hlevel, -⟩ | ⟨-, hbelow⟩
    · rw [hlevel] at hdepth hunquoted
      rw [hk, Nesting.eq_outside hk (Int.natCast_eq_zero.mp hdepth) hunquoted]
    · exact absurd (hbelow.symm.trans hnever) (by simp)
  · intro h
    rcases Nesting.scan_cases cs with ⟨k, hk, hlevel, hnever⟩ | ⟨hnone, -⟩
    · obtain rfl : k = .outside := Option.some.inj (hk.symm.trans h)
      exact ⟨hnever, by rw [hlevel]; rfl, by rw [hlevel]; rfl⟩
    · exact absurd (hnone.symm.trans h) (by simp)

/-- **A piece is a text that is crossed from outside to outside.** -/
theorem isPiece_iff (cs : List Char) :
    IsPiece cs ↔ Nesting.outside.across cs = some .outside := by
  constructor
  · rintro ⟨hbalanced, hcomma⟩
    have hafter := (isBalanced_iff cs).mp hbalanced
    refine Nesting.across_of_after hafter fun before after n hcs hn => ?_
    have hinside := hcomma before after hcs
    rw [Nesting.levelOf_of_after hn] at hinside
    refine n.separates_comma_eq_false_iff.mpr (hinside.imp_left fun hdepth => ?_)
    exact Nat.pos_of_ne_zero fun hzero => hdepth (congrArg Nat.cast hzero)
  · intro h
    refine ⟨(isBalanced_iff cs).mpr (Nesting.after_of_across h), fun before after hcs => ?_⟩
    subst hcs
    have hafter := Nesting.after_of_across h
    rw [Nesting.after_append] at hafter
    obtain ⟨n, hn, -⟩ := Option.bind_eq_some_iff.mp hafter
    rw [Nesting.levelOf_of_after hn]
    refine (n.separates_comma_eq_false_iff.mp (Nesting.not_separates_of_across h hn)).imp_left ?_
    exact fun hdepth hzero => hdepth.ne' (Int.natCast_eq_zero.mp hzero)

/-- A piece that is not blank is an argument. -/
theorem isArgument_iff_isPiece (cs : List Char) :
    IsArgument cs ↔ IsPiece cs ∧ isBlankText cs = false := by
  rw [isArgument_iff, isPiece_iff]

/-! ## What is cut out -/

variable {cs inside name statement : List Char} {pieces args : List (List Char)} {n : Nesting}

theorem cut_ne_nil (n : Nesting) (cs : List Char) : cut n cs ≠ [] := by
  cases cs with
  | nil => simp [cut]
  | cons c cs =>
    rw [cut]
    split
    · simp
    · split <;> simp

/-- **The pieces with their commas are the text they were cut from.** -/
theorem intercalate_cut (n : Nesting) (cs : List Char) : [','].intercalate (cut n cs) = cs := by
  induction cs generalizing n with
  | nil => rfl
  | cons c cs ih =>
    obtain ⟨piece, pieces, hcut⟩ := List.exists_cons_of_ne_nil (cut_ne_nil ((n.next c).getD n) cs)
    have hrest := ih ((n.next c).getD n)
    rw [hcut] at hrest
    by_cases hsep : n.separates c = true
    · have hcomma : c = ',' := by simp_all [Nesting.separates]
      obtain ⟨piece, pieces, hcut⟩ := List.exists_cons_of_ne_nil (cut_ne_nil n cs)
      rw [cut, if_pos hsep, hcut, List.intercalate_cons_cons, ← hcut, ih n, hcomma]
      rfl
    · simp only [cut, if_neg hsep, hcut]
      rw [← hrest]
      cases pieces <;> simp [List.intercalate_cons_cons, List.intercalate_singleton]

/-- **Each piece cut out of a text that leaves nothing open is crossed.** -/
theorem across_cut (h : n.after cs = some .outside) (hn : n.escaped = true → n.quoted = true) :
    ∃ piece pieces, cut n cs = piece :: pieces ∧ n.across piece = some .outside ∧
      ∀ p ∈ pieces, Nesting.outside.across p = some .outside := by
  induction cs generalizing n with
  | nil => exact ⟨[], [], rfl, h, by simp⟩
  | cons c cs ih =>
    rw [Nesting.after_cons] at h
    obtain ⟨m, hm, hcs⟩ := Option.bind_eq_some_iff.mp h
    have hone : n.after [c] = some m := by rw [Nesting.after_cons, hm]; rfl
    obtain ⟨piece, pieces, hcut, hpiece, hpieces⟩ := ih hcs (Nesting.quoted_of_escaped hone hn)
    by_cases hsep : n.separates c = true
    · -- What separates lies outside everything, and so does what comes next.
      have hout : n = .outside ∧ m = .outside := by
        obtain ⟨depth, quoted, escaped⟩ := n
        simp_all [Nesting.separates, Nesting.outside, Nesting.next]
      obtain ⟨rfl, rfl⟩ := hout
      refine ⟨[], cut .outside cs, ?_, rfl, ?_⟩
      · rw [cut, if_pos hsep]
      · rw [hcut]
        exact List.forall_mem_cons.mpr ⟨hpiece, hpieces⟩
    · refine ⟨c :: piece, pieces, ?_, ?_, hpieces⟩
      · simp only [cut, if_neg hsep, hm, Option.getD_some, hcut]
      · rw [Nesting.across_cons, Nesting.within?_of_separates (Bool.eq_false_iff.mpr hsep), hm]
        exact hpiece

/-- **A text that leaves nothing open is cut into pieces.** -/
theorem isPiece_of_mem_cut (h : Nesting.outside.after cs = some .outside) :
    ∀ p ∈ cut .outside cs, IsPiece p := by
  obtain ⟨piece, pieces, hcut, hpiece, hpieces⟩ := across_cut h id
  rw [hcut]
  exact List.forall_mem_cons.mpr
    ⟨(isPiece_iff piece).mpr hpiece, fun p hp => (isPiece_iff p).mpr (hpieces p hp)⟩

/-! ## Arguments -/

/-- The arguments of a blank text are none. -/
theorem arguments_of_blank (statement : List Char) (h : isBlankText inside = true) :
    arguments statement inside = .ok [] := by
  have hacross := isPlain_isBlank.across h
  have hargs : (cut .outside inside).map trim = [[]] := by
    rw [cut_of_across hacross, List.map_singleton, (trim_eq_nil_iff inside).mpr h]
  simp only [arguments, Nesting.after_of_across hacross, hargs, if_true]
  rfl

theorem Lists.arguments_eq (h : Lists pieces args) (statement : List Char) :
    arguments statement ([','].intercalate pieces) = .ok args := by
  cases h with
  | trimmed hne each =>
    exact arguments_intercalate statement fun p hp => (isArgument_iff_isPiece p).mpr (each p hp)
  | nothing blank =>
    rw [List.intercalate_singleton]
    exact arguments_of_blank statement blank

/-- Pieces that list arguments are what is cut out of their text. -/
theorem Lists.cut_eq (h : Lists pieces args) :
    cut .outside ([','].intercalate pieces) = pieces := by
  cases h with
  | trimmed hne each =>
    exact cut_intercalate hne fun p hp => (isArgument_iff_isPiece p).mpr (each p hp)
  | nothing blank =>
    rw [List.intercalate_singleton, cut_of_across (isPlain_isBlank.across blank)]

/-- **The pieces of a text that leaves nothing open list its arguments**, unless one of several is
blank. -/
theorem arguments_of_closed (statement : List Char)
    (h : Nesting.outside.after inside = some .outside) :
    (∃ args, arguments statement inside = .ok args ∧ Lists (cut .outside inside) args) ∨
      arguments statement inside = .error (.emptyArgument (String.ofList statement)) := by
  have hargs : arguments statement inside =
      if (cut .outside inside).map trim = [[]] then .ok []
      else if [] ∈ (cut .outside inside).map trim then
        .error (.emptyArgument (String.ofList statement))
      else .ok ((cut .outside inside).map trim) := by
    rw [arguments, h]
    rfl
  split_ifs at hargs with hnothing hblank
  · obtain ⟨piece, hcut, htrim⟩ := List.map_eq_singleton_iff.mp hnothing
    exact Or.inl ⟨[], hargs, hcut ▸ .nothing ((trim_eq_nil_iff piece).mp htrim)⟩
  · exact Or.inr hargs
  · refine Or.inl ⟨_, hargs, .trimmed (cut_ne_nil _ _) fun p hp => ⟨isPiece_of_mem_cut h p hp, ?_⟩⟩
    rw [← Bool.not_eq_true, ← trim_eq_nil_iff]
    exact fun htrim => hblank (List.mem_map.mpr ⟨p, hp, htrim⟩)

/-- **A text in parentheses lists its arguments, or it has the first fault that applies.** -/
theorem arguments_cases (statement inside : List Char) :
    (∃ args, arguments statement inside = .ok args ∧ Lists (cut .outside inside) args) ∨
      arguments statement inside = .error (fault statement inside) := by
  rcases Nesting.scan_cases inside with ⟨k, hk, hlevel, hnever⟩ | ⟨hnone, hbelow⟩
  · by_cases hquoted : k.quoted = true
    · exact Or.inr (by simp [arguments, fault, hk, hlevel, hnever, hquoted, Nesting.level])
    by_cases hdepth : k.depth = 0
    · have hfault : fault statement inside = .emptyArgument (String.ofList statement) := by
        simp [fault, hlevel, hnever, hquoted, hdepth, Nesting.level]
      rw [hfault]
      exact arguments_of_closed statement
        (hk.trans (congrArg some (Nesting.eq_outside hk hdepth (Bool.eq_false_iff.mpr hquoted))))
    · exact Or.inr (by simp [arguments, fault, hk, hlevel, hnever, hquoted, hdepth, Nesting.level,
        Nat.pos_of_ne_zero])
  · exact Or.inr (by rw [arguments, hnone, fault, hbelow]; rfl)

/-! ## Calls -/

theorem split_of_shape (hname : IsName name) (inside : List Char) :
    let cs := name ++ '(' :: (inside ++ [')'])
    split cs = (arguments cs inside).map fun args => some (name, args) := by
  intro cs
  rw [split, shape?_write hname]

/-- **A text that has not the shape of a call is none.** -/
theorem split_eq_none_iff (cs : List Char) : split cs = .ok none ↔
    ¬∃ name inside, IsName name ∧ cs = name ++ '(' :: (inside ++ [')']) := by
  constructor
  · rintro hsplit ⟨name, inside, hname, rfl⟩
    rw [split_of_shape hname] at hsplit
    rcases arguments_cases (name ++ '(' :: (inside ++ [')'])) inside with ⟨args, hargs, -⟩ | hargs
    · simp [hargs, Except.map] at hsplit
    · simp [hargs, Except.map] at hsplit
  · intro h
    have hshape : shape? cs = none := by
      rw [Option.eq_none_iff_forall_ne_some]
      rintro ⟨name, inside⟩ hshape
      exact h ⟨name, inside, eq_of_shape? hshape⟩
    rw [split, hshape]

namespace IsCall

/-- A call has the shape of one. -/
theorem shape_eq (h : IsCall cs name pieces args) :
    shape? cs = some (name, [','].intercalate pieces) := by
  rw [h.written]
  exact shape?_write h.named _

/-- **A call is taken apart into its name and its arguments.** -/
theorem split_eq (h : IsCall cs name pieces args) : split cs = .ok (some (name, args)) := by
  rw [split, h.shape_eq]
  simp only [h.lists.arguments_eq, Except.map]

/-- **A text is a call in one way only.** -/
theorem unique (h : IsCall cs name pieces args) {name' : List Char}
    {pieces' args' : List (List Char)} (h' : IsCall cs name' pieces' args') :
    name' = name ∧ pieces' = pieces ∧ args' = args := by
  have hshape := h'.shape_eq.symm.trans h.shape_eq
  simp only [Option.some.injEq, Prod.mk.injEq] at hshape
  have hargs := h'.split_eq.symm.trans h.split_eq
  simp only [Except.ok.injEq, Option.some.injEq, Prod.mk.injEq] at hargs
  exact ⟨hshape.1, by rw [← h'.lists.cut_eq, hshape.2, h.lists.cut_eq], hargs.2⟩

end IsCall

/-- **What is taken apart is a call.** -/
theorem isCall_of_split (h : split cs = .ok (some (name, args))) :
    ∃ pieces, IsCall cs name pieces args := by
  rw [split] at h
  split at h
  case h_1 => simp at h
  case h_2 name' inside hshape =>
    obtain ⟨hname, hcs⟩ := eq_of_shape? hshape
    rcases arguments_cases cs inside with ⟨args', hargs, hlists⟩ | hargs
    · simp only [hargs, Except.map, Except.ok.injEq, Option.some.injEq, Prod.mk.injEq] at h
      obtain ⟨rfl, rfl⟩ := h
      exact ⟨cut .outside inside, hname, by rw [write, intercalate_cut, hcs], hlists⟩
    · simp [hargs, Except.map] at h

/-- **Taking a text apart accepts the grammar of calls, and nothing else.**

* It answers a name and arguments exactly for a call.
* A text is a call in one way only, and each argument is shorter than the text.
* It answers nothing exactly if the text is not a name and something in parentheses.
* Of any other text it tells the first fault of what stands in the parentheses: a parenthesis closed
  too early, an open quote, an open parenthesis, an empty argument. -/
theorem split_accepts_the_call_grammar (cs : List Char) :
    (∀ name args, split cs = .ok (some (name, args)) ↔ ∃ pieces, IsCall cs name pieces args) ∧
    (∀ name pieces args, IsCall cs name pieces args →
      (∀ name' pieces' args', IsCall cs name' pieces' args' →
        name' = name ∧ pieces' = pieces ∧ args' = args) ∧
      ∀ a ∈ args, a.length < cs.length) ∧
    (split cs = .ok none ↔
      ¬∃ name inside, IsName name ∧ cs = name ++ '(' :: (inside ++ [')'])) ∧
    ∀ name inside, IsName name → cs = name ++ '(' :: (inside ++ [')']) →
      (¬∃ pieces args, IsCall cs name pieces args) → split cs = .error (fault cs inside) := by
  have hsplit : ∀ name args,
      split cs = .ok (some (name, args)) ↔ ∃ pieces, IsCall cs name pieces args := by
    refine fun name args => ⟨isCall_of_split, ?_⟩
    rintro ⟨pieces, h⟩
    exact h.split_eq
  refine ⟨hsplit, fun name pieces args h => ⟨fun _ _ _ => h.unique, fun a => ?_⟩,
    split_eq_none_iff cs, ?_⟩
  · exact length_lt_of_split h.split_eq
  rintro name inside hname rfl hno
  rw [split_of_shape hname]
  rcases arguments_cases (name ++ '(' :: (inside ++ [')'])) inside with
    ⟨args, hargs, hlists⟩ | hargs
  · exact absurd ⟨_, args, hname, by rw [write, intercalate_cut], hlists⟩ hno
  · rw [hargs, Except.map]

/-- A parenthesis closed too early is told before the quotes that stay open. -/
example : split "Foo(a))(\")".toList = .error (.unbalancedParens "Foo(a))(\")") := by
  decide

end LiveQuery.Call
