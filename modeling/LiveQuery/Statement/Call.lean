import LiveQuery.Statement.Error
import LiveQuery.Text.Blank

/-!
# Statement/Call — the outer shape of a call

A call is a name, an opening parenthesis, arguments with commas between them, and a closing
parenthesis at the very end.  Parentheses and commas inside quotes are text, and commas inside inner
parentheses belong to the inner call.  `Nesting` is what has to be known of the text so far to tell
them apart; `isClosed` says that a text leaves nothing open, and `cut` cuts it at its outer commas.

`split` takes a statement apart without looking into the arguments.  Each argument it returns is
shorter than the statement (`length_lt_of_split`), which is why parsing ends.
-/

namespace LiveQuery.Call

open Text

/-! ## Nesting -/

/-- **How deep a point of a text lies**: the parentheses open there, whether it is inside quotes,
and whether a backslash stands right before it.  The depth has no bound here; where it is counted in
32 bits with a sign it is the same for every text of fewer than `2 ^ 31` characters, since each
character adds at most one. -/
structure Nesting where
  depth : Nat
  quoted : Bool
  escaped : Bool
deriving DecidableEq, Repr

/-- Outside everything. -/
def Nesting.outside : Nesting := ⟨0, false, false⟩

/-- **One character further**; none if it closes a parenthesis that was never opened. -/
def Nesting.next (n : Nesting) (c : Char) : Option Nesting :=
  if n.quoted then
    if n.escaped then some { n with escaped := false }
    else if c = '\\' then some { n with escaped := true }
    else if c = '"' then some { n with quoted := false }
    else some n
  else if c = '"' then some { n with quoted := true }
  else if c = '(' then some { n with depth := n.depth + 1 }
  else if c = ')' then if n.depth = 0 then none else some { n with depth := n.depth - 1 }
  else some n

/-- The nesting after a whole text. -/
def Nesting.after (n : Nesting) (cs : List Char) : Option Nesting := cs.foldlM Nesting.next n

/-- **A text that leaves nothing open** and closes nothing that it did not open. -/
def isClosed (cs : List Char) : Bool := Nesting.outside.after cs = some .outside

/-- Whether a character separates arguments here. -/
def Nesting.separates (n : Nesting) (c : Char) : Bool := c = ',' && n.depth == 0 && !n.quoted

/-- **Cuts a text at the commas that separate arguments.** -/
def cut (n : Nesting) : List Char → List (List Char)
  | [] => [[]]
  | c :: cs =>
    if n.separates c then [] :: cut n cs
    else
      match cut ((n.next c).getD n) cs with
      | piece :: pieces => (c :: piece) :: pieces
      | [] => [[c]]

/-- No piece is longer than the whole. -/
theorem length_le_of_mem_cut {cs piece : List Char} {n : Nesting} (h : piece ∈ cut n cs) :
    piece.length ≤ cs.length := by
  induction cs generalizing n piece with
  | nil => simp_all [cut]
  | cons c cs ih =>
    simp only [cut] at h
    split at h
    · rcases List.mem_cons.1 h with rfl | h
      · simp
      · exact Nat.le_succ_of_le (ih h)
    · split at h
      · rename_i p ps heq
        rcases List.mem_cons.1 h with rfl | h
        · have := ih (heq ▸ List.mem_cons_self : p ∈ cut ((n.next c).getD n) cs)
          simpa using this
        · exact Nat.le_succ_of_le (ih (heq ▸ List.mem_cons_of_mem _ h))
      · simp_all

/-! ## Splitting a statement -/

/-- A character of a name: an ASCII letter, a digit or the underscore. -/
def isNameChar (c : Char) : Bool := c.isAlphanum || c = '_'

/-- **Name and inside of a text that has the shape of a call.** -/
def shape? (cs : List Char) : Option (List Char × List Char) :=
  let name := cs.takeWhile (· ≠ '(')
  match cs.dropWhile (· ≠ '(') with
  | '(' :: rest =>
    if name ≠ [] ∧ name.all isNameChar ∧ rest.getLast? = some ')' then some (name, rest.dropLast)
    else none
  | _ => none

/-- **The arguments between the parentheses of a call**, trimmed; `statement` is the whole call, for
the messages.  A parenthesis closed too early is the first fault looked for, then an open quote, an
open parenthesis, and an argument of blanks only; one blank argument is no argument. -/
def arguments (statement : List Char) (inside : List Char) : Except ParseError (List (List Char)) :=
  match Nesting.outside.after inside with
  | none => .error (.unbalancedParens (String.ofList statement))
  | some n =>
    if n.quoted then .error (.unbalancedQuotes (String.ofList statement))
    else if n.depth ≠ 0 then .error (.unbalancedParens (String.ofList statement))
    else
      let args := (cut .outside inside).map trim
      if args = [[]] then .ok []
      else if [] ∈ args then .error (.emptyArgument (String.ofList statement))
      else .ok args

/-- **Takes a call apart**: its name and its arguments, or nothing if the text has not the shape of
a call. -/
def split (cs : List Char) : Except ParseError (Option (List Char × List (List Char))) :=
  match shape? cs with
  | none => .ok none
  | some (name, inside) => (arguments cs inside).map fun args => some (name, args)

theorem length_lt_of_shape? {cs name inside : List Char} (h : shape? cs = some (name, inside)) :
    inside.length < cs.length := by
  simp only [shape?] at h
  split at h
  · rename_i rest heq
    split at h
    · simp only [Option.some.injEq, Prod.mk.injEq] at h
      obtain ⟨-, rfl⟩ := h
      have := length_dropWhile_le (· ≠ '(') cs
      rw [heq] at this
      simp only [List.length_dropLast, List.length_cons] at *
      omega
    · simp at h
  · simp at h

theorem length_le_of_arguments {cs inside arg : List Char} {args : List (List Char)}
    (h : arguments cs inside = .ok args) (hm : arg ∈ args) : arg.length ≤ inside.length := by
  simp only [arguments] at h
  split at h
  · simp at h
  · split at h
    · simp at h
    · split at h
      · simp at h
      · split at h
        · simp_all
        · split at h
          · simp at h
          · simp only [Except.ok.injEq] at h
            subst h
            obtain ⟨piece, hp, rfl⟩ := List.mem_map.1 hm
            exact Nat.le_trans (length_trim_le _) (length_le_of_mem_cut hp)

/-- **Every argument is shorter than the call.** -/
theorem length_lt_of_split {cs name arg : List Char} {args : List (List Char)}
    (h : split cs = .ok (some (name, args))) (hm : arg ∈ args) : arg.length < cs.length := by
  simp only [split] at h
  split at h
  · simp at h
  · rename_i n inside hs
    cases ha : arguments cs inside with
    | error e => simp [ha, Except.map] at h
    | ok as =>
      simp only [ha, Except.map, Except.ok.injEq, Option.some.injEq, Prod.mk.injEq] at h
      obtain ⟨-, rfl⟩ := h
      exact Nat.lt_of_le_of_lt (length_le_of_arguments ha hm) (length_lt_of_shape? hs)

end LiveQuery.Call
