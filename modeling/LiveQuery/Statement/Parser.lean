import LiveQuery.Statement.Build
import LiveQuery.Statement.Call
import LiveQuery.Statement.Literal

/-!
# Statement/Parser — from a text to a tree

A statement, trimmed, is a literal, else a call, else the path of a field.  The arguments of a call
are statements themselves and are parsed **before** the call is built, so the leftmost faulty
argument is what is reported, whatever the name and the number of arguments.
-/

namespace LiveQuery

open Text

/-- **All the results, or the first error.** -/
def collect {ε α : Type} : List (Except ε α) → Except ε (List α)
  | [] => .ok []
  | .error e :: _ => .error e
  | .ok a :: rest => (collect rest).map (a :: ·)

namespace Expr

/-- Whether a character can stand in a path that is written as it is. -/
def isPathChar (c : Char) : Bool := !isBlank c && c != '(' && c != ')' && c != '"' && c != ','

/-- A text as the path of a field. -/
def parsePath (cs : List Char) : Except ParseError Expr :=
  if cs.all isPathChar then .ok (.field (String.ofList cs))
  else .error (.invalidPath (String.ofList cs))

/-- **Parses a statement given as characters.** -/
def parseChars (cs : List Char) : Except ParseError Expr :=
  let s := trim cs
  if s = [] then .error .empty
  else
    match Literal.read? s with
    | some v => .ok (.literal v)
    | none =>
      match _shape : Call.split s with
      | .error e => .error e
      | .ok none => parsePath s
      | .ok (some (name, args)) =>
        match collect (args.attach.map fun ⟨arg, _⟩ => parseChars arg) with
        | .error e => .error e
        | .ok es => build (String.ofList name) es
termination_by cs.length
decreasing_by exact Nat.lt_of_lt_of_le (Call.length_lt_of_split _shape ‹_›) (length_trim_le cs)

/-- **Parses a statement.** -/
def parse (statement : String) : Except ParseError Expr := parseChars statement.toList

/-- **What parsing does**, in one equation. -/
theorem parseChars_eq (cs : List Char) :
    parseChars cs =
      if trim cs = [] then .error .empty
      else
        match Literal.read? (trim cs) with
        | some v => .ok (.literal v)
        | none =>
          match Call.split (trim cs) with
          | .error e => .error e
          | .ok none => parsePath (trim cs)
          | .ok (some (name, args)) =>
            match collect (args.map parseChars) with
            | .error e => .error e
            | .ok es => build (String.ofList name) es := by
  rw [parseChars]
  simp only
  split
  · rfl
  · split
    · simp_all
    · split <;> simp_all

end Expr

end LiveQuery
