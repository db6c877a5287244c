import LiveQuery.Json.Basic
import LiveQuery.Text.Numeral

/-!
# Path — dotted paths into a value

A path is a text cut at its dots into segments.  Each segment takes one step: into an object by key,
into an array by position, and nowhere from any other value.  A path that leads nowhere is a
**miss**, which is not the same as finding a null.
-/

namespace LiveQuery.Path

open Text

/-- The positions an array can have. -/
def positionLimit : Nat := UInt64.size

/-- **Cuts a text at its dots**; the empty text is one empty segment. -/
def segments : List Char → List (List Char)
  | [] => [[]]
  | c :: cs =>
    match segments cs with
    | s :: ss => if c = '.' then [] :: s :: ss else (c :: s) :: ss
    | [] => [[c]]

/-- **One step into a value**: a key of an object, or a position of an array written in decimal with
an optional plus sign. -/
def step (v : Json) (segment : List Char) : Option Json :=
  match v with
  | .object members => members.lookup (String.ofList segment)
  | .array items => (readUnsigned? positionLimit segment).bind (items[·]?)
  | _ => none

/-- The value that a list of segments leads to. -/
def follow (v : Json) (segments : List (List Char)) : Option Json := segments.foldlM step v

/-- **The value at a path.** -/
def lookup (path : String) (v : Json) : Option Json := follow v (segments path.toList)

@[simp] theorem follow_nil (v : Json) : follow v [] = some v := rfl

theorem follow_cons (v : Json) (s : List Char) (ss : List (List Char)) :
    follow v (s :: ss) = (step v s).bind (follow · ss) := rfl

/-- Following two lists of segments is following one after the other. -/
theorem follow_append (v : Json) (ss ts : List (List Char)) :
    follow v (ss ++ ts) = (follow v ss).bind (follow · ts) := by
  simp [follow, List.foldlM_append, Option.bind_eq_bind]

end LiveQuery.Path
