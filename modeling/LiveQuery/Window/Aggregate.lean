import LiveQuery.Window.Basic

/-!
# Window/Aggregate — count, sum and mean of a window, kept up as it changes

The listener behind the aggregates carries a running sum: an admitted number is added, an evicted
one subtracted.  The count needs no sum, so it admits values of every kind.
-/

namespace LiveQuery

/-- **What is reported of a window.** -/
inductive Statistic where
  | count
  | sum
  | average
deriving DecidableEq, Repr

/-- The name a statistic has in statements and messages. -/
def Statistic.name : Statistic → String
  | .count => "WindowCount"
  | .sum => "WindowSum"
  | .average => "WindowAverage"

/-- **A statistic that follows a window**, with the sum of the numbers in it. -/
structure Aggregate where
  statistic : Statistic
  sum : Extended
deriving DecidableEq, Repr

namespace Aggregate

/-- The statistic of an empty window. -/
def start (s : Statistic) : Aggregate := ⟨s, .zero⟩

/-- Adds a number; anything else is rejected, unless only the count is wanted. -/
def accept (a : Aggregate) (v : Json) : Except EvalError Unit × Aggregate :=
  if a.statistic = .count then (.ok (), a)
  else
    match v.number? with
    | some x => (.ok (), { a with sum := a.sum.add (.finite x) })
    | none => (.error (.typeMismatch a.statistic.name "window element" "number" v.kind), a)

/-- Takes a number out of the sum. -/
def evict (a : Aggregate) (v : Json) : Aggregate :=
  if a.statistic = .count then a
  else
    match v.number? with
    | some x => { a with sum := a.sum.sub (.finite x) }
    | none => a

/-- **The statistic of a window of so many values.**  The sum of none is zero whatever rounding has
left behind, and the mean of none does not exist. -/
def report (a : Aggregate) (size : Nat) : Except EvalError Json :=
  match a.statistic with
  | .count => .ok (Json.ofInt size)
  | .sum => .ok (Json.ofExtended (if size = 0 then .zero else a.sum))
  | .average =>
    if size = 0 then .error .emptyWindow
    else
      match Binary64.ofInt size with
      | .finite n => .ok (Json.ofExtended (a.sum.divBy n))
      | _ => .ok .null

instance : Listener Aggregate := ⟨accept, evict, report⟩

end Aggregate

end LiveQuery
