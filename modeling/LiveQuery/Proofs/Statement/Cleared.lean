import LiveQuery.Proofs.Statement.Memoryless
import LiveQuery.Proofs.Window.Pushes

/-!
# Proofs/Statement/Cleared — what evaluation leaves as it is

A tree is **cleared** if it forgets all that it has met: its counters go back to zero, its windows
are emptied and its sums start again.  Nothing else is touched, neither an operator nor a path, nor
who listens to a window.  **Evaluation cannot be seen in a cleared tree** (`cleared_eval`,
`cleared_evalAll`).

The engine is `Window.cleared_push`: a push may fill a window and change a sum, but it leaves the
listener in its place and its statistic what it was.
-/

namespace LiveQuery

/-! ## Windows -/

namespace Aggregate

theorem statistic_accept (a : Aggregate) (v : Json) :
    (Listener.accept a v).2.statistic = a.statistic := by
  change (accept a v).2.statistic = _
  rw [accept]
  split
  · rfl
  · split <;> rfl

theorem statistic_evict (a : Aggregate) (v : Json) :
    (Listener.evict a v).statistic = a.statistic := by
  change (evict a v).statistic = _
  rw [evict]
  split
  · rfl
  · split <;> rfl

theorem statistic_evictAll (a : Aggregate) (out : List Entry) :
    (Listener.evictAll a out).statistic = a.statistic := by
  induction out generalizing a with
  | nil => rfl
  | cons e out ih => exact (ih _).trans (statistic_evict a e.value)

end Aggregate

namespace Window

/-- **A window that has forgotten what it held**: who listens to it still does, from the start. -/
def cleared (w : Window Aggregate) : Window Aggregate :=
  ⟨[], w.listener.map fun a => Aggregate.start a.statistic⟩

theorem cleared_some {es : List Entry} {a a' : Aggregate} (h : a.statistic = a'.statistic)
    (es' : List Entry) : (⟨es, some a⟩ : Window Aggregate).cleared = cleared ⟨es', some a'⟩ := by
  simp only [cleared, Option.map_some, h]

/-- **A push changes the entries and the sum**, and nothing else. -/
theorem cleared_push (w : Window Aggregate) (v : Json) (b : Bound) (now : Nat) :
    (w.push v b now).2.cleared = w.cleared := by
  obtain ⟨es, _ | a⟩ := w
  · rw [push, evictExpired_eq]
    rfl
  · have hstatistic := a.statistic_accept v
    rcases haccept : Listener.accept a v with ⟨e | ⟨⟨⟩⟩, a'⟩ <;> rw [haccept] at hstatistic
    · rw [push_of_reject (p := ⟨v, b, now⟩) haccept]
      exact cleared_some hstatistic _
    · rw [push_of_accept (p := ⟨v, b, now⟩) haccept]
      exact cleared_some ((Aggregate.statistic_evictAll _ _).trans hstatistic) _

end Window

theorem cleared_collectValue (kind : WindowKind) (now : Nat) (v size : Json)
    (w : Window Aggregate) : (collectValue kind now v size w).2.cleared = w.cleared := by
  cases hb : kind.bound? size with
  | error e => rw [collectValue, hb]
  | ok b =>
    by_cases hv : v = .null
    · subst hv
      rw [collectValue, hb]
    · rw [Expr.collectValue_of_ne_null hb hv]
      exact w.cleared_push v b now

namespace Expr

/-! ## Trees -/

/-- **The nodes of a tree**, a node before its operands, each with all that is below it. -/
def nodes : Expr → List Expr
  | literal v => [literal v]
  | field path => [field path]
  | getDeep path => getDeep path :: path.nodes
  | arith op lhs rhs => arith op lhs rhs :: (lhs.nodes ++ rhs.nodes)
  | compare op lhs rhs => compare op lhs rhs :: (lhs.nodes ++ rhs.nodes)
  | randomSample rate => randomSample rate :: rate.nodes
  | everyNth n counter => everyNth n counter :: n.nodes
  | window s kind value size w => window s kind value size w :: (value.nodes ++ size.nodes)

/-- **A tree that has forgotten what it has met**: counters at zero, windows empty, sums at the
start.  Unlike a fresh tree it keeps its listeners, wherever they are. -/
def cleared : Expr → Expr
  | literal v => literal v
  | field path => field path
  | getDeep path => getDeep path.cleared
  | arith op lhs rhs => arith op lhs.cleared rhs.cleared
  | compare op lhs rhs => compare op lhs.cleared rhs.cleared
  | randomSample rate => randomSample rate.cleared
  | everyNth n _ => everyNth n.cleared 0
  | window s kind value size w => window s kind value.cleared size.cleared w.cleared

/-- **Clearing a tree clears its nodes**, and adds or removes none. -/
theorem nodes_cleared (e : Expr) : e.cleared.nodes = e.nodes.map cleared := by
  induction e <;> simp_all [cleared, nodes]

theorem fresh_cleared (e : Expr) : e.cleared.fresh = e.fresh := by
  induction e <;> simp_all [cleared, fresh]

/-! ## Evaluation -/

/-- **Evaluation cannot be seen in a cleared tree.** -/
theorem cleared_eval (m : Moment) (record : Json) (e : Expr) :
    (e.eval m record).2.cleared = e.cleared := by
  induction e with
  | literal | field => rfl
  | getDeep path ih | randomSample rate ih | everyNth n counter ih =>
    rw [eval]
    split <;> simp_all [cleared]
  | arith op lhs rhs ihl ihr | compare op lhs rhs ihl ihr =>
    rw [eval]
    -- the left operand may fail, and then the right one
    split
    · simp_all [cleared]
    · split <;> simp_all [cleared]
  | window s kind value size w ihv ihs =>
    rw [eval]
    split
    · simp_all [cleared]
    · split
      · simp_all [cleared]
      · rename_i v _ _ _ n _ _
        have hcollect := cleared_collectValue kind m.now v n w
        split <;> simp_all [cleared]

theorem cleared_evalAll (records : List (Moment × Json)) (e : Expr) :
    (evalAll records e).2.cleared = e.cleared := by
  induction records generalizing e with
  | nil => rfl
  | cons r rest ih => exact (ih _).trans (cleared_eval r.1 r.2 e)

end Expr

end LiveQuery
