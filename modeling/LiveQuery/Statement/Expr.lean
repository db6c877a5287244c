import LiveQuery.Window.Aggregate
import LiveQuery.Json.Writer

/-!
# Statement/Expr — the tree of a statement, and its canonical text

A tree is what a statement means: a literal, a field of the record, or an operator on smaller trees.
Three kinds of node remember something between records: a counter, a window, and the statistic that
listens to a window.  Everything else about a tree is fixed when it is built.

`Expr.text` writes a tree back as a statement.  It shows what is fixed and nothing of what is
remembered.
-/

namespace LiveQuery

/-- The arithmetic operators. -/
inductive ArithOp where
  | add | subtract | multiply | divide
deriving DecidableEq, Repr

/-- The comparison predicates. -/
inductive CompareOp where
  | equal | notEqual | greater | greaterEqual | less | lessEqual
deriving DecidableEq, Repr

/-- What bounds a window: the number of its values, or their age in seconds. -/
inductive WindowKind where
  | rolling | timed
deriving DecidableEq, Repr

/-- The name of an operator in statements and messages. -/
def ArithOp.name : ArithOp → String
  | .add => "Add"
  | .subtract => "Subtract"
  | .multiply => "Multiply"
  | .divide => "Divide"

/-- The name of a predicate in statements and messages. -/
def CompareOp.name : CompareOp → String
  | .equal => "Equal"
  | .notEqual => "NotEqual"
  | .greater => "Greater"
  | .greaterEqual => "GreaterEqual"
  | .less => "Less"
  | .lessEqual => "LessEqual"

/-- The name of a kind of window in statements and messages. -/
def WindowKind.name : WindowKind → String
  | .rolling => "RollingWindow"
  | .timed => "TimedWindow"

/-- **The tree of a statement.** -/
inductive Expr where
  | literal (v : Json)
  /-- The field at a path of the record. -/
  | field (path : String)
  /-- The field at a path that is computed for each record. -/
  | getDeep (path : Expr)
  | arith (op : ArithOp) (lhs rhs : Expr)
  | compare (op : CompareOp) (lhs rhs : Expr)
  | randomSample (rate : Expr)
  /-- Counts evaluations since it was last true. -/
  | everyNth (n : Expr) (counter : Nat)
  /-- Collects the values of `value`, `size` of them at a time; read as its newest value, or as a
  statistic of all. -/
  | window (statistic : Option Statistic) (kind : WindowKind) (value size : Expr)
      (contents : Window Aggregate)
deriving Repr

namespace Expr

/-- A call of a function with one argument. -/
def call₁ (name : String) (a : List Char) : List Char := name.toList ++ '(' :: a ++ [')']

/-- A call of a function with two arguments. -/
def call₂ (name : String) (a b : List Char) : List Char :=
  name.toList ++ '(' :: a ++ ',' :: b ++ [')']

/-- **The canonical text of a tree**: calls without blanks, literals as compact JSON, paths as they
are. -/
def write : Expr → List Char
  | literal v => v.write
  | field path => path.toList
  | getDeep path => call₁ "GetDeep" path.write
  | arith op lhs rhs => call₂ op.name lhs.write rhs.write
  | compare op lhs rhs => call₂ op.name lhs.write rhs.write
  | randomSample rate => call₁ "RandomSample" rate.write
  | everyNth n _ => call₁ "EveryNth" n.write
  | window none kind value size _ => call₂ kind.name value.write size.write
  | window (some s) kind value size _ => call₁ s.name (call₂ kind.name value.write size.write)

/-- The canonical text of a tree, as a string. -/
def text (e : Expr) : String := String.ofList e.write

/-- **A tree as it was before any record**: counters at zero, windows empty, sums at the start. -/
def fresh : Expr → Expr
  | literal v => literal v
  | field path => field path
  | getDeep path => getDeep path.fresh
  | arith op lhs rhs => arith op lhs.fresh rhs.fresh
  | compare op lhs rhs => compare op lhs.fresh rhs.fresh
  | randomSample rate => randomSample rate.fresh
  | everyNth n _ => everyNth n.fresh 0
  | window s kind value size _ => window s kind value.fresh size.fresh ⟨[], s.map Aggregate.start⟩

/-- The canonical text shows nothing of what a tree remembers. -/
theorem write_fresh (e : Expr) : e.fresh.write = e.write := by
  induction e with
  | window s kind value size contents ihv ihs => cases s <;> simp [fresh, write, ihv, ihs]
  | _ => simp_all [fresh, write]

end Expr

end LiveQuery
