import LiveQuery.Statement.Error
import LiveQuery.Statement.Expr

/-!
# Statement/Build — calls by name

`Function` lists what a statement can call.  A call is checked in two steps: the number of its
arguments (`arity`), and then, for the few functions that ask for one, the part an argument has to
play.  A path written out as a text needs no computing, so a call with one becomes a plain field.
-/

namespace LiveQuery

/-- **What a statement can call.** -/
inductive Function where
  | arith (op : ArithOp)
  | compare (op : CompareOp)
  | randomSample
  | everyNth
  | getDeep
  | window (kind : WindowKind)
  | statistic (s : Statistic)
deriving DecidableEq, Repr

namespace Function

/-- **The functions by name**; the mean of a window has two. -/
def table : List (String × Function) :=
  [("Add", .arith .add), ("Subtract", .arith .subtract), ("Multiply", .arith .multiply),
    ("Divide", .arith .divide), ("Equal", .compare .equal), ("NotEqual", .compare .notEqual),
    ("Greater", .compare .greater), ("GreaterEqual", .compare .greaterEqual),
    ("Less", .compare .less), ("LessEqual", .compare .lessEqual), ("RandomSample", .randomSample),
    ("EveryNth", .everyNth), ("GetDeep", .getDeep), ("RollingWindow", .window .rolling),
    ("TimedWindow", .window .timed), ("WindowAverage", .statistic .average),
    ("WindowAve", .statistic .average), ("WindowSum", .statistic .sum),
    ("WindowCount", .statistic .count)]

/-- How many arguments a function takes. -/
def arity : Function → Nat
  | .arith _ | .compare _ | .window _ => 2
  | .randomSample | .everyNth | .getDeep | .statistic _ => 1

end Function

namespace Expr

/-- Why an argument is not fit for its call. -/
def argumentFault (name : String) (fault : ArgumentFault) : Except ParseError Expr :=
  .error (.invalidArgument name fault)

/-- **A field by its path**: a path that is written out is taken as it is, one that is computed is
computed for each record. -/
def buildGetDeep (name : String) (path : Expr) : Except ParseError Expr :=
  match path with
  | .literal (.string p) =>
    if p = "" then argumentFault name (.notAPath path.text) else .ok (.field p)
  | .literal _ => argumentFault name (.notAPath path.text)
  | _ => .ok (.getDeep path)

/-- **A statistic of a window** that has none yet. -/
def buildStatistic (name : String) (s : Statistic) (arg : Expr) : Except ParseError Expr :=
  match arg with
  | .window none kind value size contents =>
    match free : contents.listener with
    | some _ => argumentFault name .windowTaken
    | none => .ok (.window (some s) kind value size (contents.attach (Aggregate.start s) free))
  | _ => argumentFault name (.notAWindow arg.text)

/-- **A call of a function**, given the name it was called by. -/
def apply (name : String) (f : Function) (args : List Expr) : Except ParseError Expr :=
  match f, args with
  | .arith op, [lhs, rhs] => .ok (.arith op lhs rhs)
  | .compare op, [lhs, rhs] => .ok (.compare op lhs rhs)
  | .randomSample, [rate] => .ok (.randomSample rate)
  | .everyNth, [n] => .ok (.everyNth n 0)
  | .getDeep, [path] => buildGetDeep name path
  | .window kind, [value, size] => .ok (.window none kind value size .empty)
  | .statistic s, [arg] => buildStatistic name s arg
  | f, args => .error (.arity name f.arity args.length)

/-- **A call by name**, of arguments that are already trees. -/
def build (name : String) (args : List Expr) : Except ParseError Expr :=
  match Function.table.lookup name with
  | some f => apply name f args
  | none => .error (.unknownFunction name)

/-- A call with the wrong number of arguments is refused, whatever they are. -/
theorem apply_of_length_ne {name : String} {f : Function} {args : List Expr}
    (h : args.length ≠ f.arity) : apply name f args = .error (.arity name f.arity args.length) := by
  unfold apply
  split <;> simp_all [Function.arity]

end Expr

end LiveQuery
