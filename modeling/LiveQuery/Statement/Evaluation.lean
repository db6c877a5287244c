import LiveQuery.Statement.Expr
import LiveQuery.Path

/-!
# Statement/Evaluation — a tree meets a record

`Expr.eval` gives the value of a tree for one record **and the tree it leaves behind**: counters and
windows remember, everything else stays.  Operands are evaluated from left to right and the first
error ends the evaluation, but what was remembered up to there is kept.

Two integers are added, subtracted and multiplied as integers, as long as both are signed integers
of 64 bits; any other numbers are taken as binary64.  Division is always of binary64 numbers.
-/

namespace LiveQuery

/-- **What surrounds an evaluation**: the time in milliseconds, and a draw from `[0, 2 ^ 64)` that
decides what is left to chance. -/
structure Moment where
  now : Nat
  draw : Nat
deriving DecidableEq, Repr

/-- An operand of a numeric operation. -/
def numericOperand (function operand : String) (v : Json) : Except EvalError Binary64 :=
  match v.number? with
  | some x => .ok x
  | none => .error (.typeMismatch function operand "number" v.kind)

/-! ## Arithmetic -/

/-- A signed integer of 64 bits. -/
def Json.signed? (v : Json) : Option Int :=
  v.integer?.bind fun n => if IsSigned n then some n else none

/-- **The exact result on integers**; division has none. -/
def ArithOp.onIntegers? : ArithOp → Int → Int → Option Int
  | .add, a, b => some (a + b)
  | .subtract, a, b => some (a - b)
  | .multiply, a, b => some (a * b)
  | .divide, _, _ => none

/-- **The rounded result on binary64 numbers.** -/
def ArithOp.onFloats : ArithOp → Binary64 → Binary64 → Extended
  | .add, x, y => x.add y
  | .subtract, x, y => x.sub y
  | .multiply, x, y => x.mul y
  | .divide, x, y => x.div y

/-- The integer result of two operands, if both are signed integers of 64 bits. -/
def ArithOp.exact? (op : ArithOp) (a b : Json) : Option Int := do
  let i ← a.signed?
  let j ← b.signed?
  op.onIntegers? i j

/-- **An operator on two values.** -/
def ArithOp.apply (op : ArithOp) (a b : Json) : Except EvalError Json := do
  let x ← numericOperand op.name "left operand" a
  let y ← numericOperand op.name "right operand" b
  match op.exact? a b with
  | some n =>
    if IsSigned n then .ok (Json.ofInt n) else .error (.overflow op.name)
  | none =>
    if op = .divide ∧ y.magnitude = 0 then .error (.divisionByZero op.name)
    else
      match op.onFloats x y with
      | .finite z => .ok (.number (.float z))
      | _ => .error (.overflow op.name)

/-! ## Comparison -/

/-- **Equality of any two values**: numbers by their binary64 value, all else by shape. -/
def Json.equal (a b : Json) : Bool :=
  match a.number?, b.number? with
  | some x, some y => x.eq y
  | _, _ => a.same b

/-- The order of two numbers. -/
def Binary64.order (x y : Binary64) : Ordering :=
  if x.lt y then .lt else if y.lt x then .gt else .eq

/-- The order of two texts, character by character. -/
def textOrder (s t : String) : Ordering := if s < t then .lt else if t < s then .gt else .eq

/-- **The order of two values that have one**: two numbers, or two texts. -/
def CompareOp.orderOf (op : CompareOp) (a b : Json) : Except EvalError Ordering :=
  match a with
  | .number m => do
    let y ← numericOperand op.name "right operand" b
    .ok (m.toBinary64.order y)
  | .string s =>
    match b with
    | .string t => .ok (textOrder s t)
    | _ => .error (.typeMismatch op.name "right operand" "string" b.kind)
  | _ => .error (.typeMismatch op.name "left operand" "number or string" a.kind)

/-- **A predicate on two values.**  Equality is defined on all of them, order is not. -/
def CompareOp.apply (op : CompareOp) (a b : Json) : Except EvalError Bool :=
  match op with
  | .equal => .ok (a.equal b)
  | .notEqual => .ok !(a.equal b)
  | .greater => (orderOf op a b).map (· == .gt)
  | .greaterEqual => (orderOf op a b).map (· != .lt)
  | .less => (orderOf op a b).map (· == .lt)
  | .lessEqual => (orderOf op a b).map (· != .gt)

/-! ## Sampling and counting -/

/-- **Whether chance lets a record pass**: always at rate one, and below it for the share of draws
that the rate is of `2 ^ 64`. -/
def Moment.samples (m : Moment) (rate : Binary64) : Bool :=
  rate.units == Binary64.unitsPerOne ||
    decide (m.draw < rate.magnitude * UInt64.size / Binary64.unitsPerOne)

/-- A sample at a rate, which has to lie between zero and one. -/
def sampleAt (m : Moment) (rate : Json) : Except EvalError Json :=
  match rate.number? with
  | none => .error (.typeMismatch "RandomSample" "rate" "number" rate.kind)
  | some p =>
    if 0 ≤ p.units ∧ p.units ≤ Binary64.unitsPerOne then .ok (.bool (m.samples p))
    else
      .error (.invalidValue "RandomSample"
        ("rate " ++ String.ofList (p.text Binary64.plainLayout) ++ " is outside [0, 1]"))

/-- **One count towards `n`**: the verdict and the new counter.  A period that is not a positive
integer counts nothing. -/
def countTowards (counter : Nat) (n : Json) : Except EvalError Json × Nat :=
  match n.natural? with
  | some (k + 1) =>
    if k < counter + 1 then (.ok (.bool true), 0) else (.ok (.bool false), counter + 1)
  | _ => (.error (.typeMismatch "EveryNth" "n" "positive int" n.kind), counter)

/-! ## Fields and windows -/

/-- The field at a path. -/
def fieldAt (path : String) (record : Json) : Except EvalError Json :=
  match Path.lookup path record with
  | some v => .ok v
  | none => .error (.fieldNotFound path)

/-- The field at a path that is itself a value. -/
def fieldAtValue (path : Json) (record : Json) : Except EvalError Json :=
  match path with
  | .string p =>
    if p = "" then .error (.typeMismatch "GetDeep" "path" "non-empty string" path.kind)
    else fieldAt p record
  | _ => .error (.typeMismatch "GetDeep" "path" "non-empty string" path.kind)

/-- What a window of a kind keeps, for a size given as a value. -/
def WindowKind.bound? (kind : WindowKind) (size : Json) : Except EvalError Bound :=
  match size.natural?, kind with
  | some n, .rolling => .ok (.count n)
  | some n, .timed => .ok (.age (n * 1000))
  | none, _ => .error (.typeMismatch kind.name "size" "non-negative int" size.kind)

/-- **One value into a window**: a null is skipped.  The result is the newest value, or null if
there is none. -/
def collectValue (kind : WindowKind) (now : Nat) (v size : Json) (w : Window Aggregate) :
    Except EvalError Json × Window Aggregate :=
  match kind.bound? size with
  | .error e => (.error e, w)
  | .ok b =>
    match v with
    | .null => (.ok (w.latest?.getD .null), w)
    | _ =>
      match w.push v b now with
      | (.error e, w) => (.error e, w)
      | (.ok (), w) => (.ok (w.latest?.getD .null), w)

/-- What a window node gives: its newest value, or the statistic that was asked for. -/
def readWindow (statistic : Option Statistic) (newest : Json) (w : Window Aggregate) :
    Except EvalError Json :=
  match statistic with
  | none => .ok newest
  | some _ => w.report

/-! ## Evaluation -/

namespace Expr

/-- **The value of a tree for a record, and the tree it leaves behind.** -/
def eval (m : Moment) (record : Json) : Expr → Except EvalError Json × Expr
  | literal v => (.ok v, literal v)
  | field path => (fieldAt path record, field path)
  | getDeep path =>
    match path.eval m record with
    | (.error e, path) => (.error e, getDeep path)
    | (.ok p, path) => (fieldAtValue p record, getDeep path)
  | arith op lhs rhs =>
    match lhs.eval m record with
    | (.error e, lhs) => (.error e, arith op lhs rhs)
    | (.ok a, lhs) =>
      match rhs.eval m record with
      | (.error e, rhs) => (.error e, arith op lhs rhs)
      | (.ok b, rhs) => (op.apply a b, arith op lhs rhs)
  | compare op lhs rhs =>
    match lhs.eval m record with
    | (.error e, lhs) => (.error e, compare op lhs rhs)
    | (.ok a, lhs) =>
      match rhs.eval m record with
      | (.error e, rhs) => (.error e, compare op lhs rhs)
      | (.ok b, rhs) => ((op.apply a b).map .bool, compare op lhs rhs)
  | randomSample rate =>
    match rate.eval m record with
    | (.error e, rate) => (.error e, randomSample rate)
    | (.ok p, rate) => (sampleAt m p, randomSample rate)
  | everyNth n counter =>
    match n.eval m record with
    | (.error e, n) => (.error e, everyNth n counter)
    | (.ok k, n) => ((countTowards counter k).1, everyNth n (countTowards counter k).2)
  | window statistic kind value size contents =>
    match value.eval m record with
    | (.error e, value) => (.error e, window statistic kind value size contents)
    | (.ok v, value) =>
      match size.eval m record with
      | (.error e, size) => (.error e, window statistic kind value size contents)
      | (.ok s, size) =>
        match collectValue kind m.now v s contents with
        | (.error e, contents) => (.error e, window statistic kind value size contents)
        | (.ok newest, contents) =>
          (readWindow statistic newest contents, window statistic kind value size contents)

/-- **The values of a tree for records in turn, and the tree in the end.** -/
def evalAll : List (Moment × Json) → Expr → List (Except EvalError Json) × Expr
  | [], e => ([], e)
  | (m, record) :: rest, e =>
    let (result, e) := e.eval m record
    let (results, e) := evalAll rest e
    (result :: results, e)

end Expr

end LiveQuery
