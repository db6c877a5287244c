import LiveQuery.Statement.Evaluation

/-!
# Proofs/Statement/Memoryless — trees that remember nothing

A tree without a counter, a window or a draw is the same after every record
(`IsMemoryless.eval_snd`), so its value for a record does not depend on the records before it.

A window node over such trees has only its window to remember: what it makes of a record is what the
window makes of one value and one size (`eval_window`).
-/

namespace LiveQuery.Expr

variable {e value size : Expr} {statistic : Option Statistic} {kind : WindowKind}
  {w w' : Window Aggregate} {m : Moment} {now : Nat} {record v n : Json} {b : Bound}
  {e' : EvalError}

/-- **A tree that remembers nothing** and leaves nothing to chance. -/
def IsMemoryless : Expr → Prop
  | literal _ => True
  | field _ => True
  | getDeep path => path.IsMemoryless
  | arith _ lhs rhs => lhs.IsMemoryless ∧ rhs.IsMemoryless
  | compare _ lhs rhs => lhs.IsMemoryless ∧ rhs.IsMemoryless
  | randomSample _ => False
  | everyNth _ _ => False
  | window _ _ _ _ _ => False

/-- **A tree that remembers nothing is the same after every record.** -/
theorem IsMemoryless.eval_snd (h : e.IsMemoryless) : (e.eval m record).2 = e := by
  induction e with
  | literal | field => rfl
  | getDeep path ih =>
    have hpath := ih h
    rw [eval]
    split <;> simp_all only
  | arith op lhs rhs ihl ihr | compare op lhs rhs ihl ihr =>
    have hlhs := ihl h.1
    have hrhs := ihr h.2
    rw [eval]
    -- the left operand may fail, and then the right one
    split
    · simp_all only
    · split <;> simp_all only
  | randomSample | everyNth | window => exact h.elim

theorem IsMemoryless.eval_eq (h : e.IsMemoryless) :
    e.eval m record = ((e.eval m record).1, e) := Prod.ext rfl h.eval_snd

/-! ## Window nodes -/

/-- **What a window makes of a value and a size**, each of which may be missing: the result of the
node, and the window it leaves behind. -/
def gather (statistic : Option Statistic) (kind : WindowKind) (now : Nat) (w : Window Aggregate) :
    Except EvalError Json → Except EvalError Json → Except EvalError Json × Window Aggregate
  | .error e, _ => (.error e, w)
  | .ok _, .error e => (.error e, w)
  | .ok v, .ok size =>
    match collectValue kind now v size w with
    | (.error e, w) => (.error e, w)
    | (.ok newest, w) => (readWindow statistic newest w, w)

/-- A bound that is none leaves the window alone. -/
theorem gather_of_bound_error (hb : kind.bound? n = .error e') :
    gather statistic kind now w (.ok v) (.ok n) = (.error e', w) := by
  rw [gather, collectValue, hb]

/-- **A null leaves the window alone.** -/
theorem gather_null (hb : kind.bound? n = .ok b) :
    gather statistic kind now w (.ok .null) (.ok n)
      = (readWindow statistic (w.latest?.getD .null) w, w) := by
  rw [gather, collectValue, hb]

theorem collectValue_of_ne_null (hb : kind.bound? n = .ok b) (hv : v ≠ .null) :
    collectValue kind now v n w
      = ((w.push v b now).1.map fun _ => (w.push v b now).2.latest?.getD .null,
        (w.push v b now).2) := by
  rw [collectValue, hb]
  cases v with
  | null => exact absurd rfl hv
  | _ => dsimp only; split <;> simp_all only [Except.map]

/-- **A value that is let in** decides by what the window holds afterwards. -/
theorem gather_of_push (hb : kind.bound? n = .ok b) (hv : v ≠ .null)
    (hpush : w.push v b now = (.ok (), w')) :
    gather statistic kind now w (.ok v) (.ok n)
      = (readWindow statistic (w'.latest?.getD .null) w', w') := by
  rw [gather, collectValue_of_ne_null hb hv, hpush]
  rfl

/-- **A value that is refused** decides by the refusal. -/
theorem gather_of_reject (hb : kind.bound? n = .ok b) (hv : v ≠ .null)
    (hpush : w.push v b now = (.error e', w')) :
    gather statistic kind now w (.ok v) (.ok n) = (.error e', w') := by
  rw [gather, collectValue_of_ne_null hb hv, hpush]
  rfl

/-- **A window node over trees that remember nothing remembers its window alone.** -/
theorem eval_window (hvalue : value.IsMemoryless) (hsize : size.IsMemoryless) :
    (window statistic kind value size w).eval m record
      = ((gather statistic kind m.now w (value.eval m record).1 (size.eval m record).1).1,
        window statistic kind value size
          (gather statistic kind m.now w (value.eval m record).1 (size.eval m record).1).2) := by
  have hv : value.eval m record = ((value.eval m record).1, value) := hvalue.eval_eq
  have hs : size.eval m record = ((size.eval m record).1, size) := hsize.eval_eq
  rw [eval, hv]
  rcases (value.eval m record).1 with e | v
  · rfl
  · dsimp only
    rw [hs]
    rcases (size.eval m record).1 with e | n
    · rfl
    · dsimp only [gather]
      rcases collectValue kind m.now v n w with ⟨_ | _, w'⟩ <;> rfl

end LiveQuery.Expr
