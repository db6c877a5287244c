import LiveQuery.Proofs.Statement.Memoryless
import LiveQuery.Statement.Build

/-!
# Proofs/Statement/Blame — whom an error blames

An error of an evaluation blames a function by its name, or nobody: a missing field and a mean of
nothing are nobody's fault.  A result is **fair** (`IsFair`) if it blames no name but one that a
statement can call.  Results stay fair when they are passed on (`IsFair.bind`), and so every
operation on values is fair, down to the window that is given one (`isFair_collectValue`).

An error that blames anything else, such as a window that nobody listens to, comes from none of
them.
-/

namespace LiveQuery

variable {α β : Type} {result : Except EvalError α} {e : EvalError} {name operand : String}

/-- The function that an error blames. -/
def EvalError.blamed? : EvalError → Option String
  | .fieldNotFound _ => none
  | .typeMismatch function _ _ _ => some function
  | .invalidValue function _ => some function
  | .overflow function => some function
  | .divisionByZero function => some function
  | .emptyWindow => none

/-- The names that a statement can call. -/
def Function.names : List String := table.map Prod.fst

/-- **A result that blames nobody**, or a function that a statement can call. -/
def IsFair (result : Except EvalError α) : Prop :=
  ∀ e, result = .error e → ∀ name, e.blamed? = some name → name ∈ Function.names

namespace IsFair

theorem ok (a : α) : IsFair (.ok a) := fun _ h => by cases h

/-- An error that blames nobody is fair. -/
theorem blameless (h : e.blamed? = none) : IsFair (.error e : Except EvalError α) := by
  rintro _ ⟨⟩ name hname
  cases h.symm.trans hname

theorem of_mem (h : e.blamed? = some name) (hname : name ∈ Function.names) :
    IsFair (.error e : Except EvalError α) := by
  rintro _ ⟨⟩ other hother
  obtain rfl := Option.some.inj (h.symm.trans hother)
  exact hname

/-- An error that is passed on stays fair, whatever it was to be a result of. -/
theorem error (h : IsFair (.error e : Except EvalError α)) :
    IsFair (.error e : Except EvalError β) :=
  fun _ he => h _ (congrArg Except.error (Except.error.inj he))

theorem of_eq {pair : Except EvalError α × β} {b : β} (h : IsFair pair.1)
    (hpair : pair = (result, b)) : IsFair result := by
  rw [hpair] at h
  exact h

/-- **What goes on from a fair result fairly is fair.** -/
theorem bind {next : α → Except EvalError β} (h : IsFair result) (hnext : ∀ a, IsFair (next a)) :
    IsFair (result >>= next) := by
  cases result with
  | error e => exact h.error
  | ok a => exact hnext a

theorem map (h : IsFair result) (f : α → β) : IsFair (result.map f) := by
  cases result with
  | error e => exact h.error
  | ok a => exact ok _

end IsFair

/-! ## Names -/

theorem ArithOp.name_mem_names (op : ArithOp) : op.name ∈ Function.names := by
  cases op <;> decide

theorem CompareOp.name_mem_names (op : CompareOp) : op.name ∈ Function.names := by
  cases op <;> decide

theorem WindowKind.name_mem_names (kind : WindowKind) : kind.name ∈ Function.names := by
  cases kind <;> decide

theorem Statistic.name_mem_names (s : Statistic) : s.name ∈ Function.names := by
  cases s <;> decide

/-! ## Operations on values -/

theorem isFair_numericOperand (hname : name ∈ Function.names) (v : Json) :
    IsFair (numericOperand name operand v) := by
  rw [numericOperand]
  split
  · exact .ok _
  · exact .of_mem rfl hname

theorem ArithOp.isFair_apply (op : ArithOp) (a b : Json) : IsFair (op.apply a b) := by
  have hname := op.name_mem_names
  unfold ArithOp.apply
  refine (isFair_numericOperand hname a).bind fun x => ?_
  refine (isFair_numericOperand hname b).bind fun y => ?_
  split
  · split
    · exact .ok _
    · exact .of_mem rfl hname
  · split
    · exact .of_mem rfl hname
    · split
      · exact .ok _
      · exact .of_mem rfl hname

theorem CompareOp.isFair_orderOf (op : CompareOp) (a b : Json) : IsFair (op.orderOf a b) := by
  have hname := op.name_mem_names
  unfold CompareOp.orderOf
  split
  · exact (isFair_numericOperand hname b).bind fun _ => .ok _
  · split
    · exact .ok _
    · exact .of_mem rfl hname
  · exact .of_mem rfl hname

theorem CompareOp.isFair_apply (op : CompareOp) (a b : Json) : IsFair (op.apply a b) := by
  cases op with
  | equal | notEqual => exact .ok _
  | greater | greaterEqual | less | lessEqual => exact (isFair_orderOf _ a b).map _

theorem isFair_sampleAt (m : Moment) (rate : Json) : IsFair (sampleAt m rate) := by
  rw [sampleAt]
  split
  · exact .of_mem rfl (by decide)
  · split
    · exact .ok _
    · exact .of_mem rfl (by decide)

theorem isFair_countTowards (counter : Nat) (n : Json) : IsFair (countTowards counter n).1 := by
  rw [countTowards]
  split
  · split <;> exact .ok _
  · exact .of_mem rfl (by decide)

theorem isFair_fieldAt (path : String) (record : Json) : IsFair (fieldAt path record) := by
  rw [fieldAt]
  split
  · exact .ok _
  · exact .blameless rfl

theorem isFair_fieldAtValue (path record : Json) : IsFair (fieldAtValue path record) := by
  rw [fieldAtValue.eq_def]
  split
  · split
    · exact .of_mem rfl (by decide)
    · exact isFair_fieldAt _ record
  · exact .of_mem rfl (by decide)

/-! ## Windows -/

theorem WindowKind.isFair_bound? (kind : WindowKind) (size : Json) : IsFair (kind.bound? size) := by
  rw [WindowKind.bound?.eq_def]
  split
  · exact .ok _
  · exact .ok _
  · exact .of_mem rfl (name_mem_names _)

/-- **A listener that refuses a value blames its statistic.** -/
theorem Aggregate.isFair_accept (a : Aggregate) (v : Json) : IsFair (Listener.accept a v).1 := by
  change IsFair (accept a v).1
  rw [accept]
  split
  · exact .ok _
  · split
    · exact .ok _
    · exact .of_mem rfl a.statistic.name_mem_names

theorem Window.isFair_push (w : Window Aggregate) (v : Json) (b : Bound) (now : Nat) :
    IsFair (w.push v b now).1 := by
  rw [push]
  split
  · exact .ok _
  · rename_i a _
    split
    · exact (a.isFair_accept v).of_eq ‹_›
    · exact .ok _

/-- **A window that is given a value is fair**, whoever listens to it. -/
theorem isFair_collectValue (kind : WindowKind) (now : Nat) (v size : Json)
    (w : Window Aggregate) : IsFair (collectValue kind now v size w).1 := by
  cases hb : kind.bound? size with
  | error e =>
    have hbound := kind.isFair_bound? size
    rw [hb] at hbound
    rw [collectValue, hb]
    exact hbound.error
  | ok b =>
    by_cases hv : v = .null
    · subst hv
      rw [collectValue, hb]
      exact .ok _
    · rw [Expr.collectValue_of_ne_null hb hv]
      exact (w.isFair_push v b now).map _

/-- **A statistic is reported, or there is a mean of nothing.** -/
theorem Aggregate.isFair_report (a : Aggregate) (size : Nat) : IsFair (Listener.report a size) := by
  change IsFair (report a size)
  unfold report
  split
  · exact .ok _
  · exact .ok _
  · split
    · exact .blameless rfl
    · cases Binary64.ofInt size <;> exact .ok _

end LiveQuery
