import LiveQuery.Proofs.Statement.Cleared
import LiveQuery.Proofs.Window.Rescan

/-!
# Proofs/Window/Traceless — records that leave no trace in a window

A window node **passes over** a record if its evaluation fails, or its value is null.  Only a mean
of nothing is no such failure: it is reported when the value has been let in already.

What is passed over is left out altogether: nothing comes, nothing goes, and nothing is added to a
sum (`IsWindowNode.eval_of_passesOver`).  Whether a record is passed over depends on the record
alone and not on what the window holds (`IsWindowNode.passesOver_eq`), since a listener refuses a
value for what it is (`Window.push_verdict`).

The engine is `gather_verdict`: one verdict on a value and a size for all windows.  With it **all
such records may be left out of a run**, and nobody sees a difference
(`passed_over_records_leave_no_trace`).
-/

namespace LiveQuery

variable {statistic : Option Statistic} {s : Statistic} {kind : WindowKind} {w : Window Aggregate}
  {value size : Expr} {now : Nat} {newest : Json}

/-! ## Windows with the right listener -/

/-- **A window that is asked for a statistic has its listener**, and otherwise it has none.  So it
is when a node is built (`Window.serves_fresh`), and so it stays (`Window.push_verdict`). -/
def Window.Serves (w : Window Aggregate) (statistic : Option Statistic) : Prop :=
  w.listener.map Aggregate.statistic = statistic

/-- A window as it is built for a node. -/
theorem Window.serves_fresh (statistic : Option Statistic) :
    (⟨[], statistic.map Aggregate.start⟩ : Window Aggregate).Serves statistic := by
  cases statistic <;> rfl

theorem Window.Serves.eq_none (h : w.Serves none) : w = ⟨w.entries, none⟩ := by
  obtain ⟨es, listener⟩ := w
  cases listener with
  | none => rfl
  | some a => cases h

theorem Window.Serves.exists_sum (h : w.Serves (some s)) :
    ∃ sum, w = ⟨w.entries, some ⟨s, sum⟩⟩ := by
  obtain ⟨es, listener⟩ := w
  cases listener with
  | none => cases h
  | some a =>
    obtain ⟨s', sum⟩ := a
    cases h
    exact ⟨sum, rfl⟩

/-- **A listener refuses a value for what it is**, whatever its sum. -/
theorem Aggregate.accept_verdict (s : Statistic) (v : Json) :
    (∃ e, e ≠ .emptyWindow ∧
      ∀ sum, Listener.accept (⟨s, sum⟩ : Aggregate) v = (.error e, ⟨s, sum⟩)) ∨
    ∀ sum, ∃ sum', Listener.accept (⟨s, sum⟩ : Aggregate) v = (.ok (), ⟨s, sum'⟩) := by
  by_cases hs : s = .count
  · subst hs
    exact .inr fun sum => ⟨sum, accept_count sum v⟩
  cases hv : v.number? with
  | none => exact .inl ⟨_, EvalError.noConfusion, accept_of_not_number hs hv⟩
  | some x => exact .inr fun sum => ⟨_, accept_number hs hv sum⟩

/-- **A value is let in by all windows that are asked for a statistic, or refused by all**, and then
they stay as they are. -/
theorem Window.push_verdict (statistic : Option Statistic) (v : Json) (b : Bound) (now : Nat) :
    (∃ e, e ≠ .emptyWindow ∧
      ∀ w : Window Aggregate, w.Serves statistic → w.push v b now = (.error e, w)) ∨
    ∀ w : Window Aggregate, w.Serves statistic →
      ∃ w', w.push v b now = (.ok (), w') ∧ w'.Serves statistic := by
  cases statistic with
  | none =>
    refine .inr fun w hw => ?_
    rw [hw.eq_none, push, evictExpired_eq]
    exact ⟨_, rfl, rfl⟩
  | some s =>
    refine (Aggregate.accept_verdict s v).imp ?_ fun haccept w hw => ?_
    · rintro ⟨e, he, hrefuse⟩
      refine ⟨e, he, fun w hw => ?_⟩
      obtain ⟨sum, hsum⟩ := hw.exists_sum
      rw [hsum]
      exact push_of_reject (p := ⟨v, b, now⟩) (hrefuse sum)
    · obtain ⟨sum, hsum⟩ := hw.exists_sum
      obtain ⟨sum', hsum'⟩ := haccept sum
      rw [hsum]
      exact ⟨_, push_of_accept (p := ⟨v, b, now⟩) hsum',
        congrArg some (Aggregate.statistic_evictAll ..)⟩

/-! ## Window nodes -/

namespace Expr

/-- Whether there is a failure, for another reason than that a mean of nothing was asked for. -/
def isFailure : Except EvalError Json → Bool
  | .ok _ => false
  | .error e => decide (e ≠ .emptyWindow)

/-- Whether there is a null. -/
def isNull (result : Except EvalError Json) : Bool := result.toOption.any (·.kind = .null)

/-- **Whether a window node passes over a record**: it fails, or its value is null. -/
def passesOver (value node : Expr) (r : Moment × Json) : Bool :=
  isFailure (node.eval r.1 r.2).1 || isNull (value.eval r.1 r.2).1

/-- A window with the right listener fails to be read only as a mean of nothing. -/
theorem isFailure_readWindow (hw : w.Serves statistic) :
    isFailure (readWindow statistic newest w) = false := by
  cases statistic with
  | none => rfl
  | some s =>
    obtain ⟨sum, hsum⟩ := hw.exists_sum
    rw [readWindow, hsum, Window.report_some]
    change isFailure (Aggregate.report _ _) = false
    cases s with
    | count | sum => rfl
    | average =>
      by_cases hempty : w.entries.length = 0
      · rw [hempty]
        rfl
      · rw [Aggregate.report_average hempty]
        rfl

section Verdict

variable {value size : Except EvalError Json} {passed : Bool}
  {outcome : Window Aggregate → Except EvalError Json × Window Aggregate}

/-- **A verdict for all windows** that are asked for a statistic: they pass over what comes, and stay
as they are, or none of them does. -/
def IsVerdict (statistic : Option Statistic) (value : Except EvalError Json)
    (outcome : Window Aggregate → Except EvalError Json × Window Aggregate)
    (passed : Bool) : Prop :=
  ∀ w, w.Serves statistic →
    (isFailure (outcome w).1 || isNull value) = passed ∧ (outcome w).2.Serves statistic ∧
      (passed = true → (outcome w).2 = w)

/-- Windows that are left alone agree with each other if their results do. -/
theorem IsVerdict.of_left_alone {result : Window Aggregate → Except EvalError Json}
    (h : ∀ w, w.Serves statistic → outcome w = (result w, w))
    (hpassed : ∀ w, (isFailure (result w) || isNull value) = passed) :
    IsVerdict statistic value outcome passed := by
  intro w hw
  rw [h w hw]
  exact ⟨hpassed w, hw, fun _ => rfl⟩

/-- **On a value and a size there is one verdict.** -/
theorem gather_verdict (statistic : Option Statistic) (kind : WindowKind) (now : Nat)
    (value size : Except EvalError Json) :
    ∃ passed, IsVerdict statistic value (gather statistic kind now · value size) passed := by
  rcases value with e | v
  case error => exact ⟨_, .of_left_alone (fun _ _ => rfl) fun _ => rfl⟩
  rcases size with e | n
  case error => exact ⟨_, .of_left_alone (fun _ _ => rfl) fun _ => rfl⟩
  cases hb : kind.bound? n with
  | error e => exact ⟨_, .of_left_alone (fun _ _ => gather_of_bound_error hb) fun _ => rfl⟩
  | ok b =>
    by_cases hnull : v = .null
    · subst hnull
      exact ⟨true, .of_left_alone (fun _ _ => gather_null hb) fun _ => Bool.or_true _⟩
    rcases Window.push_verdict statistic v b now with ⟨e, he, hrefuse⟩ | haccept
    · refine ⟨true, .of_left_alone (fun w hw => gather_of_reject hb hnull (hrefuse w hw))
        fun _ => ?_⟩
      rw [isFailure, decide_eq_true he, Bool.true_or]
    · refine ⟨false, fun w hw => ?_⟩
      obtain ⟨w', hpush, hw'⟩ := haccept w hw
      have hvalue : isNull (.ok v) = false := decide_eq_false (mt Json.eq_null_of_kind hnull)
      beta_reduce
      rw [gather_of_push hb hnull hpush, isFailure_readWindow hw', hvalue]
      exact ⟨rfl, hw', Bool.noConfusion⟩

end Verdict

/-- **A window node over given trees**, whatever its window holds. -/
def IsWindowNode (statistic : Option Statistic) (kind : WindowKind) (value size : Expr)
    (e : Expr) : Prop :=
  ∃ w : Window Aggregate, w.Serves statistic ∧ e = window statistic kind value size w

/-- **What a node passes over is the same for all nodes over given trees**, and it leaves them as
they are. -/
theorem eval_verdict (statistic : Option Statistic) (kind : WindowKind)
    (hvalue : value.IsMemoryless) (hsize : size.IsMemoryless) (r : Moment × Json) :
    ∃ passed : Bool, ∀ e, IsWindowNode statistic kind value size e →
      passesOver value e r = passed ∧
      IsWindowNode statistic kind value size (e.eval r.1 r.2).2 ∧
      (passed = true → (e.eval r.1 r.2).2 = e) := by
  obtain ⟨passed, hpassed⟩ := gather_verdict statistic kind r.1.now (value.eval r.1 r.2).1
    (size.eval r.1 r.2).1
  refine ⟨passed, ?_⟩
  rintro e ⟨w, hw, rfl⟩
  obtain ⟨hsame, hserves, hstays⟩ := hpassed w hw
  rw [passesOver, eval_window hvalue hsize]
  exact ⟨hsame, ⟨_, hserves, rfl⟩, fun h => by rw [hstays h]⟩

section IsWindowNode

variable {e e' : Expr}

/-- **Whether a record is passed over depends on the record**, and not on the window. -/
theorem IsWindowNode.passesOver_eq (hvalue : value.IsMemoryless) (hsize : size.IsMemoryless)
    (h : IsWindowNode statistic kind value size e) (h' : IsWindowNode statistic kind value size e')
    (r : Moment × Json) : passesOver value e r = passesOver value e' r := by
  obtain ⟨passed, hpassed⟩ := eval_verdict statistic kind hvalue hsize r
  rw [(hpassed e h).1, (hpassed e' h').1]

/-- **A record that is passed over leaves no trace.** -/
theorem IsWindowNode.eval_of_passesOver (hvalue : value.IsMemoryless) (hsize : size.IsMemoryless)
    (h : IsWindowNode statistic kind value size e) {r : Moment × Json}
    (hr : passesOver value e r = true) : (e.eval r.1 r.2).2 = e := by
  obtain ⟨passed, hpassed⟩ := eval_verdict statistic kind hvalue hsize r
  obtain ⟨hsame, -, hstays⟩ := hpassed e h
  exact hstays (hsame.symm.trans hr)

theorem IsWindowNode.eval (hvalue : value.IsMemoryless) (hsize : size.IsMemoryless)
    (h : IsWindowNode statistic kind value size e) (r : Moment × Json) :
    IsWindowNode statistic kind value size (e.eval r.1 r.2).2 := by
  obtain ⟨passed, hpassed⟩ := eval_verdict statistic kind hvalue hsize r
  exact (hpassed e h).2.1

end IsWindowNode

/-! ## Runs -/

theorem evalAll_cons (r : Moment × Json) (records : List (Moment × Json)) (e : Expr) :
    evalAll (r :: records) e
      = ((e.eval r.1 r.2).1 :: (evalAll records (e.eval r.1 r.2).2).1,
        (evalAll records (e.eval r.1 r.2).2).2) := rfl

/-- **Records that leave every tree of a kind as it is may be left out of a run**: the results for
the others and the tree in the end are the same. -/
theorem evalAll_filter {P : Expr → Prop} {p : Moment × Json → Bool}
    (hkeep : ∀ (e : Expr) (r : Moment × Json), P e → P (e.eval r.1 r.2).2)
    (hskip : ∀ (e : Expr) (r : Moment × Json), P e → p r = false → (e.eval r.1 r.2).2 = e)
    {e : Expr} (he : P e) (records : List (Moment × Json)) :
    evalAll (records.filter p) e
      = (((records.zip (evalAll records e).1).filter (p ·.1)).map Prod.snd,
        (evalAll records e).2) := by
  induction records generalizing e with
  | nil => rfl
  | cons r records ih =>
    rw [evalAll_cons, List.zip_cons_cons]
    by_cases hr : p r = true
    · rw [List.filter_cons_of_pos hr, evalAll_cons, ih (hkeep e r he),
        List.filter_cons_of_pos (by exact hr), List.map_cons]
    · rw [List.filter_cons_of_neg hr, ih he, hskip e r he (Bool.eq_false_of_not_eq_true hr),
        List.filter_cons_of_neg (by exact hr)]

/-- A run of a window node ends with a window node. -/
theorem IsWindowNode.evalAll (hvalue : value.IsMemoryless) (hsize : size.IsMemoryless) {e : Expr}
    (h : IsWindowNode statistic kind value size e) (records : List (Moment × Json)) :
    IsWindowNode statistic kind value size (e.evalAll records).2 := by
  induction records generalizing e with
  | nil => exact h
  | cons r records ih => exact ih (h.eval hvalue hsize r)

/-- **Records that are passed over leave no trace.**  They leave a node as they find it, its entries
with their times and its running sum; they are the same ones at every point of every run; and a run
without them gives the same results for the other records and ends with the same node. -/
theorem passed_over_records_leave_no_trace (kind : WindowKind) (hvalue : value.IsMemoryless)
    (hsize : size.IsMemoryless) (hw : w.Serves statistic) (records : List (Moment × Json)) :
    let node := window statistic kind value size w
    let kept (r : Moment × Json) := !passesOver value node r
    (∀ before r, let reached := (evalAll before node).2
      passesOver value reached r = passesOver value node r ∧
        (passesOver value reached r = true → (reached.eval r.1 r.2).2 = reached)) ∧
    evalAll (records.filter kept) node
      = (((records.zip (evalAll records node).1).filter (kept ·.1)).map Prod.snd,
        (evalAll records node).2) := by
  intro node kept
  have hnode : IsWindowNode statistic kind value size node := ⟨w, hw, rfl⟩
  refine ⟨fun before r => ?_, ?_⟩
  · have hreached := hnode.evalAll hvalue hsize before
    exact ⟨hreached.passesOver_eq hvalue hsize hnode r, hreached.eval_of_passesOver hvalue hsize⟩
  · refine evalAll_filter (fun e r h => h.eval hvalue hsize r) (fun e r h hr => ?_) hnode records
    rw [Bool.not_eq_false', hnode.passesOver_eq hvalue hsize h r] at hr
    exact h.eval_of_passesOver hvalue hsize hr

/-- A sum over ten seconds meets a text, a null and a record without the field.  They come when the
first value has expired already, and it goes only with the next value. -/
theorem nulls_and_texts_leave_no_trace :
    let record (now : Nat) (members : List (String × Json)) : Moment × Json :=
      (⟨now, 0⟩, .object members)
    let node := window (some .sum) .timed (.field "x") (.literal (Json.ofInt 10))
      (.listened (.start .sum))
    let records := [record 0 [("x", Json.ofInt 1)], record 20000 [("x", .string "a")],
      record 30000 [("x", .null)], record 31000 [], record 32000 [("x", Json.ofInt 2)]]
    let remaining := records.filter fun r => !passesOver (.field "x") node r
    records.map (passesOver (.field "x") node) = [false, true, true, true, false] ∧
    (evalAll records node).1.map (·.map Json.write)
      = [.ok "1.0".toList, .error (.typeMismatch "WindowSum" "window element" "number" .string),
        .ok "1.0".toList, .error (.fieldNotFound "x"), .ok "2.0".toList] ∧
    (evalAll remaining node).1.map (·.map Json.write) = [.ok "1.0".toList, .ok "2.0".toList] ∧
    (evalAll remaining node).2 = (evalAll records node).2 := by
  intro record node records remaining
  have hserves : (Window.listened (.start .sum)).Serves (some .sum) :=
    Window.serves_fresh (some .sum)
  obtain ⟨-, hremaining⟩ := passed_over_records_leave_no_trace .timed
    (by trivial : (field "x").IsMemoryless) (by trivial : (literal (Json.ofInt 10)).IsMemoryless)
    hserves records
  obtain ⟨hresults, hnode⟩ := Prod.ext_iff.mp hremaining
  refine ⟨by decide +kernel, by decide +kernel, ?_, hnode⟩
  rw [hresults]
  decide +kernel

end Expr

end LiveQuery
