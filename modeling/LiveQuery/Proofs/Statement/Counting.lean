import LiveQuery.Proofs.Session.Cascade
import Mathlib.Data.List.DropRight

/-!
# Proofs/Statement/Counting — a count is true once in a period

A counter node goes by a **period** that is computed anew for each record.  An evaluation counts if
its period is a positive integer; every other one fails and leaves the counter alone
(`eval_of_no_period`).

The counter is no secret: **it is the number of evaluations that counted since the last yes**
(`evalAll_everyNth`), which can be told from the results alone.  After an evaluation that counted it
lies below the period just used (`advance_lt`), so counting never leaves the integers of 64 bits,
however the periods change (`sinceYes_answers_lt`).

If they do not change, the counter is the number of all evaluations that counted, modulo the period
(`answers_of_constant`), and a yes comes at each of its multiples.
-/

namespace LiveQuery.Expr

variable {n : Expr} {counter k : Nat} {m : Moment} {record v : Json} {e : EvalError}
  {result : Except EvalError Json}

/-! ## Periods -/

/-- A value as a period: a positive integer. -/
def positive (v : Json) : Except EvalError Nat :=
  match v.natural? with
  | some (k + 1) => .ok (k + 1)
  | _ => .error (.typeMismatch "EveryNth" "n" "positive int" v.kind)

/-- **The period that a result sets**, if it is a positive integer. -/
def periodOf : Except EvalError Json → Except EvalError Nat
  | .error e => .error e
  | .ok v => positive v

theorem natural?_lt (h : v.natural? = some k) : k < UInt64.size := by
  obtain ⟨i, hi, hk⟩ := Option.bind_eq_some_iff.mp h
  have hword : IsWord i := by
    unfold Json.integer? at hi
    split at hi
    case h_1 i => exact Option.some.inj hi ▸ i.isWord
    case h_2 => cases hi
  unfold IsWord at hword
  split at hk
  case isTrue =>
    have hk := Option.some.inj hk
    simp only [UInt64.size]
    omega
  case isFalse => cases hk

theorem positive_ok (h : positive v = .ok k) : 0 < k ∧ v.natural? = some k := by
  unfold positive at h
  split at h
  case h_1 j hj =>
    obtain rfl := Except.ok.inj h
    exact ⟨Nat.succ_pos j, hj⟩
  case h_2 => cases h

/-- **A period is a positive integer of 64 bits.** -/
theorem periodOf_ok (h : periodOf result = .ok k) : 0 < k ∧ k < UInt64.size := by
  cases result with
  | error e => cases h
  | ok v => exact ⟨(positive_ok h).1, natural?_lt (positive_ok h).2⟩

/-! ## One evaluation -/

/-- **A counter one further**, back to zero when it reaches the period. -/
def advance (k counter : Nat) : Nat := if k ≤ counter + 1 then 0 else counter + 1

theorem advance_lt (h : 0 < k) : advance k counter < k := by
  rw [advance]
  split <;> omega

/-- **Counting on from a remainder goes to the next remainder.** -/
theorem advance_mod (h : 0 < k) (count : Nat) : advance k (count % k) = (count + 1) % k := by
  rcases Nat.lt_or_eq_of_le (Nat.succ_le_of_lt h) with hlt | rfl
  · rw [Nat.add_mod_eq_ite, Nat.mod_eq_of_lt hlt, advance]
    have hmod := Nat.mod_lt count h
    split <;> omega
  · rw [Nat.mod_one, Nat.mod_one]
    rfl

theorem le_mod_succ_iff (h : 0 < k) (count : Nat) : k ≤ count % k + 1 ↔ k ∣ count + 1 := by
  rw [Nat.dvd_iff_mod_eq_zero, ← advance_mod h, advance]
  split <;> simp_all

theorem countTowards_of_error (h : positive v = .error e) :
    countTowards counter v = (.error e, counter) := by
  unfold positive at h
  split at h
  case h_1 => cases h
  case h_2 hnone =>
    rw [← Except.error.inj h]
    unfold countTowards
    split
    case h_1 j hj => exact absurd hj (hnone j)
    case h_2 => rfl

theorem countTowards_of_ok (h : positive v = .ok k) :
    countTowards counter v = (.ok (.bool (decide (k ≤ counter + 1))), advance k counter) := by
  obtain ⟨hpos, hv⟩ := positive_ok h
  obtain ⟨j, rfl⟩ := Nat.exists_eq_succ_of_ne_zero (Nat.ne_of_gt hpos)
  rw [countTowards, hv, advance]
  by_cases hreach : j + 1 ≤ counter + 1
  · rw [if_pos hreach, decide_eq_true hreach]
    exact if_pos hreach
  · rw [if_neg hreach, decide_eq_false hreach]
    exact if_neg hreach

/-- **Without a period an evaluation fails**, and the counter stays. -/
theorem eval_of_no_period (h : periodOf (n.eval m record).1 = .error e) :
    (everyNth n counter).eval m record = (.error e, everyNth (n.eval m record).2 counter) := by
  rw [eval]
  revert h
  rcases n.eval m record with ⟨e' | v, n'⟩
  · intro h
    rw [Except.error.inj h]
  · intro h
    dsimp only
    rw [countTowards_of_error h]

/-- **With a period it says whether the counter reaches it.** -/
theorem eval_of_period (h : periodOf (n.eval m record).1 = .ok k) :
    (everyNth n counter).eval m record
      = (.ok (.bool (decide (k ≤ counter + 1))),
        everyNth (n.eval m record).2 (advance k counter)) := by
  rw [eval]
  revert h
  rcases n.eval m record with ⟨e' | v, n'⟩
  · intro h
    cases h
  · intro h
    dsimp only
    rw [countTowards_of_ok h]

/-! ## What the results tell -/

/-- Whether a result is no yes. -/
def isNoYes (result : Except EvalError Json) : Bool := !Statement.isTrue result

/-- **How many evaluations were successful since the last yes**, or since the start. -/
def sinceYes (results : List (Except EvalError Json)) : Nat :=
  (results.rtakeWhile isNoYes).countP Except.isOk

theorem sinceYes_concat_error (results : List (Except EvalError Json)) (e : EvalError) :
    sinceYes (results ++ [.error e]) = sinceYes results := by
  have hno : isNoYes (.error e) = true := rfl
  rw [sinceYes, List.rtakeWhile_concat_pos _ _ _ hno, List.countP_append]
  rfl

theorem sinceYes_concat_no (results : List (Except EvalError Json)) :
    sinceYes (results ++ [.ok (.bool false)]) = sinceYes results + 1 := by
  have hno : isNoYes (.ok (.bool false)) = true := rfl
  rw [sinceYes, List.rtakeWhile_concat_pos _ _ _ hno, List.countP_append]
  rfl

theorem sinceYes_concat_yes (results : List (Except EvalError Json)) :
    sinceYes (results ++ [.ok (.bool true)]) = 0 := by
  have hyes : ¬ isNoYes (.ok (.bool true)) = true := Bool.false_ne_true
  rw [sinceYes, List.rtakeWhile_concat_neg _ _ _ hyes]
  rfl

/-- **The results count as the counter does.** -/
theorem sinceYes_concat_decide (results : List (Except EvalError Json)) (k : Nat) :
    sinceYes (results ++ [.ok (.bool (decide (k ≤ sinceYes results + 1)))])
      = advance k (sinceYes results) := by
  rw [advance]
  split
  case isTrue hreach => rw [decide_eq_true hreach, sinceYes_concat_yes]
  case isFalse hreach => rw [decide_eq_false hreach, sinceYes_concat_no]

/-- The values of the successful evaluations, in order. -/
def successes (results : List (Except EvalError Json)) : List Json :=
  results.filterMap Except.toOption

theorem successes_concat_error (results : List (Except EvalError Json)) (e : EvalError) :
    successes (results ++ [.error e]) = successes results := by
  rw [successes, List.filterMap_append]
  exact List.append_nil _

theorem successes_concat_ok (results : List (Except EvalError Json)) (v : Json) :
    successes (results ++ [.ok v]) = successes results ++ [v] := by
  rw [successes, List.filterMap_append]
  rfl

/-! ## Runs -/

theorem evalAll_concat (records : List (Moment × Json)) (r : Moment × Json) (e : Expr) :
    evalAll (records ++ [r]) e
      = ((evalAll records e).1 ++ [((evalAll records e).2.eval r.1 r.2).1],
        ((evalAll records e).2.eval r.1 r.2).2) := by
  induction records generalizing e with
  | nil => rfl
  | cons x records ih =>
    have hcons : ∀ records, evalAll (x :: records) e
        = ((e.eval x.1 x.2).1 :: (evalAll records (e.eval x.1 x.2).2).1,
          (evalAll records (e.eval x.1 x.2).2).2) := fun _ => rfl
    rw [List.cons_append, hcons, ih, hcons, List.cons_append]

/-- **What a count says** on some records. -/
def answers (n : Expr) (records : List (Moment × Json)) : List (Except EvalError Json) :=
  (evalAll records (everyNth n 0)).1

section Run

variable (n : Expr) (records : List (Moment × Json)) (r : Moment × Json)

/-- **The counter is the number of successful evaluations since the last yes**, and the period is
computed as if there were no counter. -/
theorem evalAll_everyNth :
    (evalAll records (everyNth n 0)).2
      = everyNth (evalAll records n).2 (sinceYes (answers n records)) := by
  induction records using List.reverseRecOn with
  | nil => rfl
  | append_singleton records r ih =>
    rw [answers, evalAll_concat, evalAll_concat, ih]
    dsimp only
    cases h : periodOf ((evalAll records n).2.eval r.1 r.2).1 with
    | error e => rw [eval_of_no_period h, sinceYes_concat_error, answers]
    | ok k => rw [eval_of_period h, ← answers, sinceYes_concat_decide]

variable {n records r}

theorem answers_concat_error (h : periodOf ((evalAll records n).2.eval r.1 r.2).1 = .error e) :
    answers n (records ++ [r]) = answers n records ++ [.error e] := by
  rw [answers, evalAll_concat, evalAll_everyNth, eval_of_no_period h, answers]

theorem answers_concat_ok (h : periodOf ((evalAll records n).2.eval r.1 r.2).1 = .ok k) :
    answers n (records ++ [r])
      = answers n records ++ [.ok (.bool (decide (k ≤ sinceYes (answers n records) + 1)))] := by
  rw [answers, evalAll_concat, evalAll_everyNth, eval_of_period h, answers]

variable (n records)

/-- **A count never leaves the integers of 64 bits.** -/
theorem sinceYes_answers_lt : sinceYes (answers n records) + 1 < UInt64.size := by
  induction records using List.reverseRecOn with
  | nil => exact Nat.lt_of_sub_eq_succ rfl
  | append_singleton records r ih =>
    cases h : periodOf ((evalAll records n).2.eval r.1 r.2).1 with
    | error e => rwa [answers_concat_error h, sinceYes_concat_error]
    | ok k =>
      obtain ⟨hpos, hk⟩ := periodOf_ok h
      rw [answers_concat_ok h, sinceYes_concat_decide]
      exact Nat.lt_of_le_of_lt (advance_lt hpos) hk

variable {n records}

/-- **With one period for all, the count is a remainder**, and a yes comes at each multiple. -/
theorem answers_of_constant
    (h : ∀ result ∈ (evalAll records n).1, ∀ j, periodOf result = .ok j → j = k) :
    sinceYes (answers n records) = (successes (answers n records)).length % k ∧
      successes (answers n records)
        = (List.range (successes (answers n records)).length).map
            fun i => .bool (decide (k ∣ i + 1)) := by
  induction records using List.reverseRecOn with
  | nil => exact ⟨(Nat.zero_mod k).symm, rfl⟩
  | append_singleton records r ih =>
    rw [evalAll_concat] at h
    obtain ⟨hbefore, hlast⟩ := List.forall_mem_append.mp h
    obtain ⟨hcount, hsuccesses⟩ := ih hbefore
    cases hr : periodOf ((evalAll records n).2.eval r.1 r.2).1 with
    | error e =>
      rw [answers_concat_error hr, sinceYes_concat_error, successes_concat_error]
      exact ⟨hcount, hsuccesses⟩
    | ok j =>
      obtain rfl := hlast _ List.mem_cons_self j hr
      have hpos := (periodOf_ok hr).1
      rw [answers_concat_ok hr, sinceYes_concat_decide, successes_concat_ok, List.length_append,
        List.length_singleton, hcount, advance_mod hpos]
      refine ⟨rfl, ?_⟩
      rw [List.range_succ, List.map_append, ← hsuccesses, List.map_singleton,
        decide_eq_decide.mpr (le_mod_succ_iff hpos _)]

end Run

/-! ## The law -/

/-- **A count is true once in a period.**

* After any records its counter is the number of successful evaluations since the last yes, which is
  an integer of 64 bits even if one is added.
* An evaluation without a positive integer for a period fails and changes no counter.  Any other
  one says whether the counted evaluations, itself among them, have reached the period, and leaves
  a counter below it.
* If the periods are all `k`, then of the successful evaluations number `k`, `2 * k`, `3 * k`, … say
  yes, and no other. -/
theorem counts_since_the_last_yes (n : Expr) (records : List (Moment × Json)) :
    let node := (evalAll records (everyNth n 0)).2
    let period := (evalAll records n).2
    let count := sinceYes (answers n records)
    (node = everyNth period count ∧ count + 1 < UInt64.size) ∧
    (∀ (r : Moment × Json) (e : EvalError), periodOf (period.eval r.1 r.2).1 = .error e →
      node.eval r.1 r.2 = (.error e, everyNth (period.eval r.1 r.2).2 count)) ∧
    (∀ (r : Moment × Json) (k : Nat), periodOf (period.eval r.1 r.2).1 = .ok k →
      ∃ counter, counter < k ∧ counter = sinceYes (answers n (records ++ [r])) ∧
        node.eval r.1 r.2
          = (.ok (.bool (decide (k ≤ count + 1))), everyNth (period.eval r.1 r.2).2 counter)) ∧
    ∀ k, (∀ result ∈ (evalAll records n).1, ∀ j, periodOf result = .ok j → j = k) →
      successes (answers n records)
        = (List.range (successes (answers n records)).length).map
            fun i => .bool (decide (k ∣ i + 1)) := by
  intro node period count
  have hnode : node = everyNth period count := evalAll_everyNth n records
  refine ⟨⟨hnode, sinceYes_answers_lt n records⟩, fun r e hr => ?_, fun r k hr => ?_, ?_⟩
  · rw [hnode, eval_of_no_period hr]
  · refine ⟨advance k count, advance_lt (periodOf_ok hr).1, ?_, ?_⟩
    · rw [answers_concat_ok hr, sinceYes_concat_decide]
    · rw [hnode, eval_of_period hr]
  · exact fun k hk => (answers_of_constant hk).2

/-- Every other record is sampled; a text for a period and a record without one change nothing.
Then the period grows to three, and the count that began under the old one goes on. -/
theorem count_goes_on_under_a_longer_period :
    let record (members : List (String × Json)) : Moment × Json := (⟨0, 0⟩, .object members)
    let two := record [("n", Json.ofInt 2)]
    let records := [two, record [("n", .string "x")], record [], two, two]
    let text := record [("n", .string "x")]
    let three := record [("n", Json.ofInt 3)]
    let node := (evalAll records (everyNth (.field "n") 0)).2
    node = everyNth (.field "n") 1 ∧
    successes (answers (.field "n") records) = [.bool false, .bool true, .bool false] ∧
    node.eval text.1 text.2
      = (.error (.typeMismatch "EveryNth" "n" "positive int" .string), everyNth (.field "n") 1) ∧
    ∃ counter, counter < 3 ∧
      node.eval three.1 three.2 = (.ok (.bool false), everyNth (.field "n") counter) := by
  intro record two records text three node
  obtain ⟨⟨hnode, -⟩, hfail, hcount, hconstant⟩ := counts_since_the_last_yes (.field "n") records
  have hperiod : ∀ result ∈ (evalAll records (.field "n")).1, ∀ j,
      periodOf result = .ok j → j = 2 := by
    have hperiods : (evalAll records (.field "n")).1.map periodOf
        = [.ok 2, .error (.typeMismatch "EveryNth" "n" "positive int" .string),
          .error (.fieldNotFound "n"), .ok 2, .ok 2] := rfl
    intro result hresult j hj
    have hmem := List.mem_map_of_mem (f := periodOf) hresult
    rw [hperiods, hj] at hmem
    simpa using hmem
  refine ⟨hnode, hconstant 2 hperiod, hfail text _ rfl, ?_⟩
  obtain ⟨counter, hlt, -, heval⟩ := hcount three 3 rfl
  exact ⟨counter, hlt, heval⟩

end LiveQuery.Expr
