import LiveQuery.Proofs.Binary64.Closest
import LiveQuery.Proofs.Statement.Memoryless
import LiveQuery.Proofs.Window.Tally
import Mathlib.Data.List.DropRight

/-!
# Proofs/Window/Rescan — a statistic kept up is the statistic computed anew

What a rolling statistic means is said without a listener: `Rescan.run` keeps a plain list of the
values held and computes the statistic from the whole list for every record.  **The node gives the
same results** (`rolling_statistic_is_rescanned`).

A window `Mirrors` the list: it holds its values, and its listener has their sum.  This is kept by
one value (`Mirrors.push`), by one record (`Mirrors.step`) and so by all.  A running sum of floats
is the sum of what is held only as long as nothing is rounded away, hence the condition `IsExact`
for sums and means: at every push the integers held are small enough together.
-/

namespace LiveQuery

/-! ## The meaning of a rolling statistic -/

/-- A result divided by a count, which is first rounded to a number if it is not one. -/
def Extended.perCount (x : Extended) (count : Nat) : Extended :=
  (Binary64.ofInt count).finite?.elim .notANumber x.divBy

/-- **The mean of so many values of a total**: the number nearest to the exact quotient
(`mean_isClosest`).  A count above `2 ^ 53` need not be a number; no memory holds so many values,
and there the mean is the quotient by the rounded count. -/
def Binary64.mean (total : Int) (count : Nat) : Extended :=
  if count ≤ wholeLimit then nearest (decide (total < 0)) (total.natAbs * unitsPerOne) count
  else (ofInt total).perCount count

/-- **No number is closer to the exact quotient than the mean**, which has its sign. -/
theorem Binary64.mean_isClosest {total : Int} {count : Nat} (htotal : total.natAbs ≤ wholeLimit)
    (hpos : 0 < count) (hcount : count ≤ wholeLimit) :
    ∃ x, mean total count = .finite x ∧ x.negative = decide (total < 0) ∧
      x.IsClosest (total.natAbs * unitsPerOne) count := by
  have hlimit : wholeLimit < 2 ^ 54 := by decide
  have hunits : 2 ^ 54 * unitsPerOne = Nat.pow 2 (54 + unitScale) := by
    rw [unitsPerOne_eq]
    generalize unitScale = k
    exact (Nat.pow_add ..).symm
  have hquot : total.natAbs * unitsPerOne / count < Nat.pow 2 (54 + unitScale) :=
    calc total.natAbs * unitsPerOne / count
        ≤ total.natAbs * unitsPerOne := Nat.div_le_self ..
      _ < 2 ^ 54 * unitsPerOne :=
        Nat.mul_lt_mul_of_pos_right (Nat.lt_of_le_of_lt htotal hlimit) unitsPerOne_pos
      _ = Nat.pow 2 (54 + unitScale) := hunits
  obtain ⟨x, hx⟩ := exists_nearest_of_lt (decide (total < 0)) hquot (by decide)
  exact ⟨x, by rw [mean, if_pos hcount, hx], nearest_isClosest hpos hx⟩

namespace Rescan

/-- **The statistic of the values held**, computed from all of them. -/
def statistic : Statistic → List Json → Except EvalError Json
  | .count, held => .ok (Json.ofInt held.length)
  | .sum, held => .ok (Json.ofExtended (Binary64.ofInt (Json.total held)))
  | .average, [] => .error .emptyWindow
  | .average, v :: vs =>
    .ok (Json.ofExtended (Binary64.mean (Json.total (v :: vs)) (v :: vs).length))

/-- **One value**: a null is skipped, what cannot be counted is refused, and of the others the last
ones are held. -/
def collect (s : Statistic) (held : List Json) (v : Json) (capacity : Nat) :
    Except EvalError Json × List Json :=
  if v.kind = .null then (statistic s held, held)
  else if s ≠ .count ∧ v.number?.isNone then
    (.error (.typeMismatch s.name "window element" "number" v.kind), held)
  else (statistic s ((held ++ [v]).rtake capacity), (held ++ [v]).rtake capacity)

/-- **One record**, by the value and the size that were found for it. -/
def step (s : Statistic) (held : List Json) :
    Except EvalError Json → Except EvalError Json → Except EvalError Json × List Json
  | .error e, _ => (.error e, held)
  | .ok _, .error e => (.error e, held)
  | .ok v, .ok size =>
    match size.natural? with
    | none => (.error (.typeMismatch "RollingWindow" "size" "non-negative int" size.kind), held)
    | some capacity => collect s held v capacity

/-- **The results for records in turn**, from a list of values held. -/
def run (s : Statistic) (value size : Expr) :
    List Json → List (Moment × Json) → List (Except EvalError Json)
  | _, [] => []
  | held, (m, record) :: rest =>
    (step s held (value.eval m record).1 (size.eval m record).1).1
      :: run s value size (step s held (value.eval m record).1 (size.eval m record).1).2 rest

/-- An integer that is small enough together with those held. -/
def IsExactValue (held : List Json) (v : Json) : Prop :=
  v.integer?.isSome ∧ Json.weight (held ++ [v]) ≤ Binary64.wholeLimit

/-- A number that comes is such an integer. -/
def IsExactStep (held : List Json) : Except EvalError Json → Except EvalError Json → Prop
  | .ok v, .ok size => size.natural?.isSome → v.number?.isSome → IsExactValue held v
  | _, _ => True

/-- **Nothing is ever rounded away**: so it is at every record. -/
def IsExact (s : Statistic) (value size : Expr) : List Json → List (Moment × Json) → Prop
  | _, [] => True
  | held, (m, record) :: rest =>
    IsExactStep held (value.eval m record).1 (size.eval m record).1 ∧
      IsExact s value size (step s held (value.eval m record).1 (size.eval m record).1).2 rest

instance (held : List Json) (v : Json) : Decidable (IsExactValue held v) :=
  inferInstanceAs (Decidable (_ ∧ _))

instance (held : List Json) (value size : Except EvalError Json) :
    Decidable (IsExactStep held value size) :=
  match value, size with
  | .ok _, .ok _ => inferInstanceAs (Decidable (_ → _ → _))
  | .ok _, .error _ => isTrue trivial
  | .error _, _ => isTrue trivial

instance decidableIsExact (s : Statistic) (value size : Expr) :
    (held : List Json) → (records : List (Moment × Json)) →
      Decidable (IsExact s value size held records)
  | _, [] => isTrue trivial
  | held, (m, record) :: rest =>
    have := decidableIsExact s value size
      (step s held (value.eval m record).1 (size.eval m record).1).2 rest
    inferInstanceAs (Decidable (IsExactStep .. ∧ IsExact ..))

end Rescan

variable {s : Statistic} {held : List Json} {w : Window Aggregate} {v : Json} {capacity now : Nat}

/-! ## The window and the list -/

/-- **A window that mirrors a list**: it holds the values of the list, and its listener has their
sum, unless it only counts. -/
inductive Mirrors (s : Statistic) : List Json → Window Aggregate → Prop where
  | intro (es : List Entry) (sum : Extended)
      (tallied : s ≠ .count → Tallied (es.map Entry.value) sum) :
      Mirrors s (es.map Entry.value) ⟨es, some ⟨s, sum⟩⟩

theorem Mirrors.nil (s : Statistic) : Mirrors s [] (.listened (.start s)) :=
  .intro [] .zero fun _ => Tallied.nil

theorem Binary64.perCount_ofInt {total : Int} {count : Nat} (htotal : total.natAbs ≤ wholeLimit)
    (hcount : 0 < count) : (ofInt total).perCount count = mean total count := by
  by_cases hle : count ≤ wholeLimit
  · obtain ⟨n, hn, hdiv⟩ := divBy_ofInt htotal hcount hle
    rw [mean, if_pos hle, ← hdiv, Extended.perCount, hn, Extended.finite?, Option.elim_some]
  · rw [mean, if_neg hle]

theorem Aggregate.report_average {sum : Extended} {count : Nat} (hcount : count ≠ 0) :
    (⟨.average, sum⟩ : Aggregate).report count = .ok (Json.ofExtended (sum.perCount count)) := by
  rw [report, Extended.perCount]
  cases Binary64.ofInt count with
  | finite n => exact if_neg hcount
  | infinite negative => exact if_neg hcount
  | notANumber => exact if_neg hcount

namespace Tallied

variable {sum : Extended}

/-- The sum that is kept up is reported as the sum, … -/
theorem report_sum (h : Tallied held sum) :
    (⟨.sum, sum⟩ : Aggregate).report held.length = Rescan.statistic .sum held := by
  rw [Aggregate.report, Rescan.statistic, h.sum_eq]
  cases held with
  | nil => rw [Json.total, Binary64.ofInt_zero]; rfl
  | cons v vs =>
    have hne : (v :: vs).length ≠ 0 := Nat.succ_ne_zero _
    rw [if_neg hne]

/-- … and divided by the length as the mean. -/
theorem report_average (h : Tallied held sum) :
    (⟨.average, sum⟩ : Aggregate).report held.length = Rescan.statistic .average held := by
  cases held with
  | nil => rfl
  | cons v vs =>
    have hpos : 0 < (v :: vs).length := Nat.succ_pos _
    rw [Aggregate.report_average (Nat.ne_of_gt hpos), Rescan.statistic, h.sum_eq,
      Binary64.perCount_ofInt h.natAbs_total_le hpos]

end Tallied

/-- **The statistic kept up is the statistic of the list.** -/
theorem Mirrors.report (h : Mirrors s held w) : w.report = Rescan.statistic s held := by
  obtain ⟨es, sum, tallied⟩ := h
  have hreport : Listener.report (⟨s, sum⟩ : Aggregate) es.length
      = Aggregate.report ⟨s, sum⟩ (es.map Entry.value).length := by rw [List.length_map]; rfl
  rw [Window.report_some, hreport]
  cases s with
  | count => rfl
  | sum => exact (tallied (by decide)).report_sum
  | average => exact (tallied (by decide)).report_average

/-! ## One value -/

/-- What is kept of a window that has taken in one more value. -/
theorem values_kept_count (capacity now : Nat) (es : List Entry) (v : Json) :
    (Window.kept (.count capacity) now (es ++ [⟨v, now⟩])).map Entry.value
      = (es.map Entry.value ++ [v]).rtake capacity := by
  rw [Window.kept_count, List.map_drop, List.map_append, List.rtake, List.length_append,
    List.length_append, List.length_map]
  rfl

/-- **A value that comes, and those that go for it**, on both sides. -/
theorem Mirrors.push (h : Mirrors s held w)
    (hv : s = .count ∨ Rescan.IsExactValue held v) :
    ∃ w', w.push v (.count capacity) now = (.ok (), w') ∧
      Mirrors s ((held ++ [v]).rtake capacity) w' := by
  obtain ⟨es, sum, tallied⟩ := h
  rw [← values_kept_count capacity now es v]
  by_cases hs : s = .count
  · subst hs
    exact ⟨_, Aggregate.push_count .., .intro _ sum fun h => absurd rfl h⟩
  · obtain ⟨hinteger, hweight⟩ := hv.resolve_left hs
    obtain ⟨n, hn⟩ := Option.isSome_iff_exists.mp hinteger
    obtain ⟨sum', hpush, hstay⟩ := (tallied hs).push (.count capacity) now hs hn hweight
    exact ⟨_, hpush, .intro _ sum' fun _ => hstay⟩

/-- **A value that is refused**: nothing comes and nothing goes. -/
theorem Mirrors.push_refused (h : Mirrors s held w) (hs : s ≠ .count) (hv : v.number? = none)
    (b : Bound) (now : Nat) :
    w.push v b now = (.error (.typeMismatch s.name "window element" "number" v.kind), w) := by
  obtain ⟨es, sum, -⟩ := h
  exact Aggregate.push_of_not_number es v b now sum hs hv

/-! ## One record -/

theorem Json.eq_null_of_kind (h : v.kind = .null) : v = .null := by
  match v, h with
  | .null, _ => rfl
  | .number (.int _), h => cases h
  | .number (.float _), h => cases h

/-- **A value**, on both sides: the results are the same, and the window mirrors the list again. -/
theorem Mirrors.collect {size : Json} (h : Mirrors s held w)
    (hb : WindowKind.rolling.bound? size = .ok (.count capacity))
    (hexact : s = .count ∨ (v.number?.isSome → Rescan.IsExactValue held v)) :
    (Expr.gather (some s) .rolling now w (.ok v) (.ok size)).1
        = (Rescan.collect s held v capacity).1 ∧
      Mirrors s (Rescan.collect s held v capacity).2
        (Expr.gather (some s) .rolling now w (.ok v) (.ok size)).2 := by
  rw [Rescan.collect]
  by_cases hnull : v = .null
  · subst hnull
    rw [Expr.gather_null hb, if_pos (show Json.null.kind = .null from rfl)]
    exact ⟨h.report, h⟩
  rw [if_neg fun hkind => hnull (Json.eq_null_of_kind hkind)]
  by_cases hrefused : s ≠ .count ∧ v.number?.isNone
  · have hpush := h.push_refused hrefused.1 (Option.isNone_iff_eq_none.mp hrefused.2)
    rw [if_pos hrefused, Expr.gather_of_reject hb hnull (hpush ..)]
    exact ⟨rfl, h⟩
  · have hv : s = .count ∨ Rescan.IsExactValue held v := by
      by_cases hs : s = .count
      · exact .inl hs
      · refine .inr (hexact.resolve_left hs (Option.isSome_iff_ne_none.mpr fun hnone => ?_))
        exact hrefused ⟨hs, Option.isNone_iff_eq_none.mpr hnone⟩
    obtain ⟨w', hpush, hw'⟩ := h.push hv
    rw [if_neg hrefused, Expr.gather_of_push hb hnull hpush]
    exact ⟨hw'.report, hw'⟩

/-- **A record**, on both sides. -/
theorem Mirrors.step {value size : Except EvalError Json} (h : Mirrors s held w)
    (hexact : s = .count ∨ Rescan.IsExactStep held value size) (now : Nat) :
    (Expr.gather (some s) .rolling now w value size).1 = (Rescan.step s held value size).1 ∧
      Mirrors s (Rescan.step s held value size).2
        (Expr.gather (some s) .rolling now w value size).2 := by
  rcases value with e | v
  case error => exact ⟨rfl, h⟩
  rcases size with e | n
  case error => exact ⟨rfl, h⟩
  cases hn : n.natural? with
  | none =>
    have hb : WindowKind.rolling.bound? n
        = .error (.typeMismatch "RollingWindow" "size" "non-negative int" n.kind) := by
      simp only [WindowKind.bound?, hn, WindowKind.name]
    simp only [Rescan.step, hn]
    rw [Expr.gather_of_bound_error hb]
    exact ⟨rfl, h⟩
  | some capacity =>
    have hb : WindowKind.rolling.bound? n = .ok (.count capacity) := by
      simp only [WindowKind.bound?, hn]
    simp only [Rescan.step, hn]
    exact h.collect hb (hexact.imp_right fun hstep => hstep (by rw [hn]; rfl))

/-! ## All records -/

variable {value size : Expr}

/-- **All records**, on both sides. -/
theorem Mirrors.run (hvalue : value.IsMemoryless) (hsize : size.IsMemoryless)
    (records : List (Moment × Json)) (h : Mirrors s held w)
    (hexact : s = .count ∨ Rescan.IsExact s value size held records) :
    (Expr.evalAll records (.window (some s) .rolling value size w)).1
      = Rescan.run s value size held records := by
  induction records generalizing held w with
  | nil => rfl
  | cons r records ih =>
    obtain ⟨m, record⟩ := r
    obtain ⟨hresult, hrest⟩ := h.step (hexact.imp_right And.left) m.now
    rw [Expr.evalAll, Expr.eval_window hvalue hsize, hresult, Rescan.run]
    exact congrArg (_ :: ·) (ih hrest (hexact.imp_right And.right))

/-- **The statistic kept up is the statistic computed anew**, record by record: over a value and a
size that remember nothing, a count always, a sum or a mean as long as nothing is rounded away. -/
theorem rolling_statistic_is_rescanned (s : Statistic) (hvalue : value.IsMemoryless)
    (hsize : size.IsMemoryless) (records : List (Moment × Json))
    (hexact : s = .count ∨ Rescan.IsExact s value size [] records) :
    (Expr.evalAll records (.window (some s) .rolling value size (.listened (.start s)))).1
      = Rescan.run s value size [] records :=
  (Mirrors.nil s).run hvalue hsize records hexact

/-- The mean of what is left when a window shrinks, after a text and a null that were not held. -/
theorem mean_of_a_shrinking_window :
    let record (x : Json) (n : Int) : Moment × Json :=
      (⟨0, 0⟩, .object [("n", Json.ofInt n), ("x", x)])
    let records := [record (Json.ofInt 1) 3, record (Json.ofInt 3) 3, record (.string "a") 3,
      record .null 3, record (Json.ofInt 8) 1]
    (Expr.evalAll records (.window (some .average) .rolling (.field "x") (.field "n")
        (.listened (.start .average)))).1.map (·.map Json.write)
      = [.ok "1.0".toList, .ok "2.0".toList,
        .error (.typeMismatch "WindowAverage" "window element" "number" .string),
        .ok "2.0".toList, .ok "8.0".toList] := by
  intro record records
  have hexact : Rescan.IsExact .average (.field "x") (.field "n") [] records := by decide +kernel
  rw [rolling_statistic_is_rescanned .average (by trivial) (by trivial) records (.inr hexact)]
  decide +kernel

end LiveQuery
