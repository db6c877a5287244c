import LiveQuery.Proofs.Binary64.Whole
import LiveQuery.Proofs.Window.Pushes
import LiveQuery.Window.Aggregate

/-!
# Proofs/Window/Tally — the running sum of integers is their sum

While the absolute values of what a window holds add up to no more than `2 ^ 53`, every number on
the way is a whole one, and the running sum is the sum of the window (`Tallied`): a value that comes
is added exactly (`Tallied.concat`), one that goes is subtracted exactly (`Tallied.tail`), and the
sum is right again when all that have to go have gone (`Tallied.evictAll`).
-/

namespace LiveQuery

variable {v : Json} {n : Int} {x : Binary64} {vs held : List Json} {s : Statistic} {sum : Extended}

/-! ## Sums of values -/

namespace Json

/-- The sum of the integers among some values. -/
def total : List Json → Int
  | [] => 0
  | v :: vs => v.integer?.getD 0 + total vs

/-- The sum of their absolute values. -/
def weight : List Json → Nat
  | [] => 0
  | v :: vs => (v.integer?.getD 0).natAbs + weight vs

theorem total_append (vs ws : List Json) : total (vs ++ ws) = total vs + total ws := by
  induction vs with
  | nil => exact (Int.zero_add _).symm
  | cons v vs ih => rw [List.cons_append, total, total, ih, Int.add_assoc]

theorem weight_append (vs ws : List Json) : weight (vs ++ ws) = weight vs + weight ws := by
  induction vs with
  | nil => exact (Nat.zero_add _).symm
  | cons v vs ih => rw [List.cons_append, weight, weight, ih, Nat.add_assoc]

theorem natAbs_total_le (vs : List Json) : (total vs).natAbs ≤ weight vs := by
  induction vs with
  | nil => exact Nat.le_refl 0
  | cons v vs ih =>
    rw [total, weight]
    exact Nat.le_trans (Int.natAbs_add_le _ _) (Nat.add_le_add_left ih _)

theorem total_cons (hv : v.integer? = some n) (vs : List Json) :
    total (v :: vs) = n + total vs := by
  rw [total, hv, Option.getD_some]

theorem weight_cons (hv : v.integer? = some n) (vs : List Json) :
    weight (v :: vs) = n.natAbs + weight vs := by
  rw [weight, hv, Option.getD_some]

theorem total_concat (hv : v.integer? = some n) (vs : List Json) :
    total (vs ++ [v]) = total vs + n := by
  rw [total_append, total_cons hv, total, Int.add_zero]

theorem weight_concat (hv : v.integer? = some n) (vs : List Json) :
    weight (vs ++ [v]) = weight vs + n.natAbs := by
  rw [weight_append, weight_cons hv, weight, Nat.add_zero]

/-- An integer is a number. -/
theorem number?_of_integer? (hv : v.integer? = some n) :
    ∃ x, v.number? = some x ∧ Binary64.ofInt n = .finite x := by
  match v, hv with
  | .number (.int i), rfl => exact ⟨_, rfl, Binary64.ofInt_eq_ofWord i.isWord.natAbs_le⟩

end Json

/-! ## The running sum -/

/-- **A sum that is the sum of what is held**, all of it integers that are small enough together. -/
structure Tallied (held : List Json) (sum : Extended) : Prop where
  integers : ∀ v ∈ held, v.integer?.isSome
  weight_le : Json.weight held ≤ Binary64.wholeLimit
  sum_eq : sum = Binary64.ofInt (Json.total held)

namespace Tallied

theorem nil : Tallied [] .zero :=
  ⟨fun _ h => absurd h List.not_mem_nil, Nat.zero_le _, Binary64.ofInt_zero.symm⟩

theorem natAbs_total_le (h : Tallied held sum) :
    (Json.total held).natAbs ≤ Binary64.wholeLimit :=
  Nat.le_trans (Json.natAbs_total_le held) h.weight_le

/-- **A value that comes is added.** -/
theorem concat (h : Tallied held sum) (hv : v.integer? = some n)
    (hweight : Json.weight (held ++ [v]) ≤ Binary64.wholeLimit) :
    Tallied (held ++ [v]) (sum.add (Binary64.ofInt n)) where
  integers u hu := by
    rcases List.mem_append.mp hu with hu | hu
    · exact h.integers u hu
    · rw [List.mem_singleton.mp hu, hv, Option.isSome_some]
  weight_le := hweight
  sum_eq := by
    have hn := Nat.le_trans (Nat.le_add_left ..) (Json.weight_concat hv held ▸ hweight)
    rw [h.sum_eq, Binary64.add_ofInt h.natAbs_total_le hn, Json.total_concat hv]

/-- **A value that goes is subtracted.** -/
theorem tail (h : Tallied (v :: held) sum) (hv : v.integer? = some n) :
    Tallied held (sum.sub (Binary64.ofInt n)) := by
  have hweight := Json.weight_cons hv held ▸ h.weight_le
  have hn := Nat.le_trans (Nat.le_add_right ..) hweight
  refine ⟨fun u hu => h.integers u (List.mem_cons_of_mem v hu),
    Nat.le_trans (Nat.le_add_left ..) hweight, ?_⟩
  rw [h.sum_eq, Binary64.sub_ofInt h.natAbs_total_le hn, Json.total_cons hv, add_sub_cancel_left]

end Tallied

/-! ## The listener -/

namespace Aggregate

theorem accept_count (sum : Extended) (v : Json) :
    Listener.accept (⟨.count, sum⟩ : Aggregate) v = (.ok (), ⟨.count, sum⟩) := rfl

/-- A number is let in, and added. -/
theorem accept_number (hs : s ≠ .count) (hv : v.number? = some x) (sum : Extended) :
    Listener.accept (⟨s, sum⟩ : Aggregate) v = (.ok (), ⟨s, sum.add (.finite x)⟩) := by
  change accept _ v = _
  rw [accept, if_neg hs, hv]

theorem accept_integer (hs : s ≠ .count) (hv : v.integer? = some n) (sum : Extended) :
    Listener.accept (⟨s, sum⟩ : Aggregate) v = (.ok (), ⟨s, sum.add (Binary64.ofInt n)⟩) := by
  obtain ⟨x, hx, hn⟩ := Json.number?_of_integer? hv
  rw [accept_number hs hx, hn]

/-- What is no number is refused. -/
theorem accept_of_not_number (hs : s ≠ .count) (hv : v.number? = none) (sum : Extended) :
    Listener.accept (⟨s, sum⟩ : Aggregate) v
      = (.error (.typeMismatch s.name "window element" "number" v.kind), ⟨s, sum⟩) := by
  change accept _ v = _
  rw [accept, if_neg hs, hv]

theorem evict_number (hs : s ≠ .count) (hv : v.number? = some x) (sum : Extended) :
    Listener.evict (⟨s, sum⟩ : Aggregate) v = ⟨s, sum.sub (.finite x)⟩ := by
  change evict _ v = _
  rw [evict, if_neg hs, hv]

theorem evictAll_count (sum : Extended) (out : List Entry) :
    Listener.evictAll (⟨.count, sum⟩ : Aggregate) out = ⟨.count, sum⟩ := by
  induction out with
  | nil => rfl
  | cons e out ih => exact ih

/-- **What the sum has to do with the entries is kept by all that go** if it is kept by one of them,
as long as none goes that stays. -/
theorem evictAll_of_departure (hs : s ≠ .count) {P : List Entry → Extended → Prop}
    {out stay : List Entry}
    (hgo : ∀ e left sum, stay <:+ left → P (e :: left) sum →
      ∃ x, e.value.number? = some x ∧ P left (sum.sub (.finite x)))
    (h : P (out ++ stay) sum) :
    ∃ sum', Listener.evictAll (⟨s, sum⟩ : Aggregate) out = ⟨s, sum'⟩ ∧ P stay sum' := by
  induction out generalizing sum with
  | nil => exact ⟨sum, rfl, h⟩
  | cons e out ih =>
    obtain ⟨x, hx, hleft⟩ := hgo e (out ++ stay) sum (List.suffix_append ..) h
    rw [Listener.evictAll, List.foldl_cons, ← Listener.evictAll, evict_number hs hx]
    exact ih hleft

end Aggregate

/-- **Whatever goes, the sum is that of what stays.** -/
theorem Tallied.evictAll (hs : s ≠ .count) {out stay : List Entry}
    (h : Tallied ((out ++ stay).map Entry.value) sum) :
    ∃ sum', Listener.evictAll (⟨s, sum⟩ : Aggregate) out = ⟨s, sum'⟩ ∧
      Tallied (stay.map Entry.value) sum' := by
  refine Aggregate.evictAll_of_departure (P := fun es sum => Tallied (es.map Entry.value) sum) hs
    (fun e left sum _ h => ?_) h
  obtain ⟨n, hn⟩ := Option.isSome_iff_exists.mp (h.integers e.value (List.mem_cons_self ..))
  obtain ⟨x, hx, hxn⟩ := Json.number?_of_integer? hn
  exact ⟨x, hx, hxn ▸ h.tail hn⟩

/-! ## Pushes -/

section Pushes

variable (es : List Entry) (v : Json) (b : Bound) (now : Nat) (sum : Extended)

/-- **A count lets every value in** and remembers none. -/
theorem Aggregate.push_count :
    (⟨es, some ⟨.count, sum⟩⟩ : Window Aggregate).push v b now
      = (.ok (), ⟨Window.kept b now (es ++ [⟨v, now⟩]), some ⟨.count, sum⟩⟩) := by
  refine (Window.push_of_accept (p := ⟨v, b, now⟩) (Aggregate.accept_count sum v)).trans ?_
  rw [Aggregate.evictAll_count]
  rfl

/-- **A value that is no number is refused**: nothing comes and nothing goes. -/
theorem Aggregate.push_of_not_number (hs : s ≠ .count) (hv : v.number? = none) :
    (⟨es, some ⟨s, sum⟩⟩ : Window Aggregate).push v b now
      = (.error (.typeMismatch s.name "window element" "number" v.kind), ⟨es, some ⟨s, sum⟩⟩) :=
  Window.push_of_reject (p := ⟨v, b, now⟩) (Aggregate.accept_of_not_number hs hv sum)

variable {es v sum}

/-- **An integer comes, others go, and the sum is that of what is held then.** -/
theorem Tallied.push (h : Tallied (es.map Entry.value) sum) (hs : s ≠ .count)
    (hv : v.integer? = some n)
    (hweight : Json.weight (es.map Entry.value ++ [v]) ≤ Binary64.wholeLimit) :
    ∃ sum', (⟨es, some ⟨s, sum⟩⟩ : Window Aggregate).push v b now
        = (.ok (), ⟨Window.kept b now (es ++ [⟨v, now⟩]), some ⟨s, sum'⟩⟩) ∧
      Tallied ((Window.kept b now (es ++ [⟨v, now⟩])).map Entry.value) sum' := by
  have hall : Tallied ((Window.gone b now (es ++ [⟨v, now⟩])
      ++ Window.kept b now (es ++ [⟨v, now⟩])).map Entry.value) (sum.add (Binary64.ofInt n)) := by
    rw [Window.gone_append_kept, List.map_append]
    exact h.concat hv hweight
  obtain ⟨sum', hsum', hstay⟩ := hall.evictAll hs
  refine ⟨sum', ?_, hstay⟩
  rw [← hsum']
  exact Window.push_of_accept (p := ⟨v, b, now⟩) (Aggregate.accept_integer hs hv sum)

end Pushes

end LiveQuery
