import LiveQuery.Proofs.Binary64.Rounding
import LiveQuery.Proofs.Window.Rescan
import Mathlib.Data.List.Infix

/-!
# Proofs/Window/Residue — a running sum forgets what has left only if nothing was rounded

The running sum takes back what it added, but a number that was rounded away when it came is missed
when it goes.  So **a statistic can depend on what a window held before**
(`evicted_numbers_leave_a_residue`): after a large number has come and gone the sum of `[1]` is
zero, and once a sum has overflowed there is no sum any more, even after the window was empty.

What is true is this: **as long as no sum on the way is rounded, nothing is left behind**
(`unrounded_sums_are_forgotten`).  The condition `Window.IsExact` is about the window alone: at each
push, the values held add up to a number when the new one has come, and again whenever one has gone.
The engine is `Binary64.exists_add`: a sum that is a number is not rounded.
-/

namespace LiveQuery

/-! ## Sums that are numbers -/

namespace Binary64

variable {x y : Binary64} {n : Int}

/-- **Whether so many units are a number.** -/
def Representable (n : Int) : Prop := ∃ x : Binary64, x.units = n

/-- **So many units that are a number are rounded to it.** -/
theorem nearest_units (h : x.units ≠ 0) :
    nearest (decide (x.units < 0)) x.units.natAbs 1 = .finite x := by
  rw [← negative_eq h, natAbs_units, nearest_magnitude]

/-- Units are a number if their rounding changes nothing. -/
theorem representable_iff (n : Int) : Representable n ↔
    n = 0 ∨ ∃ x ∈ (nearest (decide (n < 0)) n.natAbs 1).finite?, x.units = n := by
  constructor
  · rintro ⟨x, rfl⟩
    by_cases hzero : x.units = 0
    · exact Or.inl hzero
    · exact Or.inr ⟨x, by rw [nearest_units hzero]; rfl, rfl⟩
  · rintro (rfl | ⟨x, -, hx⟩)
    · exact ⟨zero false, units_zero false⟩
    · exact ⟨x, hx⟩

instance (n : Int) : Decidable (Representable n) :=
  decidable_of_iff _ (representable_iff n).symm

/-- **A sum that is a number is not rounded**; it is no negative zero if the first term is none. -/
theorem exists_add (h : Representable (x.units + y.units))
    (hx : x.units = 0 → x.negative = false) :
    ∃ z, x.add y = .finite z ∧ z.units = x.units + y.units ∧
      (z.units = 0 → z.negative = false) := by
  obtain ⟨z, hz⟩ := h
  rw [add, ← hz]
  by_cases hzero : z.units = 0
  · refine ⟨zero (x.negative && y.negative), if_pos hzero, by rw [units_zero, hzero], fun _ => ?_⟩
    -- Two negative terms add up to zero only if both are zero.
    change (x.negative && y.negative) = false
    by_contra hboth
    rw [Bool.not_eq_false, Bool.and_eq_true] at hboth
    have hne : x.units ≠ 0 := fun h0 => Bool.false_ne_true ((hx h0).symm.trans hboth.1)
    have hxneg : x.units < 0 := of_decide_eq_true ((negative_eq hne).symm.trans hboth.1)
    have hyneg : y.units ≤ 0 := by
      rw [units, if_pos hboth.2]
      omega
    omega
  · exact ⟨z, by rw [if_neg hzero, nearest_units hzero], rfl, fun h => absurd h hzero⟩

end Binary64

/-! ## Sums of values -/

variable {v : Json} {held : List Json} {x : Binary64} {s : Statistic} {sum : Extended}
  {es : List Entry} {w : Window Aggregate} {p : Push}

namespace Json

/-- The value of a number, in units. -/
def units (v : Json) : Int := (v.number?.map Binary64.units).getD 0

/-- **The exact sum of some numbers**, in units. -/
def unitSum (vs : List Json) : Int := (vs.map units).sum

theorem units_eq (hv : v.number? = some x) : v.units = x.units := by rw [units, hv]; rfl

theorem unitSum_cons (v : Json) (vs : List Json) : unitSum (v :: vs) = v.units + unitSum vs :=
  List.sum_cons

theorem unitSum_concat (vs : List Json) (v : Json) :
    unitSum (vs ++ [v]) = unitSum vs + v.units := by
  rw [unitSum, List.map_append, List.sum_append, List.map_singleton, List.sum_singleton, unitSum]

/-- **Small integers add up to so many ones.** -/
theorem unitSum_integers {vs : List Json} (hvs : ∀ v ∈ vs, v.integer?.isSome)
    (hweight : weight vs ≤ Binary64.wholeLimit) :
    unitSum vs = total vs * Binary64.unitsPerOne := by
  induction vs with
  | nil => exact (Int.zero_mul _).symm
  | cons v vs ih =>
    obtain ⟨hv, hvs⟩ := List.forall_mem_cons.mp hvs
    obtain ⟨n, hn⟩ := Option.isSome_iff_exists.mp hv
    rw [weight_cons hn] at hweight
    obtain ⟨x, hx, hxn⟩ := number?_of_integer? hn
    obtain ⟨y, hy, hwhole⟩ := Binary64.ofInt_of_le (a := n) (by omega)
    obtain rfl : x = y := Extended.finite.inj (hxn.symm.trans hy)
    rw [unitSum_cons, units_eq hx, hwhole.units_eq, ih hvs (by omega), total_cons hn, Int.add_mul]

end Json

/-! ## The running sum -/

/-- **A running sum that is exact**: a number whose value is that of what is held, and no negative
zero. -/
inductive Unrounded (held : List Json) : Extended → Prop
  | intro (x : Binary64) (units_eq : x.units = Json.unitSum held)
      (zero_positive : x.units = 0 → x.negative = false) : Unrounded held (.finite x)

namespace Unrounded

theorem nil : Unrounded [] .zero := .intro _ (Binary64.units_zero false) fun _ => rfl

/-- **A number that comes is added**, … -/
theorem concat (h : Unrounded held sum) (hv : v.number? = some x)
    (hnumber : Binary64.Representable (Json.unitSum (held ++ [v]))) :
    Unrounded (held ++ [v]) (sum.add (.finite x)) := by
  obtain ⟨y, hunits, hzero⟩ := h
  have hsum : Json.unitSum (held ++ [v]) = y.units + x.units := by
    rw [Json.unitSum_concat, Json.units_eq hv, hunits]
  obtain ⟨z, hz, hzunits, hzzero⟩ := Binary64.exists_add (hsum ▸ hnumber) hzero
  have hadd : (Extended.finite y).add (.finite x) = .finite z := hz
  rw [hadd]
  exact .intro z (hzunits.trans hsum.symm) hzzero

/-- …**and a number that goes is taken off**. -/
theorem tail (h : Unrounded (v :: held) sum) (hv : v.number? = some x)
    (hnumber : Binary64.Representable (Json.unitSum held)) :
    Unrounded held (sum.sub (.finite x)) := by
  obtain ⟨y, hunits, hzero⟩ := h
  have hsum : Json.unitSum held = y.units + x.neg.units := by
    rw [Binary64.units_neg, hunits, Json.unitSum_cons, Json.units_eq hv]
    omega
  obtain ⟨z, hz, hzunits, hzzero⟩ := Binary64.exists_add (hsum ▸ hnumber) hzero
  have hsub : (Extended.finite y).sub (.finite x) = .finite z := hz
  rw [hsub]
  exact .intro z (hzunits.trans hsum.symm) hzzero

/-- **An exact sum of small integers is their tally.** -/
theorem tallied (h : Unrounded held sum) (hheld : ∀ v ∈ held, v.integer?.isSome)
    (hweight : Json.weight held ≤ Binary64.wholeLimit) : Tallied held sum := by
  obtain ⟨y, hunits, hzero⟩ := h
  obtain ⟨z, hz, hwhole⟩ :=
    Binary64.ofInt_of_le (Nat.le_trans (Json.natAbs_total_le held) hweight)
  have hvalue : y.units = z.units := by
    rw [hunits, hwhole.units_eq, Json.unitSum_integers hheld hweight]
  have hpositive : z.units = 0 → z.negative = false := by
    intro hzunits
    have hpos : (0 : Int) < Binary64.unitsPerOne := Int.natCast_pos.mpr Binary64.unitsPerOne_pos
    rw [hwhole.units_eq, Int.mul_eq_zero, or_iff_left (Int.ne_of_gt hpos)] at hzunits
    rw [hwhole.negative_eq, hzunits]
    rfl
  exact ⟨hheld, hweight, by rw [hz, Binary64.eq_of_units hvalue hzero hpositive]⟩

end Unrounded

/-! ## Pushes -/

/-- **A push that rounds nothing**: the values add up to a number when the new one has come, and
again whenever one has gone. -/
def Push.IsExact (es : List Entry) (p : Push) : Prop :=
  ∀ left ∈ (es ++ [p.entry]).tails,
    (Window.kept p.bound p.now (es ++ [p.entry])).length ≤ left.length →
      Binary64.Representable (Json.unitSum (left.map Entry.value))

instance (es : List Entry) (p : Push) : Decidable (p.IsExact es) :=
  inferInstanceAs (Decidable (∀ left ∈ (es ++ [p.entry]).tails, _ → _))

/-- **Pushes of which none rounds anything**, as far as they are let in. -/
def Window.IsExact (w : Window Aggregate) : List Push → Prop
  | [] => True
  | p :: ps => (p.value.number?.isSome → p.IsExact w.entries) ∧
      IsExact (w.push p.value p.bound p.now).2 ps

instance Window.decidableIsExact :
    (w : Window Aggregate) → (ps : List Push) → Decidable (w.IsExact ps)
  | _, [] => isTrue trivial
  | w, p :: ps =>
    have := decidableIsExact (w.push p.value p.bound p.now).2 ps
    inferInstanceAs (Decidable (_ ∧ IsExact _ ps))

/-- **A window of numbers with their exact sum.** -/
inductive IsSummed (s : Statistic) : Window Aggregate → Prop
  | intro (es : List Entry) (sum : Extended) (numbers : ∀ e ∈ es, e.value.number?.isSome)
      (unrounded : Unrounded (es.map Entry.value) sum) : IsSummed s ⟨es, some ⟨s, sum⟩⟩

/-- **Whatever goes, the sum is that of what stays.** -/
theorem Unrounded.evictAll (hs : s ≠ .count) {out stay : List Entry}
    (h : Unrounded ((out ++ stay).map Entry.value) sum)
    (hnumbers : ∀ e ∈ out ++ stay, e.value.number?.isSome)
    (hexact : ∀ left, left <:+ out ++ stay → stay.length ≤ left.length →
      Binary64.Representable (Json.unitSum (left.map Entry.value))) :
    ∃ sum', Listener.evictAll (⟨s, sum⟩ : Aggregate) out = ⟨s, sum'⟩ ∧
      Unrounded (stay.map Entry.value) sum' := by
  have hgo : ∀ e left sum, stay <:+ left →
      e :: left <:+ out ++ stay ∧ Unrounded ((e :: left).map Entry.value) sum →
      ∃ x, e.value.number? = some x ∧
        left <:+ out ++ stay ∧ Unrounded (left.map Entry.value) (sum.sub (.finite x)) := by
    rintro e left sum hstay ⟨hsuffix, h⟩
    obtain ⟨x, hx⟩ := Option.isSome_iff_exists.mp (hnumbers e (hsuffix.subset List.mem_cons_self))
    have hleft := (List.suffix_cons e left).trans hsuffix
    exact ⟨x, hx, hleft, h.tail hx (hexact left hleft hstay.length_le)⟩
  obtain ⟨sum', hsum', -, hstay⟩ := Aggregate.evictAll_of_departure
    (P := fun es sum => es <:+ out ++ stay ∧ Unrounded (es.map Entry.value) sum) hs hgo
    ⟨List.suffix_rfl, h⟩
  exact ⟨sum', hsum', hstay⟩

namespace IsSummed

theorem nil (s : Statistic) : IsSummed s (.listened (.start s)) :=
  .intro [] .zero (by simp) .nil

/-- **A push that rounds nothing** keeps the sum exact. -/
theorem push (h : IsSummed s w) (hs : s ≠ .count)
    (hexact : p.value.number?.isSome → p.IsExact w.entries) :
    IsSummed s (w.push p.value p.bound p.now).2 := by
  obtain ⟨es, sum, hnumbers, hsum⟩ := h
  cases hx : p.value.number? with
  | none =>
    rw [Aggregate.push_of_not_number es p.value p.bound p.now sum hs hx]
    exact .intro es sum hnumbers hsum
  | some x =>
    have hleft : p.IsExact es := hexact (by rw [hx]; rfl)
    have hall := Window.gone_append_kept p.bound p.now (es ++ [p.entry])
    have hnumbers' : ∀ e ∈ es ++ [p.entry], e.value.number?.isSome := by
      intro e he
      rcases List.mem_append.mp he with he | he
      · exact hnumbers e he
      · rw [List.mem_singleton.mp he, Push.entry, hx]
        rfl
    have hcome : Unrounded ((es ++ [p.entry]).map Entry.value) (sum.add (.finite x)) := by
      have hfull := hleft (es ++ [p.entry]) ((List.mem_tails _ _).mpr List.suffix_rfl)
        (Window.kept_suffix ..).length_le
      rw [List.map_append] at hfull ⊢
      exact hsum.concat hx hfull
    rw [Window.push_of_accept (Aggregate.accept_number hs hx sum)]
    rw [Push.IsExact] at hleft
    generalize Window.kept p.bound p.now (es ++ [p.entry]) = stay at hall hleft ⊢
    rw [← hall] at hcome hnumbers' hleft
    obtain ⟨sum', hsum', hstay⟩ := hcome.evictAll hs hnumbers' fun left hsuffix =>
      hleft left ((List.mem_tails _ _).mpr hsuffix)
    rw [hsum']
    exact .intro _ sum' (fun e he => hnumbers' e (List.mem_append_right _ he)) hstay

/-- **…and so do all pushes** of which none rounds anything. -/
theorem pushAll (h : IsSummed s w) (hs : s ≠ .count) {ps : List Push} (hexact : w.IsExact ps) :
    IsSummed s (w.pushAll ps).2 := by
  induction ps generalizing w with
  | nil => exact h
  | cons p ps ih => exact ih (h.push hs hexact.1) hexact.2

/-- The exact sum is reported as it is. -/
theorem report_sum (h : IsSummed .sum w) (hne : w.contents ≠ []) :
    ∃ x : Binary64, w.report = .ok (.number (.float x)) ∧ x.units = Json.unitSum w.contents := by
  obtain ⟨es, sum, -, x, hunits, -⟩ := h
  have hlength : es.length ≠ 0 := by
    rintro h0
    exact hne (by rw [Window.contents, List.length_eq_zero_iff.mp h0, List.map_nil])
  refine ⟨x, ?_, hunits⟩
  rw [Window.report_some]
  change Aggregate.report _ _ = _
  rw [Aggregate.report, if_neg hlength]
  rfl

/-- **What is reported of small integers is computed from them alone.** -/
theorem report_integers (h : IsSummed s w) (hheld : ∀ v ∈ w.contents, v.integer?.isSome)
    (hweight : Json.weight w.contents ≤ Binary64.wholeLimit) :
    w.report = Rescan.statistic s w.contents := by
  obtain ⟨es, sum, -, hsum⟩ := h
  exact (Mirrors.intro es sum fun _ => hsum.tallied hheld hweight).report

end IsSummed

/-- **As long as no sum on the way is rounded, a sum or a mean forgets what has left the window**:
whatever numbers were pushed under whatever bounds,

* the sum that is reported is the exact sum of what the window holds;
* if these are integers of at most `2 ^ 53` together, what is reported is computed from them alone:
  their sum, or the number nearest to their mean. -/
theorem unrounded_sums_are_forgotten (s : Statistic) (hs : s ≠ .count) (ps : List Push)
    (hexact : Window.IsExact (.listened (.start s)) ps) :
    let w := ((Window.listened (.start s) : Window Aggregate).pushAll ps).2
    (s = .sum → w.contents ≠ [] → ∃ x : Binary64,
      w.report = .ok (.number (.float x)) ∧ x.units = Json.unitSum w.contents) ∧
    ((∀ v ∈ w.contents, v.integer?.isSome) → Json.weight w.contents ≤ Binary64.wholeLimit →
      w.report = Rescan.statistic s w.contents) := by
  intro w
  have h : IsSummed s w := (IsSummed.nil s).pushAll hs hexact
  refine ⟨?_, h.report_integers⟩
  rintro rfl hne
  exact h.report_sum hne

/-- A half leaves, and a text never came. -/
theorem a_half_is_forgotten :
    let push (v : Json) (b : Bound) : Push := ⟨v, b, 0⟩
    let ps := [push (.ofExtended (Binary64.ofDecimal ⟨false, 5, -1⟩)) (.count 2),
      push (.ofInt 1) (.count 2), push (.string "a") (.count 0), push (.ofInt 4) (.count 2)]
    let w := ((Window.listened (.start .average) : Window Aggregate).pushAll ps).2
    Window.IsExact (.listened (.start .average)) ps ∧
      w.report.map Json.write = .ok "2.5".toList := by
  intro push ps w
  have hexact : Window.IsExact (.listened (.start .average)) ps := by decide +kernel
  obtain ⟨-, hreport⟩ := unrounded_sums_are_forgotten .average (by decide) ps hexact
  exact ⟨hexact, (congrArg (Except.map Json.write) (hreport (by decide +kernel)
    (by decide +kernel))).trans (by decide +kernel)⟩

/-- **Numbers that have left a window can still be seen in its statistic.**  The window holds
nothing but one in the end, and yet

* after ten to the sixteenth has come and gone the sum is zero, and so is the mean;
* after a sum has overflowed there is none any more, though the window was empty in between. -/
theorem evicted_numbers_leave_a_residue :
    let push (v : Json) (capacity : Nat) : Push := ⟨v, .count capacity, 0⟩
    let float (exponent : Int) : Json := .ofExtended (Binary64.ofDecimal ⟨false, 1, exponent⟩)
    let after (s : Statistic) (ps : List Push) :=
      ((Window.listened (.start s) : Window Aggregate).pushAll ps).2
    let large := [push (float 16) 1, push (.ofInt 1) 1]
    let overflow := [push (float 308) 2, push (float 308) 2, push (.ofInt 0) 0, push (.ofInt 1) 1]
    ((after .sum large).contents.map Json.write = ["1".toList] ∧
      (after .sum large).report.map Json.write = .ok "0.0".toList ∧
      (after .average large).report.map Json.write = .ok "0.0".toList) ∧
    (after .sum (overflow.take 3)).contents.length = 0 ∧
    (after .sum overflow).contents.map Json.write = ["1".toList] ∧
    (after .sum overflow).report.map Json.write = .ok "null".toList ∧
    (Rescan.statistic .sum [Json.ofInt 1]).map Json.write = .ok "1.0".toList := by
  decide +kernel

end LiveQuery
