import LiveQuery.Proofs.Window.Pushes
import LiveQuery.Window.Aggregate
import Mathlib.Data.List.DropRight

/-!
# Proofs/Window/Contents — what a window holds after a push

An eviction looks at the oldest entry and stops at the first that may stay.  What it leaves is said
here without it: the last so many entries, or **all those that are not too old, wherever they
stand** (`push_leaves_what_the_bound_allows`).

For a bound on the age this rests on the order of the entries.  While the times of the pushes never
go back, the entries stand in the order of their admission (`InOrder`), so an entry after one that
is young enough is young enough as well (`kept_age`).  Pushes keep the order whatever their bounds
are (`InOrder.push`), since what stays of a list in order is in order.
-/

namespace LiveQuery

variable {σ : Type} {es : List Entry} {w : Window σ} {p : Push} {now t : Nat}

/-- **Entries in the order of their admission**, none of them admitted after the present. -/
structure InOrder (es : List Entry) (now : Nat) : Prop where
  sorted : es.Pairwise fun e f => e.admitted ≤ f.admitted
  admitted_le : ∀ e ∈ es, e.admitted ≤ now

namespace InOrder

theorem nil (now : Nat) : InOrder [] now := ⟨.nil, by simp⟩

theorem mono (h : InOrder es now) (hle : now ≤ t) : InOrder es t :=
  ⟨h.sorted, fun e he => Nat.le_trans (h.admitted_le e he) hle⟩

theorem sublist {fs : List Entry} (h : InOrder es now) (hsub : fs.Sublist es) : InOrder fs now :=
  ⟨h.sorted.sublist hsub, fun e he => h.admitted_le e (hsub.subset he)⟩

/-- What comes in at the present time comes in last. -/
theorem concat (h : InOrder es p.now) : InOrder (es ++ [p.entry]) p.now where
  sorted := by
    rw [List.pairwise_append]
    exact ⟨h.sorted, List.pairwise_singleton .., by simpa [Push.entry] using h.admitted_le⟩
  admitted_le e he := by
    rcases List.mem_append.mp he with he | he
    · exact h.admitted_le e he
    · simp [List.mem_singleton.mp he, Push.entry]

end InOrder

/-! ## What stays -/

/-- **What a bound allows of some entries**: the last so many, or all those not older than so
long. -/
def Bound.allowed (now : Nat) (es : List Entry) : Bound → List Entry
  | .count capacity => es.rtake (min capacity es.length)
  | .age limit => es.filter fun e => now - e.admitted ≤ limit

/-- What comes in is not too old. -/
theorem Bound.getLast?_allowed_age (limit : Nat) (es : List Entry) (p : Push) :
    ((age limit).allowed p.now (es ++ [p.entry])).getLast? = some p.entry := by
  have hself : [p.entry].filter (fun e => p.now - e.admitted ≤ limit) = [p.entry] := by
    simp [Push.entry]
  rw [allowed, List.filter_append, hself, List.getLast?_concat]

namespace Window

/-- **A bound on the age keeps the entries that are not too old**, if they are in order. -/
theorem kept_age (d now : Nat) (h : es.Pairwise fun e f => e.admitted ≤ f.admitted) :
    kept (.age d) now es = es.filter fun e => now - e.admitted ≤ d := by
  induction es with
  | nil => rfl
  | cons e es ih =>
    obtain ⟨hfirst, hrest⟩ := List.pairwise_cons.mp h
    rw [kept, expired]
    by_cases hold : d < now - e.admitted
    · rw [if_pos (decide_eq_true hold), ih hrest, List.filter_cons,
        if_neg (by rw [decide_eq_true_eq]; omega)]
    · -- Whatever comes after an entry that may stay may stay as well.
      have hyoung : ∀ f ∈ e :: es, decide (now - f.admitted ≤ d) = true := by
        intro f hf
        rw [decide_eq_true_eq]
        rcases List.mem_cons.mp hf with rfl | hf
        · omega
        · have := hfirst f hf
          omega
      rw [if_neg (by rw [decide_eq_true_eq]; exact hold), List.filter_eq_self.mpr hyoung]

/-- **What stays is what the bound allows**, if the entries are in order. -/
theorem kept_eq_allowed (b : Bound) (h : InOrder es now) : kept b now es = b.allowed now es := by
  match b with
  | .age limit => exact kept_age limit now h.sorted
  | .count capacity =>
    rw [kept_count, Bound.allowed, List.rtake]
    congr 1
    omega

variable [Listener σ]

/-- **A push lets its value in and keeps what its bound allows, or it changes no entry.** -/
theorem entries_push (w : Window σ) (p : Push) :
    ((w.push p.value p.bound p.now).1 = .ok () ∧
        (w.push p.value p.bound p.now).2.entries = kept p.bound p.now (w.entries ++ [p.entry])) ∨
      ∃ e, (w.push p.value p.bound p.now).1 = .error e ∧
        (w.push p.value p.bound p.now).2.entries = w.entries := by
  obtain ⟨es, _ | l⟩ := w
  · exact .inl ⟨rfl, by rw [push, evictExpired_eq]; rfl⟩
  · rcases hanswer : Listener.accept l p.value with ⟨e | ⟨⟩, l'⟩
    · rw [push_of_reject hanswer]
      exact .inr ⟨e, rfl, rfl⟩
    · rw [push_of_accept hanswer]
      exact .inl ⟨rfl, rfl⟩

end Window

/-! ## Pushes keep the order -/

variable [Listener σ]

theorem InOrder.push (h : InOrder w.entries p.now) :
    InOrder (w.push p.value p.bound p.now).2.entries p.now := by
  rcases w.entries_push p with ⟨-, hentries⟩ | ⟨e, -, hentries⟩
  · rw [hentries]
    exact h.concat.sublist (Window.kept_suffix ..).sublist
  · rw [hentries]
    exact h

/-- **…and so do all pushes** whose times never go back. -/
theorem InOrder.pushAll {ps : List Push} (h : ∀ p ∈ ps, InOrder w.entries p.now)
    (hw : InOrder w.entries t) (htimes : ps.Pairwise fun p q => p.now ≤ q.now)
    (ht : ∀ p ∈ ps, p.now ≤ t) : InOrder (w.pushAll ps).2.entries t := by
  induction ps generalizing w with
  | nil => exact hw
  | cons p ps ih =>
    obtain ⟨hlater, htimes⟩ := List.pairwise_cons.mp htimes
    obtain ⟨hp, hps⟩ := List.forall_mem_cons.mp ht
    have hpush := (h p List.mem_cons_self).push
    exact ih (fun q hq => hpush.mono (hlater q hq)) (hpush.mono hp) htimes hps

/-- **A push leaves what its bound allows.**  Values were pushed into an empty window, with a
listener or without one, under any bounds and at times that never go back; then one more is pushed.

* If it is let in, the window holds what the bound allows of its entries and the new one.
* If the bound is on the age, the new one is among them, and so is whatever is exactly as old as it
  may be.
* If it is not let in, every entry stays as it is. -/
theorem push_leaves_what_the_bound_allows (l : Option σ) (ps : List Push) (p : Push)
    (htimes : (ps ++ [p]).Pairwise fun p q => p.now ≤ q.now) :
    let w := ((⟨[], l⟩ : Window σ).pushAll ps).2
    let pushed := w.push p.value p.bound p.now
    (pushed.1 = .ok () →
      pushed.2.entries = p.bound.allowed p.now (w.entries ++ [p.entry]) ∧
      ∀ limit, p.bound = .age limit → pushed.2.entries.getLast? = some p.entry ∧
        ∀ e ∈ w.entries, p.now - e.admitted = limit → e ∈ pushed.2.entries) ∧
    ∀ e, pushed.1 = .error e → pushed.2.entries = w.entries := by
  intro w pushed
  obtain ⟨hsorted, -, hlast⟩ := List.pairwise_append.mp htimes
  have horder : InOrder w.entries p.now :=
    InOrder.pushAll (fun _ _ => .nil _) (.nil _) hsorted fun q hq => hlast q hq p (by simp)
  rcases w.entries_push p with ⟨hanswer, hentries⟩ | ⟨e, hanswer, hentries⟩
  · rw [Window.kept_eq_allowed _ horder.concat] at hentries
    refine ⟨fun _ => ⟨hentries, fun limit hbound => ?_⟩, fun e he => ?_⟩
    · rw [hentries, hbound]
      exact ⟨Bound.getLast?_allowed_age .., fun e he hage =>
        List.mem_filter.mpr ⟨List.mem_append_left _ he, by simp [hage]⟩⟩
    · exact absurd (hanswer.symm.trans he) (by simp)
  · exact ⟨fun hok => absurd (hanswer.symm.trans hok) (by simp), fun _ _ => hentries⟩

/-- Under a bound on the age, then one on the number, then a smaller age: a text is refused, and the
number of time 2 is exactly as old as it may be at time 7. -/
theorem entry_at_the_limit_stays :
    let push (v : Json) (b : Bound) (now : Nat) : Push := ⟨v, b, now⟩
    let ps := [push (.ofInt 1) (.age 9) 0, push (.ofInt 2) (.age 9) 2,
      push (.string "a") (.count 0) 2, push (.ofInt 3) (.count 2) 2]
    let p := push (.ofInt 4) (.age 5) 7
    let w := ((Window.listened (.start .sum) : Window Aggregate).pushAll ps).2
    (ps ++ [p]).Pairwise (fun p q => p.now ≤ q.now) ∧
      (w.push p.value p.bound p.now).2.entries
        = [⟨.ofInt 2, 2⟩, ⟨.ofInt 3, 2⟩, ⟨.ofInt 4, 7⟩] := by
  intro push ps p w
  have htimes : (ps ++ [p]).Pairwise fun p q => p.now ≤ q.now := by simp [ps, p, push]
  obtain ⟨hpushed, -⟩ := push_leaves_what_the_bound_allows (some (Aggregate.start .sum)) ps p htimes
  exact ⟨htimes, (hpushed rfl).1.trans rfl⟩

end LiveQuery
