import LiveQuery.Proofs.Feed.Sound
import Mathlib.Data.List.Induction

/-!
# Proofs/Feed/Peak — a feed has no more slots than it ever needed at once

A new subscriber takes the first free slot, and a slot is added only where all are occupied
(`takesLowest_occupy`).  So the table grows exactly when as many are occupied as never before:
`length_slots_step` says that after an event there are as many slots as before it, or as many as
were occupied at some moment of it, whichever is more.  Over a run this adds up to the **peak**.

An abandoned request has two moments, with its subscriber and without it.
-/

namespace LiveQuery.Feed

variable {f : Feed} {slots slots' : List (Option Nat)} {t : Ticket}

/-! ## The lowest free slot -/

/-- **A ticket takes the lowest slot that is free**: the slots below it are occupied, and it is new
only if all slots are. -/
inductive TakesLowest (t : Ticket) : List (Option Nat) → List (Option Nat) → Prop where
  | free (before after : List (Option Nat)) (hbefore : ∀ s ∈ before, s.isSome = true)
      (hslot : t.slot = before.length) :
    TakesLowest t (before ++ none :: after) (before ++ some t.id :: after)
  | new (slots : List (Option Nat)) (hslots : ∀ s ∈ slots, s.isSome = true)
      (hslot : t.slot = slots.length) :
    TakesLowest t slots (slots ++ [some t.id])

/-- An occupied slot in front is passed by. -/
theorem TakesLowest.cons (h : TakesLowest t slots slots') (id : Nat) :
    TakesLowest ⟨t.slot + 1, t.id⟩ (some id :: slots) (some id :: slots') := by
  cases h with
  | free before after hbefore hslot =>
    exact .free (some id :: before) after (List.forall_mem_cons.mpr ⟨rfl, hbefore⟩)
      (congrArg (· + 1) hslot)
  | new _ hslots hslot =>
    exact .new (some id :: slots) (List.forall_mem_cons.mpr ⟨rfl, hslots⟩)
      (congrArg (· + 1) hslot)

theorem takesLowest_occupy (slots : List (Option Nat)) (id : Nat) :
    TakesLowest ⟨(occupy slots id).1, id⟩ slots (occupy slots id).2 := by
  induction slots with
  | nil => exact .new [] (fun _ hs => absurd hs List.not_mem_nil) rfl
  | cons s slots ih =>
    cases s with
    | none => exact .free [] slots (fun _ hs => absurd hs List.not_mem_nil) rfl
    | some a =>
      rw [occupy_some_cons]
      exact ih.cons a

/-- **A slot is added where it is needed**: there are as many slots as before, or as many as are
occupied now. -/
theorem TakesLowest.length_eq (h : TakesLowest t slots slots') :
    slots'.length = max slots.length (slots'.countP Option.isSome) := by
  cases h with
  | free before after hbefore hslot =>
    have hlength : (before ++ some t.id :: after).length = (before ++ none :: after).length := by
      rw [List.length_append, List.length_append, List.length_cons, List.length_cons]
    rw [← hlength]
    exact (Nat.max_eq_left List.countP_le_length).symm
  | new _ hslots hslot =>
    have hall : ∀ s ∈ slots ++ [some t.id], s.isSome = true := fun s hs =>
      (List.mem_append.mp hs).elim (hslots s) fun hnew => List.mem_singleton.mp hnew ▸ rfl
    rw [List.countP_eq_length.mpr hall, List.length_append]
    exact (Nat.max_eq_right (Nat.le_add_right _ _)).symm

/-- **What a subscriber is granted** is the lowest free slot. -/
theorem takesLowest_subscribe {accepts : Bool} {capacity : Capacity}
    (h : (f.subscribe accepts capacity).1 = some t) :
    TakesLowest t f.slots (f.subscribe accepts capacity).2.slots := by
  rw [subscribe_eq] at h ⊢
  split at h
  case isTrue hopen =>
    obtain rfl := Option.some.inj h
    rw [if_pos hopen]
    exact takesLowest_occupy f.slots f.nextId
  case isFalse => cases h

/-! ## The peak -/

/-- **How many slots are occupied at the moments of an event.** -/
def crowd (f : Feed) : Event → List Nat
  | .abandon accepts capacity =>
    [(f.subscribe accepts capacity).2.occupied, (f.step (.abandon accepts capacity)).occupied]
  | e => [(f.step e).occupied]

/-- **The largest number of slots that were occupied at one moment** of a run from the beginning. -/
def peak (cache : Cache) (es : List Event) : Nat :=
  (history step crowd (idle cache) es).foldl max 0

theorem occupied_le_length (f : Feed) : f.occupied ≤ f.slots.length := List.countP_le_length

theorem length_unsubscribe (f : Feed) (t : Ticket) :
    (f.unsubscribe t).slots.length = f.slots.length := by
  rw [unsubscribe]
  split
  · exact List.length_set
  · rfl

/-- Nothing but a subscription adds a slot. -/
theorem length_eq_max {g : Feed} (h : g.slots.length = f.slots.length) :
    g.slots.length = max f.slots.length g.occupied := by
  rw [← h]
  exact (Nat.max_eq_left (occupied_le_length g)).symm

theorem length_letIn (f : Feed) (capacity : Capacity) :
    (f.letIn capacity).slots.length = max f.slots.length (f.letIn capacity).occupied :=
  (takesLowest_occupy f.slots f.nextId).length_eq

theorem length_hand (f : Feed) (v : Json) : (f.hand v).slots.length = f.slots.length := by
  rw [hand, offer_slots]
  exact List.length_map _

/-- **After an event there are as many slots as before, or as many as were occupied meanwhile.** -/
theorem length_slots_step (f : Feed) (e : Event) :
    (f.step e).slots.length = (f.crowd e).foldl max f.slots.length := by
  cases e with
  | subscribe accepts capacity =>
    change _ = max f.slots.length (f.step (.subscribe accepts capacity)).occupied
    rw [step_subscribe]
    split
    · exact length_letIn f capacity
    · exact length_eq_max rfl
  | abandon accepts capacity =>
    change _ = max (max f.slots.length (f.subscribe accepts capacity).2.occupied)
      (f.step (.abandon accepts capacity)).occupied
    rw [step_abandon, subscribe_eq]
    split
    · have hleft : ((f.letIn capacity).leave f.nextTicket).slots.length
          = (f.letIn capacity).slots.length := length_unsubscribe _ _
      rw [length_eq_max hleft, length_letIn]
    · rw [Nat.max_assoc, Nat.max_self]
      exact length_eq_max rfl
  | unsubscribe t => exact length_eq_max (length_unsubscribe f t)
  | discard id => exact length_eq_max rfl
  | receive id =>
    refine length_eq_max ?_
    rw [step, receive_snd]
  | line text =>
    refine length_eq_max ?_
    rw [step, line_eq]
    split
    · split
      · rfl
      · cases recordOf? text with
        | none => rfl
        | some v => exact length_hand f v
    · rfl
  | lose =>
    refine length_eq_max ?_
    rw [step]
    split
    · exact List.length_map _
    · rfl
  | lookup key => exact length_eq_max rfl
  | stats => exact length_eq_max rfl

/-- **There are as many slots as the peak.** -/
theorem length_slots_run (cache : Cache) (es : List Event) :
    ((idle cache).run es).slots.length = peak cache es := by
  induction es using List.reverseRecOn with
  | nil => rfl
  | append_singleton es e ih =>
    rw [run_concat, length_slots_step, ih, peak, peak, history_concat, List.foldl_append]
    rfl

theorem le_foldl_max (l : List Nat) (n : Nat) : n ≤ l.foldl max n := by
  induction l generalizing n with
  | nil => exact Nat.le_refl n
  | cons m l ih => exact Nat.le_trans (Nat.le_max_left n m) (ih (max n m))

/-- **No slot is ever taken away.** -/
theorem length_slots_le_run (f : Feed) (es : List Event) :
    f.slots.length ≤ (f.run es).slots.length := by
  induction es using List.reverseRecOn with
  | nil => exact Nat.le_refl _
  | append_singleton es e ih =>
    rw [run_concat, length_slots_step]
    exact Nat.le_trans ih (le_foldl_max _ _)

/-- **The slots are no more than there had to be.**  After any run,

* there are as many as were ever occupied at one moment, and there will not be fewer later;
* a subscriber that is let in, for as short as it may be, takes the lowest slot that is free, and a
  new one only where all are occupied. -/
theorem slots_are_as_many_as_needed (cache : Cache) (es : List Event) :
    let f := (idle cache).run es
    f.slots.length = peak cache es ∧
    (∀ later, f.slots.length ≤ (f.run later).slots.length) ∧
    ∀ accepts capacity t, (f.subscribe accepts capacity).1 = some t →
      TakesLowest t f.slots (f.subscribe accepts capacity).2.slots :=
  ⟨length_slots_run cache es, length_slots_le_run _, fun _ _ _ h => takesLowest_subscribe h⟩

/-- Three were let in, the second left, and a fourth gave up at once: it stood in the slot of the
second, and so does the next one.  A request that is refused takes no slot. -/
theorem slot_of_the_second_is_taken_again :
    let es := [.subscribe false 1, .subscribe true 1, .abandon true 1, .subscribe true 1,
      .subscribe true 1, .unsubscribe ⟨1, 2⟩, .abandon true 1]
    let f := (idle (.empty "key" 4)).run es
    (f.slots.length = peak (.empty "key" 4) es ∧ f.slots.length = 3 ∧ f.occupied = 2) ∧
    (f.subscribe true 1).1 = some ⟨1, 5⟩ ∧
    TakesLowest ⟨1, 5⟩ f.slots (f.subscribe true 1).2.slots := by
  intro es f
  obtain ⟨hpeak, -, hlowest⟩ := slots_are_as_many_as_needed (.empty "key" 4) es
  have hgranted : (f.subscribe true 1).1 = some ⟨1, 5⟩ := by decide
  exact ⟨⟨hpeak, by decide, by decide⟩, hgranted, hlowest true 1 _ hgranted⟩

end LiveQuery.Feed
