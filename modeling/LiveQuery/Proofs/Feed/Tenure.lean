import LiveQuery.Proofs.Feed.Observed

/-!
# Proofs/Feed/Tenure — a slot is taken away from its own holder only

A ticket may come back late: after its slot was freed by the end of the connection, or after it went
to somebody else.  Since no id is granted twice, **only three things end the tenure of a slot**
(`release`): its own ticket comes back, a record finds that its holder no longer listens, or the
connection is over.

The tenure is read off the holder's seat, which loses its slot at a release and at nothing else
(`Shows.held_step`), and never gets it back (`Seat.held_foldl_of_free`).
-/

namespace LiveQuery

/-- **How a holder loses its slot.** -/
inductive Release where
  /-- Its ticket came back. -/
  | returned
  /-- A record was handed round, and it no longer listened. -/
  | deaf
  /-- The connection ended or failed. -/
  | lost
deriving DecidableEq, Repr

/-- Who holds no slot gets none in a whole run. -/
theorem Seat.held_foldl_of_free {s : Seat} (h : s.held = false) (t : Ticket)
    (es : List Feed.Event) : (es.foldl (Seat.step t) s).held = false := by
  induction es generalizing s with
  | nil => exact h
  | cons e es ih => exact ih (held_step_of_free h t e)

namespace Feed

variable {f : Feed} {t : Ticket} {s : Seat} {accepts : Bool} {capacity : Capacity}

/-- **What takes the slot of a ticket from its holder.** -/
def release (t : Ticket) (f : Feed) : Event → List Release
  | .unsubscribe u => if u = t then [.returned] else []
  | .line text =>
    if f.connected && (recordOf? text).isSome && (f.mailboxes.get? t.id).isNone then [.deaf] else []
  | .lose => if f.connected then [.lost] else []
  | _ => []

/-- What takes the slot of a ticket from its holder during a run. -/
def releases (t : Ticket) (f : Feed) (es : List Event) : List Release :=
  history step (release t) f es

/-- **A holder keeps its slot at an event** unless the event is a release. -/
theorem Shows.held_step (h : Shows t f s) (hheld : s.held = true) (e : Event) :
    (s.step t e).held = true ↔ release t f e = [] := by
  have hid : t.id ∈ f.holders := seat_held_iff.mp (by rw [h.seat_eq]; exact hheld)
  have hc : f.connected = true := h.sound.connected_of_mem hid
  have hbox : f.mailboxes.get? t.id = s.mailbox := congrArg Seat.mailbox h.seat_eq
  cases e with
  | unsubscribe u =>
    rw [Seat.step, release]
    split
    · exact iff_of_false Bool.false_ne_true (List.cons_ne_nil _ _)
    · exact iff_of_true hheld rfl
  | discard id =>
    refine iff_of_true ?_ rfl
    rw [Seat.step]
    split <;> exact hheld
  | receive id =>
    refine iff_of_true ?_ rfl
    rw [Seat.step]
    split <;> exact hheld
  | line text =>
    rw [Seat.step, release, hc, hbox, Bool.true_and]
    cases recordOf? text with
    | none => exact iff_of_true hheld rfl
    | some v =>
      rw [Option.map_some, Option.getD_some, Seat.hand, if_pos hheld]
      cases s.mailbox with
      | none => exact iff_of_false Bool.false_ne_true (List.cons_ne_nil _ _)
      | some box => exact iff_of_true rfl rfl
  | lose =>
    rw [release, hc]
    exact iff_of_false Bool.false_ne_true (List.cons_ne_nil _ _)
  | _ => exact iff_of_true hheld rfl

/-- **A holder keeps its slot during a run** until its first release, and does not get it back. -/
theorem Shows.held_run (h : Shows t f s) (hheld : s.held = true) (es : List Event) :
    (es.foldl (Seat.step t) s).held = true ↔ releases t f es = [] := by
  induction es generalizing f s with
  | nil => exact iff_of_true hheld rfl
  | cons e es ih =>
    rw [releases, history, List.append_eq_nil_iff, ← h.held_step hheld e, List.foldl_cons]
    cases hnext : (s.step t e).held with
    | true =>
      rw [ih (h.step e) hnext]
      exact (and_iff_right rfl).symm
    | false =>
      rw [Seat.held_foldl_of_free hnext]
      exact iff_of_false Bool.false_ne_true fun h => Bool.false_ne_true h.1

/-- The slot of a granted ticket is its id's as long as its seat is held. -/
theorem Shows.getElem?_slots_iff (h : Shows t f s) :
    f.slots[t.slot]? = some (some t.id) ↔ s.held = true := by
  rw [← h.issued.mem_holders_iff, ← seat_held_iff, h.seat_eq]

/-- A ticket that does not name a slot and its holder frees nothing. -/
theorem step_unsubscribe_of_ne (h : f.slots[t.slot]? ≠ some (some t.id)) :
    f.step (.unsubscribe t) = f := if_neg h

/-- **A slot is only ever taken away from its own holder.**  At every moment of a feed

* no id is in two slots, and those in use were granted;
* the ids were granted in order, each once;
* a ticket that is granted keeps its slot, through any run, **exactly until** a release of its own;
* a ticket that does not name a slot and its holder changes nothing. -/
theorem slot_kept_until_released (cache : Cache) (es : List Event) :
    let f := (idle cache).run es
    (∀ i j id : Nat, f.slots[i]? = some (some id) → f.slots[j]? = some (some id) → i = j) ∧
    (∀ i id : Nat, f.slots[i]? = some (some id) → id < f.nextId) ∧
    ((idle cache).grants es).map (·.ticket.id) = List.range f.nextId ∧
    (∀ accepts capacity t, (f.subscribe accepts capacity).1 = some t → ∀ later : List Event,
      (((f.step (.subscribe accepts capacity)).run later).slots[t.slot]? = some (some t.id) ↔
        releases t (f.step (.subscribe accepts capacity)) later = [])) ∧
    ∀ u : Ticket, f.slots[u.slot]? ≠ some (some u.id) → f.step (.unsubscribe u) = f := by
  intro f
  have hf : f.Sound := sound_run cache es
  refine ⟨fun i j id => eq_of_getElem? hf.nodup, fun i id h => ?_, map_id_grants cache es, ?_,
    fun u => step_unsubscribe_of_ne⟩
  · exact hf.lt_nextId id (mem_reduceOption_of_getElem? h)
  · intro accepts capacity t ht later
    obtain ⟨-, hshows⟩ := shows_of_subscribe hf ht
    rw [(hshows.run later).getElem?_slots_iff]
    exact hshows.held_run rfl later

/-- A ticket from before the end of the connection comes back late, and the new holder of its slot
keeps it; its own ticket frees it. -/
theorem stale_ticket_evicts_nobody :
    let f := ((idle (.empty "key" 4)).run [.subscribe true 1, .lose]).step (.subscribe true 2)
    (f.run [.unsubscribe ⟨0, 0⟩, .line "1", .unsubscribe ⟨1, 1⟩]).slots[0]? = some (some 1) ∧
      (f.run [.unsubscribe ⟨0, 0⟩, .unsubscribe ⟨0, 1⟩]).slots[0]? ≠ some (some 1) := by
  intro f
  obtain ⟨-, -, -, htenure, -⟩ :=
    slot_kept_until_released (.empty "key" 4) [.subscribe true 1, .lose]
  constructor
  · exact (htenure true 2 ⟨0, 1⟩ (by decide) _).mpr (by decide)
  · exact fun h => absurd ((htenure true 2 ⟨0, 1⟩ (by decide) _).mp h) (by decide)

end Feed

end LiveQuery
