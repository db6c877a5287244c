import LiveQuery.Proofs.Feed.Seat
import Mathlib.Data.List.Induction

/-!
# Proofs/Feed/Observed — what a run of a feed grants, hands out and shows

Three histories of a run are what the laws of a feed speak of.

* `grants`: the tickets, each with the capacity asked for.  From the beginning of a feed the ids
  are `0, 1, 2, …` in the order of the grants (`map_id_grants`), so **no id is granted twice**.
* `arrivals`: the records that reach a subscriber while it holds its slot and listens, each with
  the number of records that wait in its mailbox at that moment.
* `receipts`: what a subscriber finds, look after look.

The last two are read off the subscriber's seat (`Shows.arrivals_eq`, `Shows.receipts_eq`), and an
id that was not granted yet has neither (`observed_eq_nil`).
-/

namespace LiveQuery

/-- **A ticket and the capacity it was asked for with.** -/
structure Grant where
  ticket : Ticket
  capacity : Capacity
deriving DecidableEq, Repr

/-- **A record that reaches a subscriber**, and how many records wait in its mailbox by then. -/
structure Arrival where
  record : Json
  waiting : Nat
deriving Repr

/-- The record of a receipt, if it is one. -/
def Receipt.record? : Receipt → Option Json
  | .record v => some v
  | _ => none

namespace Seat

/-- The record that an event brings to a seat: its subscriber holds a slot and listens. -/
def arrival (s : Seat) : Feed.Event → List Arrival
  | .line text =>
    match Feed.recordOf? text, s.mailbox with
    | some v, some box => if s.held then [⟨v, box.waiting.length⟩] else []
    | _, _ => []
  | _ => []

/-- What the subscriber of a seat finds when it looks. -/
def receipt (t : Ticket) (s : Seat) : Feed.Event → List Receipt
  | .receive id => if id = t.id then [s.look] else []
  | _ => []

end Seat

namespace Feed

variable {f : Feed} {t : Ticket} {id : Nat} {es : List Event}

/-! ## Grants -/

/-- **The grant that an event makes**: a request that is abandoned is granted like any other. -/
def grant (f : Feed) : Event → List Grant
  | .subscribe accepts capacity | .abandon accepts capacity =>
    ((f.subscribe accepts capacity).1.map (Grant.mk · capacity)).toList
  | _ => []

/-- The grants of a run. -/
def grants (f : Feed) (es : List Event) : List Grant := history step grant f es

theorem grant_subscribe (f : Feed) (accepts : Bool) (capacity : Capacity) :
    f.grant (.subscribe accepts capacity)
      = if f.connected || accepts then [⟨f.nextTicket, capacity⟩] else [] := by
  rw [grant, subscribe_eq]
  split <;> rfl

theorem grant_abandon (f : Feed) (accepts : Bool) (capacity : Capacity) :
    f.grant (.abandon accepts capacity) = f.grant (.subscribe accepts capacity) := rfl

/-- An event grants the next id, or nothing. -/
theorem map_id_grant (f : Feed) (e : Event) :
    List.range f.nextId ++ (f.grant e).map (·.ticket.id) = List.range (f.step e).nextId := by
  have hnone : List.range f.nextId ++ [] = List.range f.nextId := List.append_nil _
  cases e with
  | subscribe accepts capacity =>
    rw [grant_subscribe, step_subscribe]
    split
    · exact List.range_succ.symm
    · exact hnone
  | abandon accepts capacity =>
    rw [grant_abandon, grant_subscribe, step_abandon]
    split
    · rw [leave, unsubscribe_eq]
      exact List.range_succ.symm
    · exact hnone
  | unsubscribe u => rw [step, unsubscribe_eq]; exact hnone
  | discard id => exact hnone
  | receive id =>
    rw [step, receive_snd]
    exact hnone
  | line text =>
    rw [step, line_eq]
    split
    · split
      · exact hnone
      · cases recordOf? text <;> exact hnone
    · exact hnone
  | lose =>
    rw [step]
    split <;> exact hnone
  | lookup key => exact hnone
  | stats => exact hnone

/-- **The ids are granted in order, each once**, and the next one is their number. -/
theorem map_id_grants (cache : Cache) (es : List Event) :
    (grants (idle cache) es).map (·.ticket.id) = List.range ((idle cache).run es).nextId := by
  induction es using List.reverseRecOn with
  | nil => rfl
  | append_singleton es e ih =>
    rw [grants, history_concat, List.map_append, ← grants, ih, run_concat]
    exact map_id_grant _ e

/-- Ids only grow. -/
theorem nextId_le_step (f : Feed) (e : Event) : f.nextId ≤ (f.step e).nextId := by
  have h := congrArg List.length (map_id_grant f e)
  rw [List.length_append, List.length_range, List.length_range] at h
  omega

/-! ## Arrivals and receipts -/

/-- **The record that an event brings to a subscriber**: the connection yields a line with a record
while the subscriber holds its slot and listens. -/
def arrival (id : Nat) (f : Feed) : Event → List Arrival
  | .line text =>
    match recordOf? text, f.mailboxes.get? id with
    | some v, some box => if f.connected && f.holds id then [⟨v, box.waiting.length⟩] else []
    | _, _ => []
  | _ => []

/-- **The records that reach a subscriber during a run**, in the order of the lines. -/
def arrivals (id : Nat) (f : Feed) (es : List Event) : List Arrival :=
  history step (arrival id) f es

/-- What a subscriber finds at an event, if it looks. -/
def receipt (id : Nat) (f : Feed) : Event → List Receipt
  | .receive j => if j = id then [(f.receive id).1] else []
  | _ => []

/-- **What a subscriber finds during a run**, look after look. -/
def receipts (id : Nat) (f : Feed) (es : List Event) : List Receipt :=
  history step (receipt id) f es

/-- The records that a subscriber receives during a run. -/
def received (id : Nat) (f : Feed) (es : List Event) : List Json :=
  (receipts id f es).filterMap Receipt.record?

/-- The arrivals at a granted ticket are those at its seat. -/
theorem Shows.arrival_eq {s : Seat} (h : Shows t f s) (e : Event) :
    arrival t.id f e = s.arrival e := by
  obtain ⟨hf, -, rfl⟩ := h
  cases e with
  | line text =>
    rw [arrival, Seat.arrival, seat]
    cases recordOf? text with
    | none => rfl
    | some v =>
      cases f.mailboxes.get? t.id with
      | none => rfl
      | some box =>
        cases hheld : f.holds t.id with
        | false => rw [Bool.and_false]
        | true => rw [hf.connected_of_mem (holds_iff.mp hheld), Bool.and_true]
  | _ => rfl

/-- The receipts of a granted ticket are those of its seat. -/
theorem Shows.receipt_eq {s : Seat} (h : Shows t f s) (e : Event) :
    receipt t.id f e = s.receipt t e := by
  obtain ⟨-, -, rfl⟩ := h
  cases e with
  | receive j => rw [receipt, Seat.receipt, receive_fst]
  | _ => rfl

theorem Shows.arrivals_eq {s : Seat} (h : Shows t f s) (es : List Event) :
    arrivals t.id f es = history (Seat.step t) Seat.arrival s es :=
  h.history_eq (fun _ _ e h => h.arrival_eq e) es

theorem Shows.receipts_eq {s : Seat} (h : Shows t f s) (es : List Event) :
    receipts t.id f es = history (Seat.step t) (Seat.receipt t) s es :=
  h.history_eq (fun _ _ e h => h.receipt_eq e) es

/-! ## Before and after the grant -/

/-- Nothing reaches an id without a mailbox. -/
theorem arrival_eq_nil (h : f.mailboxes.get? id = none) (e : Event) : arrival id f e = [] := by
  cases e with
  | line text =>
    rw [arrival, h]
    cases recordOf? text <;> rfl
  | _ => rfl

/-- Nothing is received by an id without a mailbox. -/
theorem filterMap_receipt_eq_nil (h : f.mailboxes.get? id = none) (e : Event) :
    (receipt id f e).filterMap Receipt.record? = [] := by
  cases e with
  | receive j =>
    rw [receipt]
    split
    case isTrue =>
      rw [receive_fst, Seat.look, seat, h]
      cases f.holds id <;> rfl
    case isFalse => rfl
  | _ => rfl

/-- **An id that a run has not granted** got no record in it. -/
theorem observed_eq_nil (hf : f.Sound) (hid : (f.run es).nextId ≤ id) :
    arrivals id f es = [] ∧ received id f es = [] := by
  induction es using List.reverseRecOn with
  | nil => exact ⟨rfl, rfl⟩
  | append_singleton es e ih =>
    rw [run_concat] at hid
    have hle : (f.run es).nextId ≤ id := Nat.le_trans (nextId_le_step _ e) hid
    have hbox : (f.run es).mailboxes.get? id = none := (hf.run es).get?_eq_none id hle
    obtain ⟨harr, hrec⟩ := ih hle
    constructor
    · rw [arrivals, history_concat, ← arrivals, harr, List.nil_append]
      exact arrival_eq_nil hbox e
    · rw [received, receipts, history_concat, List.filterMap_append, ← receipts, ← received, hrec,
        List.nil_append]
      exact filterMap_receipt_eq_nil hbox e

/-- **The seat that a request is granted**: the slot and an empty mailbox. -/
theorem shows_of_subscribe (hf : f.Sound) {accepts : Bool} {capacity : Capacity}
    (h : (f.subscribe accepts capacity).1 = some t) :
    t = f.nextTicket ∧
      Shows t (f.step (.subscribe accepts capacity)) ⟨true, some (.empty capacity)⟩ := by
  rw [step_subscribe]
  rw [subscribe_eq] at h
  split at h
  case isTrue hopen =>
    obtain rfl : f.nextTicket = t := Option.some.inj h
    rw [if_pos hopen]
    exact ⟨rfl, hf.letIn capacity, issued_letIn f capacity, seat_nextTicket f capacity⟩
  case isFalse => cases h

/-- An abandoned request that is granted is one that was granted and gave its ticket back. -/
theorem step_abandon_of_subscribe {accepts : Bool} {capacity : Capacity}
    (h : (f.subscribe accepts capacity).1 = some t) :
    f.step (.abandon accepts capacity) = (f.step (.subscribe accepts capacity)).leave t := by
  rw [subscribe_eq] at h
  rw [step_abandon, step_subscribe]
  split at h
  case isTrue hopen =>
    obtain rfl : f.nextTicket = t := Option.some.inj h
    rw [if_pos hopen, if_pos hopen]
  case isFalse => cases h

/-- The seat that a request leaves its ticket with: the slot and an empty mailbox, or nothing at all
if it was abandoned. -/
theorem shows_of_mem_grant (hf : f.Sound) {e : Event} {g : Grant} (hg : g ∈ f.grant e) :
    g.ticket = f.nextTicket ∧ ∃ s, Shows g.ticket (f.step e) s ∧
      (s = ⟨true, some (.empty g.capacity)⟩ ∨ s = ⟨false, none⟩) := by
  have key : ∀ {accepts capacity}, g ∈ f.grant (.subscribe accepts capacity) →
      (f.subscribe accepts capacity).1 = some g.ticket ∧ g.capacity = capacity := by
    intro accepts capacity hg
    obtain ⟨t, ht, rfl⟩ := Option.map_eq_some_iff.mp (Option.mem_toList.mp hg)
    exact ⟨ht, rfl⟩
  cases e with
  | subscribe accepts capacity =>
    obtain ⟨hticket, rfl⟩ := key hg
    obtain ⟨hnext, hshows⟩ := shows_of_subscribe hf hticket
    exact ⟨hnext, _, hshows, Or.inl rfl⟩
  | abandon accepts capacity =>
    obtain ⟨hticket, rfl⟩ := key hg
    obtain ⟨hnext, hshows⟩ := shows_of_subscribe hf hticket
    refine ⟨hnext, _, ?_, Or.inr rfl⟩
    have hgone := (hshows.step (.discard g.ticket.id)).step (.unsubscribe g.ticket)
    rw [Seat.step, if_pos rfl, Seat.step, if_pos rfl] at hgone
    rw [step_abandon_of_subscribe hticket]
    exact hgone
  | _ => cases hg

/-- **A grant splits its run**: what its ticket's id gets, it gets after the grant, from the seat
that the request left it with. -/
theorem exists_shows_of_mem_grants (hf : f.Sound) {g : Grant} (hg : g ∈ f.grants es) :
    ∃ granted s after, Shows g.ticket granted s ∧
      (s = ⟨true, some (.empty g.capacity)⟩ ∨ s = ⟨false, none⟩) ∧
      f.run es = granted.run after ∧
      arrivals g.ticket.id f es = arrivals g.ticket.id granted after ∧
      received g.ticket.id f es = received g.ticket.id granted after := by
  obtain ⟨before, e, after, rfl, hmem⟩ := exists_of_mem_history hg
  have hbefore : (f.run before).Sound := hf.run before
  obtain ⟨hticket, s, hshows, hs⟩ := shows_of_mem_grant hbefore hmem
  have hid : (f.run before).nextId ≤ g.ticket.id := Nat.le_of_eq (congrArg Ticket.id hticket).symm
  have hbox := hbefore.get?_eq_none _ hid
  obtain ⟨harr, hrec⟩ := observed_eq_nil hf hid
  refine ⟨(f.run before).step e, s, after, hshows, hs, run_append f before (e :: after), ?_, ?_⟩
  · rw [arrivals, history_append, ← arrivals, harr, List.nil_append, history]
    exact congrArg (· ++ _) (arrival_eq_nil hbox e)
  · rw [received, receipts, history_append, List.filterMap_append, ← receipts, ← received, hrec,
      List.nil_append, history, List.filterMap_append]
    exact congrArg (· ++ _) (filterMap_receipt_eq_nil hbox e)

end Feed

end LiveQuery
