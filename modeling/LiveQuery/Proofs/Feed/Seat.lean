import LiveQuery.Proofs.Feed.Sound

/-!
# Proofs/Feed/Seat — one subscriber's part of a feed

Of a whole feed one subscriber sees two things: whether it still holds its slot, and its mailbox.
This **seat** is a small system of its own (`Seat.step`): lines fill the mailbox, receiving empties
it, and the slot goes with the ticket, with the subscriber's attention, or with the connection.

The main statement, `Shows.step`, says that the seat of a granted ticket moves exactly so inside
the feed, **whatever the other subscribers do**: every law about one subscriber is proved on its
seat and carried over by `Shows.history_eq`.
-/

namespace LiveQuery

/-- **One subscriber's part of a feed**: whether it holds its slot, and its mailbox while it
listens. -/
structure Seat where
  held : Bool
  mailbox : Option Mailbox

namespace Seat

/-- What a subscriber finds when it looks into its mailbox. -/
def look (s : Seat) : Receipt :=
  match s.mailbox with
  | some ⟨_, v :: _⟩ => .record v
  | _ => if s.held then .empty else .released

/-- A record is handed round: who holds a slot is offered it, and keeps the slot if it listens. -/
def hand (s : Seat) (v : Json) : Seat :=
  if s.held then ⟨s.mailbox.isSome, s.mailbox.map (Mailbox.offer v)⟩ else s

/-- **What an event does to the seat of a ticket.**  Only lines, the loss of the connection and what
names the ticket itself do anything. -/
def step (t : Ticket) (s : Seat) : Feed.Event → Seat
  | .unsubscribe u => if u = t then { s with held := false } else s
  | .discard id => if id = t.id then { s with mailbox := none } else s
  | .receive id => if id = t.id then { s with mailbox := s.mailbox.map Mailbox.take } else s
  | .line text => ((Feed.recordOf? text).map s.hand).getD s
  | .lose => { s with held := false }
  | _ => s

/-- Nothing is handed to who holds no slot. -/
theorem step_line_of_free {s : Seat} (h : s.held = false) (t : Ticket) (text : String) :
    s.step t (.line text) = s := by
  rw [step]
  cases Feed.recordOf? text with
  | none => rfl
  | some v => exact if_neg (h ▸ Bool.false_ne_true)

/-- **Who holds no slot gets none**: a new slot comes with a new id. -/
theorem held_step_of_free {s : Seat} (h : s.held = false) (t : Ticket) (e : Feed.Event) :
    (s.step t e).held = false := by
  cases e with
  | unsubscribe u =>
    rw [step]
    split
    · rfl
    · exact h
  | discard id =>
    rw [step]
    split <;> exact h
  | receive id =>
    rw [step]
    split <;> exact h
  | line text =>
    rw [step_line_of_free h]
    exact h
  | lose => rfl
  | _ => exact h

end Seat

namespace Feed

variable {f : Feed} {t : Ticket} {id : Nat}

/-- The seat of an id. -/
def seat (f : Feed) (id : Nat) : Seat := ⟨f.holds id, f.mailboxes.get? id⟩

theorem seat_held_iff : (f.seat id).held = true ↔ id ∈ f.holders := holds_iff

/-- Two seats are the same if the same id holds and has the same mailbox. -/
theorem seat_eq {s : Seat} (hheld : id ∈ f.holders ↔ s.held = true)
    (hbox : f.mailboxes.get? id = s.mailbox) : f.seat id = s := by
  obtain ⟨held, mailbox⟩ := s
  have h : f.holds id = held := Bool.eq_iff_iff.mpr (holds_iff.trans hheld)
  rw [seat, h, hbox]

/-- Looking into a mailbox shows what the seat shows. -/
theorem receive_fst (f : Feed) (id : Nat) : (f.receive id).1 = (f.seat id).look := by
  rw [receive, Seat.look, seat]
  cases f.mailboxes.get? id with
  | none => rfl
  | some box =>
    obtain ⟨capacity, waiting⟩ := box
    cases waiting <;> rfl

/-! ## Tickets -/

/-- **A ticket that was granted**: its id is in use, and if the id still holds a slot, it holds the
slot of the ticket. -/
structure Issued (f : Feed) (t : Ticket) : Prop where
  lt_nextId : t.id < f.nextId
  slot_of_mem : t.id ∈ f.holders → f.slots[t.slot]? = some (some t.id)

/-- The holder of a granted ticket is found in the slot of the ticket, or nowhere. -/
theorem Issued.mem_holders_iff (ht : f.Issued t) :
    t.id ∈ f.holders ↔ f.slots[t.slot]? = some (some t.id) :=
  ⟨ht.slot_of_mem, mem_reduceOption_of_getElem?⟩

/-- The ticket that is granted next, once it is granted. -/
theorem issued_letIn (f : Feed) (capacity : Capacity) : (f.letIn capacity).Issued f.nextTicket :=
  ⟨Nat.lt_succ_self _, fun _ => getElem?_occupy_self f.slots f.nextId⟩

namespace Issued

theorem letIn (ht : f.Issued t) (capacity : Capacity) : (f.letIn capacity).Issued t := by
  refine ⟨Nat.lt_succ_of_lt ht.lt_nextId, fun hid => ?_⟩
  rw [(holders_letIn f capacity).mem_iff, List.mem_cons] at hid
  rcases hid with heq | hid
  · exact absurd heq (Nat.ne_of_lt ht.lt_nextId)
  · exact getElem?_occupy_of_held (ht.slot_of_mem hid) f.nextId

theorem unsubscribe (hf : f.Sound) (ht : f.Issued t) (u : Ticket) :
    (f.unsubscribe u).Issued t := by
  rw [unsubscribe_eq]
  refine ⟨ht.lt_nextId, fun hid => ?_⟩
  have hmem := ((mem_vacate_iff hf.nodup u).mp hid).1
  exact getElem?_vacate hf.nodup (ht.slot_of_mem hmem) hid

theorem discard (ht : f.Issued t) (id : Nat) : (f.discard id).Issued t :=
  ⟨ht.lt_nextId, ht.slot_of_mem⟩

theorem leave (hf : f.Sound) (ht : f.Issued t) (u : Ticket) : (f.leave u).Issued t :=
  (ht.discard u.id).unsubscribe (hf.discard u.id) u

theorem receive (ht : f.Issued t) (id : Nat) : (f.receive id).2.Issued t := by
  rw [receive_snd]
  exact ⟨ht.lt_nextId, ht.slot_of_mem⟩

theorem hand (ht : f.Issued t) (v : Json) : (f.hand v).Issued t := by
  refine ⟨ht.lt_nextId, fun hid => ?_⟩
  have hslots : (f.hand v).slots = f.slots.map (Option.filter f.mailboxes.contains) :=
    offer_slots v f.slots f.mailboxes f.tally
  rw [holders_hand, List.mem_filter] at hid
  rw [hslots, List.getElem?_map, ht.slot_of_mem hid.1, Option.map_some,
    Option.filter_some_pos hid.2]

theorem lose (ht : f.Issued t) : f.lose.Issued t :=
  ⟨ht.lt_nextId, fun hid => absurd (holders_lose f ▸ hid) List.not_mem_nil⟩

theorem closeIdle (ht : f.Issued t) : f.closeIdle.Issued t := ⟨ht.lt_nextId, ht.slot_of_mem⟩

/-- **A granted ticket stays one**, whatever happens. -/
theorem step (hf : f.Sound) (ht : f.Issued t) (e : Event) : (f.step e).Issued t :=
  step_of_moves (P := (Issued · t)) ht ht.letIn
    (fun capacity => (ht.letIn capacity).leave (hf.letIn capacity) _) (ht.unsubscribe hf) ht.discard
    ht.receive (fun _ => ht.closeIdle) ht.hand ht.lose e

end Issued

/-! ## The seat under each move -/

theorem seat_nextTicket (f : Feed) (capacity : Capacity) :
    (f.letIn capacity).seat f.nextId = ⟨true, some (.empty capacity)⟩ := by
  refine seat_eq (iff_of_true ?_ rfl) ?_
  · rw [(holders_letIn f capacity).mem_iff]
    exact List.mem_cons_self
  · rw [get?_letIn, if_pos rfl]

theorem seat_letIn (ht : f.Issued t) (capacity : Capacity) :
    (f.letIn capacity).seat t.id = f.seat t.id := by
  have hne : t.id ≠ f.nextId := Nat.ne_of_lt ht.lt_nextId
  refine seat_eq ?_ ?_
  · rw [seat_held_iff, (holders_letIn f capacity).mem_iff, List.mem_cons]
    exact or_iff_right hne
  · rw [get?_letIn, if_neg hne]
    rfl

theorem seat_unsubscribe (hf : f.Sound) (ht : f.Issued t) (u : Ticket) :
    (f.unsubscribe u).seat t.id = (f.seat t.id).step t (.unsubscribe u) := by
  have hmem : t.id ∈ (f.unsubscribe u).holders ↔
      t.id ∈ f.holders ∧ ¬ (t.id = u.id ∧ f.slots[u.slot]? = some (some u.id)) := by
    rw [unsubscribe_eq]
    exact mem_vacate_iff hf.nodup u
  rw [Seat.step]
  split
  case isTrue heq =>
    subst heq
    refine seat_eq (iff_of_false ?_ Bool.false_ne_true) (by rw [unsubscribe_eq]; rfl)
    rw [hmem]
    exact fun h => h.2 ⟨rfl, ht.slot_of_mem h.1⟩
  case isFalse hne =>
    refine seat_eq ?_ (by rw [unsubscribe_eq]; rfl)
    rw [hmem, seat_held_iff]
    refine and_iff_left_of_imp fun hid hu => hne ?_
    -- The other ticket names the same id and slot, since no id holds two slots.
    have hslot := eq_of_getElem? hf.nodup (ht.slot_of_mem hid) (hu.1 ▸ hu.2)
    exact congrArg₂ Ticket.mk hslot.symm hu.1.symm

theorem seat_discard (f : Feed) (t : Ticket) (id : Nat) :
    (f.discard id).seat t.id = (f.seat t.id).step t (.discard id) := by
  rw [Seat.step]
  split
  case isTrue heq =>
    exact seat_eq seat_held_iff.symm ((Table.get?_erase ..).trans (if_pos heq.symm))
  case isFalse hne =>
    exact seat_eq seat_held_iff.symm ((Table.get?_erase ..).trans (if_neg (Ne.symm hne)))

theorem seat_receive (f : Feed) (t : Ticket) (id : Nat) :
    (f.receive id).2.seat t.id = (f.seat t.id).step t (.receive id) := by
  have hheld : t.id ∈ (f.receive id).2.holders ↔ t.id ∈ f.holders := by rw [receive_snd]; rfl
  have hbox := get?_receive f id t.id
  rw [Seat.step]
  split
  case isTrue heq =>
    rw [if_pos heq.symm] at hbox
    exact seat_eq (hheld.trans seat_held_iff.symm) hbox
  case isFalse hne =>
    rw [if_neg (Ne.symm hne)] at hbox
    exact seat_eq (hheld.trans seat_held_iff.symm) hbox

theorem seat_hand (hf : f.Sound) (v : Json) (id : Nat) :
    (f.hand v).seat id = (f.seat id).hand v := by
  have hbox : (f.hand v).mailboxes.get? id = if id ∈ f.holders then
      (f.mailboxes.get? id).map (Mailbox.offer v) else f.mailboxes.get? id :=
    get?_offer hf.nodup v f.mailboxes f.tally id
  rw [Seat.hand]
  split
  case isTrue hheld =>
    have hid := seat_held_iff.mp hheld
    refine seat_eq ?_ (hbox.trans (if_pos hid))
    rw [holders_hand, List.mem_filter]
    exact and_iff_right hid
  case isFalse hfree =>
    have hid : id ∉ f.holders := fun hid => hfree (seat_held_iff.mpr hid)
    refine seat_eq ?_ (hbox.trans (if_neg hid))
    rw [holders_hand, List.mem_filter]
    exact iff_of_false (fun h => hid h.1) hfree

/-- Nobody keeps a slot of a connection that is over… -/
theorem seat_lose (f : Feed) (id : Nat) : f.lose.seat id = { f.seat id with held := false } := by
  refine seat_eq (iff_of_false ?_ Bool.false_ne_true) rfl
  rw [holders_lose]
  exact List.not_mem_nil

/-- …and nobody one of a feed that was asked too much. -/
theorem seat_overask {g : Feed} {accepts : Bool} (h : f.overask accepts = some g) (id : Nat) :
    g.seat id = { f.seat id with held := false } := by
  rw [eq_of_overask h]
  exact seat_lose f id

theorem seat_leave (hf : f.Sound) (ht : f.Issued t) {u : Ticket} (hne : u.id ≠ t.id) :
    (f.leave u).seat t.id = f.seat t.id := by
  have hu : u ≠ t := fun h => hne (congrArg Ticket.id h)
  rw [leave, seat_unsubscribe (hf.discard u.id) (ht.discard u.id), seat_discard, Seat.step,
    if_neg hu, Seat.step, if_neg hne]

/-- **The seat of a granted ticket moves by its own rules**, whatever happens to the others. -/
theorem seat_step (hf : f.Sound) (ht : f.Issued t) (e : Event) :
    (f.step e).seat t.id = (f.seat t.id).step t e := by
  have hfree : f.holders = [] → (f.seat t.id).held = false := by
    intro hnil
    rw [← Bool.not_eq_true, seat_held_iff, hnil]
    exact List.not_mem_nil
  cases e with
  | subscribe accepts capacity =>
    rw [step_subscribe]
    split
    · exact seat_letIn ht capacity
    · rfl
  | abandon accepts capacity =>
    rw [step_abandon]
    split
    · rw [seat_leave (hf.letIn capacity) (ht.letIn capacity) (Nat.ne_of_gt ht.lt_nextId),
        seat_letIn ht]
      rfl
    · rfl
  | unsubscribe u => exact seat_unsubscribe hf ht u
  | discard id => exact seat_discard f t id
  | receive id => exact seat_receive f t id
  | line text =>
    rw [step]
    split
    case isFalse hc =>
      have hnobody := hfree (hf.holders_eq_nil (Bool.eq_false_iff.mpr hc))
      exact (Seat.step_line_of_free hnobody t text).symm
    case isTrue =>
      rw [line_eq]
      split
      case isTrue hv => exact (Seat.step_line_of_free (hfree (isVacant_iff.mp hv)) t text).symm
      case isFalse =>
        rw [Seat.step]
        cases recordOf? text with
        | none => rfl
        | some v => exact seat_hand hf v t.id
  | lose =>
    rw [step]
    split
    · exact seat_lose f t.id
    case isFalse hc =>
      rw [Seat.step, ← hfree (hf.holders_eq_nil (Bool.eq_false_iff.mpr hc))]
  | lookup key => rfl
  | stats => rfl

/-! ## Runs -/

/-- **A feed shows a seat**: it is sound, the ticket was granted, and this is its seat. -/
structure Shows (t : Ticket) (f : Feed) (s : Seat) : Prop where
  sound : f.Sound
  issued : f.Issued t
  seat_eq : f.seat t.id = s

/-- **The feed goes on showing the seat**, each moving by its own rules. -/
theorem Shows.step {s : Seat} (h : Shows t f s) (e : Event) : Shows t (f.step e) (s.step t e) where
  sound := h.sound.step e
  issued := h.issued.step h.sound e
  seat_eq := (seat_step h.sound h.issued e).trans (congrArg (Seat.step t · e) h.seat_eq)

/-- The seat at the end of a run. -/
theorem Shows.run {s : Seat} (h : Shows t f s) (es : List Event) :
    Shows t (f.run es) (es.foldl (Seat.step t) s) :=
  foldl_of_simulation (fun _ _ e h => h.step e) h es

/-- **What is noted of a feed is noted of the seat it shows**, if it is the same at each moment. -/
theorem Shows.history_eq {α : Type} {note : Feed → Event → List α} {note' : Seat → Event → List α}
    {s : Seat} (h : Shows t f s) (hnote : ∀ f s e, Shows t f s → note f e = note' s e)
    (es : List Event) : history Feed.step note f es = history (Seat.step t) note' s es :=
  history_congr (fun _ _ e h => h.step e) hnote h es

end Feed

end LiveQuery
