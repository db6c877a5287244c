import LiveQuery.Proofs.Feed.Connection
import LiveQuery.Proofs.Feed.Delivery

/-!
# Proofs/Feed/Independence — what the others do is nothing to a subscriber

Few events concern one subscriber (`concerns`): what the far side does, its own looks, and its own
leaving.  Its seat stands still at all others, so **two runs that agree on what concerns it look the
same to it**, however the others come, go, read slowly or give back what is not theirs.

While a subscriber listens and does not leave, only the end of the connection takes its slot or the
connection from it (`Shows.stays`).  What the others ask for is a `Capacity` here, and that matters:
**a request for more than a mailbox can hold ends the feed for everybody** (`Shows.overasked`).
-/

namespace LiveQuery

namespace Feed

variable {f : Feed} {b : Ticket} {s : Seat}

/-- **What concerns the holder of a ticket.**  A ticket with its id and another slot is not its own.
-/
def concerns (b : Ticket) : Event → Bool
  | .line _ | .lose => true
  | .receive id | .discard id => decide (id = b.id)
  | .unsubscribe t => decide (t = b)
  | _ => false

/-- What does not concern a subscriber leaves its seat as it is. -/
theorem seat_step_of_not_concerns (s : Seat) {e : Event} (h : concerns b e = false) :
    s.step b e = s := by
  cases e with
  | line text => cases h
  | lose => cases h
  | receive id => exact if_neg (of_decide_eq_false h)
  | discard id => exact if_neg (of_decide_eq_false h)
  | unsubscribe t => exact if_neg (of_decide_eq_false h)
  | _ => rfl

/-- What does not concern a subscriber shows it nothing. -/
theorem seat_receipt_of_not_concerns (s : Seat) {e : Event} (h : concerns b e = false) :
    s.receipt b e = [] := by
  cases e with
  | receive id => exact if_neg (of_decide_eq_false h)
  | _ => rfl

/-- **What a subscriber finds** depends only on what concerns it. -/
theorem Shows.receipts_filter (h : Shows b f s) (es : List Event) :
    receipts b.id f es
      = history (Seat.step b) (Seat.receipt b) s (es.filter (concerns b)) := by
  rw [h.receipts_eq]
  exact (history_filter (fun s _ => seat_step_of_not_concerns s)
    (fun s _ => seat_receipt_of_not_concerns s) s es).symm

/-- Whether an event may take a subscriber's slot: it leaves, or the connection is over. -/
def isEnd (b : Ticket) : Event → Bool
  | .unsubscribe t => decide (t = b)
  | .discard id => decide (id = b.id)
  | .lose => true
  | _ => false

/-- Who listens and holds a slot goes on doing so. -/
theorem seat_step_of_not_isEnd (hheld : s.held = true) (hbox : s.mailbox.isSome = true) {e : Event}
    (h : isEnd b e = false) :
    (s.step b e).held = true ∧ (s.step b e).mailbox.isSome = true := by
  cases e with
  | unsubscribe t =>
    have hsame : s.step b (.unsubscribe t) = s := if_neg (of_decide_eq_false h)
    rw [hsame]
    exact ⟨hheld, hbox⟩
  | discard id =>
    have hsame : s.step b (.discard id) = s := if_neg (of_decide_eq_false h)
    rw [hsame]
    exact ⟨hheld, hbox⟩
  | receive id =>
    rw [Seat.step]
    split
    · exact ⟨hheld, Option.isSome_map.trans hbox⟩
    · exact ⟨hheld, hbox⟩
  | line text =>
    rw [Seat.step]
    cases recordOf? text with
    | none => exact ⟨hheld, hbox⟩
    | some v =>
      rw [Option.map_some, Option.getD_some, Seat.hand, if_pos hheld]
      exact ⟨hbox, Option.isSome_map.trans hbox⟩
  | lose => cases h
  | _ => exact ⟨hheld, hbox⟩

/-- **A subscriber keeps its slot and its connection** until it leaves or the connection is over. -/
theorem Shows.stays (h : Shows b f s) (hheld : s.held = true) (hbox : s.mailbox.isSome = true)
    {later : List Event} (hlater : ∀ e ∈ later, isEnd b e = false) :
    (f.run later).slots[b.slot]? = some (some b.id) ∧ (f.run later).connected = true ∧
      (f.run later).tally.opened = f.tally.opened := by
  have hid : b.id ∈ f.holders := seat_held_iff.mp (by rw [h.seat_eq]; exact hheld)
  have hconnected := h.sound.connected_of_mem hid
  induction later generalizing f s with
  | nil => exact ⟨h.issued.slot_of_mem hid, hconnected, rfl⟩
  | cons e later ih =>
    obtain ⟨hhere, hrest⟩ := List.forall_mem_cons.mp hlater
    obtain ⟨hheld', hbox'⟩ := seat_step_of_not_isEnd hheld hbox hhere
    have hnext := h.step e
    have hid' : b.id ∈ (f.step e).holders :=
      seat_held_iff.mp (by rw [hnext.seat_eq]; exact hheld')
    obtain ⟨hslot, hopen, hcount⟩ :=
      ih hnext hheld' hbox' hrest hid' (hnext.sound.connected_of_mem hid')
    refine ⟨hslot, hopen, hcount.trans ?_⟩
    by_contra hne
    rw [(h.sound.guarded.counts e hne).1] at hconnected
    cases hconnected

/-- **Where anybody asks for more than a mailbox can hold**, a subscriber loses its connection and
its slot, and finds what waits for it and then the end. -/
theorem Shows.overasked (h : Shows b f s) (hheld : s.held = true) (accepts : Bool) :
    f.overask accepts = some f.lose ∧ f.lose.connected = false ∧
      ∀ box, f.mailboxes.get? b.id = some box →
        ∀ later : List Event, (∀ e ∈ later, e ≠ .discard b.id) →
          receipts b.id f.lose later = drained box.waiting (later.countP (isLook b.id)) := by
  have hid : b.id ∈ f.holders := seat_held_iff.mp (by rw [h.seat_eq]; exact hheld)
  refine ⟨?_, rfl, fun box hbox later hstay => ?_⟩
  · rw [overask, connect?, if_pos (h.sound.connected_of_mem hid)]
    rfl
  · have hlost : Shows b f.lose { f.seat b.id with held := false } :=
      ⟨h.sound.lose, h.issued.lose, seat_lose f b.id⟩
    rw [hlost.receipts_eq]
    exact receipts_of_free rfl hbox hstay

/-- **A subscriber's view does not depend on the others**, as long as nobody asks for more than a
mailbox can hold.  From a feed in which it holds a slot,

* any two runs with the same events that concern it, in the same order, show it the same, look after
  look;
* it keeps its slot, and the connection stays open and stays the same one, until it gives its ticket
  back or stops listening, or the connection is over;
* a request for more than a mailbox can hold is the end of the connection, whoever makes it, and the
  subscriber finds what waits for it and then the end. -/
theorem view_independent_of_others (cache : Cache) (es : List Event) (b : Ticket)
    (hb : ((idle cache).run es).slots[b.slot]? = some (some b.id)) :
    (∀ es₁ es₂ : List Event, es₁.filter (concerns b) = es₂.filter (concerns b) →
      receipts b.id ((idle cache).run es) es₁ = receipts b.id ((idle cache).run es) es₂) ∧
    ((((idle cache).run es).mailboxes.get? b.id).isSome = true →
      ∀ later : List Event, (∀ e ∈ later, isEnd b e = false) →
        (((idle cache).run es).run later).slots[b.slot]? = some (some b.id) ∧
        (((idle cache).run es).run later).connected = true ∧
        (((idle cache).run es).run later).tally.opened = ((idle cache).run es).tally.opened) ∧
    ∀ accepts, ((idle cache).run es).overask accepts = some ((idle cache).run es).lose ∧
      ((idle cache).run es).lose.connected = false ∧
      ∀ box, ((idle cache).run es).mailboxes.get? b.id = some box →
        ∀ later : List Event, (∀ e ∈ later, e ≠ .discard b.id) →
          receipts b.id ((idle cache).run es).lose later
            = drained box.waiting (later.countP (isLook b.id)) := by
  have hf := sound_run cache es
  have hid : b.id ∈ ((idle cache).run es).holders := mem_reduceOption_of_getElem? hb
  have hshows : Shows b ((idle cache).run es) (((idle cache).run es).seat b.id) :=
    ⟨hf, ⟨hf.lt_nextId _ hid, fun _ => hb⟩, rfl⟩
  have hheld := seat_held_iff.mpr hid
  refine ⟨fun es₁ es₂ hsame => ?_, fun hbox later hlater => ?_, hshows.overasked hheld⟩
  · rw [hshows.receipts_filter, hsame, ← hshows.receipts_filter]
  · exact hshows.stays hheld hbox hlater

/-- A stale ticket, a newcomer and a neighbour that leaves are nothing to the first subscriber. -/
theorem busy_neighbours_change_nothing :
    let f := (idle (.empty "key" 4)).run [.subscribe true 1, .subscribe false 2]
    f.slots[0]? = some (some 0) ∧
      receipts 0 f [.line "1", .line "2", .receive 0, .receive 0]
        = receipts 0 f [.abandon true 4, .unsubscribe ⟨1, 1⟩, .line "1", .subscribe false 1,
            .unsubscribe ⟨0, 3⟩, .discard 1, .line "2", .receive 0, .stats, .receive 3,
            .receive 0] :=
  ⟨by decide, (view_independent_of_others _ _ ⟨0, 0⟩ (by decide)).1 _ _ (by rfl)⟩

end Feed

end LiveQuery
