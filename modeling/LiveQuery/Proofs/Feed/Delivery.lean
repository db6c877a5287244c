import LiveQuery.Proofs.Feed.Observed
import Mathlib.Algebra.BigOperators.Group.List.Basic
import Mathlib.Algebra.Ring.Nat

/-!
# Proofs/Feed/Delivery — a subscriber gets exactly its records

A record that reaches a subscriber is taken if its mailbox has room and missed if it is full; which
of the two is known from the arrival alone (`taken`, `missed`).  The law,
`subscriber_gets_its_records`:

* what a subscriber has received and what waits in its mailbox are together the records **taken, in
  the order of the lines**;
* a released subscriber finds what waits, and after that the end (`drained`);
* the counts of the feed are the numbers of records taken and missed, over all grants.

The first is an account kept on the subscriber's seat, event by event (`Accounts.step`).  The
counts come from comparing, at each record, the grants with the holders (`PartAt.sum_map_arrival`).
-/

namespace LiveQuery

/-! ## Taken and missed -/

/-- Whether an arrival finds room in a mailbox of some capacity, which is at least one. -/
def Arrival.fits (capacity : Nat) (a : Arrival) : Bool := decide (a.waiting < max capacity 1)

/-- **The records that a mailbox takes**: those that do not find it full. -/
def taken (capacity : Nat) (as : List Arrival) : List Json :=
  (as.filter (Arrival.fits capacity)).map (·.record)

/-- **The records that a mailbox misses**: those that find it full. -/
def missed (capacity : Nat) (as : List Arrival) : List Json :=
  (as.filter fun a => !a.fits capacity).map (·.record)

theorem taken_append (capacity : Nat) (as bs : List Arrival) :
    taken capacity (as ++ bs) = taken capacity as ++ taken capacity bs := by
  rw [taken, List.filter_append, List.map_append, taken, taken]

theorem missed_append (capacity : Nat) (as bs : List Arrival) :
    missed capacity (as ++ bs) = missed capacity as ++ missed capacity bs := by
  rw [missed, List.filter_append, List.map_append, missed, missed]

/-- An arrival fits where the mailbox has room. -/
theorem fits_eq_hasRoom {capacity : Nat} {box : Mailbox} (h : box.capacity = max capacity 1)
    (v : Json) : Arrival.fits capacity ⟨v, box.waiting.length⟩ = box.hasRoom := by
  rw [Arrival.fits, Mailbox.hasRoom, Mailbox.isFull, ← h, ← decide_not]
  exact decide_eq_decide.mpr Nat.not_le.symm

theorem taken_singleton {capacity : Nat} {box : Mailbox} (h : box.capacity = max capacity 1)
    (v : Json) :
    taken capacity [⟨v, box.waiting.length⟩] = if box.hasRoom then [v] else [] := by
  rw [taken, List.filter_singleton, fits_eq_hasRoom h]
  cases box.hasRoom <;> rfl

theorem missed_singleton {capacity : Nat} {box : Mailbox} (h : box.capacity = max capacity 1)
    (v : Json) :
    missed capacity [⟨v, box.waiting.length⟩] = if box.isFull then [v] else [] := by
  rw [missed, List.filter_singleton, fits_eq_hasRoom h, Mailbox.hasRoom, Bool.not_not]
  cases box.isFull <;> rfl

/-! ## The account of a seat -/

/-- **The account of a subscriber**: what it has received so far, and what waits while it listens,
are the records taken among those that reached it. -/
structure Accounts (capacity : Nat) (s : Seat) (as : List Arrival) (rs : List Json) : Prop where
  of_listening : ∀ box, s.mailbox = some box → box.capacity = max capacity 1 ∧
    box.waiting.length ≤ max capacity 1 ∧ rs ++ box.waiting = taken capacity as
  of_gone : s.mailbox = none → rs <+: taken capacity as

namespace Accounts

variable {t : Ticket} {capacity : Nat} {s s' : Seat} {as : List Arrival} {rs : List Json}

/-- A new subscriber has received nothing, and nothing waits. -/
theorem empty (capacity : Capacity) (s : Seat)
    (h : s = ⟨true, some (.empty capacity)⟩ ∨ s = ⟨false, none⟩) :
    Accounts capacity s [] [] := by
  rcases h with rfl | rfl
  · refine ⟨fun box hbox => ?_, fun h => absurd h (Option.some_ne_none _)⟩
    obtain rfl : Mailbox.empty capacity = box := Option.some.inj hbox
    exact ⟨rfl, Nat.zero_le _, rfl⟩
  · exact ⟨fun _ h => absurd h.symm (Option.some_ne_none _), fun _ => List.prefix_rfl⟩

/-- The slot is no part of the account. -/
theorem of_mailbox_eq (h : Accounts capacity s as rs) (heq : s'.mailbox = s.mailbox) :
    Accounts capacity s' as rs :=
  ⟨fun box hbox => h.of_listening box (heq ▸ hbox), fun hbox => h.of_gone (heq ▸ hbox)⟩

/-- A subscriber that stops listening keeps what it has received. -/
theorem gone (h : Accounts capacity s as rs) (held : Bool) :
    Accounts capacity ⟨held, none⟩ as rs := by
  refine ⟨fun _ hbox => absurd hbox.symm (Option.some_ne_none _), fun _ => ?_⟩
  cases hbox : s.mailbox with
  | none => exact h.of_gone hbox
  | some box => exact ⟨box.waiting, (h.of_listening box hbox).2.2⟩

/-- **Looking moves the oldest record** from the mailbox to what was received. -/
theorem look (h : Accounts capacity s as rs) :
    Accounts capacity { s with mailbox := s.mailbox.map Mailbox.take } as
      (rs ++ [s.look].filterMap Receipt.record?) := by
  obtain ⟨held, mailbox⟩ := s
  cases mailbox with
  | none =>
    have hnone : [Seat.look ⟨held, none⟩].filterMap Receipt.record? = [] := by cases held <;> rfl
    rw [hnone, List.append_nil]
    exact h
  | some box =>
    obtain ⟨room, waiting⟩ := box
    obtain ⟨hcap, hlen, hrs⟩ := h.of_listening _ rfl
    refine ⟨fun box hbox => ?_, fun hbox => absurd hbox (Option.some_ne_none _)⟩
    obtain rfl : Mailbox.take ⟨room, waiting⟩ = box := Option.some.inj hbox
    cases waiting with
    | nil =>
      have hnone : [Seat.look ⟨held, some ⟨room, []⟩⟩].filterMap Receipt.record? = [] := by
        cases held <;> rfl
      rw [hnone, List.append_nil]
      exact ⟨hcap, hlen, hrs⟩
    | cons v waiting =>
      refine ⟨hcap, Nat.le_of_succ_le hlen, ?_⟩
      rw [← hrs]
      exact List.append_assoc rs [v] waiting

/-- **A record handed to a seat is taken or missed**, as its arrival says. -/
theorem hand (h : Accounts capacity s as rs) {text : String} {v : Json}
    (hv : Feed.recordOf? text = some v) :
    Accounts capacity (s.hand v) (as ++ s.arrival (.line text)) rs := by
  obtain ⟨held, mailbox⟩ := s
  cases mailbox with
  | none =>
    have hnone : Seat.arrival ⟨held, none⟩ (.line text) = [] := by rw [Seat.arrival, hv]
    rw [hnone, List.append_nil]
    cases held with
    | true => exact h.gone false
    | false => exact h
  | some box =>
    cases held with
    | false =>
      have hnone : Seat.arrival ⟨false, some box⟩ (.line text) = [] := by
        rw [Seat.arrival, hv]
        rfl
      rw [hnone, List.append_nil]
      exact h
    | true =>
      have hone : Seat.arrival ⟨true, some box⟩ (.line text) = [⟨v, box.waiting.length⟩] := by
        rw [Seat.arrival, hv]
        rfl
      obtain ⟨hcap, hlen, hrs⟩ := h.of_listening _ rfl
      refine ⟨fun box' hbox => ?_, fun hbox => absurd hbox (Option.some_ne_none _)⟩
      obtain rfl : box.offer v = box' := Option.some.inj hbox
      rw [hone, taken_append, taken_singleton hcap, ← hrs, Mailbox.hasRoom]
      cases hfull : box.isFull with
      | true =>
        rw [Mailbox.offer_of_full hfull]
        exact ⟨hcap, hlen, (List.append_nil _).symm⟩
      | false =>
        have hroom : box.waiting.length < max capacity 1 := by
          rw [Mailbox.isFull, decide_eq_false_iff_not, Nat.not_le, hcap] at hfull
          exact hfull
        rw [Mailbox.offer_of_room hfull]
        refine ⟨hcap, ?_, (List.append_assoc rs box.waiting [v]).symm⟩
        rw [Mailbox.put, List.length_append]
        exact hroom

/-- **The account is kept event by event.** -/
theorem step (h : Accounts capacity s as rs) (t : Ticket) (e : Feed.Event) :
    Accounts capacity (s.step t e) (as ++ s.arrival e)
      (rs ++ (s.receipt t e).filterMap Receipt.record?) := by
  have hsame : Accounts capacity s (as ++ []) (rs ++ []) := by
    rw [List.append_nil, List.append_nil]
    exact h
  cases e with
  | unsubscribe u =>
    rw [Seat.step]
    split
    · exact hsame.of_mailbox_eq rfl
    · exact hsame
  | discard id =>
    rw [Seat.step]
    split
    · exact hsame.gone s.held
    · exact hsame
  | receive id =>
    have hnone : s.arrival (.receive id) = [] := rfl
    rw [Seat.step, Seat.receipt, hnone, List.append_nil]
    split
    · exact h.look
    · rw [List.filterMap_nil, List.append_nil]
      exact h
  | line text =>
    have hnone : s.receipt t (.line text) = [] := rfl
    rw [Seat.step, hnone, List.filterMap_nil, List.append_nil]
    cases hv : Feed.recordOf? text with
    | none =>
      rw [Seat.arrival, hv, List.append_nil]
      exact h
    | some v => exact h.hand hv
  | lose => exact hsame.of_mailbox_eq rfl
  | _ => exact hsame

/-- **…and so over every run of the seat.** -/
theorem run (h : Accounts capacity s as rs) (t : Ticket) (es : List Feed.Event) :
    Accounts capacity (es.foldl (Seat.step t) s) (as ++ history (Seat.step t) Seat.arrival s es)
      (rs ++ (history (Seat.step t) (Seat.receipt t) s es).filterMap Receipt.record?) := by
  induction es generalizing s as rs with
  | nil =>
    rw [history, history, List.filterMap_nil, List.append_nil, List.append_nil]
    exact h
  | cons e es ih =>
    rw [history, history, List.filterMap_append, ← List.append_assoc, ← List.append_assoc]
    exact ih (h.step t e)

end Accounts

/-! ## After the release -/

/-- **What a released subscriber finds** in so many looks: what waits, and then the end. -/
def drained : List Json → Nat → List Receipt
  | _, 0 => []
  | [], n + 1 => .released :: drained [] n
  | v :: waiting, n + 1 => .record v :: drained waiting n

namespace Feed

variable {f : Feed} {t : Ticket} {id capacity : Nat}

/-- Whether an event is a look of a subscriber into its mailbox. -/
def isLook (id : Nat) : Event → Bool
  | .receive j => decide (j = id)
  | _ => false

/-- **A seat without a slot is drained**: nothing comes into its mailbox any more. -/
theorem receipts_of_free {s : Seat} {box : Mailbox} (hfree : s.held = false)
    (hbox : s.mailbox = some box) {es : List Event} (hstay : ∀ e ∈ es, e ≠ .discard t.id) :
    history (Seat.step t) (Seat.receipt t) s es
      = drained box.waiting (es.countP (isLook t.id)) := by
  induction es generalizing s box with
  | nil => cases box.waiting <;> rfl
  | cons e es ih =>
    obtain ⟨hhere, hrest⟩ := List.forall_mem_cons.mp hstay
    have hfree' := Seat.held_step_of_free hfree t e
    have hskip : isLook t.id e = false → s.receipt t e = [] → (s.step t e).mailbox = some box →
        history (Seat.step t) (Seat.receipt t) s (e :: es)
          = drained box.waiting ((e :: es).countP (isLook t.id)) := by
      intro hlook hnone hbox'
      rw [history, hnone, List.nil_append, ih hfree' hbox' hrest,
        List.countP_cons_of_neg (by rw [hlook]; exact Bool.false_ne_true)]
    cases e with
    | receive j =>
      by_cases hj : j = t.id
      · have hlook : isLook t.id (.receive j) = true := decide_eq_true hj
        have hbox' : (s.step t (.receive j)).mailbox = some box.take := by
          rw [Seat.step, if_pos hj, hbox, Option.map_some]
        rw [history, Seat.receipt, if_pos hj, ih hfree' hbox' hrest,
          List.countP_cons_of_pos hlook]
        obtain ⟨held, mailbox⟩ := s
        obtain rfl : held = false := hfree
        obtain rfl : mailbox = some box := hbox
        obtain ⟨room, waiting⟩ := box
        cases waiting <;> rfl
      · have hstep : s.step t (.receive j) = s := if_neg hj
        exact hskip (decide_eq_false hj) (if_neg hj) (by rw [hstep]; exact hbox)
    | discard j =>
      have hstep : s.step t (.discard j) = s := if_neg fun hj => hhere (congrArg Event.discard hj)
      exact hskip rfl rfl (by rw [hstep]; exact hbox)
    | line text =>
      have hstep := Seat.step_line_of_free hfree t text
      exact hskip rfl rfl (by rw [hstep]; exact hbox)
    | unsubscribe u =>
      refine hskip rfl rfl ?_
      rw [Seat.step]
      split <;> exact hbox
    | _ => exact hskip rfl rfl hbox

/-! ## The counts -/

/-- The record that is handed round at an event. -/
def handed? (f : Feed) : Event → Option Json
  | .line text => if f.connected then recordOf? text else none
  | _ => none

/-- How many holders have a mailbox of some kind when a record is handed round. -/
def reached (kind : Mailbox → Bool) (f : Feed) (e : Event) : Nat :=
  if (f.handed? e).isSome then f.holders.countP (hasBox kind f.mailboxes) else 0

/-- **What an event adds to the counts**: the holders with room, and those without. -/
theorem tally_step (hf : f.Sound) (e : Event) :
    (f.step e).tally.delivered = f.tally.delivered + reached Mailbox.hasRoom f e ∧
      (f.step e).tally.dropped = f.tally.dropped + reached Mailbox.isFull f e := by
  cases e with
  | subscribe accepts capacity =>
    rw [step_subscribe]
    split <;> exact ⟨rfl, rfl⟩
  | abandon accepts capacity =>
    rw [step_abandon]
    split
    · rw [leave, unsubscribe_eq]
      exact ⟨rfl, rfl⟩
    · exact ⟨rfl, rfl⟩
  | unsubscribe u =>
    rw [step, unsubscribe_eq]
    exact ⟨rfl, rfl⟩
  | receive j =>
    rw [step, receive_snd]
    exact ⟨rfl, rfl⟩
  | line text =>
    rw [step, reached, reached, handed?]
    split
    case isFalse => exact ⟨rfl, rfl⟩
    case isTrue =>
      rw [line_eq]
      split
      case isTrue hv =>
        rw [isVacant_iff.mp hv, List.countP_nil, List.countP_nil, ite_self]
        exact ⟨rfl, rfl⟩
      case isFalse =>
        cases recordOf? text with
        | none => exact ⟨rfl, rfl⟩
        | some v =>
          have htally := offer_tally hf.nodup v f.mailboxes f.tally
          exact ⟨congrArg Tally.delivered htally, congrArg Tally.dropped htally⟩
  | lose =>
    rw [step]
    split <;> exact ⟨rfl, rfl⟩
  | _ => exact ⟨rfl, rfl⟩

/-- **A part of the arrivals that is made of those at mailboxes of one kind**, as the records taken
are those at mailboxes with room. -/
structure PartAt (kind : Mailbox → Bool) (part : Nat → List Arrival → List Json) : Prop where
  nil : ∀ capacity, part capacity [] = []
  append : ∀ capacity as bs, part capacity (as ++ bs) = part capacity as ++ part capacity bs
  singleton : ∀ {capacity : Nat} {box : Mailbox}, box.capacity = max capacity 1 → ∀ v,
    part capacity [⟨v, box.waiting.length⟩] = if kind box then [v] else []

theorem partAt_taken : PartAt Mailbox.hasRoom taken := ⟨fun _ => rfl, taken_append, taken_singleton⟩

theorem partAt_missed : PartAt Mailbox.isFull missed :=
  ⟨fun _ => rfl, missed_append, missed_singleton⟩

section Counts

variable {kind : Mailbox → Bool} {part : Nat → List Arrival → List Json}

/-- An arrival counts if a record is handed round to a holder with a mailbox of the kind. -/
theorem PartAt.length_arrival (h : PartAt kind part)
    (hcap : ∀ box, f.mailboxes.get? id = some box → box.capacity = max capacity 1) (e : Event) :
    (part capacity (arrival id f e)).length
      = if (f.handed? e).isSome && (f.holds id && hasBox kind f.mailboxes id) then 1 else 0 := by
  cases e with
  | line text =>
    rw [arrival, handed?, hasBox]
    cases recordOf? text with
    | none => rw [ite_self, h.nil]; rfl
    | some v =>
      cases hbox : f.mailboxes.get? id with
      | none => rw [Option.any_none, Bool.and_false, Bool.and_false, h.nil]; rfl
      | some box =>
        have hone := h.singleton (hcap box hbox) v
        rw [Option.any_some]
        cases f.connected with
        | false => exact congrArg List.length (h.nil capacity)
        | true =>
          cases f.holds id with
          | false => exact congrArg List.length (h.nil capacity)
          | true =>
            refine (congrArg List.length hone).trans ?_
            cases kind box <;> rfl
  | _ => exact congrArg List.length (h.nil capacity)

/-- The holders are found among all ids that were granted. -/
theorem countP_range_holds (hf : f.Sound) (p : Nat → Bool) :
    (List.range f.nextId).countP (fun id => f.holds id && p id) = f.holders.countP p := by
  have hperm : ((List.range f.nextId).filter f.holds).Perm f.holders := by
    refine (List.perm_ext_iff_of_nodup (List.nodup_range.filter _) hf.nodup).mpr fun id => ?_
    rw [List.mem_filter, List.mem_range, holds_iff]
    exact and_iff_right_of_imp (hf.lt_nextId id)
  rw [← hperm.countP_eq, List.countP_filter]
  exact List.countP_congr fun id _ => by rw [Bool.and_comm]

/-- A sum of ones and zeros counts the ones. -/
theorem sum_map_ite {α : Type} (p : α → Bool) (l : List α) :
    (l.map fun a => if p a then 1 else 0).sum = l.countP p := by
  induction l with
  | nil => rfl
  | cons a l ih => rw [List.map_cons, List.sum_cons, ih, List.countP_cons, Nat.add_comm]

/-- **The account of every grant of a run**, from the beginning of the feed. -/
theorem accounts_of_mem_grants {cache : Cache} {es : List Event} {g : Grant}
    (hg : g ∈ (idle cache).grants es) :
    Shows g.ticket ((idle cache).run es) (((idle cache).run es).seat g.ticket.id) ∧
      Accounts g.capacity (((idle cache).run es).seat g.ticket.id)
        (arrivals g.ticket.id (idle cache) es) (received g.ticket.id (idle cache) es) := by
  obtain ⟨granted, s, after, hshows, hs, hrun, harr, hrec⟩ :=
    exists_shows_of_mem_grants (sound_idle cache) hg
  have hend := hshows.run after
  rw [hrun, hend.seat_eq, harr, hrec, hshows.arrivals_eq, received, hshows.receipts_eq]
  exact ⟨hend, (Accounts.empty g.capacity s hs).run g.ticket after⟩

/-- What a part of the arrivals amounts to, over all grants of a run. -/
def total (part : Nat → List Arrival → List Json) (cache : Cache) (es : List Event) : Nat :=
  (((idle cache).grants es).map fun g =>
    (part g.capacity (arrivals g.ticket.id (idle cache) es)).length).sum

/-- **What an event brings to all grants** is what it brings to the holders. -/
theorem PartAt.sum_map_arrival (h : PartAt kind part) (cache : Cache) (es : List Event)
    (e : Event) :
    (((idle cache).grants es).map fun g =>
      (part g.capacity (arrival g.ticket.id ((idle cache).run es) e)).length).sum
      = reached kind ((idle cache).run es) e := by
  let f := (idle cache).run es
  let p : Nat → Bool := fun id =>
    (f.handed? e).isSome && (f.holds id && hasBox kind f.mailboxes id)
  have hone : ∀ g ∈ (idle cache).grants es,
      (part g.capacity (arrival g.ticket.id f e)).length = if p g.ticket.id then 1 else 0 :=
    fun g hg => h.length_arrival
      (fun box hbox => ((accounts_of_mem_grants hg).2.of_listening box hbox).1) e
  rw [List.map_congr_left hone, sum_map_ite (fun g : Grant => p g.ticket.id)]
  calc ((idle cache).grants es).countP (fun g => p g.ticket.id)
      = (((idle cache).grants es).map (·.ticket.id)).countP p := by
        rw [List.countP_map]
        rfl
    _ = (List.range f.nextId).countP p := by rw [map_id_grants]
    _ = reached kind f e := by
      rw [reached, ← countP_range_holds (sound_run cache es)]
      cases hsome : (f.handed? e).isSome with
      | false => exact List.countP_eq_zero.mpr fun id _ => by simp [p, hsome]
      | true => exact List.countP_congr fun id _ => by simp [p, hsome, f]

/-- **What one more event adds to a part**: the holders with a mailbox of its kind that a record is
handed to. -/
theorem PartAt.total_concat (h : PartAt kind part) (cache : Cache) (es : List Event) (e : Event) :
    total part cache (es ++ [e])
      = total part cache es + reached kind ((idle cache).run es) e := by
  have hf := sound_run cache es
  have hold : ((idle cache).grants es).map (fun g =>
      (part g.capacity (arrivals g.ticket.id (idle cache) (es ++ [e]))).length)
      = ((idle cache).grants es).map fun g =>
        (part g.capacity (arrivals g.ticket.id (idle cache) es)).length
          + (part g.capacity (arrival g.ticket.id ((idle cache).run es) e)).length := by
    refine List.map_congr_left fun g _ => ?_
    rw [arrivals, history_concat, ← arrivals, h.append, List.length_append]
    rfl
  -- A new id has no mailbox when the event that grants it comes.
  have hnew : ∀ g ∈ ((idle cache).run es).grant e,
      (part g.capacity (arrivals g.ticket.id (idle cache) (es ++ [e]))).length = 0 := by
    intro g hg
    obtain ⟨hticket, -⟩ := shows_of_mem_grant hf hg
    have hid : ((idle cache).run es).nextId ≤ g.ticket.id :=
      Nat.le_of_eq (congrArg Ticket.id hticket).symm
    have hnone := arrival_eq_nil (hf.get?_eq_none _ hid) e
    rw [arrivals, history_concat, ← arrivals, (observed_eq_nil (sound_idle cache) hid).1,
      List.nil_append]
    exact congrArg List.length ((congrArg (part g.capacity) hnone).trans (h.nil g.capacity))
  have hzero : ((((idle cache).run es).grant e).map fun g =>
      (part g.capacity (arrivals g.ticket.id (idle cache) (es ++ [e]))).length).sum = 0 := by
    refine List.sum_eq_zero fun n hn => ?_
    obtain ⟨g, hg, rfl⟩ := List.mem_map.mp hn
    exact hnew g hg
  rw [total, grants, history_concat, List.map_append, List.sum_append, ← grants, hold,
    List.sum_map_add, h.sum_map_arrival, ← total]
  exact congrArg _ hzero

end Counts

/-- **The counts of a run**: over all grants, the records taken and the records missed. -/
theorem tally_run (cache : Cache) (es : List Event) :
    ((idle cache).run es).tally.delivered = total taken cache es ∧
      ((idle cache).run es).tally.dropped = total missed cache es := by
  induction es using List.reverseRecOn with
  | nil => exact ⟨rfl, rfl⟩
  | append_singleton es e ih =>
    have hstep := tally_step (sound_run cache es) e
    rw [run_concat, hstep.1, hstep.2, ih.1, ih.2, partAt_taken.total_concat,
      partAt_missed.total_concat]
    exact ⟨rfl, rfl⟩

/-! ## The law -/

/-- **What is due to a subscriber**, at any moment of a run of a feed. -/
structure Served (cache : Cache) (es : List Event) (g : Grant) : Prop where
  /-- While it listens, it has or will find the records taken, and no more wait than was asked for.
  -/
  of_listening : ∀ box, ((idle cache).run es).mailboxes.get? g.ticket.id = some box →
    received g.ticket.id (idle cache) es ++ box.waiting
        = taken g.capacity (arrivals g.ticket.id (idle cache) es) ∧
      box.waiting.length ≤ max g.capacity.val 1
  /-- What it got before it stopped listening are the first of them. -/
  of_gone : ((idle cache).run es).mailboxes.get? g.ticket.id = none →
    received g.ticket.id (idle cache) es
      <+: taken g.capacity (arrivals g.ticket.id (idle cache) es)
  /-- It never sees the end while it holds its slot. -/
  of_held : ((idle cache).run es).holds g.ticket.id = true →
    (((idle cache).run es).receive g.ticket.id).1 ≠ .released
  /-- Once released, it finds all that waits and then the end, whatever happens meanwhile. -/
  of_released : ((idle cache).run es).holds g.ticket.id = false →
    ∀ box, ((idle cache).run es).mailboxes.get? g.ticket.id = some box →
      ∀ later : List Event, (∀ e ∈ later, e ≠ .discard g.ticket.id) →
        receipts g.ticket.id ((idle cache).run es) later
          = drained box.waiting (later.countP (isLook g.ticket.id))

/-- Nobody who holds a slot sees the end. -/
theorem receive_ne_released (h : f.holds id = true) : (f.receive id).1 ≠ .released := by
  intro hend
  rw [receive] at hend
  split at hend
  · cases hend
  · rw [if_pos h] at hend
    cases hend

/-- **A subscriber gets exactly its records**, whatever happens to the feed: each in the order of
the lines and once, but for those that found its mailbox full; and the counts are the records taken
and missed, over all grants. -/
theorem subscriber_gets_its_records (cache : Cache) (es : List Event) :
    (∀ g ∈ (idle cache).grants es, Served cache es g) ∧
      ((idle cache).run es).tally.delivered
        = (((idle cache).grants es).map fun g =>
            (taken g.capacity (arrivals g.ticket.id (idle cache) es)).length).sum ∧
      ((idle cache).run es).tally.dropped
        = (((idle cache).grants es).map fun g =>
            (missed g.capacity (arrivals g.ticket.id (idle cache) es)).length).sum := by
  refine ⟨fun g hg => ?_, tally_run cache es⟩
  obtain ⟨hshows, haccounts⟩ := accounts_of_mem_grants hg
  refine ⟨fun box hbox => ?_, haccounts.of_gone, receive_ne_released, ?_⟩
  · obtain ⟨-, hlen, hrecords⟩ := haccounts.of_listening box hbox
    exact ⟨hrecords, hlen⟩
  · intro hfree box hbox later hstay
    rw [hshows.receipts_eq]
    exact receipts_of_free hfree hbox hstay

/-- Of five records, the third and the fifth find two others waiting. -/
theorem slow_subscriber_misses_two :
    let cache := Cache.empty "key" 4
    let es : List Event := [.subscribe true 2, .line "1", .line "2", .line "3", .receive 0,
      .line "4", .line "5", .unsubscribe ⟨0, 0⟩]
    Served cache es ⟨⟨0, 0⟩, 2⟩ ∧ ((idle cache).run es).tally = ⟨1, 3, 2⟩ :=
  ⟨(subscriber_gets_its_records _ _).1 _ (by decide), by decide⟩

end Feed

end LiveQuery
