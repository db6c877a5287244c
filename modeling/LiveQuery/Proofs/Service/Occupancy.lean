import LiveQuery.Proofs.Service.Meaning

/-!
# Proofs/Service/Occupancy — no slot leaks

Who stands in the slots of a feed is told from outside: the direct subscriptions that the steps and
their replies say were granted, and neither given back nor released since (`standings`), and the
sessions that still show records (`sessionsOn`).  The law, `no_slot_leaks`, says that **these and
nobody else hold the slots**, each the one it was granted.

The ledger of the standings is right because it is kept right by every step (`Books.after`); a
session's slot is its own because a session comes by a ticket in one way only (`ticketOf_after`).
That no two stand in one slot comes from `Tidy`: nobody shares a ticket, and no id is in two slots.
-/

namespace LiveQuery

/-! ## Counting slots -/

namespace Feed

variable {f : Feed} {t : Ticket}

/-- The occupied slots are as many as there are, and none is counted twice. -/
theorem occupied_eq_length {held : List Nat} (hnodup : held.Nodup)
    (hmem : ∀ i, i ∈ held ↔ ∃ id, f.slots[i]? = some (some id)) : f.occupied = held.length := by
  have hperm : (f.slots.findIdxs Option.isSome).Perm held := by
    refine (List.perm_ext_iff_of_nodup List.nodup_findIdxs hnodup).mpr fun i => ?_
    rw [hmem, List.mem_findIdxs_iff_exists_getElem_pos]
    constructor
    · rintro ⟨hi, hsome⟩
      obtain ⟨id, hid⟩ := Option.isSome_iff_exists.mp hsome
      exact ⟨id, hid ▸ List.getElem?_eq_getElem hi⟩
    · rintro ⟨id, hid⟩
      obtain ⟨hi, hid⟩ := List.getElem?_eq_some_iff.mp hid
      exact ⟨hi, hid ▸ rfl⟩
  rw [occupied, ← List.length_findIdxs, hperm.length_eq]

/-- **Who is let in and leaves at once** leaves as many holders as there were. -/
theorem occupied_leave_letIn (hf : f.Sound) (capacity : Capacity) :
    ((f.letIn capacity).leave f.nextTicket).occupied = f.occupied := by
  have hcount : ∀ g : Feed, g.occupied = g.holders.length := fun g => by
    rw [occupied, holders, List.reduceOption_length_eq, List.countP_eq_length_filter]
  have hin := hf.letIn capacity
  have hperm : ((f.letIn capacity).leave f.nextTicket).holders.Perm f.holders := by
    refine (List.perm_ext_iff_of_nodup (hin.leave _).nodup hf.nodup).mpr fun id => ?_
    rw [mem_holders_leave hin (issued_letIn f capacity), (holders_letIn f capacity).mem_iff,
      List.mem_cons]
    constructor
    · rintro ⟨hid | hid, hne⟩
      · exact absurd hid hne
      · exact hid
    · exact fun hid => ⟨Or.inr hid, Nat.ne_of_lt (hf.lt_nextId id hid)⟩
  rw [hcount, hcount, hperm.length_eq]

end Feed

namespace Service

variable {s t : Service} {p q : Party} {id name : String} {sub : Subscription} {m : Moment}
  {st : Step} {e : Moment × Step} {i : Nat}

/-! ## The ledger -/

/-- **A direct subscription as its subscriber knows it.** -/
structure Standing where
  subscriber : String
  feed : String
  slot : Nat
deriving DecidableEq, Repr

/-- **What a step and its reply change in the ledger**: a subscription is granted in place of one of
the same name, is given back, or its feed's connection ends. -/
def note (l : List Standing) : Step → Reply → List Standing
  | .subscribe feed subscriber _, .slot n =>
    ⟨subscriber, feed, n⟩ :: l.filter (·.subscriber ≠ subscriber)
  | .unsubscribe subscriber, _ => l.filter (·.subscriber ≠ subscriber)
  | .fail feed, .flag true | .finish feed, .flag true => l.filter (·.feed ≠ feed)
  | _, _ => l

/-- A step of the service, written down; nobody stands on a feed that has stopped. -/
def book (b : Service × List Standing) (e : Moment × Step) : Service × List Standing :=
  let t := b.1.after e
  (t, (note b.2 e.2 (b.1.step e.1 e.2).1).filter (·.feed ∉ t.gone))

/-- **The direct subscriptions that stand** after some steps. -/
def standings (s : Service) (es : List (Moment × Step)) : List Standing :=
  (es.foldl book (s, [])).2

/-- A party holds a slot of a feed. -/
def Holds (s : Service) (p : Party) (name : String) (i : Nat) : Prop :=
  ∃ ticket, s.ticketOf p = some ⟨name, ticket⟩ ∧ ticket.slot = i ∧
    (seatOf s.feed ⟨name, ticket⟩).held = true

/-- Who holds a slot has a connection, and its feed has not stopped. -/
theorem Holds.connected (hs : s.Orderly) (h : s.Holds p name i) :
    (s.feed name).connected = true ∧ name ∉ s.gone := by
  obtain ⟨ticket, -, -, hheld⟩ := h
  have hc := (hs.tidy.sound name).connected_of_mem (Feed.seat_held_iff.mp hheld)
  exact ⟨hc, (hs.lively name hc).2⟩

/-- **The ledger is right**: each subscriber is in it once, if it holds the slot that is said. -/
structure Books (s : Service) (l : List Standing) : Prop where
  nodup : (l.map Standing.subscriber).Nodup
  mem_iff : ∀ x, x ∈ l ↔ s.Holds (.subscriber x.subscriber) x.feed x.slot

namespace Books

variable {l : List Standing}

/-- Some standings are gone. -/
theorem filter (h : Books s l) {keep : Standing → Bool}
    (ht : ∀ x : Standing, t.Holds (.subscriber x.subscriber) x.feed x.slot ↔
      s.Holds (.subscriber x.subscriber) x.feed x.slot ∧ keep x = true) :
    Books t (l.filter keep) := by
  refine ⟨h.nodup.sublist (List.filter_sublist.map _), fun x => ?_⟩
  rw [List.mem_filter, h.mem_iff, ht]

/-- Nothing has changed. -/
theorem same (h : Books s l) (ht : ∀ name feed i,
    t.Holds (.subscriber name) feed i ↔ s.Holds (.subscriber name) feed i) : Books t l :=
  ⟨h.nodup, fun x => (h.mem_iff x).trans (ht _ _ _).symm⟩

/-- Nobody stands on a feed that has stopped. -/
theorem strike (h : Books s l) (hs : s.Orderly) : Books s (l.filter (·.feed ∉ s.gone)) :=
  h.filter fun x => by
    rw [decide_eq_true_iff]
    exact (and_iff_left_of_imp fun hx => (Holds.connected hs hx).2).symm

/-- **A feed stops**, and everybody has lost it. -/
theorem stopped (h : Books s l) (ht : t.Orderly) (name : String)
    (hlose : ∀ subscriber feed i, t.Holds (.subscriber subscriber) feed i ↔
      s.Holds (.subscriber subscriber) feed i ∧ feed ≠ name)
    (hstops : ∀ subscriber i, s.Holds (.subscriber subscriber) name i → name ∈ t.gone) :
    Books t (l.filter (·.feed ∉ t.gone)) := by
  refine h.filter fun x => ?_
  rw [decide_eq_true_iff]
  constructor
  · exact fun hx => ⟨((hlose _ _ _).mp hx).1, (Holds.connected ht hx).2⟩
  · rintro ⟨hx, hgoes⟩
    refine (hlose _ _ _).mpr ⟨hx, fun hname => hgoes ?_⟩
    rw [hname] at hx ⊢
    exact hstops _ _ hx

/-- A standing takes the place of its subscriber's. -/
theorem cons (h : Books s l) (y : Standing)
    (hself : ∀ feed i, t.Holds (.subscriber y.subscriber) feed i ↔ feed = y.feed ∧ i = y.slot)
    (hothers : ∀ name, name ≠ y.subscriber → ∀ feed i,
      t.Holds (.subscriber name) feed i ↔ s.Holds (.subscriber name) feed i) :
    Books t (y :: l.filter (·.subscriber ≠ y.subscriber)) := by
  constructor
  · rw [List.map_cons, List.nodup_cons]
    refine ⟨fun hmem => ?_, h.nodup.sublist (List.filter_sublist.map _)⟩
    obtain ⟨x, hx, heq⟩ := List.mem_map.mp hmem
    exact of_decide_eq_true (List.mem_filter.mp hx).2 heq
  · intro x
    rw [List.mem_cons, List.mem_filter, decide_eq_true_iff, h.mem_iff]
    by_cases hx : x.subscriber = y.subscriber
    · rw [hx, hself]
      constructor
      · rintro (rfl | ⟨-, hne⟩)
        · exact ⟨rfl, rfl⟩
        · exact absurd rfl hne
      · rintro ⟨hfeed, hslot⟩
        obtain ⟨subscriber, feed, slot⟩ := x
        obtain rfl : subscriber = y.subscriber := hx
        obtain rfl : feed = y.feed := hfeed
        obtain rfl : slot = y.slot := hslot
        exact Or.inl rfl
    · rw [hothers _ hx]
      exact ⟨fun h => h.elim (fun heq => absurd (congrArg _ heq) hx) And.left,
        fun h => Or.inr ⟨h, hx⟩⟩

end Books

/-! ## What a step is to a subscriber -/

theorem Alike.holds_iff (h : Alike p s t) (name : String) (i : Nat) :
    t.Holds p name i ↔ s.Holds p name i := by
  refine exists_congr fun ticket => ?_
  rw [h.ticket]
  refine and_congr_right fun hticket => and_congr_right fun _ => ?_
  rw [h.seat hticket]

/-- **A line takes no slot away** from who listens. -/
theorem Brought.holds_line {text : String} (h : Brought s t name (.line text)) (hs : s.Orderly)
    (p : Party) (feed : String) (i : Nat) : t.Holds p feed i ↔ s.Holds p feed i := by
  refine exists_congr fun ticket => ?_
  rw [h.ticketOf]
  refine and_congr_right fun hsub => and_congr_right fun _ => ?_
  rw [h.seat hsub]
  split
  case isFalse => exact Iff.rfl
  case isTrue =>
    rw [Seat.step]
    cases Feed.recordOf? text with
    | none => exact Iff.rfl
    | some v =>
      rw [Option.map_some, Option.getD_some, Seat.hand]
      split
      case isTrue hheld => exact iff_of_true (hs.tidy.listens hsub) hheld
      case isFalse => exact Iff.rfl

/-- **The end of a connection takes the slots of its feed away.** -/
theorem Brought.holds_lose (h : Brought s t name .lose) (p : Party) (feed : String) (i : Nat) :
    t.Holds p feed i ↔ s.Holds p feed i ∧ feed ≠ name := by
  rw [Holds, Holds, h.ticketOf, ← exists_and_right]
  refine exists_congr fun ticket => ?_
  rw [and_assoc, and_assoc]
  refine and_congr_right fun hsub => and_congr_right fun _ => ?_
  rw [h.seat hsub]
  split
  case isTrue hname => exact iff_of_false Bool.false_ne_true fun h => h.2 hname
  case isFalse hname => exact (and_iff_left hname).symm

/-- News of a feed, for a subscriber: that the clients look is not noticed. -/
theorem Settled.brought (hs : s.Settled) {n : Feed.Event} (hnews : st.news? = some (name, n))
    (m : Moment) : ∃ u, Brought s u name n ∧
      ∀ subscriber, Alike (.subscriber subscriber) u (s.perform m st).2 := by
  obtain ⟨u, hu, hlook⟩ := perform_news hs.toOrderly hs.running hnews m
  refine ⟨u, hu, fun subscriber => ?_⟩
  rcases hlook with hlook | ⟨hlook, -⟩
  · exact hlook ▸ pollAll_alike hu.orderly m fun _ => Party.noConfusion
  · rw [hlook]
    exact .refl _ u

theorem Settled.holds_lose (hs : s.Settled) (hnews : st.news? = some (name, .lose))
    (subscriber feed : String) (i : Nat) (m : Moment) :
    (s.perform m st).2.Holds (.subscriber subscriber) feed i ↔
      s.Holds (.subscriber subscriber) feed i ∧ feed ≠ name := by
  obtain ⟨u, hu, halike⟩ := hs.brought hnews m
  rw [(halike subscriber).holds_iff, hu.holds_lose]

/-- **A granted subscription holds its slot.** -/
theorem seatOf_takeSubscription (hs : s.Orderly) (subscriber : String) (capacity : Capacity)
    (hopen : ((s.feed name).connected || s.accepts name) = true) :
    seatOf (takeSubscription name subscriber capacity s).2.feed ⟨name, (s.feed name).nextTicket⟩
      = ⟨true, some (.empty capacity)⟩ := by
  have hletIn : seatOf (s.letIn name capacity).feed ⟨name, (s.feed name).nextTicket⟩
      = ⟨true, some (.empty capacity)⟩ := by
    rw [feed_letIn]
    exact (seatOf_update_self rfl _).trans (Feed.seat_nextTicket _ capacity)
  rw [takeSubscription_eq, if_pos hopen]
  dsimp only
  cases hold : s.subscriptions.get? subscriber with
  | none => exact hletIn
  | some old =>
    have hgranted := tidy_letIn hs name capacity
    have hboth : Function.update s.ticketOf .newcomer (some ⟨name, (s.feed name).nextTicket⟩)
        (.subscriber subscriber) = some old :=
      (Function.update_of_ne Party.noConfusion ..).trans hold
    refine Eq.trans ?_ hletIn
    refine (congrArg (seatOf · _) (feed_leave _ old.feed old.ticket)).trans ?_
    exact hgranted.seatOf_release hboth (Function.update_self ..) Party.noConfusion

/-- A subscription that is asked for is written down if it is granted. -/
theorem Books.takeSubscription {l : List Standing} (hs : s.Orderly) (h : Books s l)
    (name subscriber : String) (capacity : Capacity) :
    let r := takeSubscription name subscriber capacity s
    Books r.2 (note l (.subscribe name subscriber capacity) r.1) := by
  intro r
  by_cases hopen : ((s.feed name).connected || s.accepts name) = true
  · have hreply : r.1 = .slot (s.feed name).nextTicket.slot :=
      congrArg Prod.fst ((takeSubscription_eq ..).trans (if_pos hopen))
    have hticket : r.2.ticketOf (.subscriber subscriber)
        = some ⟨name, (s.feed name).nextTicket⟩ := by
      rw [congrArg Prod.snd ((takeSubscription_eq ..).trans (if_pos hopen))]
      exact (Table.get?_set ..).trans (if_pos rfl)
    have hseat := seatOf_takeSubscription hs subscriber capacity hopen
    rw [hreply]
    refine h.cons ⟨subscriber, name, _⟩ (fun feed i => ⟨?_, ?_⟩) fun other hother feed i => ?_
    · rintro ⟨ticket, hticket', hslot, -⟩
      obtain ⟨rfl, rfl⟩ := Subscription.mk.inj (Option.some.inj (hticket'.symm.trans hticket))
      exact ⟨rfl, hslot.symm⟩
    · rintro ⟨rfl, rfl⟩
      exact ⟨_, hticket, rfl, congrArg Seat.held hseat⟩
    · have hapart := (act_takeSubscription name subscriber capacity s hs).2
      exact (hapart.alike fun heq => hother (Party.subscriber.inj heq)).holds_iff feed i
  · have hrefused : r = (.failed (s.refusalOf name), s.setFeed name (s.feed name)) :=
      (takeSubscription_eq ..).trans (if_neg hopen)
    rw [hrefused]
    have hapart := (act_setFeed_self .newcomer s name hs).2
    exact h.same fun other feed i =>
      (hapart.alike (q := .subscriber other) Party.noConfusion).holds_iff feed i

/-- A subscription that is given back is struck out. -/
theorem Books.dropSubscription {l : List Standing} (hs : s.Orderly) (h : Books s l)
    (subscriber : String) :
    Books (s.dropSubscription subscriber).2 (l.filter (·.subscriber ≠ subscriber)) := by
  have hnone : (s.dropSubscription subscriber).2.ticketOf (.subscriber subscriber) = none := by
    rw [Service.dropSubscription]
    split
    case h_1 hold => exact hold
    case h_2 => exact (Table.get?_erase ..).trans (if_pos rfl)
  refine h.filter fun x => ?_
  rw [decide_eq_true_iff]
  by_cases hx : x.subscriber = subscriber
  · refine iff_of_false ?_ fun h => h.2 hx
    rintro ⟨ticket, hticket, -⟩
    rw [hx, hnone] at hticket
    cases hticket
  · have hapart := (act_dropSubscription s subscriber hs).2
    rw [(hapart.alike fun heq => hx (Party.subscriber.inj heq)).holds_iff]
    exact (and_iff_left hx).symm

/-- Who looks into its mailbox keeps its slot. -/
theorem holds_receive (hs : s.Orderly) (subscriber other feed : String) :
    (s.receive subscriber).2.Holds (.subscriber other) feed i ↔
      s.Holds (.subscriber other) feed i := by
  by_cases hother : other = subscriber
  · subst hother
    rw [receive]
    split
    case h_1 => exact Iff.rfl
    case h_2 sub hsub =>
      refine exists_congr fun ticket => and_congr_right fun hticket => and_congr_right fun _ => ?_
      have heq : (⟨feed, ticket⟩ : Subscription) = sub :=
        Option.some.inj (hticket.symm.trans hsub)
      rw [heq]
      dsimp only
      rw [feed_setFeed, seatOf_update_self rfl, Feed.seat_receive, Seat.step, if_pos rfl]
      exact Iff.rfl
  · have hapart := (act_receive s subscriber hs).2
    exact (hapart.alike fun heq => hother (Party.subscriber.inj heq)).holds_iff feed i

/-- The end of a connection is reported, or there was none and nothing has happened. -/
theorem perform_lose_cases (hst : st = .fail name ∨ st = .finish name) (s : Service) (m : Moment) :
    (s.perform m st).1 = .flag true ∨ s.perform m st = (.flag false, s) := by
  rcases hst with rfl | rfl
  · rw [perform, onConnection]
    split
    · exact Or.inl rfl
    · exact Or.inr rfl
  · rw [perform, finishConnection]
    split
    · exact Or.inl rfl
    · exact Or.inr rfl

/-- Who loses its slot with the connection is struck out. -/
theorem Books.lose {l : List Standing} (hs : s.Settled) (h : Books s l)
    (hst : st = .fail name ∨ st = .finish name) (m : Moment) :
    Books (s.perform m st).2 (note l st (s.perform m st).1) := by
  have hnews : st.news? = some (name, .lose) := by rcases hst with rfl | rfl <;> rfl
  -- The end is written down if it is reported.
  have hnote : note l st (.flag true) = l.filter (·.feed ≠ name) ∧ note l st (.flag false) = l := by
    rcases hst with rfl | rfl <;> exact ⟨rfl, rfl⟩
  rcases perform_lose_cases hst s m with hreply | hnothing
  · rw [hreply, hnote.1]
    exact h.filter fun x => by rw [hs.holds_lose hnews, decide_eq_true_iff]
  · rw [hnothing, hnote.2]
    exact h

/-- **A subscription that is too large** takes the slots of its feed away. -/
theorem Books.overask {l : List Standing} (hs : s.Settled) (h : Books s l) {n : Nat}
    (hover : Mailbox.limit < n) (name subscriber : String) (m : Moment) :
    let t := (s.perform m (.subscribe name subscriber n)).2
    Books t (l.filter (·.feed ∉ t.gone)) := by
  have hnews : (Step.subscribe name subscriber n).news? = some (name, .lose) := if_pos hover
  have horderly := (act_handled .newcomer s name hs.toOrderly).1
  refine h.stopped (hs.steady_perform Step.noConfusion m).1 name
    (fun other feed i => hs.holds_lose hnews other feed i m) fun other i hholds => ?_
  have hconnected : ((s.handled name).feed name).connected = true := by
    rw [feed_handled]
    exact (Holds.connected hs.toOrderly hholds).1
  have hlooked := steady_pollAll (overask_brought horderly name).orderly m
  rw [perform_overask hs.running subscriber hover]
  exact hlooked.gone name (gone_overask hconnected)

/-- **What is nobody's or a client's act** concerns no subscriber, unless it stops its feed. -/
theorem Books.others {l : List Standing} (hs : s.Settled) (h : Books s l) (hkill : st ≠ .kill)
    (hnews : st.news? = none) (hp : ∀ name, .subscriber name ≠ st.party) (m : Moment) :
    let t := (s.perform m st).2
    Books t (l.filter (·.feed ∉ t.gone)) := by
  obtain ⟨horderly, hapart | ⟨-, name, u, hu, hbefore, hafter⟩⟩ := hs.perform_cases hkill hnews m
  · have hsame := h.same fun name feed i => (hapart.alike (hp name)).holds_iff feed i
    exact hsame.strike horderly
  · refine h.stopped horderly name (fun other feed i => ?_) fun other i hholds => ?_
    · rw [(hafter.alike (hp other)).holds_iff, (overask_brought hu name).holds_lose,
        (hbefore.alike (hp other)).holds_iff]
    · have hheld := ((hbefore.alike (hp other)).holds_iff name i).mpr hholds
      exact hafter.gone ▸ gone_overask (hheld.connected hu).1

/-- **The ledger is kept right by every step** but `kill`. -/
theorem Books.after {l : List Standing} (hs : s.Settled) (h : Books s l) (hkill : e.2 ≠ .kill) :
    Books (s.after e)
      ((note l e.2 (s.step e.1 e.2).1).filter (·.feed ∉ (s.after e).gone)) := by
  obtain ⟨m, st⟩ := e
  have ht := hs.turn
  have hbooks : Books s.turn l := ⟨h.nodup, h.mem_iff⟩
  have hstruck : ∀ {l}, Books (s.after (m, st)) l →
      Books (s.after (m, st)) (l.filter (·.feed ∉ (s.after (m, st)).gone)) :=
    fun h => h.strike (hs.after hkill).toOrderly
  rw [after_eq] at hstruck ⊢
  change Books _ ((note l st (s.turn.perform m st).1).filter _)
  cases st with
  | subscribe name subscriber n =>
    rcases Nat.lt_or_ge Mailbox.limit n with hover | hfits
    · have hstopped := hbooks.overask ht hover name subscriber m
      rw [perform_overask ht.running subscriber hover] at hstopped ⊢
      exact hstopped
    obtain ⟨capacity, rfl⟩ := Capacity.exists_val_eq hfits
    obtain ⟨horderly, hapart⟩ := act_handled .newcomer s.turn name ht.toOrderly
    have hnoted : Books (s.turn.handled name) l :=
      hbooks.same fun other feed i =>
        (hapart.alike (q := .subscriber other) Party.noConfusion).holds_iff feed i
    refine hstruck ?_
    rw [perform_subscribe ht.running]
    exact hnoted.takeSubscription horderly name subscriber capacity
  | unsubscribe subscriber => exact hstruck (hbooks.dropSubscription ht.toOrderly subscriber)
  | receive subscriber =>
    exact hstruck (hbooks.same fun other feed i =>
      holds_receive ht.toOrderly subscriber other feed)
  | line name text =>
    have hnews : (Step.line name text).news? = some (name, .line text) := rfl
    obtain ⟨u, hu, halike⟩ := ht.brought hnews m
    refine hstruck (hbooks.same fun subscriber feed i => ?_)
    rw [(halike subscriber).holds_iff, hu.holds_line ht.toOrderly]
  | fail name => exact hstruck (hbooks.lose ht (Or.inl rfl) m)
  | finish name => exact hstruck (hbooks.lose ht (Or.inr rfl) m)
  | kill => exact absurd rfl hkill
  | _ => exact hbooks.others ht hkill rfl (fun _ => Party.noConfusion) m

/-- **…and so over every run.** -/
theorem books_run (hs : s.Settled) {l : List Standing} (h : Books s l) {es : List (Moment × Step)}
    (hes : ∀ e ∈ es, e.2 ≠ .kill) :
    (es.foldl book (s, l)).1 = es.foldl Service.after s ∧
      Books (es.foldl Service.after s) (es.foldl book (s, l)).2 := by
  induction es generalizing s l with
  | nil => exact ⟨rfl, h⟩
  | cons e es ih =>
    obtain ⟨hkill, hrest⟩ := List.forall_mem_cons.mp hes
    exact ih (hs.after hkill) (h.after hs hkill) hrest

/-! ## Sessions -/

/-- **The sessions that show the records of a feed**, with their tickets. -/
def sessionsOn (s : Service) (name : String) : List (String × Ticket) :=
  s.clients.keys.filterMap fun id =>
    match (s.clients.get? id).map Client.phase with
    | some (.showing feed ticket _) => if feed = name then some (id, ticket) else none
    | _ => none

/-- What is listed of one client. -/
theorem listed_iff {other : String} {ticket : Ticket} :
    (match (s.clients.get? id).map Client.phase with
      | some (.showing feed ticket _) => if feed = name then some (id, ticket) else none
      | _ => none) = some (other, ticket) ↔
      other = id ∧ s.ticketOf (.client id) = some ⟨name, ticket⟩ := by
  cases hc : s.clients.get? id with
  | none =>
    refine iff_of_false (fun h => by cases h) fun h => ?_
    rw [ticketOf, hc] at h
    cases h.2
  | some c =>
    rw [ticketOf_client hc, Option.map_some]
    cases c.phase with
    | showing feed ticket' view =>
      simp only [Phase.ticket?, Option.ite_none_right_eq_some, Option.some.injEq, Prod.mk.injEq,
        Subscription.mk.injEq]
      constructor
      · rintro ⟨rfl, rfl, rfl⟩
        exact ⟨rfl, rfl, rfl⟩
      · rintro ⟨rfl, rfl, rfl⟩
        exact ⟨rfl, rfl, rfl⟩
    | _ => exact iff_of_false (fun h => by cases h) fun h => by cases h.2

/-- **A session is listed if its client has the ticket.** -/
theorem mem_sessionsOn {ticket : Ticket} :
    (id, ticket) ∈ s.sessionsOn name ↔ s.ticketOf (.client id) = some ⟨name, ticket⟩ := by
  rw [sessionsOn, List.mem_filterMap]
  constructor
  · rintro ⟨other, -, hlisted⟩
    obtain ⟨rfl, hticket⟩ := listed_iff.mp hlisted
    exact hticket
  · intro hticket
    refine ⟨id, ?_, listed_iff.mpr ⟨rfl, hticket⟩⟩
    by_contra hkey
    rw [ticketOf, Table.get?_eq_none hkey] at hticket
    cases hticket

theorem nodup_sessionsOn (s : Service) (name : String) : (s.sessionsOn name).Nodup := by
  refine List.Nodup.filterMap ?_ s.clients.nodup
  rintro a b ⟨id, ticket⟩ ha hb
  exact (listed_iff.mp ha).1.symm.trans (listed_iff.mp hb).1

/-- A session holds the slot of its ticket. -/
theorem Settled.holds_of_mem_sessionsOn (hs : s.Settled) {x : String × Ticket}
    (hx : x ∈ s.sessionsOn name) : s.Holds (.client x.1) name x.2.slot := by
  have hticket := mem_sessionsOn.mp hx
  obtain ⟨capacity, -, hseat⟩ := hs.rested x.1 _ hticket
  exact ⟨x.2, hticket, rfl, congrArg Seat.held hseat⟩

/-! ## Who is in the slots -/

theorem Holds.getElem? (hs : s.Orderly) (h : s.Holds p name i) :
    ∃ ticket, s.ticketOf p = some ⟨name, ticket⟩ ∧
      (s.feed name).slots[i]? = some (some ticket.id) := by
  obtain ⟨ticket, hticket, rfl, hheld⟩ := h
  exact ⟨ticket, hticket, (hs.tidy.issued hticket).slot_of_mem (Feed.seat_held_iff.mp hheld)⟩

/-- **No two parties hold one slot.** -/
theorem Holds.unique (hs : s.Orderly) (h : s.Holds p name i) (h' : s.Holds q name i) : p = q := by
  obtain ⟨ticket, hticket, hslot⟩ := h.getElem? hs
  obtain ⟨ticket', hticket', hslot'⟩ := h'.getElem? hs
  refine hs.tidy.distinct hticket hticket' rfl ?_
  exact Option.some.inj (Option.some.inj (hslot.symm.trans hslot'))

/-- **A slot is occupied if somebody holds it.** -/
theorem exists_holds_iff (hs : s.Orderly) :
    (∃ p, s.Holds p name i) ↔ ∃ n, (s.feed name).slots[i]? = some (some n) := by
  constructor
  · rintro ⟨p, hp⟩
    obtain ⟨ticket, -, hslot⟩ := hp.getElem? hs
    exact ⟨ticket.id, hslot⟩
  · rintro ⟨n, hn⟩
    have hmem := Feed.mem_reduceOption_of_getElem? hn
    obtain ⟨p, ⟨feed, ticket⟩, hticket, rfl, rfl⟩ := hs.tidy.owned hmem
    have hslot := (hs.tidy.issued hticket).slot_of_mem hmem
    refine ⟨p, ticket, hticket, ?_, Feed.seat_held_iff.mpr hmem⟩
    exact Feed.eq_of_getElem? (hs.tidy.sound feed).nodup hslot hn

section Ledger

variable {l : List Standing}

/-- What is written down for a feed is held there. -/
theorem Books.holds_of_mem (h : Books s l) {x : Standing} (hx : x ∈ l.filter (·.feed = name)) :
    s.Holds (.subscriber x.subscriber) name x.slot := by
  obtain ⟨hl, hname⟩ := List.mem_filter.mp hx
  exact of_decide_eq_true hname ▸ (h.mem_iff x).mp hl

/-- The slots of the ledger and of the sessions are all different: who holds one is one. -/
theorem Books.nodup_held (hs : s.Settled) (h : Books s l) (name : String) :
    ((l.filter (·.feed = name)).map (·.slot)
      ++ (s.sessionsOn name).map (·.2.slot)).Nodup := by
  have horderly := hs.toOrderly
  refine List.nodup_append.mpr ⟨?subscribed, ?sessions, ?apart⟩
  case subscribed =>
    refine (h.nodup.of_map.filter _).map_on fun x hx y hy hslot => ?_
    have hparty := (h.holds_of_mem hx).unique horderly (hslot ▸ h.holds_of_mem hy)
    exact List.inj_on_of_nodup_map h.nodup (List.mem_of_mem_filter hx)
      (List.mem_of_mem_filter hy) (Party.subscriber.inj hparty)
  case sessions =>
    refine (nodup_sessionsOn s name).map_on fun x hx y hy hslot => ?_
    have hparty := (hs.holds_of_mem_sessionsOn hx).unique horderly
      (hslot ▸ hs.holds_of_mem_sessionsOn hy)
    have hid : x.1 = y.1 := Party.client.inj hparty
    have hticket := (mem_sessionsOn.mp hx).symm.trans (hid ▸ mem_sessionsOn.mp hy)
    exact Prod.ext hid (Subscription.mk.inj (Option.some.inj hticket)).2
  case apart =>
    rintro i hi j hj rfl
    obtain ⟨x, hx, rfl⟩ := List.mem_map.mp hi
    obtain ⟨y, hy, hslot⟩ := List.mem_map.mp hj
    have hparty := (h.holds_of_mem hx).unique horderly (hslot ▸ hs.holds_of_mem_sessionsOn hy)
    cases hparty

/-- The slots of the ledger and of the sessions are the slots that are held. -/
theorem Books.mem_held_iff (hs : s.Settled) (h : Books s l) :
    i ∈ (l.filter (·.feed = name)).map (·.slot) ++ (s.sessionsOn name).map (·.2.slot) ↔
      ∃ p, s.Holds p name i := by
  rw [List.mem_append, List.mem_map, List.mem_map]
  constructor
  · rintro (⟨x, hx, rfl⟩ | ⟨x, hx, rfl⟩)
    · exact ⟨_, h.holds_of_mem hx⟩
    · exact ⟨_, hs.holds_of_mem_sessionsOn hx⟩
  · rintro ⟨p, hp⟩
    cases p with
    | subscriber subscriber =>
      have hl := (h.mem_iff ⟨subscriber, name, i⟩).mpr hp
      exact Or.inl ⟨_, List.mem_filter.mpr ⟨hl, decide_eq_true rfl⟩, rfl⟩
    | client id =>
      obtain ⟨ticket, hticket, rfl, -⟩ := hp
      exact Or.inr ⟨(id, ticket), mem_sessionsOn.mpr hticket, rfl⟩
    | newcomer =>
      obtain ⟨ticket, hticket, -⟩ := hp
      cases hticket

/-- **The slots of a feed are those of the ledger and of the sessions**, each held by one of
them. -/
theorem Books.occupied (hs : s.Settled) (h : Books s l) (name : String) :
    let subscribed := l.filter (·.feed = name)
    let sessions := s.sessionsOn name
    let held := subscribed.map (·.slot) ++ sessions.map (·.2.slot)
    (s.feed name).stats.occupied = subscribed.length + sessions.length ∧ held.Nodup ∧
      ∀ i, i ∈ held ↔ ∃ n, (s.feed name).slots[i]? = some (some n) := by
  intro subscribed sessions held
  have hnodup : held.Nodup := h.nodup_held hs name
  have hmem : ∀ i, i ∈ held ↔ ∃ n, (s.feed name).slots[i]? = some (some n) :=
    fun i => (h.mem_held_iff hs).trans (exists_holds_iff hs.toOrderly)
  refine ⟨?_, hnodup, hmem⟩
  have hlength : (s.feed name).stats.occupied = held.length :=
    Feed.occupied_eq_length hnodup hmem
  rw [hlength, List.length_append, List.length_map, List.length_map]

end Ledger

/-! ## How a session comes by its ticket -/

theorem Follows.ticketOf_cases {conn : Connection} {sub' : Subscription} {c : Course}
    (h : s.Follows id conn sub c) (hticket : s.ticketOf (.client id) = some sub') :
    sub = sub' ∧ c.ending? = none := by
  obtain ⟨said, now⟩ := c
  cases now with
  | error ending =>
    rw [(h.ended ending rfl).ticketOf] at hticket
    cases hticket
  | ok x => exact ⟨Option.some.inj (h.ticketOf.symm.trans hticket), rfl⟩

/-- **Whose session has a ticket after a step** had it before, or its query was granted in the step;
and it has not heard of an end. -/
theorem ticketOf_after (hs : s.Settled) (hkill : e.2 ≠ .kill)
    (h : (s.after e).ticketOf (.client id) = some sub) :
    ((s.after e).heardBy id).ending = none ∧ (s.ticketOf (.client id) = some sub ∨
      ∃ c change q, s.Granted id e.2 c change q sub.ticket ∧ q.feed = sub.feed) := by
  have hconnect : ∀ transport, e.2 ≠ .connect id transport := by
    rintro transport he
    have hnone : (s.after e).ticketOf (.client id) = none := by
      rw [after_eq, he]
      exact ticketOf_client (get?_setClient_self _ id _)
    exact absurd (hnone.symm.trans h) (Option.some_ne_none sub).symm
  cases hticket : s.ticketOf (.client id) with
  | some sub' =>
    obtain ⟨conn, x, hstands⟩ := exists_stands_of_ticketOf hticket
    have hfollows := hstands.after hs hkill hconnect
    obtain ⟨rfl, hending⟩ := hfollows.ticketOf_cases h
    exact ⟨(congrArg Heard.ending hfollows.heard).trans hending, Or.inl rfl⟩
  | none =>
    rcases waits_after hs hticket hkill hconnect with
      ⟨hphase, -⟩ | ⟨c, change, q, ticket, hgranted, hfollows⟩ | hover
    · have hsame : ∀ t : Service, t.ticketOf (.client id)
          = ((t.clients.get? id).map Client.phase).bind Phase.ticket? :=
        fun t => by rw [ticketOf]; cases t.clients.get? id <;> rfl
      rw [hsame, hphase, ← hsame, hticket] at h
      cases h
    · obtain ⟨rfl, hending⟩ := hfollows.ticketOf_cases h
      exact ⟨(congrArg Heard.ending hfollows.heard).trans hending,
        Or.inr ⟨c, change, q, hgranted, rfl⟩⟩
    · exact absurd (hover.ticketOf.symm.trans h) (Option.some_ne_none sub).symm

/-- **A session's ticket was granted to its query**, at some step of the run. -/
theorem exists_granted (hs : s.Settled) (hnone : s.ticketOf (.client id) = none)
    {es : List (Moment × Step)} (hes : ∀ e ∈ es, e.2 ≠ .kill)
    (h : (es.foldl Service.after s).ticketOf (.client id) = some sub) :
    ∃ before e rest c change q, es = before ++ e :: rest ∧
      (before.foldl Service.after s).Granted id e.2 c change q sub.ticket ∧ q.feed = sub.feed := by
  induction es using List.reverseRecOn with
  | nil => exact absurd (hnone.symm.trans h) (Option.some_ne_none sub).symm
  | append_singleton es e ih =>
    obtain ⟨hrest, hlast⟩ := List.forall_mem_append.mp hes
    rw [List.foldl_append] at h
    rcases (ticketOf_after (hs.run hrest) (hlast e List.mem_cons_self) h).2 with
      hbefore | ⟨c, change, q, hgranted, hfeed⟩
    · obtain ⟨before, e', rest, c, change, q, rfl, hgranted, hfeed⟩ := ih hrest hbefore
      refine ⟨before, e', rest ++ [e], c, change, q, ?_, hgranted, hfeed⟩
      rw [List.append_assoc, List.cons_append]
    · exact ⟨es, e, [], c, change, q, rfl, hgranted, hfeed⟩

/-! ## Who goes away -/

/-- **What goes wrong leaves nothing behind.** -/
structure LeavesNothing (s : Service) (e : Moment × Step) : Prop where
  /-- A subscription that is abandoned occupies no slot of any feed. -/
  abandoned : ∀ name, e.2 = .abandon name → ∀ other,
    ((s.after e).feed other).stats.occupied = (s.feed other).stats.occupied
  /-- A subscription that is refused changes no feed, unless it stops its feed. -/
  refused : ∀ name subscriber capacity error, e.2 = .subscribe name subscriber capacity →
    (s.step e.1 e.2).1 = .failed error → (s.after e).gone = s.gone →
      ∀ other, (s.after e).feed other = s.feed other
  /-- The end of a connection leaves no slot of its feed occupied, nor does the stop of the feed. -/
  lost : ∀ name, e.2 = .fail name ∨ e.2 = .finish name ∨ name ∈ (s.after e).gone →
    ((s.after e).feed name).stats.occupied = 0
  /-- However a session ends, its client has no slot. -/
  ended : ∀ id, ((s.after e).heardBy id).ending.isSome = true → ∀ name ticket,
    (id, ticket) ∉ (s.after e).sessionsOn name
  /-- A client that has no session, and brings no query, changes no feed and no name. -/
  unasked : ∀ id, e.2.party = .client id → (∀ name ticket, (id, ticket) ∉ s.sessionsOn name) →
    (∀ c change, s.clients.get? id = some c → c.phase = .asking → e.2.speech? id = some change →
      (change c.conn).query? = none) → (s.after e).registry = s.registry

section Unasked

/-- What a client without a session says, if it is no query, changes no feed and no name. -/
theorem registry_converse_of_no_query (hs : s.Settled) (hnone : s.ticketOf (.client id) = none)
    {change : Connection → Connection} (hquery : ∀ c, s.clients.get? id = some c →
      c.phase = .asking → (change c.conn).query? = none) :
    (s.turn.converse id change).registry = s.registry := by
  cases hc : s.clients.get? id with
  | none => rw [converse, (show s.turn.clients.get? id = none from hc)]; rfl
  | some c =>
    cases hphase : c.phase with
    | asking =>
      exact (converse_asking hs.turn.running hc hphase (heardBy_turn s id) change).1
        (hquery c hc hphase)
    | showing name ticket view =>
      rw [ticketOf_client hc, hphase] at hnone
      cases hnone
    | _ =>
      have hover : s.turn.Over id := ⟨c, hc, hphase⟩
      exact (hover.converse change).2.2

/-- Who has no session ends none. -/
theorem registry_endSession_of_no_session (hnone : s.ticketOf (.client id) = none)
    (how : Ending) : (s.endSession id how).registry = s.registry := by
  rw [endSession]
  split
  case h_1 => rfl
  case h_2 c hc =>
    split
    case h_3 name ticket view hphase =>
      rw [ticketOf_client hc, hphase] at hnone
      cases hnone
    all_goals rfl

/-- A step of a client without a session, and without a query, changes no feed and no name. -/
theorem registry_after_of_no_query (hs : s.Settled) (hp : e.2.party = .client id)
    (hnone : s.ticketOf (.client id) = none)
    (hquery : ∀ c change, s.clients.get? id = some c → c.phase = .asking →
      e.2.speech? id = some change → (change c.conn).query? = none) :
    (s.after e).registry = s.registry := by
  obtain ⟨m, st⟩ := e
  have hspeech : ∀ change, st.speech? id = some change →
      (s.turn.converse id change).registry = s.registry := fun change hchange =>
    registry_converse_of_no_query hs hnone fun c hc hphase => hquery c change hc hphase hchange
  rw [after_eq]
  cases st with
  | connect other transport =>
    obtain rfl := Party.client.inj hp
    have hnone : s.turn.ticketOf (.client other) = none := hnone
    exact registry_endSession_of_no_session hnone .finished
  | send other payload =>
    obtain rfl := Party.client.inj hp
    exact hspeech _ (if_pos rfl)
  | leave other =>
    obtain rfl := Party.client.inj hp
    exact hspeech _ (if_pos rfl)
  | breakWrites other =>
    rw [perform]
    split <;> rfl
  | _ => cases hp

end Unasked

/-- **After the end of a connection nobody holds a slot of its feed.** -/
theorem not_holds_of_lose (hs : s.Settled) (hnews : e.2.news? = some (name, .lose)) (p : Party) :
    ¬ (s.after e).Holds p name i := by
  obtain ⟨m, st⟩ := e
  intro hholds
  cases p with
  | subscriber subscriber => exact ((hs.turn.holds_lose hnews subscriber name i m).mp hholds).2 rfl
  | newcomer =>
    obtain ⟨ticket, hticket, -⟩ := hholds
    cases hticket
  | client id =>
    obtain ⟨ticket, hticket, -⟩ := hholds
    have hkill : st ≠ .kill := by
      rintro rfl
      cases hnews
    rcases (ticketOf_after hs hkill hticket).2 with hbefore | ⟨c, change, q, hgranted, -⟩
    · obtain ⟨conn, x, hstands⟩ := exists_stands_of_ticketOf hbefore
      have hfollows := (hstands.turn.perform_news hs.turn hnews m).1
      cases (hfollows.ticketOf_cases hticket).2
    · cases (party_of_speech hgranted.speech).2.symm.trans hnews

/-- A feed whose slots nobody holds is not occupied. -/
theorem occupied_of_not_holds (hs : s.Orderly) (h : ∀ p i, ¬ s.Holds p name i) :
    (s.feed name).stats.occupied = 0 := by
  refine Feed.occupied_eq_length List.nodup_nil fun i => ?_
  refine iff_of_false List.not_mem_nil fun hslot => ?_
  obtain ⟨p, hp⟩ := (exists_holds_iff hs).mpr hslot
  exact h p i hp

/-- The end of a connection leaves no slot of its feed occupied. -/
theorem occupied_of_lose (hs : s.Settled) (hkill : e.2 ≠ .kill)
    (hnews : e.2.news? = some (name, .lose)) : ((s.after e).feed name).stats.occupied = 0 :=
  occupied_of_not_holds (hs.after hkill).toOrderly fun p _ => not_holds_of_lose hs hnews p

/-- Nor is a slot of a feed that has stopped. -/
theorem occupied_of_gone (hs : s.Orderly) (h : name ∈ s.gone) :
    (s.feed name).stats.occupied = 0 :=
  occupied_of_not_holds hs fun _ _ hholds => (hholds.connected hs).2 h

/-- A subscription that is abandoned occupies no slot of any feed. -/
theorem occupied_abandonSubscription (hs : s.Orderly) (name other : String) :
    ((abandonSubscription name s).2.feed other).occupied = (s.feed other).occupied := by
  rw [abandonSubscription_eq]
  split
  case isFalse => rw [feed_setFeed_self]
  case isTrue =>
    dsimp only
    rw [feed_leave, feed_letIn, Function.update_self, Function.update_idem, Function.update_apply]
    split
    case isTrue hname => exact hname ▸ Feed.occupied_leave_letIn (hs.tidy.sound name) 1
    case isFalse => rfl

/-- A subscription that is refused changes no feed. -/
theorem feed_takeSubscription_of_failed {subscriber : String} {capacity : Capacity}
    {error : FeedError}
    (hreply : (takeSubscription name subscriber capacity s).1 = .failed error) :
    (takeSubscription name subscriber capacity s).2.feed = s.feed := by
  rw [takeSubscription_eq] at hreply ⊢
  split at hreply
  case isTrue => cases hreply
  case isFalse hclosed => rw [if_neg hclosed, feed_setFeed_self]

/-- Where nothing waits for anybody, nobody's look changes anything. -/
theorem pollAll_of_rested (h : ∀ id, s.Rested id) (m : Moment) : s.pollAll m = s :=
  List.foldlRecOn (motive := (· = s)) _ _ rfl fun _ ht id _ =>
    ht.symm ▸ poll_of_rested (h id) m

/-- A feed that is asked too much and does not stop stays as it was, and so do all others. -/
theorem feed_pollAll_overask (hs : s.Settled) (name : String) (m : Moment)
    (hgone : ((s.overask name).pollAll m).gone = s.gone) :
    ((s.overask name).pollAll m).feed = s.feed := by
  have hbrought := overask_brought hs.toOrderly name
  rcases s.overask_cases name with ⟨-, hsame⟩ | ⟨f, opened, live, hf, -, hstopped⟩
  · rw [hsame, pollAll_of_rested hs.rested]
  · have hin : name ∈ (s.overask name).gone := hstopped ▸ List.mem_cons_self
    have hlooked := (steady_pollAll hbrought.orderly m).gone name hin
    exact absurd (hgone ▸ hlooked) (not_gone_of_open hs.lively (Feed.open_of_overask hf))

/-- **Whatever goes wrong at a step, nothing is left behind.** -/
theorem leavesNothing (hs : s.Settled) (hkill : e.2 ≠ .kill) : s.LeavesNothing e where
  abandoned := by
    obtain ⟨m, st⟩ := e
    rintro name rfl other
    obtain ⟨horderly, -⟩ := act_handled .newcomer s.turn name hs.turn.toOrderly
    have hfeed : (s.turn.handled name).feed = s.feed := feed_located s.turn name
    rw [after_eq, perform, withFeed_eq hs.turn.running, ← hfeed]
    exact occupied_abandonSubscription horderly name other
  refused := by
    obtain ⟨m, st⟩ := e
    rintro name subscriber n error rfl hreply hgone other
    have hfeed : (s.turn.handled name).feed = s.feed := feed_located s.turn name
    rw [after_eq] at hgone ⊢
    change (s.turn.perform m _).1 = _ at hreply
    rcases Nat.lt_or_ge Mailbox.limit n with hover | hfits
    · rw [perform_overask hs.turn.running subscriber hover] at hgone ⊢
      rw [← hfeed]
      exact congrFun (feed_pollAll_overask (hs.turn.handled name) name m hgone) other
    obtain ⟨capacity, rfl⟩ := Capacity.exists_val_eq hfits
    rw [perform_subscribe hs.turn.running] at hreply ⊢
    rw [← hfeed]
    exact congrFun (feed_takeSubscription_of_failed hreply) other
  lost := by
    rintro name (hst | hst | hgone)
    · exact occupied_of_lose hs hkill (by rw [hst]; rfl)
    · exact occupied_of_lose hs hkill (by rw [hst]; rfl)
    · exact occupied_of_gone (hs.after hkill).toOrderly hgone
  ended := by
    intro id hended name ticket hmem
    have hending := (ticketOf_after hs hkill (mem_sessionsOn.mp hmem)).1
    rw [hending] at hended
    cases hended
  unasked := by
    intro id hp hno hquery
    refine registry_after_of_no_query hs hp ?_ hquery
    cases hticket : s.ticketOf (.client id) with
    | none => rfl
    | some sub => exact absurd (mem_sessionsOn.mpr hticket) (hno sub.feed sub.ticket)

/-! ## The law -/

/-- **No slot leaks.**  After every run without `kill`, for every feed,

* the occupied slots are as many as the direct subscriptions that stand and the sessions that show
  the feed's records;
* the slots of these are all different, and they are the occupied ones: each direct subscription
  has the slot that was reported at its grant, and each session that of the ticket its query was
  granted.

And at every further step, what is abandoned, refused, ended or never asked for leaves nothing
behind. -/
theorem no_slot_leaks (cachePath : String) (cacheCapacity queueCapacity : Nat)
    (refusal : FeedError) (es : List (Moment × Step)) (hes : ∀ e ∈ es, e.2 ≠ .kill) :
    let first := start cachePath cacheCapacity queueCapacity refusal
    let s := es.foldl after first
    (∀ name,
      let subscribed := (first.standings es).filter (·.feed = name)
      let sessions := s.sessionsOn name
      let held := subscribed.map (·.slot) ++ sessions.map (·.2.slot)
      (s.feed name).stats.occupied = subscribed.length + sessions.length ∧ held.Nodup ∧
        (∀ i, i ∈ held ↔ ∃ n, (s.feed name).slots[i]? = some (some n)) ∧
        ∀ id ticket, (id, ticket) ∈ sessions → ∃ before e rest c change q,
          es = before ++ e :: rest ∧
            (before.foldl after first).Granted id e.2 c change q ticket ∧ q.feed = name) ∧
      ∀ e, e.2 ≠ .kill → s.LeavesNothing e := by
  intro first s
  have hfirst := settled_start cachePath cacheCapacity queueCapacity refusal
  have hs : s.Settled := hfirst.run hes
  have hnobody : ∀ p, first.ticketOf p = none := fun p => by cases p <;> rfl
  have hbooks : Books first [] := by
    refine ⟨List.nodup_nil, fun x => iff_of_false List.not_mem_nil ?_⟩
    rintro ⟨ticket, hticket, -⟩
    rw [hnobody] at hticket
    cases hticket
  refine ⟨fun name => ?_, fun e hkill => leavesNothing hs hkill⟩
  obtain ⟨hcount, hnodup, hmem⟩ := (books_run hfirst hbooks hes).2.occupied hs name
  refine ⟨hcount, hnodup, hmem, fun id ticket hsession => ?_⟩
  exact exists_granted hfirst (hnobody _) hes (mem_sessionsOn.mp hsession)

/-- A subscription is given back, another one is abandoned, and a session stays in its slot between
them. -/
theorem only_the_session_is_left :
    let m : Moment := ⟨0, 0⟩
    let query := Step.send "c" (.message (.text "[\"a\"]"))
    let es := [(m, .subscribe "a" "x" 1), (m, .connect "c" .messages), (m, query),
      (m, .abandon "a"), (m, .unsubscribe "x")]
    let s := es.foldl after (start "key" 4 4 .registryGone)
    (s.feed "a").stats.occupied = 1 ∧ ∃ n, (s.feed "a").slots[1]? = some (some n) := by
  intro m query es s
  obtain ⟨hcount, -, hmem, -⟩ :=
    (no_slot_leaks "key" 4 4 .registryGone es (by simp [es, query])).1 "a"
  exact ⟨hcount.trans (by decide +kernel), (hmem 1).mp (by decide +kernel)⟩

end Service

end LiveQuery
