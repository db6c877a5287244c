import LiveQuery.Proofs.Service.Course

/-!
# Proofs/Service/Settled — between two steps every session is at rest

After each step a service is `Settled`: it is orderly, it runs, and every session holds its slot
with nothing waiting for it.  `Settled.after` says that every step but `kill` leaves it so.

What one client has of a step is told apart by what the client is doing.  A session that shows
records makes the moves of its course (`Stands.after`), a session that is over hears nothing any
more (`Over.after`), and a client whose query is still to come is answered by `converse_asking`.

Where sessions ask for more than a mailbox can hold, nobody ever has one: a query stops the feed it
is about, and is refused (`converse_of_lt`).
-/

namespace LiveQuery

/-- The query that somebody's words are, if they are one. -/
def Utterance.query? : Utterance → Option Query
  | .json v => (Query.ofJson v).toOption
  | _ => none

/-- **The query that a client's first words are**, if they are one. -/
def Connection.query? (conn : Connection) : Option Query :=
  conn.uttered.head?.bind Utterance.query?

namespace Service

variable {s t u : Service} {p : Party} {id name : String} {conn : Connection} {sub : Subscription}
  {w : Bool} {said : List String} {x : Sitting} {now : Except Ending Sitting} {m : Moment}
  {st : Step} {e : Feed.Event} {change : Connection → Connection}

/-- **What is true of a service between two steps.** -/
structure Settled (s : Service) : Prop extends Orderly s where
  running : s.running = true
  rested : ∀ id, s.Rested id
  unheard : Mailbox.limit < s.queueCapacity → ∀ id, s.ticketOf (.client id) = none

/-- The service at the beginning of a step: nothing is noted. -/
def turn (s : Service) : Service := { s with opened := [], heard := .empty }

/-- **The service after a step** at some moment. -/
def after (s : Service) (e : Moment × Step) : Service := (s.step e.1 e.2).2

theorem after_eq (s : Service) (e : Moment × Step) : s.after e = (s.turn.perform e.1 e.2).2 := rfl

theorem ticketOf_turn (s : Service) : s.turn.ticketOf = s.ticketOf :=
  funext fun p => by cases p <;> rfl

theorem request_turn (s : Service) (name : String) :
    (s.turn.request name s.turn.queueCapacity).1 = (s.request name s.queueCapacity).1 := by
  rw [request_fst, request_fst]
  rfl

theorem heardBy_turn (s : Service) (id : String) : s.turn.heardBy id = ⟨[], none⟩ := rfl

theorem Settled.turn (hs : s.Settled) : s.turn.Settled where
  tidy := ticketOf_turn s ▸ hs.tidy
  lively := hs.lively
  running := hs.running
  rested id sub hsub := hs.rested id sub (ticketOf_turn s ▸ hsub)
  unheard hover id := ticketOf_turn s ▸ hs.unheard hover id

theorem Settled.handled (hs : s.Settled) (name : String) : (s.handled name).Settled where
  toOrderly := (act_handled .newcomer s name hs.toOrderly).1
  running := hs.running
  rested id sub hsub := by
    rw [feed_handled]
    exact hs.rested id sub (ticketOf_handled s name ▸ hsub)
  unheard hover id := ticketOf_handled s name ▸ hs.unheard hover id

/-! ## What a step is to a client -/

/-- **A step and a client**: it is somebody else's, news, or the client's own. -/
theorem Step.cases_of_client (st : Step) (id : String) :
    st = .kill ∨ (st.news? = none ∧ .client id ≠ st.party) ∨ (∃ n, st.news? = some n) ∨
      (∃ transport, st = .connect id transport) ∨ st = .breakWrites id ∨
      ∃ change, st.speech? id = some change := by
  have hne : ∀ {other}, other ≠ id → Party.client id ≠ .client other :=
    fun h heq => h (Party.client.inj heq).symm
  cases st with
  | kill => exact Or.inl rfl
  | line name text => exact Or.inr (Or.inr (Or.inl ⟨_, rfl⟩))
  | fail name => exact Or.inr (Or.inr (Or.inl ⟨_, rfl⟩))
  | finish name => exact Or.inr (Or.inr (Or.inl ⟨_, rfl⟩))
  | subscribe name subscriber capacity =>
    by_cases h : Mailbox.limit < capacity
    · exact Or.inr (Or.inr (Or.inl ⟨_, if_pos h⟩))
    · exact Or.inr (Or.inl ⟨if_neg h, fun h => by cases h⟩)
  | connect other transport =>
    by_cases h : other = id
    · exact Or.inr (Or.inr (Or.inr (Or.inl ⟨transport, h ▸ rfl⟩)))
    · exact Or.inr (Or.inl ⟨rfl, hne h⟩)
  | breakWrites other =>
    by_cases h : other = id
    · exact Or.inr (Or.inr (Or.inr (Or.inr (Or.inl (h ▸ rfl)))))
    · exact Or.inr (Or.inl ⟨rfl, hne h⟩)
  | send other payload =>
    by_cases h : other = id
    · exact Or.inr (Or.inr (Or.inr (Or.inr (Or.inr ⟨_, if_pos h⟩))))
    · exact Or.inr (Or.inl ⟨rfl, hne h⟩)
  | leave other =>
    by_cases h : other = id
    · exact Or.inr (Or.inr (Or.inr (Or.inr (Or.inr ⟨_, if_pos h⟩))))
    · exact Or.inr (Or.inl ⟨rfl, hne h⟩)
  | _ => exact Or.inr (Or.inl ⟨rfl, fun h => by cases h⟩)

/-! ## Queries -/

/-- The end of a session that has no slot yet concerns nobody else. -/
theorem endSession_asking {c : Client} (hc : s.clients.get? id = some c)
    (hasking : c.phase = .asking) (ending : Ending) :
    (s.endSession id ending).Over id ∧ (s.endSession id ending).registry = s.registry := by
  rw [endSession, hc]
  simp only [hasking]
  exact ⟨⟨_, get?_setClient_self s id _, rfl⟩, rfl⟩

/-- **A query is accepted or not**, and other words end the session. -/
theorem hear_asking {c : Client} (hc : s.clients.get? id = some c) (hasking : c.phase = .asking)
    (u : Utterance) : (∃ q, u.query? = some q ∧ s.hear id u.reading = s.accept id c q) ∨
      u.query? = none ∧ ∃ ending, s.hear id u.reading = s.endSession id ending := by
  rw [hear, hc]
  cases u with
  | json v =>
    simp only [hasking, Utterance.query?, Utterance.reading]
    cases Query.ofJson v with
    | error fault => exact Or.inr ⟨rfl, _, rfl⟩
    | ok q => exact Or.inl ⟨q, rfl, rfl⟩
  | unreadable e =>
    simp only [hasking, Utterance.reading]
    cases e <;> exact Or.inr ⟨rfl, _, rfl⟩
  | farewell =>
    simp only [hasking, Utterance.reading]
    exact Or.inr ⟨rfl, _, rfl⟩

/-- **A query that is refused** ends the session. -/
theorem over_accept {c : Client} {q : Query} (hc : s.clients.get? id = some c)
    (hasking : c.phase = .asking)
    (hticket : (s.request q.feed s.queueCapacity).1 = none) : (s.accept id c q).Over id := by
  rcases Nat.lt_or_ge Mailbox.limit s.queueCapacity with hover | hfits
  · have hclient : ((s.located q.feed).overask q.feed).clients.get? id = some c := by
      rw [clients_overask]
      exact hc
    rw [accept_of_lt hover]
    split_ifs
    · exact (endSession_asking hc hasking _).1
    · exact (endSession_asking hclient hasking _).1
  obtain ⟨capacity, hqueue⟩ := Capacity.exists_val_eq hfits
  rw [request_fst, ← hqueue, Capacity.ofNat?_val, Option.bind_some] at hticket
  have hrefused : ¬ ((s.feed q.feed).connected || s.accepts q.feed) = true := by
    intro hopen
    rw [if_pos hopen] at hticket
    cases hticket
  rw [accept_eq hqueue]
  split_ifs
  · exact (endSession_asking hc hasking _).1
  · exact (endSession_asking (s := (s.located q.feed).setFeed q.feed _) hc hasking _).1

/-! ## Where nobody is let in -/

/-- **Somebody who is to bring a query says something**, where sessions ask for more than a mailbox
can hold: that is the client's own act, or a query for which its feed is asked too much. -/
theorem foldl_hear_of_lt (hover : Mailbox.limit < s.queueCapacity) {c : Client}
    (hc : s.clients.get? id = some c) (hasking : c.phase = .asking) (rs : List Reading) :
    let t := rs.foldl (fun s r => s.hear id r) s
    t.ticketOf (.client id) = none ∧
      (Act (.client id) s t ∨ ∃ name, Act (.client id) ((s.located name).overask name) t) := by
  induction rs with
  | nil => exact ⟨by rw [List.foldl_nil, ticketOf_client hc, hasking]; rfl, Or.inl (.refl _ s)⟩
  | cons r rs ih =>
    rw [List.foldl_cons]
    rcases r.pending_or_uttered with rfl | ⟨u, rfl⟩
    · have hsame : s.hear id .pending = s := by
        rw [hear, hc]
        simp only [hasking]
      rw [hsame]
      exact ih
    rcases hear_asking hc hasking u with ⟨q, -, haccept⟩ | ⟨-, ending, hend⟩
    · have hrefused : (s.request q.feed s.queueCapacity).1 = none := by rw [request_of_lt hover]
      have hlast := over_accept hc hasking hrefused
      rw [haccept, foldl_hear_of_over hlast]
      refine ⟨hlast.ticketOf, ?_⟩
      rw [accept_of_lt hover]
      split
      · exact Or.inl (act_endSession s id _)
      · exact Or.inr ⟨q.feed, act_endSession _ id _⟩
    · rw [hend, foldl_hear_of_over (endSession_asking hc hasking ending).1]
      exact ⟨ticketOf_endSession s id ending, Or.inl (act_endSession s id ending)⟩

/-- **Somebody without a session** says something there. -/
theorem converse_of_lt (hover : Mailbox.limit < s.queueCapacity)
    (hnone : s.ticketOf (.client id) = none) (change : Connection → Connection) :
    let t := s.converse id change
    t.ticketOf (.client id) = none ∧ (Act (.client id) s t ∨
      ∃ name u, Act (.client id) s u ∧ Act (.client id) (u.overask name) t) := by
  cases hc : s.clients.get? id with
  | none =>
    rw [converse, hc]
    exact ⟨hnone, Or.inl (.refl _ s)⟩
  | some c =>
    rw [converse_eq hc]
    generalize hu : (s.setClient id { c with conn := change c.conn }).setClient id
      { c with conn := (change c.conn).readAll.2 } = u
    have hclient : u.clients.get? id = some { c with conn := (change c.conn).readAll.2 } :=
      hu ▸ get?_setClient_self _ id _
    have harrived := get?_setClient_self s id { c with conn := change c.conn }
    have hact : Act (.client id) s u := hu ▸ (act_setConn hc _).trans (act_setConn harrived _)
    cases hphase : c.phase with
    | asking =>
      have hover : Mailbox.limit < u.queueCapacity := hu ▸ hover
      obtain ⟨hlast, hheard | ⟨name, hheard⟩⟩ := foldl_hear_of_lt hover hclient hphase
        (change c.conn).readAll.1
      · exact ⟨hlast, Or.inl (hact.trans hheard)⟩
      · exact ⟨hlast, Or.inr ⟨name, u.located name, hact.trans (act_located _ u name), hheard⟩⟩
    | showing name ticket view =>
      rw [ticketOf_client hc, hphase] at hnone
      cases hnone
    | _ =>
      have hlast : u.Over id := ⟨_, hclient, hphase⟩
      rw [foldl_hear_of_over hlast]
      exact ⟨hlast.ticketOf, Or.inl hact⟩

theorem Settled.act_or_overask (hs : s.Settled) (hkill : st ≠ .kill) (hnews : st.news? = none)
    (m : Moment) :
    let t := (s.perform m st).2
    Act st.party s t ∨ Mailbox.limit < s.queueCapacity ∧
      ∃ name u, Act st.party s u ∧ Act st.party (u.overask name) t := by
  rcases Nat.lt_or_ge Mailbox.limit s.queueCapacity with hover | hfits
  · by_cases hspeech : ∀ id, st.speech? id = none
    · exact Or.inl (act_perform hs.running hkill hnews (Or.inr hspeech) m)
    · obtain ⟨id, hspeech⟩ := not_forall.mp hspeech
      obtain ⟨change, hchange⟩ := Option.ne_none_iff_exists'.mp hspeech
      rw [perform_speech hchange, (party_of_speech hchange).1]
      exact (converse_of_lt hover (hs.unheard hover id) change).2.imp_right fun h => ⟨hover, h⟩
  · exact Or.inl (act_perform hs.running hkill hnews (Or.inl hfits) m)

/-- **A step that is no news** is its party's act, or a query that stops a feed and is refused. -/
theorem Settled.perform_cases (hs : s.Settled) (hkill : st ≠ .kill) (hnews : st.news? = none)
    (m : Moment) :
    let t := (s.perform m st).2
    t.Orderly ∧ (Apart st.party s t ∨ Mailbox.limit < s.queueCapacity ∧
      ∃ name u, u.Orderly ∧ Apart st.party s u ∧ Apart st.party (u.overask name) t) := by
  rcases hs.act_or_overask hkill hnews m with hact | ⟨hover, name, u, hbefore, hafter⟩
  · obtain ⟨horderly, hapart⟩ := hact hs.toOrderly
    exact ⟨horderly, Or.inl hapart⟩
  · obtain ⟨hu, hbefore⟩ := hbefore hs.toOrderly
    obtain ⟨horderly, hafter⟩ := hafter (overask_brought hu name).orderly
    exact ⟨horderly, Or.inr ⟨hover, name, u, hu, hbefore, hafter⟩⟩

/-- **Every step** but `kill` keeps a service orderly, and what is everybody's as it is. -/
theorem Settled.steady_perform (hs : s.Settled) (hkill : st ≠ .kill) (m : Moment) :
    (s.perform m st).2.Orderly ∧ Steady s (s.perform m st).2 := by
  cases hnews : st.news? with
  | none =>
    obtain ⟨horderly, hapart | ⟨-, name, u, hu, hbefore, hafter⟩⟩ := hs.perform_cases hkill hnews m
    · exact ⟨horderly, hapart.steady⟩
    · have hlost := (overask_brought hu name).toSteady
      exact ⟨horderly, (hbefore.steady.trans hlost).trans hafter.steady⟩
  | some n =>
    obtain ⟨u, hu, hlook | ⟨hlook, -⟩⟩ := perform_news hs.toOrderly hs.running hnews m
    · exact hlook ▸ ⟨orderly_pollAll hu.orderly m,
        hu.toSteady.trans (steady_pollAll hu.orderly m)⟩
    · exact hlook ▸ ⟨hu.orderly, hu.toSteady⟩

/-- **What somebody else does is not noticed** by a client. -/
theorem Settled.alike_of_ne (hs : s.Settled) (hkill : st ≠ .kill) (hnews : st.news? = none)
    (hp : .client id ≠ st.party) (m : Moment) : Alike (.client id) s (s.perform m st).2 := by
  obtain ⟨-, hapart | ⟨hover, name, u, hu, hbefore, hafter⟩⟩ := hs.perform_cases hkill hnews m
  · exact hapart.alike hp
  · -- Whoever has no session has no seat to lose.
    have halike := hbefore.alike hp
    have hnone : u.ticketOf (.client id) = none := halike.ticket.trans (hs.unheard hover id)
    have hlost : Alike (.client id) u (u.overask name) :=
      (overask_brought hu name).alike fun sub hsub => by
        rw [hnone] at hsub
        cases hsub
    exact (halike.trans hlost).trans (hafter.alike hp)

/-! ## Reading -/

theorem rested_setClient {c : Client} (h : s.Rested id)
    (hticket : c.phase.ticket? = s.ticketOf (.client id)) : (s.setClient id c).Rested id := by
  intro sub hsub
  rw [ticketOf_client (get?_setClient_self s id c), hticket] at hsub
  exact h sub hsub

/-- A session that has just been granted its slot is at rest. -/
theorem rested_accept (s : Service) (id : String) (c : Client) (q : Query) :
    (s.accept id c q).Rested id := by
  rcases Nat.lt_or_ge Mailbox.limit s.queueCapacity with hover | hfits
  · rw [accept_of_lt hover]
    split_ifs
    · exact rested_of_none (ticketOf_endSession s id _)
    · exact rested_of_none (ticketOf_endSession _ id _)
  obtain ⟨capacity, hqueue⟩ := Capacity.exists_val_eq hfits
  rw [accept_eq hqueue]
  split_ifs
  · exact rested_of_none (ticketOf_endSession s id _)
  · intro sub hsub
    rw [ticketOf_client (get?_setClient_self _ id _)] at hsub
    obtain rfl := Option.some.inj hsub
    refine ⟨max capacity.val 1, Nat.le_max_right _ _, ?_⟩
    have hfeed : ((s.located q.feed).letIn q.feed capacity).feed
        = Function.update s.feed q.feed ((s.feed q.feed).letIn capacity) := by
      rw [feed_letIn, feed_located]
    exact (congrArg (seatOf · _) hfeed).trans
      ((seatOf_update_self rfl _).trans (Feed.seat_nextTicket (s.feed q.feed) capacity))
  · exact rested_of_none (ticketOf_endSession _ id _)

theorem rested_hear (h : s.Rested id) (r : Reading) : (s.hear id r).Rested id := by
  rw [hear]
  split
  case h_1 => exact h
  case h_2 c hc =>
    split
    case h_6 v hasking =>
      split
      · exact rested_of_none (ticketOf_endSession s id _)
      · exact rested_accept s id c _
    all_goals first | exact h | exact rested_of_none (ticketOf_endSession s id _)

/-- **A session that has listened to its client is at rest.** -/
theorem rested_converse (h : s.Rested id) (change : Connection → Connection) :
    (s.converse id change).Rested id := by
  cases hc : s.clients.get? id with
  | none =>
    rw [converse, hc]
    exact h
  | some c =>
    rw [converse_eq hc]
    refine List.foldlRecOn (motive := (Rested · id)) _ _ ?_ fun _ hb r _ => rested_hear hb r
    refine rested_setClient (rested_setClient h (ticketOf_client hc).symm) ?_
    exact (ticketOf_client (get?_setClient_self s id { c with conn := change c.conn })).symm

/-! ## News -/

/-- Who holds a slot has a connection. -/
theorem connected_of_idle (hs : s.Orderly) (h : (seatOf s.feed sub).Idle) :
    (s.feed sub.feed).connected = true := by
  obtain ⟨capacity, -, hseat⟩ := h
  have hheld : ((s.feed sub.feed).seat sub.ticket.id).held = true := congrArg Seat.held hseat
  exact (hs.tidy.sound sub.feed).connected_of_mem (Feed.seat_held_iff.mp hheld)

theorem isNews (h : st.news? = some (name, e)) : e = .lose ∨ ∃ text, e = .line text := by
  cases st with
  | line other text =>
    cases h
    exact Or.inr ⟨text, rfl⟩
  | fail other =>
    cases h
    exact Or.inl rfl
  | finish other =>
    cases h
    exact Or.inl rfl
  | subscribe other subscriber capacity =>
    obtain ⟨-, h⟩ := Option.ite_none_right_eq_some.mp h
    cases h
    exact Or.inl rfl
  | _ => cases h

/-- **News of other feeds are not noticed.** -/
theorem Settled.alike_of_news (hs : s.Settled) (hnews : st.news? = some (name, e))
    (hne : ∀ sub, s.ticketOf (.client id) = some sub → sub.feed ≠ name) (m : Moment) :
    Alike (.client id) s (s.perform m st).2 := by
  obtain ⟨u, hu, hlook⟩ := perform_news hs.toOrderly hs.running hnews m
  have halike : Alike (.client id) s u := hu.alike hne
  rcases hlook with hlook | ⟨hlook, -⟩
  · obtain ⟨t, -, hbefore, hafter⟩ := pollAll_client hu.orderly m id
    have hrested : t.Rested id := ((hs.rested id).alike halike).alike hbefore
    rw [poll_of_rested hrested] at hafter
    exact hlook ▸ (halike.trans hbefore).trans hafter
  · exact hlook ▸ halike

/-- Who has no ticket does not notice any news. -/
theorem alike_of_none {n : String × Feed.Event} (hs : s.Settled)
    (h : s.ticketOf (.client id) = none) (hnews : st.news? = some n) (m : Moment) :
    Alike (.client id) s (s.perform m st).2 :=
  hs.alike_of_news hnews (fun sub hsub => absurd (h.symm.trans hsub) (Option.some_ne_none sub).symm)
    m

/-- **News of its feed**, in the service and for the session alone. -/
theorem Follows.perform_news (hs : s.Settled) (h : s.Follows id conn sub ⟨said, .ok x⟩)
    (hnews : st.news? = some (sub.feed, e)) (m : Moment) :
    (s.perform m st).2.Follows id conn sub ((⟨said, .ok x⟩ : Course).run (Occurrence.ofNews m e)) ∧
      (s.perform m st).2.Rested id := by
  have hidle := hs.rested id sub h.ticketOf
  obtain ⟨u, hu, hlook⟩ := Service.perform_news hs.toOrderly hs.running hnews m
  have hlook : (s.perform m st).2 = u.pollAll m := by
    refine hlook.resolve_right fun hnot => ?_
    exact Bool.false_ne_true (hnot.2.symm.trans (connected_of_idle hs.toOrderly hidle))
  have hfollows : u.Follows id conn sub ⟨said, .ok x⟩ :=
    h.of_eq (by rw [hu.clients]) (by rw [heardBy, hu.heard, heardBy])
  obtain ⟨t, -, hbefore, hafter⟩ := pollAll_client hu.orderly m id
  have hseat : seatOf t.feed sub = (seatOf s.feed sub).step sub.ticket e := by
    rw [hbefore.seat hfollows.ticketOf, hu.seat h.ticketOf, if_pos rfl]
  obtain ⟨hlast, hrested⟩ := (hfollows.alike hbefore).poll hidle (isNews hnews) hseat m
  rw [hlook]
  exact ⟨hlast.alike hafter, hrested.alike hafter⟩

/-! ## Steps -/

/-- A session that shows records has said nothing yet in a new step. -/
theorem Stands.turn (h : s.Stands id conn sub (.ok x)) :
    s.turn.Follows id conn sub ⟨[], .ok x⟩ := ⟨h.of_eq rfl, heardBy_turn s id⟩

/-- Who has a ticket shows records. -/
theorem exists_stands_of_ticketOf (h : s.ticketOf (.client id) = some sub) :
    ∃ conn x, s.Stands id conn sub (.ok x) := by
  cases hc : s.clients.get? id with
  | none =>
    rw [ticketOf, hc] at h
    cases h
  | some c =>
    rw [ticketOf_client hc] at h
    obtain ⟨conn, w, phase⟩ := c
    cases phase with
    | showing name ticket view =>
      obtain rfl := Option.some.inj h
      exact ⟨conn, ⟨w, view.filters, view.fields⟩, by rintro _ ⟨⟩; exact hc, by rintro _ ⟨⟩⟩
    | _ => cases h

/-- **Where sessions ask for more than a mailbox can hold, nobody gets one.** -/
theorem Settled.unheard_perform (hs : s.Settled) (hover : Mailbox.limit < s.queueCapacity)
    (hkill : st ≠ .kill) (id : String) (m : Moment) :
    (s.perform m st).2.ticketOf (.client id) = none := by
  have hnone := hs.unheard hover id
  rcases st.cases_of_client id with
    h | ⟨hnews, hp⟩ | ⟨⟨name, e⟩, hnews⟩ | ⟨transport, rfl⟩ | rfl | ⟨change, hchange⟩
  · exact absurd h hkill
  · exact (hs.alike_of_ne hkill hnews hp m).ticket.trans hnone
  · exact (alike_of_none hs hnone hnews m).ticket.trans hnone
  · exact ticketOf_client (get?_setClient_self _ id _)
  · rw [perform]
    split
    case h_1 c hc =>
      have hphase : c.phase.ticket? = none := (ticketOf_client hc).symm.trans hnone
      exact (ticketOf_client (get?_setClient_self s id _)).trans hphase
    case h_2 => exact hnone
  · rw [perform_speech hchange]
    exact (converse_of_lt hover hnone change).1

/-- **A settled service is settled after every step** but `kill`. -/
theorem Settled.after (hs : s.Settled) {e : Moment × Step} (hkill : e.2 ≠ .kill) :
    (s.after e).Settled := by
  obtain ⟨m, st⟩ := e
  have ht := hs.turn
  obtain ⟨horderly, hsteady⟩ := ht.steady_perform hkill m
  refine ⟨horderly, hsteady.running.trans ht.running, fun id => ?_,
    fun hover id => ht.unheard_perform (hsteady.queue ▸ hover) hkill id m⟩
  rw [after_eq]
  rcases st.cases_of_client id with
    h | ⟨hnews, hp⟩ | ⟨⟨name, e⟩, hnews⟩ | ⟨transport, rfl⟩ | rfl | ⟨change, hchange⟩
  · exact absurd h hkill
  · exact (ht.rested id).alike (ht.alike_of_ne hkill hnews hp m)
  · by_cases hsub : ∃ sub, s.turn.ticketOf (.client id) = some sub ∧ sub.feed = name
    · obtain ⟨sub, hsub, rfl⟩ := hsub
      obtain ⟨conn, x, hstands⟩ := exists_stands_of_ticketOf (ticketOf_turn s ▸ hsub)
      exact (hstands.turn.perform_news ht hnews m).2
    · refine (ht.rested id).alike (ht.alike_of_news hnews (fun sub h hname => ?_) m)
      exact hsub ⟨sub, h, hname⟩
  · exact rested_of_none (ticketOf_client (get?_setClient_self _ id _))
  · rw [perform]
    split
    case h_1 c hc => exact rested_setClient (ht.rested id) (ticketOf_client hc).symm
    case h_2 => exact ht.rested id
  · rw [perform_speech hchange]
    exact rested_converse (ht.rested id) change

/-- **A service begins settled.** -/
theorem settled_start (cachePath : String) (cacheCapacity queueCapacity : Nat)
    (refusal : FeedError) : (start cachePath cacheCapacity queueCapacity refusal).Settled := by
  have hnone : ∀ p, (start cachePath cacheCapacity queueCapacity refusal).ticketOf p = none :=
    fun p => by cases p <;> rfl
  have hnobody : ∀ {p sub},
      (start cachePath cacheCapacity queueCapacity refusal).ticketOf p ≠ some sub := by
    intro p sub hsub
    rw [hnone] at hsub
    cases hsub
  have htidy : Tidy (start cachePath cacheCapacity queueCapacity refusal).feed
      (start cachePath cacheCapacity queueCapacity refusal).ticketOf :=
    ⟨fun _ => Feed.sound_idle _, fun h => absurd h hnobody, fun h => absurd h hnobody,
      fun h => absurd h hnobody, fun hid => absurd hid List.not_mem_nil⟩
  exact ⟨⟨htidy, fun _ hc => (by cases hc)⟩, rfl, fun id => rested_of_none (hnone _),
    fun _ id => hnone _⟩

/-- **…and is settled after every run** without `kill`. -/
theorem Settled.run (hs : s.Settled) {es : List (Moment × Step)} (hes : ∀ e ∈ es, e.2 ≠ .kill) :
    (es.foldl Service.after s).Settled :=
  List.foldlRecOn (motive := Settled) es Service.after hs fun _ ht e he => ht.after (hes e he)

/-! ## The query -/

/-- **A client's query is read at a step and granted.** -/
structure Granted (s : Service) (id : String) (st : Step) (c : Client)
    (change : Connection → Connection) (q : Query) (ticket : Ticket) : Prop where
  client : s.clients.get? id = some c
  asking : c.phase = .asking
  speech : st.speech? id = some change
  query : (change c.conn).query? = some q
  ticket : (s.request q.feed s.queueCapacity).1 = some ticket

/-- **A query that is granted** begins its course. -/
theorem follows_accept {c : Client} {q : Query} {ticket : Ticket} (hs : s.running = true)
    (hheard : s.heardBy id = ⟨[], none⟩)
    (hticket : (s.request q.feed s.queueCapacity).1 = some ticket) :
    (s.accept id c q).Follows id c.conn ⟨q.feed, ticket⟩ ⟨[], .ok (.start c.writable q)⟩ := by
  have hrunning : ¬ s.running = false := by rw [hs]; exact Bool.false_ne_true.symm
  rw [request_fst] at hticket
  obtain ⟨capacity, hcapacity, hticket⟩ := Option.bind_eq_some_iff.mp hticket
  obtain ⟨hopen, hnext⟩ := Option.ite_none_right_eq_some.mp hticket
  obtain rfl := Option.some.inj hnext
  rw [accept_eq (Capacity.val_of_ofNat? hcapacity), if_neg hrunning, if_pos hopen]
  refine ⟨⟨?_, by rintro _ ⟨⟩⟩, ?_⟩
  · rintro _ ⟨⟩
    exact get?_setClient_self _ id _
  · have hsame := (letIn_same (s.located q.feed) q.feed capacity).2.2
    have hkept : ((s.located q.feed).letIn q.feed capacity).heardBy id = s.heardBy id := by
      rw [heardBy, hsame]
      rfl
    exact hkept.trans hheard

/-- **What becomes of a client whose query is still to come**, when it is listened to: it goes on
waiting, its query is granted, or its session is over, and nothing else has changed unless there was
a query. -/
theorem converse_asking {c : Client} (hs : s.running = true) (hc : s.clients.get? id = some c)
    (hasking : c.phase = .asking) (hheard : s.heardBy id = ⟨[], none⟩)
    (change : Connection → Connection) :
    let t := s.converse id change
    let conn := change c.conn
    (conn.query? = none → t.registry = s.registry) ∧
      ((conn.query? = none ∧ t.Asks id ∧ t.heardBy id = ⟨[], none⟩) ∨
      (∃ q ticket, conn.query? = some q ∧ (s.request q.feed s.queueCapacity).1 = some ticket ∧
        t.Follows id conn.silent ⟨q.feed, ticket⟩ ((⟨[], .ok (.start c.writable q)⟩ : Course).run
          (conn.uttered.tail.filterMap Occurrence.ofUtterance?))) ∨
      (t.Over id ∧ ∀ q, conn.query? = some q →
        (s.request q.feed s.queueCapacity).1 = none)) := by
  intro t conn
  obtain ⟨hvoices, hsilent⟩ := conn.voices_readAll
  have hreads : t = conn.readAll.1.foldl (fun s r => s.hear id r)
      ((s.setClient id { c with conn }).setClient id { c with conn := conn.readAll.2 }) :=
    converse_eq hc change
  rw [hreads, Connection.query?]
  -- The client with what has arrived, and nothing else changed.
  generalize hu : (s.setClient id { c with conn }).setClient id { c with conn := conn.readAll.2 }
    = u
  have hclient : u.clients.get? id = some { c with conn := conn.readAll.2 } :=
    hu ▸ get?_setClient_self _ id _
  have hregistry : u.registry = s.registry := hu ▸ rfl
  have hheard' : u.heardBy id = ⟨[], none⟩ := hu ▸ hheard
  have hrequest : ∀ name, (u.request name u.queueCapacity).1
      = (s.request name s.queueCapacity).1 := by
    intro name
    rw [request_fst, request_fst]
    exact hu ▸ rfl
  cases hus : conn.uttered with
  | nil =>
    rw [hus] at hvoices
    cases hrs : conn.readAll.1 with
    | nil => exact ⟨fun _ => hregistry, Or.inl ⟨rfl, ⟨_, hclient, hasking⟩, hheard'⟩⟩
    | cons r rs =>
      rw [hrs] at hvoices
      cases hvoices
  | cons w us =>
    rw [hus] at hvoices hsilent
    obtain ⟨rs, hrs, hrest⟩ := hvoices.of_cons
    rw [hrs, List.foldl_cons, List.head?_cons, Option.bind_some, List.tail_cons]
    rcases hear_asking hclient hasking w with ⟨q, hq, haccept⟩ | ⟨hnone, ending, hend⟩
    · rw [haccept, hq]
      refine ⟨fun hnone => (by cases hnone), Or.inr ?_⟩
      cases hticket : (s.request q.feed s.queueCapacity).1 with
      | none =>
        have hover := over_accept hclient hasking ((hrequest _).trans hticket)
        rw [foldl_hear_of_over hover]
        exact Or.inr ⟨hover, fun q' hq' => Option.some.inj hq' ▸ hticket⟩
      | some ticket =>
        obtain ⟨v, rfl⟩ : ∃ v, w = .json v := by
          cases w with
          | json v => exact ⟨v, rfl⟩
          | _ => cases hq
        have hfollows := (follows_accept (c := { c with conn := conn.readAll.2 }) (hu ▸ hs) hheard'
          ((hrequest _).trans hticket)).foldl_hear rs
        rw [Course.run_voices _ (hrest v rfl)] at hfollows
        refine Or.inl ⟨q, ticket, rfl, hticket, hfollows.of_conn fun x hx => hsilent ?_⟩
        exact List.forall_mem_cons.mpr ⟨⟨v, rfl⟩, Course.json_of_goes hx⟩
    · obtain ⟨hover, hsame⟩ := endSession_asking hclient hasking ending
      rw [hend, hnone, foldl_hear_of_over hover]
      exact ⟨fun _ => hsame.trans hregistry, Or.inr (Or.inr ⟨hover, fun q hq => by cases hq⟩)⟩

end Service

end LiveQuery
