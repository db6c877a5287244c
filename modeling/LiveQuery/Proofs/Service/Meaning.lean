import LiveQuery.Proofs.Service.Settled
import LiveQuery.Proofs.History
import Mathlib.Data.List.Induction

/-!
# Proofs/Service/Meaning — a client hears the meaning of its query

A session is what its query means, alone: the filters and fields of the query, freshly parsed, run
over the records that the feed's connection yields after the grant (`Course.run`).  The law,
`client_hears_the_meaning_of_its_query`, says that **from the moment it connects a client hears
exactly this**, whatever the others do in between.

What happens to a session is read off the steps alone (`occurrences`): the lines, the end and the
stop of its own feed, and what its own client says.  One step of the service is one stretch of the
course (`Stands.after`), and a session that is over hears nothing any more (`Over.after`).
-/

namespace LiveQuery

/-- Why nothing could be exchanged with a client any more, if that ended its session. -/
def Ending.transport? : Ending → Option TransportError
  | .failed (.transport e) => some e
  | _ => none

namespace Service

variable {s : Service} {id feed : String} {conn : Connection} {sub : Subscription} {x : Sitting}
  {e : Moment × Step}

/-! ## What happens to a session -/

/-- **What a step is to a client's session** on a feed. -/
def Step.occurrences (id feed : String) (conn : Connection) (m : Moment) : Step → List Occurrence
  | .line name text =>
    if name = feed then (Feed.recordOf? text).toList.map (Occurrence.record m) else []
  | .fail name | .finish name => if name = feed then [.halt .finished] else []
  | .subscribe name _ capacity =>
    if name = feed ∧ Mailbox.limit < capacity then [.halt .finished] else []
  | .send other payload =>
    if other = id then (arrive payload conn).uttered.filterMap Occurrence.ofUtterance? else []
  | .leave other =>
    if other = id then conn.close.uttered.filterMap Occurrence.ofUtterance? else []
  | .breakWrites other => if other = id then [.mute] else []
  | _ => []

/-- A client's conversation after a step: all that has arrived was heard. -/
def Step.conversation (id : String) (conn : Connection) : Step → Connection
  | .send other payload => if other = id then (arrive payload conn).silent else conn
  | .leave other => if other = id then conn.close.silent else conn
  | _ => conn

/-- **What happens to a client's session** on a feed during some steps. -/
def occurrences (id feed : String) (conn : Connection) (es : List (Moment × Step)) :
    List Occurrence :=
  history (fun conn e => e.2.conversation id conn) (fun conn e => e.2.occurrences id feed conn e.1)
    conn es

/-- Whether a step is about a feed's connection or a client. -/
def Step.concerns (id feed : String) : Step → Bool
  | .line name _ | .fail name | .finish name => name = feed
  | .subscribe name _ capacity => decide (name = feed ∧ Mailbox.limit < capacity)
  | .send other _ | .leave other | .breakWrites other => other = id
  | _ => false

/-- News, as they are noted for a client's session. -/
theorem occurrences_news {st : Step} {name : String} {n : Feed.Event}
    (h : st.news? = some (name, n)) (id feed : String) (conn : Connection) (m : Moment) :
    st.occurrences id feed conn m = (if name = feed then Occurrence.ofNews m n else []) ∧
      st.conversation id conn = conn := by
  cases st with
  | line other text =>
    cases h
    exact ⟨rfl, rfl⟩
  | fail other =>
    cases h
    exact ⟨rfl, rfl⟩
  | finish other =>
    cases h
    exact ⟨rfl, rfl⟩
  | subscribe other subscriber capacity =>
    obtain ⟨hover, h⟩ := Option.ite_none_right_eq_some.mp h
    cases h
    exact ⟨if_congr (and_iff_left hover) rfl rfl, rfl⟩
  | _ => cases h

theorem occurrences_speech {st : Step} {change : Connection → Connection}
    (h : st.speech? id = some change) (feed : String) (conn : Connection) (m : Moment) :
    st.occurrences id feed conn m
        = (change conn).uttered.filterMap Occurrence.ofUtterance? ∧
      st.conversation id conn = (change conn).silent := by
  cases st with
  | send other payload =>
    obtain ⟨rfl, hchange⟩ := Option.ite_none_right_eq_some.mp h
    obtain rfl := Option.some.inj hchange
    exact ⟨if_pos rfl, if_pos rfl⟩
  | leave other =>
    obtain ⟨rfl, hchange⟩ := Option.ite_none_right_eq_some.mp h
    obtain rfl := Option.some.inj hchange
    exact ⟨if_pos rfl, if_pos rfl⟩
  | _ => cases h

theorem occurrences_other {st : Step} (hnews : st.news? = none) (hp : .client id ≠ st.party)
    (feed : String) (conn : Connection) (m : Moment) :
    st.occurrences id feed conn m = [] ∧ st.conversation id conn = conn := by
  have hne : ∀ {other}, Party.client id ≠ .client other → other ≠ id :=
    fun h heq => h (congrArg Party.client heq.symm)
  cases st with
  | line name text => cases hnews
  | fail name => cases hnews
  | finish name => cases hnews
  | subscribe name subscriber capacity =>
    refine ⟨if_neg fun hover => ?_, rfl⟩
    rw [Step.news?, if_pos hover.2] at hnews
    cases hnews
  | send other payload => exact ⟨if_neg (hne hp), if_neg (hne hp)⟩
  | leave other => exact ⟨if_neg (hne hp), if_neg (hne hp)⟩
  | breakWrites other => exact ⟨if_neg (hne hp), rfl⟩
  | _ => exact ⟨rfl, rfl⟩

/-- **One step is one stretch of the course.** -/
theorem Stands.after (hs : s.Settled) (h : s.Stands id conn sub (.ok x)) (hkill : e.2 ≠ .kill)
    (hconnect : ∀ transport, e.2 ≠ .connect id transport) :
    (s.after e).Follows id (e.2.conversation id conn) sub
      ((⟨[], .ok x⟩ : Course).run (e.2.occurrences id sub.feed conn e.1)) := by
  obtain ⟨m, st⟩ := e
  have ht := hs.turn
  have hfollows := h.turn
  rw [after_eq]
  rcases st.cases_of_client id with
    h | ⟨hnews, hp⟩ | ⟨⟨name, n⟩, hnews⟩ | ⟨transport, h⟩ | rfl | ⟨change, hchange⟩
  · exact absurd h hkill
  · obtain ⟨hnone, hconn⟩ := occurrences_other hnews hp sub.feed conn m
    rw [hnone, hconn]
    exact hfollows.alike (ht.alike_of_ne hkill hnews hp m)
  · obtain ⟨hnoted, hconn⟩ := occurrences_news hnews id sub.feed conn m
    rw [hnoted, hconn]
    split
    case isTrue hname => exact (hfollows.perform_news ht (hname ▸ hnews) m).1
    case isFalse hname =>
      refine hfollows.alike (ht.alike_of_news hnews (fun sub' hsub' => ?_) m)
      obtain rfl := Option.some.inj (hfollows.ticketOf.symm.trans hsub')
      exact Ne.symm hname
  · exact absurd h (hconnect transport)
  · have hnoted : (Step.breakWrites id).occurrences id sub.feed conn m = [.mute] := if_pos rfl
    have hclient := hfollows.goes x rfl
    rw [hnoted, perform, hclient]
    exact hfollows.setClient conn { x with writable := false }
  · obtain ⟨hnoted, hconn⟩ := occurrences_speech hchange sub.feed conn m
    rw [hnoted, hconn, perform_speech hchange]
    exact hfollows.converse change

theorem Over.alike {t : Service} (h : s.Over id) (ht : Alike (.client id) s t) : t.Over id := by
  obtain ⟨c, hc, hphase⟩ := h
  exact ⟨c, (ht.client rfl).1.trans hc, hphase⟩

/-- **A session that is over hears nothing any more.** -/
theorem Over.after (hs : s.Settled) (h : s.Over id) (hkill : e.2 ≠ .kill)
    (hconnect : ∀ transport, e.2 ≠ .connect id transport) :
    (s.after e).Over id ∧ (s.after e).heardBy id = ⟨[], none⟩ := by
  obtain ⟨m, st⟩ := e
  have ht := hs.turn
  have hover : s.turn.Over id := h
  have hsame : ∀ {t}, Alike (.client id) s.turn t → t.Over id ∧ t.heardBy id = ⟨[], none⟩ :=
    fun ht => ⟨hover.alike ht, (ht.client rfl).2⟩
  rw [after_eq]
  rcases st.cases_of_client id with
    h | ⟨hnews, hp⟩ | ⟨n, hnews⟩ | ⟨transport, h⟩ | rfl | ⟨change, hchange⟩
  · exact absurd h hkill
  · exact hsame (ht.alike_of_ne hkill hnews hp m)
  · exact hsame (alike_of_none ht hover.ticketOf hnews m)
  · exact absurd h (hconnect transport)
  · obtain ⟨c, hc, hphase⟩ := hover
    rw [perform, hc]
    exact ⟨⟨_, get?_setClient_self s.turn id _, hphase⟩, rfl⟩
  · obtain ⟨hnext, hheard, -⟩ := hover.converse change
    rw [perform_speech hchange]
    exact ⟨hnext, hheard⟩

/-! ## Runs -/

/-- **The messages that a client hears** during some steps. -/
def messagesTo (s : Service) (id : String) (es : List (Moment × Step)) : List String :=
  history after (fun s e => ((s.after e).heardBy id).messages) s es

/-- The ends of sessions that a client hears of during some steps. -/
def endingsOf (s : Service) (id : String) (es : List (Moment × Step)) : List Ending :=
  history after (fun s e => ((s.after e).heardBy id).ending.toList) s es

/-- Nothing is heard after the end. -/
theorem Over.run (hs : s.Settled) (h : s.Over id) {es : List (Moment × Step)}
    (hes : ∀ e ∈ es, e.2 ≠ .kill ∧ ∀ transport, e.2 ≠ .connect id transport) :
    s.messagesTo id es = [] ∧ s.endingsOf id es = [] ∧ (es.foldl Service.after s).Over id := by
  induction es generalizing s with
  | nil => exact ⟨rfl, rfl, h⟩
  | cons e es ih =>
    obtain ⟨⟨hkill, hconnect⟩, hrest⟩ := List.forall_mem_cons.mp hes
    obtain ⟨hover, hheard⟩ := h.after hs hkill hconnect
    rw [messagesTo, endingsOf, history, history, hheard]
    exact ih (hs.after hkill) hover hrest

/-- **A client hears what its course says**, step after step. -/
theorem Follows.run {c : Course} (hs : s.Settled) (h : s.Follows id conn sub c)
    {es : List (Moment × Step)}
    (hes : ∀ e ∈ es, e.2 ≠ .kill ∧ ∀ transport, e.2 ≠ .connect id transport) :
    let last := c.run (occurrences id sub.feed conn es)
    c.said ++ s.messagesTo id es = last.said ∧
      c.ending?.toList ++ s.endingsOf id es = last.ending?.toList ∧
      ∃ conn, (es.foldl Service.after s).Stands id conn sub last.now := by
  induction es generalizing s conn c with
  | nil => exact ⟨List.append_nil _, List.append_nil _, conn, h.toStands⟩
  | cons e es ih =>
    obtain ⟨said, now⟩ := c
    cases now with
    | error ending =>
      obtain ⟨hmessages, hendings, hover⟩ := (h.ended ending rfl).run hs hes
      rw [Course.run_of_over rfl, hmessages, hendings]
      exact ⟨List.append_nil _, List.append_nil _, conn, by rintro _ ⟨⟩, fun _ _ => hover⟩
    | ok x =>
      obtain ⟨⟨hkill, hconnect⟩, hrest⟩ := List.forall_mem_cons.mp hes
      have hnext := h.toStands.after hs hkill hconnect
      obtain ⟨hmessages, hendings, hstands⟩ := ih (hs.after hkill) hnext hrest
      rw [← Course.run_append] at hmessages hendings hstands
      rw [Course.run_said, messagesTo, endingsOf, history, history, hnext.heard]
      exact ⟨congrArg (said ++ ·) hmessages, hendings, hstands⟩

/-! ## Before the grant -/

/-- **What becomes of a client without a session** from a service to a later one: nothing happens to
it, its query is read and granted, or its session is over before it has shown anything. -/
def Waits (s : Service) (id : String) (st : Step) (t : Service) : Prop :=
  ((t.clients.get? id).map Client.phase = (s.clients.get? id).map Client.phase ∧
    t.heardBy id = ⟨[], none⟩) ∨
  (∃ c change q ticket, s.Granted id st c change q ticket ∧
    t.Follows id (change c.conn).silent ⟨q.feed, ticket⟩
      ((⟨[], .ok (.start c.writable q)⟩ : Course).run
        ((change c.conn).uttered.tail.filterMap Occurrence.ofUtterance?))) ∨
  t.Over id

/-- A client without a session says something. -/
theorem waits_converse (hs : s.Settled) (hnone : s.ticketOf (.client id) = none) {st : Step}
    {change : Connection → Connection} (hchange : st.speech? id = some change) :
    s.Waits id st (s.turn.converse id change) := by
  cases hc : s.clients.get? id with
  | none =>
    have hnobody : s.turn.converse id change = s.turn := by
      rw [converse, (show s.turn.clients.get? id = none from hc)]
    rw [hnobody]
    exact Or.inl ⟨rfl, rfl⟩
  | some c =>
    cases hphase : c.phase with
    | asking =>
      obtain ⟨-, ⟨-, ⟨c', hc', hasking⟩, hheard⟩ | ⟨q, ticket, hquery, hticket, hfollows⟩ |
          ⟨hover, -⟩⟩ := converse_asking hs.turn.running hc hphase (heardBy_turn s id) change
      · refine Or.inl ⟨?_, hheard⟩
        rw [hc', hc, Option.map_some, Option.map_some, hphase, hasking]
      · rw [request_turn] at hticket
        exact Or.inr (Or.inl ⟨c, change, q, ticket, ⟨hc, hphase, hchange, hquery, hticket⟩,
          hfollows⟩)
      · exact Or.inr (Or.inr hover)
    | showing name ticket view =>
      rw [ticketOf_client hc, hphase] at hnone
      cases hnone
    | _ =>
      have hover : s.turn.Over id := ⟨c, hc, hphase⟩
      exact Or.inr (Or.inr (hover.converse change).1)

/-- **A client without a session**, at a step of any kind. -/
theorem waits_after (hs : s.Settled) (hnone : s.ticketOf (.client id) = none) (hkill : e.2 ≠ .kill)
    (hconnect : ∀ transport, e.2 ≠ .connect id transport) : s.Waits id e.2 (s.after e) := by
  obtain ⟨m, st⟩ := e
  have ht := hs.turn
  have hsame : ∀ {t}, Alike (.client id) s.turn t → s.Waits id st t :=
    fun ht => Or.inl ⟨congrArg _ (ht.client rfl).1, (ht.client rfl).2⟩
  rw [after_eq]
  rcases st.cases_of_client id with
    h | ⟨hnews, hp⟩ | ⟨n, hnews⟩ | ⟨transport, h⟩ | rfl | ⟨change, hchange⟩
  · exact absurd h hkill
  · exact hsame (ht.alike_of_ne hkill hnews hp m)
  · exact hsame (alike_of_none ht ((congrFun (ticketOf_turn s) _).trans hnone) hnews m)
  · exact absurd h (hconnect transport)
  · rw [perform]
    split
    case h_1 c hc =>
      have hphase : (s.clients.get? id).map Client.phase = some c.phase :=
        congrArg (Option.map _) hc
      refine Or.inl ⟨?_, rfl⟩
      rw [get?_setClient_self, hphase]
      rfl
    case h_2 => exact Or.inl ⟨rfl, rfl⟩
  · rw [perform_speech hchange]
    exact waits_converse hs hnone hchange

/-- **Who still asks has asked all the time** since it connected, and has heard nothing. -/
theorem Asks.before (hs : s.Settled) (h : (s.after e).Asks id) (hkill : e.2 ≠ .kill)
    (hconnect : ∀ transport, e.2 ≠ .connect id transport) :
    s.Asks id ∧ (s.after e).heardBy id = ⟨[], none⟩ := by
  cases hticket : s.ticketOf (.client id) with
  | some sub =>
    obtain ⟨conn, x, hstands⟩ := exists_stands_of_ticketOf hticket
    exact absurd h (hstands.after hs hkill hconnect).not_asks
  | none =>
    rcases waits_after hs hticket hkill hconnect with
      ⟨hphase, hheard⟩ | ⟨c, change, q, ticket, -, hfollows⟩ | hover
    · exact ⟨Option.map_eq_some_iff.mp (hphase.symm.trans (Option.map_eq_some_iff.mpr h)), hheard⟩
    · exact absurd h hfollows.not_asks
    · exact absurd h hover.not_asks

/-- **Nothing is heard before the grant.** -/
theorem Asks.run (hs : s.Settled) {es : List (Moment × Step)} (h : (es.foldl after s).Asks id)
    (hes : ∀ e ∈ es, e.2 ≠ .kill ∧ ∀ transport, e.2 ≠ .connect id transport) :
    s.messagesTo id es = [] ∧ s.endingsOf id es = [] := by
  induction es using List.reverseRecOn with
  | nil => exact ⟨rfl, rfl⟩
  | append_singleton es e ih =>
    obtain ⟨hrest, hlast⟩ := List.forall_mem_append.mp hes
    obtain ⟨hkill, hconnect⟩ := hlast e List.mem_cons_self
    rw [List.foldl_append] at h
    have hsettled := hs.run fun e he => (hrest e he).1
    obtain ⟨hasks, hheard⟩ := Asks.before hsettled h hkill hconnect
    obtain ⟨hmessages, hendings⟩ := ih hasks hrest
    rw [messagesTo, endingsOf, history_concat, history_concat, ← messagesTo, ← endingsOf,
      hmessages, hendings, hheard]
    exact ⟨rfl, rfl⟩

/-- **A query that is granted** begins its course in the step that brings it. -/
theorem Granted.follows {st : Step} {c : Client} {change : Connection → Connection} {q : Query}
    {ticket : Ticket} (hs : s.Settled) (h : s.Granted id st c change q ticket) (m : Moment) :
    (s.after (m, st)).Follows id (change c.conn).silent ⟨q.feed, ticket⟩
      ((⟨[], .ok (.start c.writable q)⟩ : Course).run
        ((change c.conn).uttered.tail.filterMap Occurrence.ofUtterance?)) := by
  have hquery := h.query
  rw [after_eq, perform_speech h.speech]
  obtain ⟨-, ⟨hnone, -, -⟩ | ⟨q', ticket', hquery', hticket', hfollows⟩ | ⟨-, hrefused⟩⟩ :=
    converse_asking hs.turn.running (show s.turn.clients.get? id = some c from h.client) h.asking
      (heardBy_turn s id) change
  · rw [hnone] at hquery
    cases hquery
  · obtain rfl := Option.some.inj (hquery.symm.trans hquery')
    rw [request_turn, h.ticket] at hticket'
    obtain rfl := Option.some.inj hticket'
    exact hfollows
  · have hnone := hrefused q hquery
    rw [request_turn, h.ticket] at hnone
    cases hnone

/-! ## The law -/

/-- **The course of a client's session** from the words that brought its query, over the steps that
follow. -/
def courseOf (id : String) (c : Client) (change : Connection → Connection) (q : Query)
    (later : List (Moment × Step)) : Course :=
  (⟨[], .ok (.start c.writable q)⟩ : Course).run
    ((change c.conn).uttered.tail.filterMap Occurrence.ofUtterance? ++
      occurrences id q.feed (change c.conn).silent later)

/-- **A granted query**: from the step that brings it on, its client hears its course. -/
theorem Granted.run {st : Step} {c : Client} {change : Connection → Connection} {q : Query}
    {ticket : Ticket} (hs : s.Settled) (h : s.Granted id st c change q ticket) (m : Moment)
    (es : List (Moment × Step))
    (hes : ∀ e ∈ es, e.2 ≠ .kill ∧ ∀ transport, e.2 ≠ .connect id transport) :
    let course := courseOf id c change q es
    s.messagesTo id ((m, st) :: es) = course.said ∧
      s.endingsOf id ((m, st) :: es) = course.ending?.toList ∧
      (((m, st) :: es).foldl Service.after s).Settled ∧
      ∃ conn, (((m, st) :: es).foldl Service.after s).Stands id conn ⟨q.feed, ticket⟩
        course.now := by
  have hkill : st ≠ .kill := by
    rintro rfl
    cases h.speech
  have hfollows := h.follows hs m
  have hnext := hs.after (e := (m, st)) hkill
  obtain ⟨hmessages, hendings, hstands⟩ := hfollows.run hnext hes
  rw [← Course.run_append] at hmessages hendings hstands
  rw [messagesTo, endingsOf, history, history, hfollows.heard]
  exact ⟨hmessages, hendings, hnext.run fun e he => (hes e he).1, hstands⟩

/-- **As long as a session goes on its feed is connected.** -/
theorem Stands.connected {c : Course} (h : s.Stands id conn sub c.now) (hs : s.Settled)
    (hgoes : c.ending? = none) : (s.feed sub.feed).connected = true := by
  obtain ⟨said, now⟩ := c
  cases now with
  | error ending => cases hgoes
  | ok x => exact connected_of_idle hs.toOrderly (hs.rested id sub (ticketOf_client (h.goes x rfl)))

end Service

end LiveQuery
