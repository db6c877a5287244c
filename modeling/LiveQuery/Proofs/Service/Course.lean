import LiveQuery.Proofs.Framing.Utterance
import LiveQuery.Proofs.Service.Steps

/-!
# Proofs/Service/Course — a session by itself

A session that shows the records of a feed is a small machine of its own.  A record that passes the
filters is written, one that does not is passed over; a filter that fails, a record that cannot be
written, the client or the connection end it.  `Course` is how far it has come, and `Course.run` is
**all it ever does**: nothing in it knows of mailboxes, slots or other clients.

A service `Follows` a course if the client has heard what the course has said, and stands where the
course stands.  What is read from the client (`Follows.converse`) and what the feed brings
(`Follows.poll`) moves both alike.
-/

namespace LiveQuery

/-- **What can happen to a session** that shows the records of a feed. -/
inductive Occurrence where
  /-- A record is looked at. -/
  | record (m : Moment) (v : Json)
  /-- From now on nothing can be written. -/
  | mute
  | halt (ending : Ending)

/-- **A session that shows records**: whether it can write, and its filters and fields with what
they remember. -/
structure Sitting where
  writable : Bool
  filters : List Statement
  fields : List Statement

/-- **How far a session has come**: what it has said, and what it goes on with or how it ended. -/
structure Course where
  said : List String
  now : Except Ending Sitting

namespace Sitting

/-- **A session that has seen no record**: the statements of its query are freshly parsed. -/
def start (writable : Bool) (q : Query) : Sitting :=
  ⟨writable, Statement.parseAll q.filters, Statement.parseAll q.fields⟩

/-- Its view of the records. -/
def view (x : Sitting) : View := ⟨x.filters, x.fields⟩

/-- **One record**: written if it passes every filter, passed over if it does not. -/
def present (x : Sitting) (m : Moment) (v : Json) : Course :=
  match Statement.passes m v x.filters with
  | (.error e, _) => ⟨[], .error (.failed e)⟩
  | (.ok false, filters) => ⟨[], .ok { x with filters }⟩
  | (.ok true, filters) =>
    let (pairs, fields) := Statement.showAll m v x.fields
    if x.writable then ⟨[(Json.array pairs).text], .ok { x with filters, fields }⟩
    else ⟨[], .error (.failed (.transport .brokenPipe))⟩

/-- **What a session does at an occurrence.** -/
def step (x : Sitting) : Occurrence → Course
  | .record m v => x.present m v
  | .mute => ⟨[], .ok { x with writable := false }⟩
  | .halt ending => ⟨[], .error ending⟩

end Sitting

namespace Course

variable {c : Course} {e : Ending} {os : List Occurrence}

/-- The course after one more occurrence; a session that has ended says nothing more. -/
def after (c : Course) (o : Occurrence) : Course :=
  match c.now with
  | .error _ => c
  | .ok x => ⟨c.said ++ (x.step o).said, (x.step o).now⟩

/-- **The course of a session.** -/
def run (c : Course) (os : List Occurrence) : Course := os.foldl after c

/-- How a session ended, if it did. -/
def ending? (c : Course) : Option Ending :=
  match c.now with
  | .error e => some e
  | .ok _ => none

theorem run_append (c : Course) (os ps : List Occurrence) : c.run (os ++ ps) = (c.run os).run ps :=
  List.foldl_append

theorem run_of_over (h : c.now = .error e) (os : List Occurrence) : c.run os = c := by
  have hstay : ∀ o, c.after o = c := fun o => by rw [after, h]
  induction os with
  | nil => rfl
  | cons o os ih => rw [run, List.foldl_cons, hstay, ← run, ih]

theorem run_cons (c : Course) (o : Occurrence) (os : List Occurrence) :
    c.run (o :: os) = (c.after o).run os := rfl

/-- What was said before comes first. -/
theorem run_said (said : List String) (now : Except Ending Sitting) (os : List Occurrence) :
    run ⟨said, now⟩ os = ⟨said ++ (run ⟨[], now⟩ os).said, (run ⟨[], now⟩ os).now⟩ := by
  induction os generalizing said now with
  | nil => exact congrArg (Course.mk · now) (List.append_nil said).symm
  | cons o os ih =>
    cases now with
    | error e =>
      rw [run_of_over rfl, run_of_over rfl]
      exact congrArg (Course.mk · _) (List.append_nil said).symm
    | ok x =>
      rw [run_cons, run_cons, after, after, ih (said ++ _), ih ([] ++ _)]
      exact congrArg (Course.mk · _) (List.append_assoc said _ _)

end Course

/-! ## Sessions in a service -/

/-- A slot that is held, with room in the mailbox and nothing waiting there. -/
def Seat.Idle (s : Seat) : Prop :=
  ∃ capacity, 1 ≤ capacity ∧ s = ⟨true, some ⟨capacity, []⟩⟩

/-- What something from the connection of its feed is to a session. -/
def Occurrence.ofNews (m : Moment) : Feed.Event → List Occurrence
  | .line text => (Feed.recordOf? text).toList.map (record m)
  | .lose => [halt .finished]
  | _ => []

/-- **What a client says to its session**, once the query was read: values are nothing to it, what
cannot be read fails it, and a farewell finishes it. -/
def Occurrence.ofUtterance? : Utterance → Option Occurrence
  | .json _ => none
  | .unreadable e => some (halt (.failed (.transport e)))
  | .farewell => some (halt .finished)

/-- The same of what is read. -/
def Occurrence.ofReading? : Reading → Option Occurrence
  | .closed => some (halt .finished)
  | .failed e => some (halt (.failed (.transport e)))
  | .value _ | .pending => none

namespace Course

variable {c : Course} {us : List Utterance} {rs : List Reading}

/-- Whatever comes after it, the end of a session is its end. -/
theorem run_halt (c : Course) (e : Ending) (os ps : List Occurrence) :
    c.run (.halt e :: os) = c.run (.halt e :: ps) := by
  obtain ⟨said, now⟩ := c
  cases now with
  | error e => rw [run_of_over rfl, run_of_over rfl]
  | ok x => rw [run_cons, run_cons, run_of_over rfl, run_of_over rfl]

/-- **A session takes what is read for what was uttered.** -/
theorem run_voices (c : Course) (h : Voices us rs) :
    c.run (rs.filterMap Occurrence.ofReading?) = c.run (us.filterMap Occurrence.ofUtterance?) := by
  induction h with
  | nil => rfl
  | json v h ih => exact ih
  | @last u hu us rs =>
    cases u with
    | json v => exact absurd rfl (hu v)
    | unreadable e => exact run_halt c _ _ _
    | farewell => exact run_halt c _ _ _

/-- **While a session goes on, nothing but values was said** to it. -/
theorem json_of_goes {x : Sitting}
    (h : (c.run (us.filterMap Occurrence.ofUtterance?)).now = .ok x) :
    ∀ u ∈ us, ∃ v, u = .json v := by
  have hhalt : ∀ e os, (c.run (.halt e :: os)).now ≠ .ok x := by
    intro e os hgoes
    rw [run_halt c e os []] at hgoes
    obtain ⟨said, now⟩ := c
    cases now <;> cases hgoes
  induction us with
  | nil => exact fun u hu => absurd hu List.not_mem_nil
  | cons u us ih =>
    cases u with
    | json v => exact List.forall_mem_cons.mpr ⟨⟨v, rfl⟩, ih h⟩
    | unreadable e => exact absurd h (hhalt _ _)
    | farewell => exact absurd h (hhalt _ _)

end Course

namespace Service

variable {s t : Service} {id name : String} {conn : Connection} {sub : Subscription}
  {said : List String} {x : Sitting} {now : Except Ending Sitting} {c : Course} {m : Moment}

/-- **A session at rest**: it holds its slot, and nothing waits for it. -/
def Rested (s : Service) (id : String) : Prop :=
  ∀ sub, s.ticketOf (.client id) = some sub → (seatOf s.feed sub).Idle

/-- The client is there, and its session is over. -/
def Over (s : Service) (id : String) : Prop :=
  ∃ c, s.clients.get? id = some c ∧ c.phase = .over

/-- The client is there, and its query is still to come. -/
def Asks (s : Service) (id : String) : Prop :=
  ∃ c, s.clients.get? id = some c ∧ c.phase = .asking

/-- A client's session goes on from here, or has ended. -/
structure Stands (s : Service) (id : String) (conn : Connection) (sub : Subscription)
    (now : Except Ending Sitting) : Prop where
  goes : ∀ x, now = .ok x →
    s.clients.get? id = some ⟨conn, x.writable, .showing sub.feed sub.ticket x.view⟩
  ended : ∀ e, now = .error e → s.Over id

/-- **A client's session has come so far**, all of it in the present step. -/
structure Follows (s : Service) (id : String) (conn : Connection) (sub : Subscription)
    (c : Course) : Prop extends Stands s id conn sub c.now where
  heard : s.heardBy id = ⟨c.said, c.ending?⟩

theorem Stands.of_eq (h : s.Stands id conn sub now)
    (hclient : t.clients.get? id = s.clients.get? id) : t.Stands id conn sub now where
  goes x hx := hclient.trans (h.goes x hx)
  ended e he := by
    obtain ⟨c, hc, hphase⟩ := h.ended e he
    exact ⟨c, hclient.trans hc, hphase⟩

theorem Follows.of_eq (h : s.Follows id conn sub c)
    (hclient : t.clients.get? id = s.clients.get? id) (hheard : t.heardBy id = s.heardBy id) :
    t.Follows id conn sub c := ⟨h.toStands.of_eq hclient, hheard.trans h.heard⟩

theorem Follows.alike (h : s.Follows id conn sub c) (ht : Alike (.client id) s t) :
    t.Follows id conn sub c := h.of_eq (ht.client rfl).1 (ht.client rfl).2

/-- Where a conversation stands matters only while the session goes on. -/
theorem Follows.of_conn (h : s.Follows id conn sub c) {conn' : Connection}
    (hconn : ∀ x, c.now = .ok x → conn = conn') : s.Follows id conn' sub c :=
  ⟨⟨fun x hx => hconn x hx ▸ h.goes x hx, h.ended⟩, h.heard⟩

theorem Rested.alike (h : s.Rested id) (ht : Alike (.client id) s t) : t.Rested id := by
  intro sub hsub
  rw [ht.ticket] at hsub
  rw [ht.seat hsub]
  exact h sub hsub

theorem rested_of_none (h : s.ticketOf (.client id) = none) : s.Rested id :=
  fun sub hsub => absurd (h.symm.trans hsub) (Option.some_ne_none sub).symm

theorem Over.ticketOf (h : s.Over id) : s.ticketOf (.client id) = none := by
  obtain ⟨c, hc, hphase⟩ := h
  rw [ticketOf_client hc, hphase]
  rfl

theorem Over.not_asks (h : s.Over id) : ¬ s.Asks id := by
  rintro ⟨c, hc, hasking⟩
  obtain ⟨c', hc', hover⟩ := h
  obtain rfl := Option.some.inj (hc.symm.trans hc')
  cases hasking.symm.trans hover

theorem Follows.not_asks (h : s.Follows id conn sub c) : ¬ s.Asks id := by
  obtain ⟨said, now⟩ := c
  cases now with
  | error ending => exact (h.ended ending rfl).not_asks
  | ok x =>
    rintro ⟨c, hc, hasking⟩
    obtain rfl := Option.some.inj (hc.symm.trans (h.goes x rfl))
    cases hasking

theorem Follows.ticketOf (h : s.Follows id conn sub ⟨said, .ok x⟩) :
    s.ticketOf (.client id) = some sub := ticketOf_client (h.goes x rfl)

/-! ## What a session does -/

theorem heardBy_set_self (s : Service) (id : String) (x : Heard) :
    ({ s with heard := s.heard.set id x } : Service).heardBy id = x := by
  rw [heardBy, Table.get?_set, if_pos rfl]
  rfl

theorem Follows.setClient (h : s.Follows id conn sub ⟨said, .ok x⟩) (conn' : Connection)
    (y : Sitting) :
    (s.setClient id ⟨conn', y.writable, .showing sub.feed sub.ticket y.view⟩).Follows id conn' sub
      ⟨said, .ok y⟩ where
  goes := by
    rintro _ ⟨⟩
    exact get?_setClient_self s id _
  ended := by rintro _ ⟨⟩
  heard := h.heard

/-- **The end of a session**, in the service and alone. -/
theorem Follows.endSession (h : s.Follows id conn sub ⟨said, .ok x⟩) (e : Ending) :
    (s.endSession id e).Follows id conn sub ((⟨said, .ok x⟩ : Course).after (.halt e)) := by
  have hend : s.endSession id e = ((s.setClient id ⟨conn, x.writable, .over⟩).leave sub.feed
      sub.ticket).announce id e := by
    rw [Service.endSession, h.goes x rfl]
  have hheard : ((s.setClient id ⟨conn, x.writable, .over⟩).leave sub.feed sub.ticket).heardBy id
      = ⟨said, none⟩ := h.heard
  rw [hend]
  refine ⟨⟨by rintro _ ⟨⟩, fun _ _ => ⟨_, get?_setClient_self s id _, rfl⟩⟩, ?_⟩
  rw [announce, heardBy_set_self, hheard]
  exact congrArg (Heard.mk · _) (List.append_nil said).symm

theorem Follows.tell (h : s.Follows id conn sub ⟨said, .ok x⟩) (message : String) :
    (s.tell id message).Follows id conn sub ⟨said ++ [message], .ok x⟩ := by
  refine ⟨⟨h.goes, h.ended⟩, ?_⟩
  rw [Service.tell, heardBy_set_self, h.heard]
  rfl

/-- **One record**, in the service and alone. -/
theorem Follows.present (h : s.Follows id conn sub ⟨said, .ok x⟩) (m : Moment) (v : Json) :
    (s.present m id ⟨conn, x.writable, .showing sub.feed sub.ticket x.view⟩ sub.feed sub.ticket
        x.view v).Follows id conn sub ((⟨said, .ok x⟩ : Course).after (.record m v)) := by
  rw [present_eq, Course.after]
  simp only [Sitting.step, Sitting.present, View.record, Sitting.view]
  rcases Statement.passes m v x.filters with ⟨answer, filters⟩
  cases answer with
  | error e =>
    exact (h.setClient conn { x with filters }).endSession (.failed e)
  | ok b =>
    cases b with
    | false =>
      rw [List.append_nil]
      exact h.setClient conn { x with filters }
    | true =>
      have hset := h.setClient conn
        { x with filters, fields := (Statement.showAll m v x.fields).2 }
      simp only
      split
      · exact hset.tell _
      · exact hset.endSession (.failed (.transport .brokenPipe))

/-! ## What the client says -/

theorem hear_of_over (h : s.Over id) (r : Reading) : s.hear id r = s := by
  obtain ⟨c, hc, hphase⟩ := h
  rw [hear, hc]
  simp only [hphase]

theorem foldl_hear_of_over (h : s.Over id) (rs : List Reading) :
    rs.foldl (fun s r => s.hear id r) s = s := by
  induction rs with
  | nil => rfl
  | cons r rs ih => rw [List.foldl_cons, hear_of_over h, ih]

theorem Follows.hear (h : s.Follows id conn sub c) (r : Reading) :
    (s.hear id r).Follows id conn sub (c.run (Occurrence.ofReading? r).toList) := by
  obtain ⟨said, now⟩ := c
  cases now with
  | error e =>
    rw [hear_of_over (h.ended e rfl), Course.run_of_over rfl]
    exact h
  | ok x =>
    rw [Service.hear, h.goes x rfl]
    cases r with
    | value v => exact h
    | pending => exact h
    | closed => exact h.endSession .finished
    | failed e => exact h.endSession (.failed (.transport e))

theorem Follows.foldl_hear (h : s.Follows id conn sub c) (rs : List Reading) :
    (rs.foldl (fun s r => s.hear id r) s).Follows id conn sub
      (c.run (rs.filterMap Occurrence.ofReading?)) := by
  induction rs generalizing s c with
  | nil => exact h
  | cons r rs ih =>
    have hrun : c.run ((r :: rs).filterMap Occurrence.ofReading?)
        = (c.run (Occurrence.ofReading? r).toList).run (rs.filterMap Occurrence.ofReading?) := by
      rw [← Course.run_append, List.filterMap_cons]
      cases Occurrence.ofReading? r <;> rfl
    rw [hrun]
    exact ih (h.hear r)

/-- **Everything that can be read of what a client said** is read. -/
theorem converse_eq {c : Client} (hc : s.clients.get? id = some c)
    (change : Connection → Connection) :
    s.converse id change = (change c.conn).readAll.1.foldl (fun s r => s.hear id r)
      ((s.setClient id { c with conn := change c.conn }).setClient id
        { c with conn := (change c.conn).readAll.2 }) := by
  rw [converse, hc]
  exact hearAll_eq (get?_setClient_self s id _)

/-- **To a session that is over nothing can be said.** -/
theorem Over.converse (h : s.Over id) (change : Connection → Connection) :
    (s.converse id change).Over id ∧ (s.converse id change).heardBy id = s.heardBy id ∧
      (s.converse id change).registry = s.registry := by
  obtain ⟨c, hc, hphase⟩ := h
  have hover : ∀ conn₁ conn₂, ((s.setClient id { c with conn := conn₁ }).setClient id
      { c with conn := conn₂ }).Over id := fun _ _ => ⟨_, get?_setClient_self _ id _, hphase⟩
  rw [converse_eq hc, foldl_hear_of_over (hover _ _)]
  exact ⟨hover _ _, rfl, rfl⟩

/-- **What a client says**, in the service and alone. -/
theorem Follows.converse (h : s.Follows id conn sub c) (change : Connection → Connection) :
    (s.converse id change).Follows id (change conn).silent sub
      (c.run ((change conn).uttered.filterMap Occurrence.ofUtterance?)) := by
  obtain ⟨said, now⟩ := c
  cases now with
  | error e =>
    obtain ⟨hover, hheard, -⟩ := (h.ended e rfl).converse change
    rw [Course.run_of_over rfl]
    exact ⟨⟨by rintro _ ⟨⟩, fun _ _ => hover⟩, hheard.trans h.heard⟩
  | ok x =>
    obtain ⟨hvoices, hsilent⟩ := (change conn).voices_readAll
    have hread := ((h.setClient (change conn) x).setClient (change conn).readAll.2 x).foldl_hear
      (change conn).readAll.1
    rw [Course.run_voices _ hvoices] at hread
    rw [converse_eq (h.goes x rfl)]
    exact hread.of_conn fun y hy => hsilent (Course.json_of_goes hy)

/-! ## What the feed brings -/

theorem pollOnce_showing {w : Bool} {view : View}
    (hc : s.clients.get? id = some ⟨conn, w, .showing sub.feed sub.ticket view⟩) (m : Moment) :
    s.pollOnce m id = match (seatOf s.feed sub).look with
      | .record v => (true, (s.setFeed sub.feed ((s.feed sub.feed).receive sub.ticket.id).2).present
          m id ⟨conn, w, .showing sub.feed sub.ticket view⟩ sub.feed sub.ticket view v)
      | .empty => (false, s)
      | .released => (false, s.endSession id .finished) := by
  rw [pollOnce, hc, seatOf, ← Feed.receive_fst]
  simp only
  rcases (s.feed sub.feed).receive sub.ticket.id with ⟨_ | _ | _, f⟩ <;> rfl

theorem backlog_showing {w : Bool} {view : View}
    (hc : s.clients.get? id = some ⟨conn, w, .showing sub.feed sub.ticket view⟩) :
    s.backlog id = ((seatOf s.feed sub).mailbox.map fun b => b.waiting.length).getD 0 := by
  rw [backlog, hc]
  rfl

theorem pollOnce_of_rested (h : s.Rested id) (m : Moment) : s.pollOnce m id = (false, s) := by
  cases hc : s.clients.get? id with
  | none => rw [pollOnce, hc]
  | some c =>
    obtain ⟨conn, w, phase⟩ := c
    cases phase with
    | showing name ticket view =>
      obtain ⟨capacity, -, hseat⟩ := h ⟨name, ticket⟩ (ticketOf_client hc)
      have honce := @pollOnce_showing s id conn ⟨name, ticket⟩ w view hc m
      rw [hseat] at honce
      exact honce
    | _ => rw [pollOnce, hc]

/-- **Where nothing waits, looking changes nothing.** -/
theorem poll_of_rested (h : s.Rested id) (m : Moment) : s.poll m id = s := by
  rw [poll, pollUpTo_succ, pollOnce_of_rested h]
  rfl

theorem rested_present (hidle : (seatOf s.feed sub).Idle) (m : Moment) (c : Client) (view : View)
    (v : Json) : (s.present m id c sub.feed sub.ticket view v).Rested id := by
  have hset : ∀ view, (s.setClient id
      { c with phase := .showing sub.feed sub.ticket view }).Rested id := by
    intro view sub' hsub'
    rw [ticketOf_client (get?_setClient_self s id _)] at hsub'
    cases hsub'
    exact hidle
  rw [present_eq]
  dsimp only
  split
  · exact rested_of_none (ticketOf_endSession _ id _)
  · exact hset _
  · split
    · exact hset _
    · exact rested_of_none (ticketOf_endSession _ id _)

/-- An idle seat after news: one record waits, or the slot is gone, or nothing has happened. -/
theorem step_cases_of_idle {seat : Seat} (h : seat.Idle) (t : Ticket) {e : Feed.Event}
    (he : e = .lose ∨ ∃ text, e = .line text) (m : Moment) :
    ((seat.step t e).Idle ∧ Occurrence.ofNews m e = []) ∨
    (∃ capacity v, 1 ≤ capacity ∧ seat.step t e = ⟨true, some ⟨capacity, [v]⟩⟩ ∧
      Occurrence.ofNews m e = [.record m v]) ∨
    (∃ capacity, seat.step t e = ⟨false, some ⟨capacity, []⟩⟩ ∧
      Occurrence.ofNews m e = [.halt .finished]) := by
  obtain ⟨capacity, hcapacity, rfl⟩ := h
  rcases he with rfl | ⟨text, rfl⟩
  · exact Or.inr (Or.inr ⟨capacity, rfl, rfl⟩)
  · rw [Seat.step, Occurrence.ofNews]
    cases Feed.recordOf? text with
    | none => exact Or.inl ⟨⟨capacity, hcapacity, rfl⟩, rfl⟩
    | some v =>
      have hroom : Mailbox.isFull ⟨capacity, []⟩ = false :=
        decide_eq_false (Nat.not_le.mpr hcapacity)
      refine Or.inr (Or.inl ⟨capacity, v, hcapacity, ?_, rfl⟩)
      rw [Option.map_some, Option.getD_some, Seat.hand, if_pos rfl, Option.map_some,
        Mailbox.offer_of_room hroom]
      rfl

/-- **One record waits**: it is taken out of the mailbox and presented, and nothing waits any
more. -/
theorem poll_of_record {w : Bool} {view : View} {capacity : Nat} {v : Json}
    (hc : s.clients.get? id = some ⟨conn, w, .showing sub.feed sub.ticket view⟩)
    (hcapacity : 1 ≤ capacity) (hseat : seatOf s.feed sub = ⟨true, some ⟨capacity, [v]⟩⟩)
    (m : Moment) :
    s.poll m id = (s.setFeed sub.feed ((s.feed sub.feed).receive sub.ticket.id).2).present m id
        ⟨conn, w, .showing sub.feed sub.ticket view⟩ sub.feed sub.ticket view v ∧
      (s.poll m id).Rested id := by
  have honce := pollOnce_showing hc m
  have hbacklog := backlog_showing hc
  rw [hseat] at honce hbacklog
  have htaken : (seatOf (s.setFeed sub.feed ((s.feed sub.feed).receive sub.ticket.id).2).feed
      sub).Idle := by
    refine ⟨capacity, hcapacity, ?_⟩
    rw [feed_setFeed, seatOf_update_self rfl, Feed.seat_receive, ← seatOf, hseat, Seat.step,
      if_pos rfl]
    rfl
  have hrested := @rested_present _ id sub htaken m
    ⟨conn, w, .showing sub.feed sub.ticket view⟩ view v
  have hpoll : s.poll m id = (s.setFeed sub.feed
      ((s.feed sub.feed).receive sub.ticket.id).2).present m id
        ⟨conn, w, .showing sub.feed sub.ticket view⟩ sub.feed sub.ticket view v := by
    rw [Service.poll, hbacklog, pollUpTo_succ, honce]
    simp only [Seat.look]
    exact (pollUpTo_succ ..).trans (by rw [pollOnce_of_rested hrested]; rfl)
  exact ⟨hpoll, hpoll ▸ hrested⟩

/-- **A slot is gone and nothing waits**: the session ends. -/
theorem poll_of_released {w : Bool} {view : View} {capacity : Nat}
    (hc : s.clients.get? id = some ⟨conn, w, .showing sub.feed sub.ticket view⟩)
    (hseat : seatOf s.feed sub = ⟨false, some ⟨capacity, []⟩⟩) (m : Moment) :
    s.poll m id = s.endSession id .finished := by
  have honce := pollOnce_showing hc m
  have hbacklog := backlog_showing hc
  rw [hseat] at honce hbacklog
  rw [Service.poll, hbacklog, pollUpTo_succ, honce]
  rfl

/-- **A session looks after news**, in the service and alone, and is at rest again. -/
theorem Follows.poll (h : s.Follows id conn sub ⟨said, .ok x⟩) {seat : Seat} (hidle : seat.Idle)
    {e : Feed.Event} (he : e = .lose ∨ ∃ text, e = .line text)
    (hseat : seatOf s.feed sub = seat.step sub.ticket e) (m : Moment) :
    (s.poll m id).Follows id conn sub ((⟨said, .ok x⟩ : Course).run (Occurrence.ofNews m e)) ∧
      (s.poll m id).Rested id := by
  have hclient := h.goes x rfl
  rcases step_cases_of_idle hidle sub.ticket he m with
    ⟨hstill, hnone⟩ | ⟨capacity, v, hcapacity, hone, hrecord⟩ | ⟨capacity, hgone, hover⟩
  · have hrested : s.Rested id := by
      intro sub' hsub'
      obtain rfl := Option.some.inj (h.ticketOf.symm.trans hsub')
      exact hseat ▸ hstill
    rw [hnone, poll_of_rested hrested]
    exact ⟨h, hrested⟩
  · obtain ⟨hpoll, hrested⟩ := poll_of_record hclient hcapacity (hseat.trans hone) m
    have hfollows : (s.setFeed sub.feed ((s.feed sub.feed).receive sub.ticket.id).2).Follows id
        conn sub ⟨said, .ok x⟩ := h.of_eq rfl rfl
    rw [hrecord]
    exact ⟨hpoll ▸ hfollows.present m v, hrested⟩
  · rw [poll_of_released hclient (hseat.trans hgone) m, hover]
    exact ⟨h.endSession .finished, rested_of_none (ticketOf_endSession _ id _)⟩

end Service

end LiveQuery
