import LiveQuery.Proofs.Registry.Handles
import LiveQuery.Proofs.Service.Parties

/-!
# Proofs/Service/Acts — what one party does leaves the others alone

A service is `Orderly` if its feeds and tickets belong together, and every feed with a connection is
known to be live and has not stopped.  What a client or a subscriber does to a service is an `Act`
of that party: it keeps the service orderly, and **nobody else notices**: their conversations, their
subscriptions, their seats and what they hear stay as they are (`Apart`).

Acts compose (`Act.trans`), so each operation of a service is an act because its parts are.  A query
is one as long as sessions ask for no more than a mailbox can hold.
-/

namespace LiveQuery

namespace Capacity

theorem ofNat?_val (capacity : Capacity) : ofNat? capacity.val = some capacity :=
  dif_pos (Nat.le_of_lt_succ capacity.isLt)

/-- What is not too large is a capacity. -/
theorem exists_val_eq {n : Nat} (h : n ≤ Mailbox.limit) : ∃ capacity : Capacity, capacity.val = n :=
  ⟨⟨n, Nat.lt_succ_of_le h⟩, rfl⟩

theorem val_of_ofNat? {n : Nat} {capacity : Capacity} (h : ofNat? n = some capacity) :
    capacity.val = n := by
  obtain ⟨hfits, h⟩ := Option.dite_none_right_eq_some.mp h
  exact congrArg Fin.val (Option.some.inj h).symm

theorem ofNat?_of_lt {n : Nat} (h : Mailbox.limit < n) : ofNat? n = none :=
  dif_neg (Nat.not_le_of_lt h)

end Capacity

/-- The ticket of a session, while it has one. -/
def Phase.ticket? : Phase → Option Subscription
  | .showing feed ticket _ => some ⟨feed, ticket⟩
  | _ => none

namespace Service

variable {s t u : Service} {p q : Party} {id name : String} {sub : Subscription} {c : Client}

/-- **The ticket of a party**, if it has one. -/
def ticketOf (s : Service) : Party → Option Subscription
  | .subscriber name => s.subscriptions.get? name
  | .client id => (s.clients.get? id).bind (·.phase.ticket?)
  | .newcomer => none

/-- **A feed with a connection is known to be live**, and has not stopped. -/
def Lively (s : Service) : Prop :=
  ∀ name, (s.feed name).connected = true → name ∈ s.live ∧ name ∉ s.gone

/-- **What is true of a service at every moment.** -/
structure Orderly (s : Service) : Prop where
  tidy : Tidy s.feed s.ticketOf
  lively : s.Lively

/-- **What the others have by themselves has not changed**: their conversations and subscriptions,
and what they heard; nor has what is everybody's. -/
structure Untouched (p : Party) (s t : Service) : Prop where
  running : t.running = s.running
  queue : t.queueCapacity = s.queueCapacity
  gone : t.gone = s.gone
  client : ∀ id, .client id ≠ p → t.clients.get? id = s.clients.get? id
  heard : ∀ id, .client id ≠ p → t.heardBy id = s.heardBy id
  subscription : ∀ name, .subscriber name ≠ p →
    t.subscriptions.get? name = s.subscriptions.get? name

/-- **From one state to the next only what is one party's has changed.** -/
structure Apart (p : Party) (s t : Service) : Prop extends Untouched p s t where
  seat : ∀ q sub, q ≠ p → s.ticketOf q = some sub → seatOf t.feed sub = seatOf s.feed sub

/-- **Something that one party does**: it keeps an orderly service so, and leaves the others
alone. -/
def Act (p : Party) (s t : Service) : Prop := s.Orderly → t.Orderly ∧ Apart p s t

theorem Untouched.ticketOf (h : Untouched p s t) (hq : q ≠ p) : t.ticketOf q = s.ticketOf q := by
  cases q with
  | subscriber name => exact h.subscription name hq
  | client id => exact congrArg (Option.bind · _) (h.client id hq)
  | newcomer => rfl

/-- The tickets of all are those there were, up to the one of the party that acts. -/
theorem Untouched.ticketOf_eq (h : Untouched p s t) {ticket : Option Subscription}
    (hp : t.ticketOf p = ticket) : t.ticketOf = Function.update s.ticketOf p ticket :=
  Function.eq_update_iff.mpr ⟨hp, fun _ hq => h.ticketOf hq⟩

theorem Untouched.refl (p : Party) (s : Service) : Untouched p s s :=
  ⟨rfl, rfl, rfl, fun _ _ => rfl, fun _ _ => rfl, fun _ _ => rfl⟩

theorem Untouched.trans (h : Untouched p s t) (h' : Untouched p t u) : Untouched p s u where
  running := h'.running.trans h.running
  queue := h'.queue.trans h.queue
  gone := h'.gone.trans h.gone
  client id hid := (h'.client id hid).trans (h.client id hid)
  heard id hid := (h'.heard id hid).trans (h.heard id hid)
  subscription name hname := (h'.subscription name hname).trans (h.subscription name hname)

theorem Apart.trans (h : Apart p s t) (h' : Apart p t u) : Apart p s u :=
  ⟨h.toUntouched.trans h'.toUntouched, fun q sub hq hsub =>
    (h'.seat q sub hq ((h.ticketOf hq).trans hsub)).trans (h.seat q sub hq hsub)⟩

theorem Act.refl (p : Party) (s : Service) : Act p s s :=
  fun hs => ⟨hs, .refl p s, fun _ _ _ _ => rfl⟩

/-- One act after another is an act. -/
theorem Act.trans (h : Act p s t) (h' : Act p t u) : Act p s u := fun hs =>
  have ht := h hs
  have hu := h' ht.1
  ⟨hu.1, ht.2.trans hu.2⟩

/-! ## What the operations do to feeds and tickets -/

theorem feed_setFeed (s : Service) (name : String) (f : Feed) :
    (s.setFeed name f).feed = Function.update s.feed name f := by
  funext other
  rw [Function.update_apply]
  exact Registry.feed_setFeed s.registry name other f

theorem get?_setClient_self (s : Service) (id : String) (c : Client) :
    (s.setClient id c).clients.get? id = some c := (Table.get?_set ..).trans (if_pos rfl)

theorem get?_setClient_of_ne {other : String} (h : other ≠ id) (s : Service) (c : Client) :
    (s.setClient id c).clients.get? other = s.clients.get? other :=
  (Table.get?_set ..).trans (if_neg h)

theorem ne_of_client_ne {other : String} (h : Party.client other ≠ .client id) : other ≠ id :=
  fun heq => h (congrArg Party.client heq)

theorem untouched_setClient (s : Service) (id : String) (c : Client) :
    Untouched (.client id) s (s.setClient id c) :=
  ⟨rfl, rfl, rfl, fun _ h => get?_setClient_of_ne (ne_of_client_ne h) s c, fun _ _ => rfl,
    fun _ _ => rfl⟩

theorem untouched_setFeed (p : Party) (s : Service) (name : String) (f : Feed) :
    Untouched p s (s.setFeed name f) :=
  ⟨rfl, rfl, rfl, fun _ _ => rfl, fun _ _ => rfl, fun _ _ => rfl⟩

theorem untouched_leave (p : Party) (s : Service) (name : String) (ticket : Ticket) :
    Untouched p s (s.leave name ticket) := untouched_setFeed p s name _

/-- What one client hears is no other client's. -/
theorem untouched_heard (s : Service) (id : String) (x : Heard) :
    Untouched (.client id) s { s with heard := s.heard.set id x } := by
  refine ⟨rfl, rfl, rfl, fun _ _ => rfl, fun other hid => ?_, fun _ _ => rfl⟩
  rw [heardBy, Table.get?_set, if_neg (ne_of_client_ne hid)]
  rfl

/-- A service that has a feed of a name. -/
def located (s : Service) (name : String) : Service :=
  { s with registry := s.registry.locate name }

theorem feed_located (s : Service) (name : String) : (s.located name).feed = s.feed :=
  funext fun other => Registry.feed_locate s.registry name other

theorem noteOpened_eq (s : Service) (name : String) (before after : Feed) :
    s.noteOpened name before after
      = { s with
          opened := (s.noteOpened name before after).opened
          live := (s.noteOpened name before after).live } := by
  rw [noteOpened]
  split <;> rfl

/-- What is live stays live when a connection is opened. -/
theorem mem_live_noteOpened {other : String} (h : other ∈ s.live) (name : String)
    (before after : Feed) : other ∈ (s.noteOpened name before after).live := by
  rw [noteOpened]
  split
  case isTrue =>
    by_cases heq : other = name
    · exact heq ▸ List.mem_cons_self
    · exact List.mem_cons_of_mem _ (List.mem_filter.mpr ⟨h, decide_eq_true heq⟩)
  case isFalse => exact h

/-- **A service with a new subscriber.** -/
def letIn (s : Service) (name : String) (capacity : Capacity) : Service :=
  (s.setFeed name ((s.feed name).letIn capacity)).noteOpened name (s.feed name)
    ((s.feed name).letIn capacity)

/-- **Granted or refused**: what asking for a subscription does. -/
theorem subscribe_eq (s : Service) (name : String) (capacity : Capacity) :
    s.subscribe name capacity
      = if (s.feed name).connected || s.accepts name then
          (some (s.feed name).nextTicket, s.letIn name capacity)
        else (none, s.setFeed name (s.feed name)) := by
  by_cases h : ((s.feed name).connected || s.accepts name) = true
  · simp only [subscribe, Feed.subscribe_eq, if_pos h]
    rfl
  · simp only [subscribe, Feed.subscribe_eq, if_neg h]
    exact congrArg (Prod.mk none) (if_neg (Nat.lt_irrefl _))

/-- Whoever asks for no more than a mailbox can hold asks for a subscription. -/
theorem request_val (s : Service) (name : String) (capacity : Capacity) :
    s.request name capacity = s.subscribe name capacity := by
  rw [request, Capacity.ofNat?_val]

/-- Whoever asks for more is not let in. -/
theorem request_of_lt {n : Nat} (h : Mailbox.limit < n) (s : Service) (name : String) :
    s.request name n = (none, s.overask name) := by
  rw [request, Capacity.ofNat?_of_lt h]

/-- **A feed is asked too much**: it stops, or nothing happens since it has no connection and gets
none. -/
theorem overask_cases (s : Service) (name : String) :
    ((s.feed name).connected = false ∧ s.overask name = s) ∨
    ∃ f opened live, (s.feed name).overask (s.accepts name) = some f ∧
      (∀ other ∈ s.live, other ∈ live) ∧
      s.overask name = { s.setFeed name f with opened, live, gone := name :: s.gone } := by
  cases hf : (s.feed name).overask (s.accepts name) with
  | none =>
    refine Or.inl ⟨Feed.disconnected_of_overask hf, ?_⟩
    simp only [overask, hf]
  | some f =>
    refine Or.inr ⟨f, ((s.setFeed name f).noteOpened name (s.feed name) f).opened,
      ((s.setFeed name f).noteOpened name (s.feed name) f).live, rfl, fun other hother => ?_, ?_⟩
    · exact mem_live_noteOpened (s := s.setFeed name f) hother name _ f
    · simp only [overask, hf]
      rw [noteOpened_eq]

/-- **A feed with a connection stops** when it is asked too much. -/
theorem gone_overask (hc : (s.feed name).connected = true) : name ∈ (s.overask name).gone := by
  rcases s.overask_cases name with ⟨hnot, -⟩ | ⟨f, opened, live, -, -, hstopped⟩
  · cases hnot.symm.trans hc
  · exact hstopped ▸ List.mem_cons_self

theorem clients_overask (s : Service) (name : String) : (s.overask name).clients = s.clients := by
  rcases s.overask_cases name with ⟨-, hsame⟩ | ⟨f, opened, live, -, -, hstopped⟩
  · rw [hsame]
  · rw [hstopped]
    rfl

/-- What somebody is granted who asks to be let in. -/
theorem request_fst (s : Service) (name : String) (n : Nat) :
    (s.request name n).1 = (Capacity.ofNat? n).bind fun _ =>
      if (s.feed name).connected || s.accepts name then some (s.feed name).nextTicket
      else none := by
  rw [request]
  cases Capacity.ofNat? n with
  | none => rfl
  | some capacity =>
    dsimp only
    rw [subscribe_eq, Option.bind_some]
    split <;> rfl

theorem feed_letIn (s : Service) (name : String) (capacity : Capacity) :
    (s.letIn name capacity).feed
      = Function.update s.feed name ((s.feed name).letIn capacity) := by
  rw [← feed_setFeed, letIn, noteOpened_eq]
  rfl

/-- Letting a subscriber in concerns feeds only. -/
theorem letIn_same (s : Service) (name : String) (capacity : Capacity) :
    (s.letIn name capacity).clients = s.clients ∧
      (s.letIn name capacity).subscriptions = s.subscriptions ∧
      (s.letIn name capacity).heard = s.heard := by
  rw [letIn, noteOpened_eq]
  exact ⟨rfl, rfl, rfl⟩

theorem untouched_letIn (p : Party) (s : Service) (name : String) (capacity : Capacity) :
    Untouched p s (s.letIn name capacity) := by
  rw [letIn, noteOpened_eq]
  exact ⟨rfl, rfl, rfl, fun _ _ => rfl, fun _ _ => rfl, fun _ _ => rfl⟩

/-- **Whether or not a connection had to be opened, there is a live one now.** -/
theorem live_letIn (hs : s.Lively) (capacity : Capacity) {other : String}
    (hother : other ∈ s.live ∨ other = name) : other ∈ (s.letIn name capacity).live := by
  rcases hother with hother | rfl
  · exact mem_live_noteOpened (s := s.setFeed name _) hother name _ _
  · rw [letIn, noteOpened]
    split
    case isTrue => exact List.mem_cons_self
    case isFalse hnot =>
      refine (hs other (Bool.not_eq_false _ ▸ fun hc => hnot ?_)).1
      rw [Feed.letIn, hc]
      exact Nat.lt_succ_self _

/-- Where a subscription is granted, the feed has not stopped. -/
theorem not_gone_of_open (hs : s.Lively)
    (hopen : ((s.feed name).connected || s.accepts name) = true) : name ∉ s.gone := by
  rcases Bool.or_eq_true_iff.mp hopen with hc | haccepts
  · exact (hs name hc).2
  · exact of_decide_eq_true (Bool.and_eq_true_iff.mp haccepts).2

/-! ## The acts there are -/

theorem Orderly.of_tidy (hs : s.Orderly) (h : Untouched p s t) (htidy : Tidy t.feed t.ticketOf)
    (hlive : ∀ name ∈ s.live, name ∈ t.live)
    (hconnected : ∀ name, (t.feed name).connected = true →
      (s.feed name).connected = true ∨ name ∈ t.live ∧ name ∉ s.gone) : t.Orderly where
  tidy := htidy
  lively name hc := by
    rw [h.gone]
    refine (hconnected name hc).elim (fun hc => ?_) id
    exact (hs.lively name hc).imp_left (hlive name)

/-- **An act that moves no ticket and no feed.** -/
theorem act_of_same (h : Untouched p s t) (hfeed : t.feed = s.feed)
    (hticket : t.ticketOf p = s.ticketOf p) (hlive : ∀ name ∈ s.live, name ∈ t.live) :
    Act p s t := by
  intro hs
  have htickets : t.ticketOf = s.ticketOf := by
    rw [h.ticketOf_eq hticket, Function.update_eq_self]
  refine ⟨hs.of_tidy h (by rw [hfeed, htickets]; exact hs.tidy) hlive fun name hc => ?_, h, ?_⟩
  · exact Or.inl (hfeed ▸ hc)
  · exact fun q sub _ _ => by rw [hfeed]

/-- **A ticket is given back.** -/
theorem act_of_release (h : Untouched p s t) (hp : s.ticketOf p = some sub)
    (hfeed : t.feed = Function.update s.feed sub.feed ((s.feed sub.feed).leave sub.ticket))
    (hticket : t.ticketOf p = none) (hlive : t.live = s.live) : Act p s t := by
  intro hs
  refine ⟨hs.of_tidy h ?_ (fun name hn => hlive ▸ hn) fun name hc => Or.inl ?_, h, ?_⟩
  · rw [hfeed, h.ticketOf_eq hticket]
    exact hs.tidy.release hp
  · rw [hfeed, Function.update_apply] at hc
    split at hc
    case isTrue hname => rw [hname, ← (Feed.leave_connected _ sub.ticket).1, hc]
    case isFalse => exact hc
  · intro q sub' hq hsub
    rw [hfeed, hs.tidy.seatOf_release hp hsub hq]

/-- **A ticket is granted.** -/
theorem act_of_grant {capacity : Capacity} (h : Untouched p s t) (hp : s.ticketOf p = none)
    (hopen : ((s.feed name).connected || s.accepts name) = true)
    (hfeed : t.feed = Function.update s.feed name ((s.feed name).letIn capacity))
    (hticket : t.ticketOf p = some ⟨name, (s.feed name).nextTicket⟩)
    (hlive : ∀ other, other ∈ s.live ∨ other = name → other ∈ t.live) : Act p s t := by
  intro hs
  refine ⟨hs.of_tidy h ?_ (fun name hn => hlive name (Or.inl hn)) fun other hc => ?_, h, ?_⟩
  · rw [hfeed, h.ticketOf_eq hticket]
    exact hs.tidy.grant hp name capacity
  · by_cases hother : other = name
    · exact Or.inr ⟨hlive other (Or.inr hother), hother ▸ not_gone_of_open hs.lively hopen⟩
    · rw [hfeed, Function.update_of_ne hother] at hc
      exact Or.inl hc
  · intro q sub' hq hsub
    rw [hfeed, hs.tidy.seatOf_grant hsub]

/-- **A mailbox is looked into.** -/
theorem act_of_receive (h : Untouched p s t) (hp : s.ticketOf p = some sub)
    (hfeed : t.feed = Function.update s.feed sub.feed ((s.feed sub.feed).receive sub.ticket.id).2)
    (hticket : t.ticketOf p = some sub) (hlive : t.live = s.live) : Act p s t := by
  intro hs
  have htickets : t.ticketOf = s.ticketOf := by
    rw [h.ticketOf_eq hticket, ← hp, Function.update_eq_self]
  refine ⟨hs.of_tidy h ?_ (fun name hn => hlive ▸ hn) fun name hc => Or.inl ?_, h, ?_⟩
  · rw [hfeed, htickets]
    exact hs.tidy.receive sub.feed sub.ticket.id
  · rw [hfeed, Function.update_apply] at hc
    split at hc
    case isTrue hname =>
      rw [Feed.receive_snd] at hc
      rw [hname, ← hc]
    case isFalse => exact hc
  · intro q sub' hq hsub
    rw [hfeed, hs.tidy.seatOf_receive hp hsub hq]

/-! ## Sessions -/

theorem ticketOf_client (hc : s.clients.get? id = some c) :
    s.ticketOf (.client id) = c.phase.ticket? := by
  rw [ticketOf, hc]
  rfl

/-- A client goes on with the ticket it has. -/
theorem act_setClient (h : c.phase.ticket? = s.ticketOf (.client id)) :
    Act (.client id) s (s.setClient id c) := by
  refine act_of_same (untouched_setClient s id c) rfl ?_ fun _ hn => hn
  rw [ticketOf_client (get?_setClient_self s id c), h]

/-- The conversation of a client goes on. -/
theorem act_setConn (hc : s.clients.get? id = some c) (conn : Connection) :
    Act (.client id) s (s.setClient id { c with conn }) := act_setClient (ticketOf_client hc).symm

/-- A client hears something. -/
theorem act_heard (s : Service) (id : String) (x : Heard) :
    Act (.client id) s { s with heard := s.heard.set id x } :=
  act_of_same (untouched_heard s id x) rfl rfl fun _ hn => hn

/-- **The end of a session** is its client's act. -/
theorem act_endSession (s : Service) (id : String) (ending : Ending) :
    Act (.client id) s (s.endSession id ending) := by
  rw [endSession]
  split
  case h_1 => exact .refl _ s
  case h_2 c hc =>
    have hticket := ticketOf_client hc
    split
    case h_1 => exact .refl _ s
    case h_2 hphase =>
      refine (act_setClient ?_).trans (act_heard _ id _)
      rw [hticket, hphase]
      rfl
    case h_3 name ticket view hphase =>
      rw [hphase] at hticket
      refine Act.trans (t := (s.setClient id { c with phase := .over }).leave name ticket) ?_
        (act_heard _ id _)
      have huntouched := untouched_setClient s id { c with phase := .over }
      refine act_of_release (huntouched.trans (untouched_setFeed _ _ name _)) hticket
        (feed_setFeed _ name _) ?_ rfl
      exact ticketOf_client (get?_setClient_self s id _)

/-- **Accepted, refused, or too late**: what becomes of a query. -/
theorem accept_eq {capacity : Capacity} (hqueue : capacity.val = s.queueCapacity) (id : String)
    (c : Client) (q : Query) :
    s.accept id c q
      = if s.running = false then s.endSession id (.failed (.feed .registryGone))
        else if (s.feed q.feed).connected || s.accepts q.feed then
          ((s.located q.feed).letIn q.feed capacity).setClient id
            { c with phase := .showing q.feed (s.feed q.feed).nextTicket (.ofQuery q) }
        else
          ((s.located q.feed).setFeed q.feed (s.feed q.feed)).endSession id
            (.failed (.feed (s.refusalOf q.feed))) := by
  have hrequest : (s.located q.feed).request q.feed s.queueCapacity
      = if (s.feed q.feed).connected || s.accepts q.feed then
          (some (s.feed q.feed).nextTicket, (s.located q.feed).letIn q.feed capacity)
        else (none, (s.located q.feed).setFeed q.feed (s.feed q.feed)) := by
    rw [← hqueue, request_val, subscribe_eq, feed_located]
    rfl
  rw [located] at hrequest
  simp only [accept, hrequest]
  split
  · rfl
  · by_cases h : ((s.feed q.feed).connected || s.accepts q.feed) = true
    · simp only [if_pos h]
      rfl
    · simp only [if_neg h]
      rfl

/-- Where sessions ask for more than a mailbox can hold, **no query is accepted**. -/
theorem accept_of_lt (h : Mailbox.limit < s.queueCapacity) (id : String) (c : Client) (q : Query) :
    s.accept id c q
      = if s.running = false then s.endSession id (.failed (.feed .registryGone))
        else ((s.located q.feed).overask q.feed).endSession id
          (.failed (.feed (((s.located q.feed).overask q.feed).refusalOf q.feed))) := by
  have hrequest := request_of_lt h (s.located q.feed) q.feed
  rw [located] at hrequest
  simp only [accept, hrequest]
  rfl

theorem feed_setFeed_self (s : Service) (name : String) :
    (s.setFeed name (s.feed name)).feed = s.feed := by
  rw [feed_setFeed, Function.update_eq_self]

theorem untouched_located (p : Party) (s : Service) (name : String) :
    Untouched p s (s.located name) :=
  ⟨rfl, rfl, rfl, fun _ _ => rfl, fun _ _ => rfl, fun _ _ => rfl⟩

theorem act_located (p : Party) (s : Service) (name : String) : Act p s (s.located name) := by
  refine act_of_same (untouched_located p s name) (feed_located s name) ?_ fun _ hn => hn
  cases p <;> rfl

/-- **A query that is accepted, or not,** is its client's act. -/
theorem act_accept (hfits : s.queueCapacity ≤ Mailbox.limit) (hc : s.clients.get? id = some c)
    (hasking : c.phase = .asking) (q : Query) : Act (.client id) s (s.accept id c q) := by
  obtain ⟨capacity, hqueue⟩ := Capacity.exists_val_eq hfits
  have hnone : s.ticketOf (.client id) = none := by rw [ticketOf_client hc, hasking]; rfl
  rw [accept_eq hqueue]
  split_ifs with hover hopen
  · exact act_endSession s id _
  · refine (act_located _ s q.feed).trans fun hs => ?_
    have hletIn := untouched_letIn (.client id) (s.located q.feed) q.feed capacity
    have huntouched := hletIn.trans (untouched_setClient _ id
      { c with phase := .showing q.feed (s.feed q.feed).nextTicket (.ofQuery q) })
    refine act_of_grant huntouched hnone (feed_located s q.feed ▸ hopen)
      (feed_letIn (s.located q.feed) q.feed capacity) ?_
      (fun other hother => live_letIn hs.lively _ hother) hs
    rw [ticketOf_client (get?_setClient_self _ id _), feed_located]
    rfl
  · refine (act_located _ s q.feed).trans (Act.trans ?_ (act_endSession _ id _))
    refine act_of_same (untouched_setFeed _ _ _ _) ?_ rfl fun _ hn => hn
    rw [← feed_located s q.feed, feed_setFeed_self]

/-- **One reading of a session** is its client's act. -/
theorem act_hear (hfits : s.queueCapacity ≤ Mailbox.limit) (id : String) (r : Reading) :
    Act (.client id) s (s.hear id r) := by
  rw [hear]
  split
  case h_1 => exact .refl _ s
  case h_2 c hc =>
    split
    case h_6 v hasking =>
      split
      · exact act_endSession s id _
      · exact act_accept hfits hc hasking _
    all_goals first | exact .refl _ s | exact act_endSession s id _

theorem act_foldl_hear (hfits : s.queueCapacity ≤ Mailbox.limit) (id : String)
    (rs : List Reading) : Act (.client id) s (rs.foldl (fun s r => s.hear id r) s) := by
  induction rs generalizing s with
  | nil => exact .refl _ s
  | cons r rs ih =>
    intro hs
    have hheard := act_hear hfits id r
    exact hheard.trans (ih ((hheard hs).2.queue ▸ hfits)) hs

theorem hearAll_eq (hc : s.clients.get? id = some c) :
    s.hearAll id = c.conn.readAll.1.foldl (fun s r => s.hear id r)
      (s.setClient id { c with conn := c.conn.readAll.2 }) := by
  rw [hearAll, hc]

/-- **Reading everything that a client has sent** is its act. -/
theorem act_hearAll (hfits : s.queueCapacity ≤ Mailbox.limit) (id : String) :
    Act (.client id) s (s.hearAll id) := by
  cases hc : s.clients.get? id with
  | none =>
    rw [hearAll, hc]
    exact .refl _ s
  | some c =>
    rw [hearAll_eq hc]
    exact (act_setConn hc _).trans (act_foldl_hear (s := s.setClient id _) hfits id _)

theorem act_converse (hfits : s.queueCapacity ≤ Mailbox.limit) (id : String)
    (change : Connection → Connection) : Act (.client id) s (s.converse id change) := by
  rw [converse]
  split
  case h_1 => exact .refl _ s
  case h_2 c hc =>
    exact (act_setConn hc _).trans (act_hearAll (s := s.setClient id _) hfits id)

theorem present_eq (s : Service) (m : Moment) (id : String) (c : Client) (name : String)
    (ticket : Ticket) (view : View) (record : Json) :
    s.present m id c name ticket view record
      = let t := s.setClient id { c with phase := .showing name ticket (view.record m record).2 }
        match (view.record m record).1 with
        | .error e => t.endSession id (.failed e)
        | .ok none => t
        | .ok (some output) =>
          if c.writable then t.tell id output.text
          else t.endSession id (.failed (.transport .brokenPipe)) := rfl

/-- **Presenting a record** is the act of the client it is presented to. -/
theorem act_present {ticket : Ticket} (h : s.ticketOf (.client id) = some ⟨name, ticket⟩)
    (m : Moment) (c : Client) (view : View) (record : Json) :
    Act (.client id) s (s.present m id c name ticket view record) := by
  have hset : Act (.client id) s
      (s.setClient id { c with phase := .showing name ticket (view.record m record).2 }) :=
    act_setClient h.symm
  rw [present_eq]
  dsimp only
  split
  · exact hset.trans (act_endSession _ id _)
  · exact hset
  · split
    · exact hset.trans (act_heard _ id _)
    · exact hset.trans (act_endSession _ id _)

theorem act_pollOnce (s : Service) (m : Moment) (id : String) :
    Act (.client id) s (s.pollOnce m id).2 := by
  rw [pollOnce]
  split
  case h_1 => exact .refl _ s
  case h_2 c hc =>
    split
    case h_1 name ticket view hphase =>
      have hticket : s.ticketOf (.client id) = some ⟨name, ticket⟩ := by
        rw [ticketOf_client hc, hphase]
        rfl
      split
      case h_1 v f hreceive =>
        have hreceived : Act (.client id) s (s.setFeed name f) := by
          refine act_of_receive (untouched_setFeed _ s name f) hticket ?_ hticket rfl
          rw [feed_setFeed, hreceive]
        have hafter : (s.setFeed name f).ticketOf (.client id) = some ⟨name, ticket⟩ := hticket
        exact hreceived.trans (act_present hafter m c view v)
      case h_2 => exact .refl _ s
      case h_3 => exact act_endSession s id _
    case h_2 => exact .refl _ s

theorem pollUpTo_succ (m : Moment) (id : String) (n : Nat) (s : Service) :
    pollUpTo m id (n + 1) s
      = if (s.pollOnce m id).1 then pollUpTo m id n (s.pollOnce m id).2
        else (s.pollOnce m id).2 := by
  rw [pollUpTo]
  rcases s.pollOnce m id with ⟨_ | _, t⟩ <;> rfl

theorem act_pollUpTo (m : Moment) (id : String) (n : Nat) (s : Service) :
    Act (.client id) s (pollUpTo m id n s) := by
  induction n generalizing s with
  | zero => exact .refl _ s
  | succ n ih =>
    rw [pollUpTo_succ]
    split
    · exact (act_pollOnce s m id).trans (ih _)
    · exact act_pollOnce s m id

/-- **Taking everything that waits for a session** is its client's act. -/
theorem act_poll (s : Service) (m : Moment) (id : String) : Act (.client id) s (s.poll m id) :=
  act_pollUpTo m id _ s

/-! ## Direct subscriptions -/

theorem ticketOf_setSubscription (s : Service) (name : String) (sub : Subscription) :
    ({ s with subscriptions := s.subscriptions.set name sub } : Service).ticketOf
      = Function.update s.ticketOf (.subscriber name) (some sub) := by
  funext q
  rw [Function.update_apply]
  cases q with
  | subscriber other =>
    have hget := Table.get?_set s.subscriptions name other sub
    by_cases hother : other = name
    · rw [ticketOf, hget, if_pos hother, if_pos (congrArg _ hother)]
    · rw [ticketOf, hget, if_neg hother, if_neg (fun h => hother (Party.subscriber.inj h))]
      rfl
  | client id => rfl
  | newcomer => rfl

theorem untouched_setSubscription (s : Service) (name : String) (sub : Subscription) :
    Untouched (.subscriber name) s { s with subscriptions := s.subscriptions.set name sub } := by
  refine ⟨rfl, rfl, rfl, fun _ _ => rfl, fun _ _ => rfl, fun other hother => ?_⟩
  exact (Table.get?_set ..).trans (if_neg fun h => hother (congrArg _ h))

theorem feed_leave (s : Service) (name : String) (ticket : Ticket) :
    (s.leave name ticket).feed
      = Function.update s.feed name ((s.feed name).leave ticket) := feed_setFeed s name _

/-- A feed that somebody leaves keeps its connection. -/
theorem Lively.leave (hs : s.Lively) (name : String) (ticket : Ticket) :
    (s.leave name ticket).Lively := by
  intro other hc
  refine hs other ?_
  rw [feed_leave, Function.update_apply] at hc
  split at hc
  case isTrue hname => rw [hname, ← (Feed.leave_connected _ ticket).1, hc]
  case isFalse => exact hc

/-- A feed that lets somebody in is live, and has not stopped. -/
theorem Lively.letIn (hs : s.Lively)
    (hopen : ((s.feed name).connected || s.accepts name) = true) (capacity : Capacity) :
    (s.letIn name capacity).Lively := by
  intro other hc
  rw [(untouched_letIn .newcomer s name capacity).gone]
  by_cases hname : other = name
  · exact ⟨live_letIn hs capacity (Or.inr hname), hname ▸ not_gone_of_open hs hopen⟩
  · rw [feed_letIn, Function.update_of_ne hname] at hc
    exact (hs other hc).imp_left fun hlive => live_letIn hs capacity (Or.inl hlive)

/-- Who has just been let in has a ticket and no name yet. -/
theorem tidy_letIn (hs : s.Orderly) (name : String) (capacity : Capacity) :
    Tidy (s.letIn name capacity).feed
      (Function.update s.ticketOf .newcomer (some ⟨name, (s.feed name).nextTicket⟩)) := by
  rw [feed_letIn]
  exact hs.tidy.grant rfl name capacity

theorem seatOf_letIn (hs : s.Orderly) (hq : s.ticketOf q = some sub) (name : String)
    (capacity : Capacity) : seatOf (s.letIn name capacity).feed sub = seatOf s.feed sub := by
  rw [feed_letIn, hs.tidy.seatOf_grant hq]

/-- **Granted or refused**: what becomes of a direct subscription. -/
theorem takeSubscription_eq (name subscriber : String) (capacity : Capacity) (s : Service) :
    takeSubscription name subscriber capacity s
      = if (s.feed name).connected || s.accepts name then
          let t := match s.subscriptions.get? subscriber with
            | some old => (s.letIn name capacity).leave old.feed old.ticket
            | none => s.letIn name capacity
          (.slot (s.feed name).nextTicket.slot, { t with
            subscriptions := t.subscriptions.set subscriber ⟨name, (s.feed name).nextTicket⟩ })
        else (.failed (s.refusalOf name), s.setFeed name (s.feed name)) := by
  have hold : s.subscriptions = (s.letIn name capacity).subscriptions :=
    (letIn_same s name capacity).2.1.symm
  simp only [takeSubscription, request_val, subscribe_eq]
  split_ifs
  · exact hold ▸ rfl
  · rfl

/-- A feed that is put back as it was. -/
theorem act_setFeed_self (p : Party) (s : Service) (name : String) :
    Act p s (s.setFeed name (s.feed name)) := by
  refine act_of_same (untouched_setFeed p s name _) (feed_setFeed_self s name) ?_ fun _ hn => hn
  cases p <;> rfl

/-- **A ticket is exchanged for a new one**, which is granted before the old one is given back. -/
theorem act_of_exchange {capacity : Capacity} (h : Untouched p s t) (hp : s.ticketOf p = some sub)
    (hopen : ((s.feed name).connected || s.accepts name) = true)
    (hfeed : t.feed = ((s.letIn name capacity).leave sub.feed sub.ticket).feed)
    (hticket : t.ticketOf p = some ⟨name, (s.feed name).nextTicket⟩)
    (hlive : t.live = (s.letIn name capacity).live) : Act p s t := by
  intro hs
  have hnewcomer : ∀ {q sub}, s.ticketOf q = some sub → q ≠ .newcomer := by
    rintro _ _ hq rfl
    cases hq
  have hgranted := tidy_letIn hs name capacity
  have hboth : Function.update s.ticketOf .newcomer (some ⟨name, (s.feed name).nextTicket⟩) p
      = some sub := (Function.update_of_ne (hnewcomer hp) ..).trans hp
  have hhanded := (hgranted.release hboth).handOn
    ((Function.update_of_ne (hnewcomer hp).symm ..).trans (Function.update_self ..))
    (Function.update_self ..)
  have htickets : Function.update (Function.update (Function.update (Function.update s.ticketOf
        .newcomer (some ⟨name, (s.feed name).nextTicket⟩)) p none) .newcomer none) p
        (some ⟨name, (s.feed name).nextTicket⟩) = t.ticketOf := by
    funext q
    simp only [Function.update_apply]
    split_ifs with hq hnew
    · rw [hq, hticket]
    · rw [hnew]; rfl
    · rw [h.ticketOf hq]
  have hlively := (hs.lively.letIn hopen capacity).leave sub.feed sub.ticket
  refine ⟨⟨?_, fun other hc => ?_⟩, h, fun q sub' hq hsub => ?_⟩
  · rw [hfeed, ← htickets, feed_leave]
    exact hhanded
  · rw [hlive, h.gone, ← (untouched_letIn .newcomer s name capacity).gone]
    exact hlively other (hfeed ▸ hc)
  · have hstill : Function.update s.ticketOf .newcomer (some ⟨name, (s.feed name).nextTicket⟩) q
        = some sub' := (Function.update_of_ne (hnewcomer hsub) ..).trans hsub
    rw [hfeed, feed_leave, hgranted.seatOf_release hboth hstill hq, seatOf_letIn hs hsub]

/-- **A direct subscription is taken**, and one of the same name gives way to it. -/
theorem act_takeSubscription (name subscriber : String) (capacity : Capacity) (s : Service) :
    Act (.subscriber subscriber) s (takeSubscription name subscriber capacity s).2 := by
  have hnamed := fun t : Service =>
    untouched_setSubscription t subscriber ⟨name, (s.feed name).nextTicket⟩
  have hticket := fun t : Service =>
    (congrFun (ticketOf_setSubscription t subscriber ⟨name, (s.feed name).nextTicket⟩) _).trans
      (Function.update_self ..)
  have hgranted := untouched_letIn (.subscriber subscriber) s name capacity
  rw [takeSubscription_eq]
  split
  case isFalse => exact act_setFeed_self _ s name
  case isTrue hopen =>
    dsimp only
    cases hold : s.subscriptions.get? subscriber with
    | none =>
      exact fun hs => act_of_grant (hgranted.trans (hnamed _)) hold hopen
        (feed_letIn s name capacity) (hticket _)
        (fun other hother => live_letIn hs.lively capacity hother) hs
    | some old =>
      exact act_of_exchange ((hgranted.trans (untouched_leave _ _ old.feed old.ticket)).trans
        (hnamed _)) hold hopen rfl (hticket _) rfl

/-- **A subscription that is abandoned** is granted and given back at once. -/
theorem abandonSubscription_eq (name : String) (s : Service) :
    abandonSubscription name s
      = if (s.feed name).connected || s.accepts name then
          (.ok, (s.letIn name 1).leave name (s.feed name).nextTicket)
        else (.ok, s.setFeed name (s.feed name)) := by
  simp only [abandonSubscription, subscribe_eq]
  split_ifs <;> rfl

theorem act_abandonSubscription (name : String) (s : Service) :
    Act .newcomer s (abandonSubscription name s).2 := by
  rw [abandonSubscription_eq]
  split
  case isFalse => exact act_setFeed_self _ s name
  case isTrue hopen =>
    intro hs
    have hgranted := tidy_letIn hs name 1
    have hnew : Function.update s.ticketOf .newcomer (some ⟨name, (s.feed name).nextTicket⟩)
        .newcomer = some ⟨name, (s.feed name).nextTicket⟩ := Function.update_self ..
    have huntouched := (untouched_letIn .newcomer s name 1).trans
      (untouched_leave _ _ name (s.feed name).nextTicket)
    have htickets : ((s.letIn name 1).leave name (s.feed name).nextTicket).ticketOf
        = Function.update (Function.update s.ticketOf .newcomer
          (some ⟨name, (s.feed name).nextTicket⟩)) .newcomer none := by
      rw [huntouched.ticketOf_eq rfl, Function.update_idem]
      rfl
    refine ⟨⟨?_, (hs.lively.letIn hopen 1).leave name _⟩, huntouched, fun q sub hq hsub => ?_⟩
    · rw [htickets, feed_leave]
      exact hgranted.release hnew
    · have hstill : Function.update s.ticketOf .newcomer (some ⟨name, (s.feed name).nextTicket⟩) q
          = some sub := (Function.update_of_ne hq ..).trans hsub
      rw [feed_leave]
      exact (hgranted.seatOf_release hnew hstill hq).trans (seatOf_letIn hs hsub name 1)

theorem act_dropSubscription (s : Service) (subscriber : String) :
    Act (.subscriber subscriber) s (s.dropSubscription subscriber).2 := by
  rw [dropSubscription]
  split
  case h_1 => exact .refl _ s
  case h_2 old hold =>
    have herased : ∀ other, (s.subscriptions.erase subscriber).get? other
        = if other = subscriber then none else s.subscriptions.get? other :=
      Table.get?_erase s.subscriptions subscriber
    have huntouched : Untouched (.subscriber subscriber) s
        { s.leave old.feed old.ticket with
          subscriptions := s.subscriptions.erase subscriber } := by
      refine ⟨rfl, rfl, rfl, fun _ _ => rfl, fun _ _ => rfl, fun other hother => ?_⟩
      exact (herased other).trans (if_neg fun h => hother (congrArg _ h))
    exact act_of_release huntouched hold (feed_leave s old.feed _)
      ((herased subscriber).trans (if_pos rfl)) rfl

theorem act_receive (s : Service) (subscriber : String) :
    Act (.subscriber subscriber) s (s.receive subscriber).2 := by
  rw [receive]
  split
  case h_1 => exact .refl _ s
  case h_2 sub hsub =>
    have hmailbox := feed_setFeed s sub.feed
    exact act_of_receive (untouched_setFeed _ s sub.feed _) hsub (hmailbox _) hsub rfl

end Service

end LiveQuery
