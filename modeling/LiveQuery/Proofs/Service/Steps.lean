import LiveQuery.Proofs.Service.Acts

/-!
# Proofs/Service/Steps — a step is one party's act, or news for everybody

Every step but `kill` is of one of two kinds.  It is an act of the party it names
(`act_perform`), which the others do not notice; or a connection brings a line or ends, also by the
stop of its feed (`perform_news`), and then every session looks into its mailbox in turn.  Since
each look is an act of one client, **what a client gets of the news it gets in its own turn**
(`pollAll_client`).

Where sessions ask for more than a mailbox can hold, what a client says may be both.  That case is
left to `Settled`, since nobody has a session then.
-/

namespace LiveQuery

namespace Tidy

variable {feeds : String → Feed} {tickets : Party → Option Subscription}

/-- A line keeps everything tidy. -/
theorem line (h : Tidy feeds tickets) (name text : String) :
    Tidy (Function.update feeds name ((feeds name).step (.line text))) tickets := by
  have hsame : Tidy (Function.update feeds name (feeds name)) tickets := by
    rw [Function.update_eq_self]
    exact h
  rw [Feed.step, Feed.line_eq]
  split
  case isFalse => exact hsame
  case isTrue =>
    split
    case isTrue hvacant => exact h.closeIdle (Feed.isVacant_iff.mp hvacant)
    case isFalse =>
      cases Feed.recordOf? text with
      | none => exact hsame
      | some v => exact h.hand name v

/-- The end of a connection, if there is one, keeps everything tidy. -/
theorem loseStep (h : Tidy feeds tickets) (name : String) :
    Tidy (Function.update feeds name ((feeds name).step .lose)) tickets := by
  rw [Feed.step]
  split
  · exact h.lose name
  · rw [Function.update_eq_self]
    exact h

end Tidy

namespace Service

variable {s t u : Service} {p q : Party} {id name : String} {sub : Subscription} {c : Client}
  {m : Moment}

/-- **What is everybody's is as it was**, but for feeds that stop. -/
structure Steady (s t : Service) : Prop where
  running : t.running = s.running
  queue : t.queueCapacity = s.queueCapacity
  gone : ∀ name ∈ s.gone, name ∈ t.gone

theorem Steady.refl (s : Service) : Steady s s := ⟨rfl, rfl, fun _ h => h⟩

theorem Steady.trans (h : Steady s t) (h' : Steady t u) : Steady s u :=
  ⟨h'.running.trans h.running, h'.queue.trans h.queue, fun name hn => h'.gone name (h.gone name hn)⟩

theorem Untouched.steady (h : Untouched p s t) : Steady s t :=
  ⟨h.running, h.queue, fun _ hn => h.gone ▸ hn⟩

/-- What a party has and hears, and its seat, are as they were. -/
structure Alike (p : Party) (s t : Service) : Prop extends Steady s t where
  ticket : t.ticketOf p = s.ticketOf p
  client : ∀ {id}, .client id = p →
    t.clients.get? id = s.clients.get? id ∧ t.heardBy id = s.heardBy id
  seat : ∀ {sub}, s.ticketOf p = some sub → seatOf t.feed sub = seatOf s.feed sub

theorem Apart.alike (h : Apart p s t) (hq : q ≠ p) : Alike q s t where
  toSteady := h.toUntouched.steady
  ticket := h.ticketOf hq
  client hid := ⟨h.client _ (hid ▸ hq), h.heard _ (hid ▸ hq)⟩
  seat hsub := h.seat q _ hq hsub

theorem Alike.refl (p : Party) (s : Service) : Alike p s s :=
  ⟨.refl s, rfl, fun _ => ⟨rfl, rfl⟩, fun _ => rfl⟩

theorem Alike.trans (h : Alike p s t) (h' : Alike p t u) : Alike p s u where
  toSteady := h.toSteady.trans h'.toSteady
  ticket := h'.ticket.trans h.ticket
  client hid := ⟨(h'.client hid).1.trans (h.client hid).1, (h'.client hid).2.trans (h.client hid).2⟩
  seat hsub := (h'.seat (h.ticket.trans hsub)).trans (h.seat hsub)

/-! ## Acts -/

/-- Whose session has ended has no ticket. -/
theorem ticketOf_endSession (s : Service) (id : String) (ending : Ending) :
    (s.endSession id ending).ticketOf (.client id) = none := by
  rw [endSession]
  split
  case h_1 hc =>
    rw [ticketOf, hc]
    rfl
  case h_2 c hc =>
    split
    case h_1 hphase =>
      rw [ticketOf_client hc, hphase]
      rfl
    all_goals exact ticketOf_client (get?_setClient_self s id { c with phase := .over })

/-- **A client that connects** leaves behind the session it had. -/
theorem act_connect (s : Service) (id : String) (transport : Transport) :
    Act (.client id) s
      ((s.endSession id .finished).setClient id ⟨.start transport, true, .asking⟩) :=
  (act_endSession s id .finished).trans (act_setClient (ticketOf_endSession s id .finished).symm)

theorem act_breakWrites (s : Service) (id : String) :
    Act (.client id) s (match s.clients.get? id with
      | some c => s.setClient id { c with writable := false }
      | none => s) := by
  split
  case h_1 c hc => exact act_setClient (ticketOf_client hc).symm
  case h_2 => exact .refl _ s

/-- A service that keeps the handle of a feed. -/
def handled (s : Service) (name : String) : Service :=
  { s.located name with handles := name :: s.handles.filter (· ≠ name) }

theorem act_handled (p : Party) (s : Service) (name : String) : Act p s (s.handled name) := by
  refine act_of_same ⟨rfl, rfl, rfl, fun _ _ => rfl, fun _ _ => rfl, fun _ _ => rfl⟩
    (feed_located s name) ?_ fun _ hn => hn
  cases p <;> rfl

theorem feed_handled (s : Service) (name : String) : (s.handled name).feed = s.feed :=
  feed_located s name

theorem ticketOf_handled (s : Service) (name : String) : (s.handled name).ticketOf = s.ticketOf :=
  funext fun p => by cases p <;> rfl

/-- While a service runs, a feed is used after it was located. -/
theorem withFeed_eq (h : s.running = true) (name : String) (use : Service → Reply × Service) :
    s.withFeed name use = use (s.handled name) := if_pos h

/-- **Whose step it is**; what nobody in particular does is a newcomer's. -/
def Step.party : Step → Party
  | .subscribe _ subscriber _ | .unsubscribe subscriber | .receive subscriber =>
    .subscriber subscriber
  | .connect id _ | .send id _ | .breakWrites id | .leave id => .client id
  | _ => .newcomer

/-- **What a step is to the connection of a feed**; who asks a feed too much ends it. -/
def Step.news? : Step → Option (String × Feed.Event)
  | .line name text => some (name, .line text)
  | .fail name | .finish name => some (name, .lose)
  | .subscribe name _ capacity => if Mailbox.limit < capacity then some (name, .lose) else none
  | _ => none

/-- What a client's own words do to its connection. -/
def Step.speech? (id : String) : Step → Option (Connection → Connection)
  | .send other payload => if other = id then some (arrive payload) else none
  | .leave other => if other = id then some Connection.close else none
  | _ => none

/-- What a client says is taken in and read. -/
theorem perform_speech {st : Step} {change : Connection → Connection}
    (h : st.speech? id = some change) (s : Service) (m : Moment) :
    (s.perform m st).2 = s.converse id change := by
  cases st with
  | send other payload =>
    obtain ⟨rfl, hchange⟩ := Option.ite_none_right_eq_some.mp h
    exact congrArg (s.converse other) (Option.some.inj hchange)
  | leave other =>
    obtain ⟨rfl, hchange⟩ := Option.ite_none_right_eq_some.mp h
    exact congrArg (s.converse other) (Option.some.inj hchange)
  | _ => cases h

/-- What a client says is its own step, and no news. -/
theorem party_of_speech {st : Step} {change : Connection → Connection}
    (h : st.speech? id = some change) : st.party = .client id ∧ st.news? = none := by
  cases st with
  | send other payload =>
    obtain ⟨rfl, -⟩ := Option.ite_none_right_eq_some.mp h
    exact ⟨rfl, rfl⟩
  | leave other =>
    obtain ⟨rfl, -⟩ := Option.ite_none_right_eq_some.mp h
    exact ⟨rfl, rfl⟩
  | _ => cases h

/-- A subscription that is asked for is no news if it is not too large. -/
theorem perform_subscribe (hrunning : s.running = true) (subscriber : String) (capacity : Capacity)
    (m : Moment) : s.perform m (.subscribe name subscriber capacity)
      = takeSubscription name subscriber capacity (s.handled name) := by
  have hfits : ¬ Mailbox.limit < capacity.val := Nat.not_lt_of_le (Nat.le_of_lt_succ capacity.isLt)
  rw [perform, withFeed_eq hrunning]
  dsimp only
  rw [if_neg hfits]

/-- One that is too large stops the feed, and everybody looks. -/
theorem perform_overask (hrunning : s.running = true) (subscriber : String) {capacity : Nat}
    (h : Mailbox.limit < capacity) (m : Moment) :
    s.perform m (.subscribe name subscriber capacity)
      = (.failed (((s.handled name).overask name).refusalOf name),
        ((s.handled name).overask name).pollAll m) := by
  rw [perform, withFeed_eq hrunning, takeSubscription, request_of_lt h]
  dsimp only
  rw [if_pos h]

/-- **A step that is no news is its party's act**, unless somebody speaks and is not heard. -/
theorem act_perform (hrunning : s.running = true) {st : Step} (hkill : st ≠ .kill)
    (hnews : st.news? = none)
    (hfits : s.queueCapacity ≤ Mailbox.limit ∨ ∀ id, st.speech? id = none) (m : Moment) :
    Act st.party s (s.perform m st).2 := by
  cases st with
  | accepting b =>
    exact act_of_same ⟨rfl, rfl, rfl, fun _ _ => rfl, fun _ _ => rfl, fun _ _ => rfl⟩ rfl rfl
      fun _ hn => hn
  | locate name =>
    rw [perform, if_pos hrunning, withFeed_eq hrunning]
    exact act_handled _ s name
  | names =>
    rw [perform, if_pos hrunning]
    exact .refl _ s
  | subscribe name subscriber n =>
    have hfits : ¬ Mailbox.limit < n := fun h => by
      rw [Step.news?, if_pos h] at hnews
      cases hnews
    obtain ⟨capacity, rfl⟩ := Capacity.exists_val_eq (Nat.le_of_not_lt hfits)
    rw [perform_subscribe hrunning]
    exact (act_handled _ s name).trans (act_takeSubscription name subscriber capacity _)
  | abandon name =>
    rw [perform, withFeed_eq hrunning]
    exact (act_handled _ s name).trans (act_abandonSubscription name _)
  | unsubscribe subscriber => exact act_dropSubscription s subscriber
  | receive subscriber => exact act_receive s subscriber
  | line name text => cases hnews
  | fail name => cases hnews
  | finish name => cases hnews
  | lookup name key =>
    rw [perform, consult, withFeed_eq hrunning]
    exact act_handled _ s name
  | stats name =>
    rw [perform, consult, withFeed_eq hrunning]
    exact act_handled _ s name
  | connect id transport => exact act_connect s id transport
  | send id payload =>
    refine act_converse (hfits.resolve_right fun hnone => ?_) id (arrive payload)
    cases (if_pos rfl).symm.trans (hnone id)
  | breakWrites id => exact act_breakWrites s id
  | leave id =>
    refine act_converse (hfits.resolve_right fun hnone => ?_) id Connection.close
    cases (if_pos rfl).symm.trans (hnone id)
  | kill => exact absurd rfl hkill

/-! ## News -/

/-- **Something has come from the connection of a feed**, and nobody has looked yet. -/
structure Brought (s u : Service) (name : String) (e : Feed.Event) : Prop extends Steady s u where
  orderly : u.Orderly
  /-- Each seat of the feed has made its step. -/
  seat : ∀ {p sub}, s.ticketOf p = some sub → seatOf u.feed sub
    = if sub.feed = name then (seatOf s.feed sub).step sub.ticket e else seatOf s.feed sub
  ticketOf : u.ticketOf = s.ticketOf
  clients : u.clients = s.clients
  heard : u.heard = s.heard

/-- **What is brought to a feed is not noticed** by whoever listens to another one, or to none. -/
theorem Brought.alike {e : Feed.Event} (h : Brought s u name e)
    (hne : ∀ sub, s.ticketOf p = some sub → sub.feed ≠ name) : Alike p s u where
  toSteady := h.toSteady
  ticket := congrFun h.ticketOf p
  client _ := ⟨by rw [h.clients], by rw [heardBy, h.heard, heardBy]⟩
  seat hsub := by rw [h.seat hsub, if_neg (hne _ hsub)]

/-- A feed without a connection hears no news. -/
theorem step_of_disconnected {f : Feed} {e : Feed.Event} (hc : f.connected = false)
    (he : e = .lose ∨ ∃ text, e = .line text) : f.step e = f := by
  have hnot : ¬ f.connected = true := by rw [hc]; exact Bool.false_ne_true
  rcases he with rfl | ⟨text, rfl⟩
  · exact if_neg hnot
  · exact if_neg hnot

theorem ticketOf_live (s : Service) (live : List String) :
    ({ s with live := live } : Service).ticketOf = s.ticketOf := funext fun p => by cases p <;> rfl

/-- The seats after a feed has made its step. -/
theorem seatOf_setFeed_step (hs : s.Orderly) (hsub : s.ticketOf p = some sub) (name : String)
    (e : Feed.Event) : seatOf (Function.update s.feed name ((s.feed name).step e)) sub
      = if sub.feed = name then (seatOf s.feed sub).step sub.ticket e else seatOf s.feed sub := by
  split
  case isTrue hname =>
    subst hname
    rw [seatOf_update_self rfl, Feed.seat_step (hs.tidy.sound _) (hs.tidy.issued hsub), seatOf]
  case isFalse hname => exact seatOf_update_of_ne hname _

/-- News keeps a service orderly: it opens no connection, and one that it ends need not be live. -/
theorem orderly_setFeed_step (hs : s.Orderly) {live : List String} {e : Feed.Event}
    (he : (e = .lose ∧ ∀ other ∈ s.live, other = name ∨ other ∈ live) ∨
      (∃ text, e = .line text) ∧ live = s.live) :
    (({ s with live := live } : Service).setFeed name ((s.feed name).step e)).Orderly := by
  have htidy : Tidy (Function.update s.feed name ((s.feed name).step e)) s.ticketOf := by
    rcases he with ⟨rfl, -⟩ | ⟨⟨text, rfl⟩, -⟩
    · exact hs.tidy.loseStep name
    · exact hs.tidy.line name text
  refine ⟨?_, fun other hc => ?_⟩
  · rw [feed_setFeed]
    exact ticketOf_live s live ▸ htidy
  · rw [feed_setFeed, Function.update_apply] at hc
    rcases he with ⟨rfl, hlive⟩ | ⟨⟨text, rfl⟩, rfl⟩
    · split at hc
      case isTrue =>
        rw [Feed.step] at hc
        split at hc
        case isTrue => cases hc
        case isFalse hnot => exact absurd hc hnot
      case isFalse hne =>
        exact (hs.lively other hc).imp_left fun hn => (hlive other hn).resolve_left hne
    · split at hc
      case isTrue hname =>
        refine hs.lively other (hname ▸ ?_)
        by_contra hnot
        rw [step_of_disconnected (Bool.eq_false_iff.mpr hnot) (Or.inr ⟨text, rfl⟩)] at hc
        exact hnot hc
      case isFalse => exact hs.lively other hc

theorem onConnection_eq (s : Service) (m : Moment) (name : String) (e : Feed.Event) :
    (s.onConnection m name e).2
      = if (s.feed name).connected then (s.setFeed name ((s.feed name).step e)).pollAll m
        else s := by
  rw [onConnection]
  split <;> rfl

/-- What a connection brings while it is there is taken up by everybody. -/
theorem onConnection_brought (hs : s.Orderly) (m : Moment) {live : List String} {e : Feed.Event}
    (he : (e = .lose ∧ ∀ other ∈ s.live, other = name ∨ other ∈ live) ∨
      (∃ text, e = .line text) ∧ live = s.live) :
    let t := (({ s with live := live } : Service).onConnection m name e).2
    ∃ u, Brought s u name e ∧ (t = u.pollAll m ∨ t = u ∧ (s.feed name).connected = false) := by
  have horderly := orderly_setFeed_step hs he
  have hseat : ∀ {p sub}, s.ticketOf p = some sub → _ :=
    fun hsub => seatOf_setFeed_step hs hsub name e
  dsimp only
  rw [onConnection_eq]
  cases hc : (s.feed name).connected with
  | true =>
    refine ⟨_, ⟨?_, horderly, fun hsub => ?_, ?_, rfl, rfl⟩, Or.inl (if_pos hc)⟩
    · exact ⟨rfl, rfl, fun _ hn => hn⟩
    · rw [feed_setFeed]
      exact hseat hsub
    · exact ticketOf_live s live
  | false =>
    have hsame : (s.feed name).step e = s.feed name :=
      step_of_disconnected hc (he.imp And.left And.left)
    have hnot : ¬ (s.feed name).connected = true := by rw [hc]; exact Bool.false_ne_true
    rw [hsame] at horderly
    rw [hsame, Function.update_eq_self] at hseat
    refine ⟨{ s with live := live }, ⟨⟨rfl, rfl, fun _ hn => hn⟩, ?_, hseat,
      ticketOf_live s live, rfl, rfl⟩, Or.inr ⟨if_neg hnot, rfl⟩⟩
    refine ⟨ticketOf_live s live ▸ hs.tidy, fun other hconn => horderly.lively other ?_⟩
    rw [feed_setFeed, Function.update_apply]
    split
    case isTrue hname => exact hname ▸ hconn
    case isFalse => exact hconn

/-- A feed whose connection the far side has ended already has none. -/
theorem disconnected_of_not_mem_live (hs : s.Orderly) (h : name ∉ s.live) :
    (s.feed name).connected = false :=
  Bool.eq_false_iff.mpr fun hc => h (hs.lively name hc).1

/-- Nothing was brought to a feed without a connection. -/
theorem brought_of_disconnected (hs : s.Orderly) (hc : (s.feed name).connected = false) :
    Brought s s name .lose := by
  refine ⟨.refl s, hs, fun hsub => ?_, rfl, rfl, rfl⟩
  rw [← seatOf_setFeed_step hs hsub, step_of_disconnected hc (Or.inl rfl), Function.update_eq_self]

/-- **A feed that is asked too much is lost** to all its subscribers. -/
theorem overask_brought (hs : s.Orderly) (name : String) :
    Brought s (s.overask name) name .lose := by
  rcases s.overask_cases name with ⟨hc, hsame⟩ | ⟨f, opened, live, hf, hlive, hstopped⟩
  · rw [hsame]
    exact brought_of_disconnected hs hc
  · have hfeed : (s.overask name).feed = Function.update s.feed name f := by
      rw [hstopped]
      exact feed_setFeed s name f
    have hticket : (s.overask name).ticketOf = s.ticketOf := by
      rw [hstopped]
      exact funext fun p => by cases p <;> rfl
    refine ⟨⟨?_, ?_, ?_⟩, ⟨?_, fun other hc => ?_⟩, fun {p sub} hsub => ?_, hticket, ?_, ?_⟩
    · exact hstopped ▸ rfl
    · exact hstopped ▸ rfl
    · rw [hstopped]
      exact fun other hother => List.mem_cons_of_mem name hother
    · rw [hfeed, hticket]
      exact hs.tidy.overask hf
    · rw [hfeed, Function.update_apply] at hc
      rw [hstopped]
      split at hc
      case isTrue =>
        rw [Feed.eq_of_overask hf] at hc
        cases hc
      case isFalse hname =>
        obtain ⟨hlively, hgone⟩ := hs.lively other hc
        exact ⟨hlive other hlively, List.not_mem_cons_of_ne_of_not_mem hname hgone⟩
    · rw [hfeed]
      split
      case isTrue hname =>
        subst hname
        exact (seatOf_update_self rfl f).trans (Feed.seat_overask hf _)
      case isFalse hname => exact seatOf_update_of_ne hname f
    · exact hstopped ▸ rfl
    · exact hstopped ▸ rfl

/-- Whoever keeps the handle of a feed brings nothing more. -/
theorem Brought.of_handled {e : Feed.Event} {other : String}
    (h : Brought (s.handled other) u name e) : Brought s u name e where
  toSteady := ⟨h.running, h.queue, h.gone⟩
  orderly := h.orderly
  seat hsub := by
    rw [← feed_handled s other]
    exact h.seat (ticketOf_handled s other ▸ hsub)
  ticketOf := h.ticketOf.trans (ticketOf_handled s other)
  clients := h.clients
  heard := h.heard

/-- **A step that is news**: something is brought, and if there was a connection to bring it,
everybody looks. -/
theorem perform_news (hs : s.Orderly) (hrunning : s.running = true) {st : Step} {e : Feed.Event}
    (hnews : st.news? = some (name, e)) (m : Moment) :
    ∃ u, Brought s u name e ∧ ((s.perform m st).2 = u.pollAll m ∨
      (s.perform m st).2 = u ∧ (s.feed name).connected = false) := by
  cases st with
  | line other text =>
    cases hnews
    exact onConnection_brought hs m (Or.inr ⟨⟨text, rfl⟩, rfl⟩)
  | fail other =>
    cases hnews
    exact onConnection_brought hs m (Or.inl ⟨rfl, fun _ hn => Or.inr hn⟩)
  | finish other =>
    cases hnews
    rw [perform, finishConnection]
    split
    case isTrue =>
      refine onConnection_brought hs m (Or.inl ⟨rfl, fun other hn => ?_⟩)
      by_cases hname : other = name
      · exact Or.inl hname
      · exact Or.inr (List.mem_filter.mpr ⟨hn, decide_eq_true hname⟩)
    case isFalse hnot =>
      have hc := disconnected_of_not_mem_live hs hnot
      exact ⟨s, brought_of_disconnected hs hc, Or.inr ⟨rfl, hc⟩⟩
  | subscribe other subscriber capacity =>
    obtain ⟨hover, hnews⟩ := Option.ite_none_right_eq_some.mp hnews
    cases hnews
    obtain ⟨horderly, -⟩ := act_handled .newcomer s name hs
    refine ⟨_, (overask_brought horderly name).of_handled, Or.inl ?_⟩
    exact congrArg Prod.snd (perform_overask hrunning subscriber hover m)
  | _ => cases hnews

/-! ## Everybody looks -/

theorem foldl_poll (hs : s.Orderly) (m : Moment) (ids : List String) :
    (ids.foldl (fun s id => s.poll m id) s).Orderly ∧
      ∀ p, (∀ id ∈ ids, p ≠ .client id) → Alike p s (ids.foldl (fun s id => s.poll m id) s) := by
  induction ids generalizing s with
  | nil => exact ⟨hs, fun p _ => .refl p s⟩
  | cons id ids ih =>
    obtain ⟨horderly, hapart⟩ := act_poll s m id hs
    obtain ⟨hlast, hrest⟩ := ih horderly
    refine ⟨hlast, fun p hp => ?_⟩
    obtain ⟨hid, hids⟩ := List.forall_mem_cons.mp hp
    exact (hapart.alike hid).trans (hrest p hids)

theorem orderly_pollAll (hs : s.Orderly) (m : Moment) : (s.pollAll m).Orderly :=
  (foldl_poll hs m _).1

/-- A party that is no client does not notice that the clients look. -/
theorem pollAll_alike (hs : s.Orderly) (m : Moment) (hp : ∀ id, p ≠ .client id) :
    Alike p s (s.pollAll m) := (foldl_poll hs m _).2 p fun id _ => hp id

/-- That the clients look changes nothing that is everybody's. -/
theorem steady_pollAll (hs : s.Orderly) (m : Moment) : Steady s (s.pollAll m) :=
  (pollAll_alike hs m (p := .newcomer) fun _ => Party.noConfusion).toSteady

/-- **A client looks once**, in its turn. -/
theorem pollAll_client (hs : s.Orderly) (m : Moment) (id : String) :
    ∃ t, t.Orderly ∧ Alike (.client id) s t ∧ Alike (.client id) (t.poll m id) (s.pollAll m) := by
  by_cases hid : id ∈ s.clients.keys
  · obtain ⟨before, after, hkeys⟩ := List.append_of_mem hid
    have hnodup : (before ++ id :: after).Nodup := hkeys ▸ s.clients.nodup
    have hpoll : s.pollAll m = after.foldl (fun s id => s.poll m id)
        ((before.foldl (fun s id => s.poll m id) s).poll m id) := by
      rw [pollAll, hkeys, List.foldl_append, List.foldl_cons]
    have hne : ∀ {ids : List String}, id ∉ ids → ∀ other ∈ ids, Party.client id ≠ .client other :=
      fun hnot other hother heq => hnot (Party.client.inj heq ▸ hother)
    obtain ⟨horderly, hbefore⟩ := foldl_poll hs m before
    obtain ⟨-, hafter⟩ := foldl_poll (act_poll _ m id horderly).1 m after
    refine ⟨_, horderly, hbefore _ (hne ?_), hpoll ▸ hafter _ (hne ?_)⟩
    · exact fun hmem => (List.nodup_middle.mp hnodup).notMem (List.mem_append_left _ hmem)
    · exact fun hmem => (List.nodup_middle.mp hnodup).notMem (List.mem_append_right _ hmem)
  · -- Nobody of this name is there to look.
    obtain ⟨horderly, halike⟩ := foldl_poll hs m s.clients.keys
    have hself : Alike (.client id) s (s.pollAll m) :=
      halike _ fun other hother heq => hid (Party.client.inj heq ▸ hother)
    refine ⟨_, horderly, hself, ?_⟩
    have hnone : (s.pollAll m).clients.get? id = none :=
      (hself.client rfl).1.trans (Table.get?_eq_none hid)
    have hpoll : (s.pollAll m).poll m id = s.pollAll m := by
      rw [poll, pollUpTo_succ, pollOnce, hnone]
      rfl
    exact hpoll ▸ .refl _ _

end Service

end LiveQuery
