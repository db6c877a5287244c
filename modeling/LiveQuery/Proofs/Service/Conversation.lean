import LiveQuery.Proofs.Framing.Arrival
import LiveQuery.Proofs.Service.Settled

/-!
# Proofs/Service/Conversation — a client is heard out, whatever else happens

A session waits for records and for its client at once, and a record that comes first cuts its look
into the conversation short.  **Only the client's own words change its conversation**
(`connOf_perform`): records for it, the end of its session and everything that others do leave what
it has said where it is.  So what is read of it over a whole run are **the sayings of its bytes**
(`readings_of_lines`): at each step a client is heard as far as it has spoken, and the rest is still
to be said (`readings_append_remaining`).

The engine is one lemma for each part of a step, that it leaves `connOf` as it is.  It needs no
invariant of the service, and holds when everything is stopped as well.
-/

namespace LiveQuery

namespace Service

variable {s t : Service} {id : String} {c : Client}

/-- **A client's conversation.** -/
def connOf (s : Service) (id : String) : Option Connection := (s.clients.get? id).map Client.conn

/-! ## Who touches a conversation -/

theorem connOf_of_clients (h : t.clients = s.clients) : t.connOf = s.connOf := by
  funext id
  rw [connOf, h, connOf]

theorem connOf_eq (hc : s.clients.get? id = some c) : s.connOf id = some c.conn := by
  rw [connOf, hc]
  rfl

theorem connOf_setClient (s : Service) (id : String) (c : Client) :
    (s.setClient id c).connOf = Function.update s.connOf id (some c.conn) := by
  funext other
  rw [connOf, setClient, Table.get?_set, Function.update_apply]
  split <;> rfl

/-- A client that is changed in its other parts only. -/
theorem connOf_setClient_of_eq {conn : Connection} (h : s.connOf id = some conn)
    (hc : c.conn = conn) : (s.setClient id c).connOf = s.connOf := by
  rw [connOf_setClient, hc, ← h, Function.update_eq_self]

theorem connOf_endSession (s : Service) (id : String) (ending : Ending) :
    (s.endSession id ending).connOf = s.connOf := by
  rw [endSession]
  split
  case h_1 => rfl
  case h_2 c hc =>
    split
    case h_1 => rfl
    all_goals exact connOf_setClient_of_eq (connOf_eq hc) rfl

theorem connOf_letIn (s : Service) (name : String) (capacity : Capacity) :
    (s.letIn name capacity).connOf = s.connOf :=
  connOf_of_clients (letIn_same s name capacity).1

theorem connOf_overask (s : Service) (name : String) : (s.overask name).connOf = s.connOf :=
  connOf_of_clients (s.clients_overask name)

theorem connOf_accept (hc : s.clients.get? id = some c) (q : Query) :
    (s.accept id c q).connOf = s.connOf := by
  rcases Nat.lt_or_ge Mailbox.limit s.queueCapacity with hover | hfits
  · rw [accept_of_lt hover]
    split_ifs
    · exact connOf_endSession s id _
    · rw [connOf_endSession, connOf_overask]
      rfl
  obtain ⟨capacity, hqueue⟩ := Capacity.exists_val_eq hfits
  rw [accept_eq hqueue]
  split_ifs
  · exact connOf_endSession s id _
  · have hletIn : ((s.located q.feed).letIn q.feed capacity).connOf = s.connOf :=
      connOf_letIn (s.located q.feed) q.feed capacity
    have hconn : ((s.located q.feed).letIn q.feed capacity).connOf id = some c.conn := by
      rw [hletIn, connOf_eq hc]
    refine (connOf_setClient_of_eq hconn ?_).trans hletIn
    rfl
  · rw [connOf_endSession]
    rfl

/-- What a session makes of a reading leaves the conversations as they are. -/
theorem connOf_hear (s : Service) (id : String) (r : Reading) :
    (s.hear id r).connOf = s.connOf := by
  rw [hear]
  split
  case h_1 => rfl
  case h_2 c hc =>
    split
    case h_6 v hasking =>
      split
      · exact connOf_endSession s id _
      · exact connOf_accept hc _
    all_goals first | rfl | exact connOf_endSession s id _

theorem connOf_foldl_hear (s : Service) (id : String) (rs : List Reading) :
    (rs.foldl (fun s r => s.hear id r) s).connOf = s.connOf := by
  induction rs generalizing s with
  | nil => rfl
  | cons r rs ih => rw [List.foldl_cons, ih, connOf_hear]

/-- **What a client says changes its own conversation**, and no other. -/
theorem connOf_converse (hc : s.clients.get? id = some c) (change : Connection → Connection) :
    (s.converse id change).connOf
      = Function.update s.connOf id (some (change c.conn).readAll.2) := by
  rw [converse_eq hc, connOf_foldl_hear, connOf_setClient, connOf_setClient, Function.update_idem]

theorem connOf_present (hc : s.connOf id = some c.conn) (m : Moment) (name : String)
    (ticket : Ticket) (view : View) (record : Json) :
    (s.present m id c name ticket view record).connOf = s.connOf := by
  have hset : (s.setClient id
      { c with phase := .showing name ticket (view.record m record).2 }).connOf = s.connOf :=
    connOf_setClient_of_eq hc rfl
  rw [present_eq]
  dsimp only
  split
  · exact (connOf_endSession _ id _).trans hset
  · exact hset
  · split
    · exact hset
    · exact (connOf_endSession _ id _).trans hset

/-- **A session that looks for a record leaves the conversations as they are.** -/
theorem connOf_pollOnce (s : Service) (m : Moment) (id : String) :
    (s.pollOnce m id).2.connOf = s.connOf := by
  rw [pollOnce]
  split
  case h_1 => rfl
  case h_2 c hc =>
    split
    case h_1 name ticket view hphase =>
      split
      case h_1 v f hreceive => exact connOf_present (s := s.setFeed name f) (connOf_eq hc) ..
      case h_2 => rfl
      case h_3 => exact connOf_endSession s id _
    case h_2 => rfl

theorem connOf_pollUpTo (m : Moment) (id : String) (n : Nat) (s : Service) :
    (pollUpTo m id n s).connOf = s.connOf := by
  induction n generalizing s with
  | zero => rfl
  | succ n ih =>
    rw [pollUpTo_succ]
    split
    · rw [ih, connOf_pollOnce]
    · exact connOf_pollOnce s m id

theorem connOf_pollAll (s : Service) (m : Moment) : (s.pollAll m).connOf = s.connOf :=
  List.foldlRecOn (motive := fun t : Service => t.connOf = s.connOf) _ _ rfl
    fun t ht id _ => (connOf_pollUpTo m id _ t).trans ht

theorem connOf_onConnection (s : Service) (m : Moment) (name : String) (e : Feed.Event) :
    (s.onConnection m name e).2.connOf = s.connOf := by
  rw [onConnection_eq]
  split
  · rw [connOf_pollAll]
    rfl
  · rfl

theorem connOf_stop (s : Service) : s.stop.connOf = s.connOf := by
  have hended : (s.clients.keys.foldl (fun s id => s.endSession id .aborted) s).connOf = s.connOf :=
    List.foldlRecOn (motive := fun t : Service => t.connOf = s.connOf) _ _ rfl
      fun t ht id _ => (connOf_endSession t id .aborted).trans ht
  rw [stop]
  exact List.foldlRecOn (motive := fun t : Service => t.connOf = s.connOf) _ _ hended
    fun _ ht _ _ => ht

/-! ## Steps -/

/-- Who uses a feed directly leaves the conversations as they are. -/
theorem connOf_withFeed {use : Service → Reply × Service}
    (huse : ∀ t : Service, (use t).2.connOf = t.connOf) (s : Service) (name : String) :
    (s.withFeed name use).2.connOf = s.connOf := by
  rw [withFeed]
  split_ifs
  · exact (huse _).trans rfl
  · rfl
  · rfl

theorem connOf_takeSubscription (name subscriber : String) (n : Nat) (s : Service) :
    (takeSubscription name subscriber n s).2.connOf = s.connOf := by
  rcases Nat.lt_or_ge Mailbox.limit n with hover | hfits
  · rw [takeSubscription, request_of_lt hover]
    exact connOf_overask s name
  obtain ⟨capacity, rfl⟩ := Capacity.exists_val_eq hfits
  rw [takeSubscription_eq]
  split_ifs
  · rw [← connOf_letIn s name capacity]
    dsimp only
    split <;> rfl
  · rfl

theorem connOf_abandonSubscription (name : String) (s : Service) :
    (abandonSubscription name s).2.connOf = s.connOf := by
  rw [abandonSubscription_eq]
  split_ifs
  · exact connOf_letIn s name 1
  · rfl

/-- A client's conversation after a step: all that has arrived is read. -/
def Step.afterReading (id : String) (conn : Connection) : Step → Connection
  | .send other payload => if other = id then (arrive payload conn).readAll.2 else conn
  | .leave other => if other = id then conn.close.readAll.2 else conn
  | _ => conn

/-- What somebody says, to a client's conversation. -/
theorem connOf_converse_apply (s : Service) (other : String) (change : Connection → Connection)
    (id : String) :
    (s.converse other change).connOf id
      = (s.connOf id).map fun conn => if other = id then (change conn).readAll.2 else conn := by
  cases hc : s.clients.get? other with
  | none =>
    have hconverse : s.converse other change = s := by rw [converse, hc]
    rw [hconverse]
    by_cases hid : other = id
    · rw [connOf, ← hid, hc]
      rfl
    · simp only [if_neg hid, Option.map_id']
  | some c =>
    rw [connOf_converse hc, Function.update_apply]
    by_cases hid : other = id
    · subst hid
      rw [if_pos rfl, connOf_eq hc]
      simp
    · simp only [if_neg (Ne.symm hid), if_neg hid, Option.map_id']

/-- **A step is for a client's conversation what the client says in it**, unless the client connects
anew. -/
theorem connOf_perform (s : Service) (m : Moment) {st : Step}
    (hconnect : ∀ transport, st ≠ .connect id transport) :
    (s.perform m st).2.connOf id = (s.connOf id).map fun conn => st.afterReading id conn := by
  have hquiet : ∀ {t : Service}, t.connOf = s.connOf →
      t.connOf id = (s.connOf id).map fun conn => conn := by
    intro t h
    rw [h, Option.map_id']
  cases st with
  | accepting b => exact hquiet rfl
  | locate name =>
    rw [perform]
    split
    · exact hquiet (connOf_withFeed (fun _ => rfl) s name)
    · exact hquiet rfl
  | names =>
    rw [perform]
    split <;> exact hquiet rfl
  | subscribe name subscriber capacity =>
    have htaken := connOf_withFeed (connOf_takeSubscription name subscriber capacity) s name
    rw [perform]
    dsimp only
    split
    · exact hquiet ((connOf_pollAll _ m).trans htaken)
    · exact hquiet htaken
  | abandon name => exact hquiet (connOf_withFeed (connOf_abandonSubscription name) s name)
  | unsubscribe subscriber =>
    rw [perform, dropSubscription]
    split <;> exact hquiet rfl
  | receive subscriber =>
    rw [perform, receive]
    split <;> exact hquiet rfl
  | line name text => exact hquiet (connOf_onConnection s m name _)
  | fail name => exact hquiet (connOf_onConnection s m name _)
  | finish name =>
    rw [perform, finishConnection]
    split
    · exact hquiet (connOf_onConnection _ m name _)
    · exact hquiet rfl
  | lookup name key => exact hquiet (connOf_withFeed (fun _ => rfl) s name)
  | stats name => exact hquiet (connOf_withFeed (fun _ => rfl) s name)
  | connect other transport =>
    have hother : id ≠ other := fun h => hconnect transport (by rw [h])
    rw [perform, connOf_setClient, Function.update_of_ne hother, connOf_endSession]
    exact hquiet rfl
  | send other payload => exact connOf_converse_apply s other (arrive payload) id
  | breakWrites other =>
    refine hquiet ?_
    rw [perform]
    split
    case h_1 c hc => exact connOf_setClient_of_eq (connOf_eq hc) rfl
    case h_2 => rfl
  | leave other => exact connOf_converse_apply s other Connection.close id
  | kill => exact hquiet (connOf_stop s)

/-! ## Runs -/

/-- What is read of a client at a step, from the conversation that the step finds. -/
def Step.readings (id : String) (conn : Connection) : Step → List Reading
  | .send other payload => if other = id then (arrive payload conn).readAll.1 else []
  | .leave other => if other = id then conn.close.readAll.1 else []
  | _ => []

/-- **What is read of a client during a run**, step by step. -/
def readings (s : Service) (id : String) (es : List (Moment × Step)) : List Reading :=
  history after (fun s e => ((s.connOf id).map fun conn => e.2.readings id conn).getD []) s es

/-- What a payload is to a conversation in lines: bytes. -/
def Payload.lineBytes : Payload → List UInt8
  | .bytes bs => bs
  | .message _ => []

/-- The bytes that a step brings from a client. -/
def Step.bytesFrom (id : String) : Step → List UInt8
  | .send other payload => if other = id then payload.lineBytes else []
  | _ => []

theorem connOf_after (s : Service) {e : Moment × Step}
    (hconnect : ∀ transport, e.2 ≠ .connect id transport) :
    (s.after e).connOf id = (s.connOf id).map fun conn => e.2.afterReading id conn :=
  connOf_perform s.turn e.1 hconnect

/-- A client that connects has said nothing yet. -/
theorem connOf_after_connect (s : Service) (m : Moment) (id : String) (transport : Transport) :
    (s.after (m, .connect id transport)).connOf id = some (.start transport) := by
  rw [after_eq, perform, connOf_setClient, Function.update_self]

theorem arrive_lines (payload : Payload) (c : LineConn) :
    arrive payload (.lines c) = .lines (c.receive payload.lineBytes) := by
  cases payload with
  | bytes bs => rfl
  | message msg => exact congrArg Connection.lines (LineConn.receive_nil c).symm

/-- **At a step a client is heard as far as it has spoken**, and the rest is still to be said. -/
theorem readings_append_remaining {c : LineConn} (hopen : c.ended = false) {st : Step}
    (hleave : st ≠ .leave id) (bs : List UInt8) :
    ∃ c', st.afterReading id (.lines c) = .lines c' ∧ c'.ended = false ∧
      st.readings id (.lines c) ++ c'.remaining bs = c.remaining (st.bytesFrom id ++ bs) := by
  cases st with
  | send other payload =>
    by_cases hid : other = id
    · have hreceived := (LineConn.ended_receive c payload.lineBytes).trans hopen
      refine ⟨{ c.receive payload.lineBytes with arrived := [] }, ?_, hreceived, ?_⟩
      · rw [Step.afterReading, if_pos hid, arrive_lines, LineConn.readAll_lines]
      · rw [Step.readings, if_pos hid, arrive_lines, LineConn.readAll_append_remaining hreceived,
          Step.bytesFrom, if_pos hid, LineConn.remaining, LineConn.receive_receive]
        rfl
    · refine ⟨c, if_neg hid, hopen, ?_⟩
      rw [Step.readings, if_neg hid, Step.bytesFrom, if_neg hid]
      rfl
  | leave other =>
    have hid : other ≠ id := fun h => hleave (by rw [h])
    refine ⟨c, if_neg hid, hopen, ?_⟩
    rw [Step.readings, if_neg hid]
    rfl
  | _ => exact ⟨c, rfl, hopen, rfl⟩

/-- **A client in lines says what its bytes say**, from wherever its conversation stands. -/
theorem readings_of_lines {c : LineConn} (hconn : s.connOf id = some (.lines c))
    (hopen : c.ended = false) (m : Moment) {es : List (Moment × Step)}
    (hes : ∀ e ∈ es, e.2 ≠ .leave id ∧ ∀ transport, e.2 ≠ .connect id transport) :
    s.readings id (es ++ [(m, .leave id)])
      = c.remaining (es.flatMap fun e => e.2.bytesFrom id) := by
  induction es generalizing s c with
  | nil =>
    rw [List.nil_append, readings, history, history, hconn, List.append_nil, List.flatMap_nil,
      LineConn.remaining, LineConn.receive_nil]
    exact if_pos rfl
  | cons e es ih =>
    obtain ⟨⟨hleave, hconnect⟩, hes⟩ := List.forall_mem_cons.mp hes
    obtain ⟨c', hnext, hopen', hsaid⟩ := readings_append_remaining hopen hleave
      (es.flatMap fun e => e.2.bytesFrom id)
    have hconn' : (s.after e).connOf id = some (.lines c') := by
      rw [connOf_after s hconnect, hconn, Option.map_some, hnext]
    rw [List.cons_append, readings, history, hconn, List.flatMap_cons, ← hsaid]
    exact congrArg (e.2.readings id (.lines c) ++ ·) (ih hconn' hopen' hes)

end Service

/-- **How the bytes of a line client arrive does not matter.**

* They are cut into pieces anywhere, and between the pieces somebody looks any number of times and
  turns away if nothing is found: what is found, and what is left to read when the input ends, is
  together what there is to read when all the bytes arrive at once, and that is what they say.
* A look that goes over the bytes one by one and is given up in the middle of a line finds the same,
  whatever the turns.
* So it is in a service, whatever else happens there, records for this client among it: from the
  moment the client connects until it leaves, what its bytes say is read. -/
theorem arrival_does_not_matter :
    (∀ turns : List Turn, .close ∉ turns →
      let bytes := turns.flatMap Turn.bytes
      let last := turns.foldl LineConn.talk.after .start
      LineConn.talk.readings .start turns ++ (Connection.lines last.close).readAll.1
          = (Connection.lines (LineConn.start.receive bytes).close).readAll.1 ∧
        (Connection.lines (LineConn.start.receive bytes).close).readAll.1 = sayings bytes) ∧
    (∀ turns : List Turn,
      Intake.talk.readings .start turns = LineConn.talk.readings .start turns) ∧
    ∀ (s : Service) (id : String) (m m' : Moment) (es : List (Moment × Service.Step)),
      (∀ e ∈ es, e.2 ≠ .leave id ∧ ∀ transport, e.2 ≠ .connect id transport) →
      s.readings id ((m, .connect id .lines) :: (es ++ [(m', .leave id)]))
        = sayings (es.flatMap fun e => e.2.bytesFrom id) := by
  refine ⟨fun turns hturns => ⟨LineConn.readings_append_readAll rfl hturns,
    LineConn.remaining_start _⟩, fun turns => Intake.readings_eq .start turns, ?_⟩
  intro s id m m' es hes
  have hquiet : ((s.connOf id).map fun conn =>
      Service.Step.readings id conn (.connect id .lines)).getD [] = [] := by
    cases s.connOf id <;> rfl
  rw [Service.readings, history, hquiet, List.nil_append, ← LineConn.remaining_start]
  exact Service.readings_of_lines (s.connOf_after_connect m id .lines) rfl m' hes

/-- A query and a text, cut inside a character and before a line feed, a blank line, a line that is
not text, and a last line without its end; between the pieces somebody looks, or a record comes. -/
theorem text_cut_inside_a_character :
    let m : Moment := ⟨0, 0⟩
    let pieces : List (List UInt8) := [[91, 34, 97, 34, 44, 91, 93, 44, 91, 93, 93, 10, 34, 0xC3],
      [0xA9, 34, 13], [10, 32, 13, 10, 0xFF, 10, 49]]
    let turns := pieces.flatMap fun piece => [.piece piece, .look]
    let es := pieces.flatMap fun piece =>
      [(m, .send "c" (.bytes piece)), (m, Service.Step.line "a" "1")]
    let said : List Reading := [.value (.array [.string "a", .array [], .array []]),
      .value (.string "é"), .failed .notUtf8, .value (.ofInt 1), .closed]
    (.close ∉ turns ∧ LineConn.talk.readings .start turns ++
      (Connection.lines (turns.foldl LineConn.talk.after .start).close).readAll.1 = said) ∧
    (∀ e ∈ es, e.2 ≠ .leave "c" ∧ ∀ transport, e.2 ≠ .connect "c" transport) ∧
      (Service.start "key" 4 4 .registryGone).readings "c"
        ((m, .connect "c" .lines) :: (es ++ [(m, .leave "c")])) = said := by
  intro m pieces turns es said
  obtain ⟨hturns, -, hservice⟩ := arrival_does_not_matter
  have hclose : .close ∉ turns := by simp [turns, pieces]
  have hes : ∀ e ∈ es, e.2 ≠ .leave "c" ∧ ∀ transport, e.2 ≠ .connect "c" transport := by
    simp [es, pieces]
  have hsaid : sayings (turns.flatMap Turn.bytes) = said := rfl
  have hbytes : es.flatMap (fun e => e.2.bytesFrom "c") = turns.flatMap Turn.bytes := by
    simp [es, turns, pieces, Service.Step.bytesFrom, Service.Payload.lineBytes, Turn.bytes]
  obtain ⟨honce, hall⟩ := hturns turns hclose
  exact ⟨⟨hclose, honce.trans (hall.trans hsaid)⟩, hes,
    (hservice _ "c" m m es hes).trans (hbytes ▸ hsaid)⟩

end LiveQuery
