import LiveQuery.Registry
import LiveQuery.Session

/-!
# Service — feeds, subscriptions and clients together

A service is a registry of feeds, the subscriptions taken out of it directly, and the clients
connected to it.  What happens to it is a list of steps.  **Each step is followed until nothing is
left to do**: every line that arrived has been read, every record delivered has been looked at, and
everything to be said has been said, before the next step.

A client first sends a query, is then subscribed to the feed the query names, and from then on gets
what its view shows of every record.  Its session ends with the feed's connection, with the client,
with a filter that fails, or with a message that cannot be read or sent; however it ends, its
subscription is given back.
-/

namespace LiveQuery

/-! ## Clients -/

/-- What a session is doing. -/
inductive Phase where
  /-- Waiting for the query. -/
  | asking
  /-- Showing the records of a feed. -/
  | showing (feed : String) (ticket : Ticket) (view : View)
  | over
deriving Repr

/-- **A client**: its conversation, whether it can be written to, and its session. -/
structure Client where
  conn : Connection
  writable : Bool
  phase : Phase
deriving Repr

/-- How a session ended. -/
inductive Ending where
  | finished
  | failed (e : SessionError)
  | aborted
deriving Repr

/-- What a client got during one step: the messages, and the end of its session if it ended. -/
structure Heard where
  messages : List String
  ending : Option Ending
deriving Repr

/-- A subscription that is no client's: its feed and its ticket. -/
structure Subscription where
  feed : String
  ticket : Ticket
deriving Repr

/-! ## The service -/

/-- **A service.**  `refusal` is what a refused connection is reported as.  `handles` are the feeds
that were located directly, `live` those whose newest connection the far side has not ended, and
`gone` those that have stopped; `opened` and `heard` are what happened during the present step. -/
structure Service where
  registry : Registry
  running : Bool
  accepting : Bool
  refusal : FeedError
  queueCapacity : Nat
  handles : List String
  live : List String
  gone : List String
  subscriptions : Table String Subscription
  clients : Table String Client
  opened : List String
  heard : Table String Heard
deriving Repr

namespace Service

/-- A service that nothing has happened to. -/
def start (cachePath : String) (cacheCapacity queueCapacity : Nat) (refusal : FeedError) :
    Service where
  registry := .empty cachePath cacheCapacity
  running := true
  accepting := true
  refusal := refusal
  queueCapacity := queueCapacity
  handles := []
  live := []
  gone := []
  subscriptions := .empty
  clients := .empty
  opened := []
  heard := .empty

/-- The feed of a name. -/
def feed (s : Service) (name : String) : Feed := s.registry.feed name

/-- Puts a feed back under its name. -/
def setFeed (s : Service) (name : String) (f : Feed) : Service :=
  { s with registry := s.registry.setFeed name f }

/-! ### What happened during a step -/

/-- What a client got so far during this step. -/
def heardBy (s : Service) (id : String) : Heard := (s.heard.get? id).getD ⟨[], none⟩

/-- A client gets a message. -/
def tell (s : Service) (id : String) (message : String) : Service :=
  let h := s.heardBy id
  { s with heard := s.heard.set id { h with messages := h.messages ++ [message] } }

/-- A session ends. -/
def announce (s : Service) (id : String) (ending : Ending) : Service :=
  { s with heard := s.heard.set id { s.heardBy id with ending := some ending } }

/-- Notes that a feed's connection was opened, if it was. -/
def noteOpened (s : Service) (name : String) (before after : Feed) : Service :=
  if before.tally.opened < after.tally.opened then
    { s with opened := s.opened ++ [name], live := name :: s.live.filter (· ≠ name) }
  else s

/-! ### Subscribing -/

/-- Whether a connection can be opened for a feed: not for one that has stopped. -/
def accepts (s : Service) (name : String) : Bool := s.accepting && name ∉ s.gone

/-- What somebody is told who is not let in. -/
def refusalOf (s : Service) (name : String) : FeedError :=
  if name ∈ s.gone then .feedGone name else s.refusal

/-- **A new subscriber of a feed.** -/
def subscribe (s : Service) (name : String) (capacity : Capacity) : Option Ticket × Service :=
  let before := s.feed name
  let (ticket, after) := before.subscribe (s.accepts name) capacity
  (ticket, (s.setFeed name after).noteOpened name before after)

/-- **More is asked of a feed than a mailbox can hold**, and it stops for good. -/
def overask (s : Service) (name : String) : Service :=
  let before := s.feed name
  match before.overask (s.accepts name) with
  | none => s
  | some after =>
    { (s.setFeed name after).noteOpened name before after with gone := name :: s.gone }

/-- **Somebody asks to be let in**, with a mailbox of any size. -/
def request (s : Service) (name : String) (capacity : Nat) : Option Ticket × Service :=
  match Capacity.ofNat? capacity with
  | some capacity => s.subscribe name capacity
  | none => (none, s.overask name)

/-- A subscriber of a feed leaves. -/
def leave (s : Service) (name : String) (t : Ticket) : Service :=
  s.setFeed name ((s.feed name).leave t)

/-! ### Sessions -/

/-- Changes a client. -/
def setClient (s : Service) (id : String) (c : Client) : Service :=
  { s with clients := s.clients.set id c }

/-- **Ends a session**, giving back what it holds. -/
def endSession (s : Service) (id : String) (ending : Ending) : Service :=
  match s.clients.get? id with
  | none => s
  | some c =>
    match c.phase with
    | .over => s
    | .asking => (s.setClient id { c with phase := .over }).announce id ending
    | .showing name ticket _ =>
      ((s.setClient id { c with phase := .over }).leave name ticket).announce id ending

/-- **A client's query**: its statements are parsed, its feed is located, and it is subscribed.
Where sessions ask for more than a mailbox can hold, no session is ever let in, and each stops the
feed it asks. -/
def accept (s : Service) (id : String) (c : Client) (q : Query) : Service :=
  if s.running = false then s.endSession id (.failed (.feed .registryGone))
  else
    match { s with registry := s.registry.locate q.feed }.request q.feed s.queueCapacity with
    | (none, s) => s.endSession id (.failed (.feed (s.refusalOf q.feed)))
    | (some ticket, s) => s.setClient id { c with phase := .showing q.feed ticket (.ofQuery q) }

/-- **One reading of a session.**  The first value is the query; later values say nothing. -/
def hear (s : Service) (id : String) (r : Reading) : Service :=
  match s.clients.get? id with
  | none => s
  | some c =>
    match c.phase, r with
    | .over, _ => s
    | _, .pending => s
    | _, .closed => s.endSession id .finished
    | .asking, .failed .notJson => s.endSession id (.failed (.invalidQuery .notJson))
    | _, .failed e => s.endSession id (.failed (.transport e))
    | .asking, .value v =>
      match Query.ofJson v with
      | .error fault => s.endSession id (.failed (.invalidQuery fault))
      | .ok q => s.accept id c q
    | .showing .., .value _ => s

/-- Reads everything that a client has sent. -/
def hearAll (s : Service) (id : String) : Service :=
  match s.clients.get? id with
  | none => s
  | some c =>
    let (readings, conn) := c.conn.readAll
    readings.foldl (fun s r => s.hear id r) (s.setClient id { c with conn })

/-- **One record of a session**: shown, passed over, or the end of it. -/
def present (s : Service) (m : Moment) (id : String) (c : Client) (name : String) (ticket : Ticket)
    (view : View) (record : Json) : Service :=
  let (answer, view) := view.record m record
  let s := s.setClient id { c with phase := .showing name ticket view }
  match answer with
  | .error e => s.endSession id (.failed e)
  | .ok none => s
  | .ok (some output) =>
    if c.writable then s.tell id output.text
    else s.endSession id (.failed (.transport .brokenPipe))

/-- Looks into a session's mailbox once, and says whether there was a record. -/
def pollOnce (s : Service) (m : Moment) (id : String) : Bool × Service :=
  match s.clients.get? id with
  | none => (false, s)
  | some c =>
    match c.phase with
    | .showing name ticket view =>
      match (s.feed name).receive ticket.id with
      | (.record v, f) => (true, (s.setFeed name f).present m id c name ticket view v)
      | (.empty, _) => (false, s)
      | (.released, _) => (false, s.endSession id .finished)
    | _ => (false, s)

/-- How many records wait for a session. -/
def backlog (s : Service) (id : String) : Nat :=
  match s.clients.get? id with
  | some ⟨_, _, .showing name ticket _⟩ =>
    (((s.feed name).mailboxes.get? ticket.id).map fun b => b.waiting.length).getD 0
  | _ => 0

/-- Looks into a session's mailbox until it is empty, at most so many times. -/
def pollUpTo (m : Moment) (id : String) : Nat → Service → Service
  | 0, s => s
  | n + 1, s =>
    match s.pollOnce m id with
    | (true, s) => pollUpTo m id n s
    | (false, s) => s

/-- **Takes everything that waits for a session.** -/
def poll (s : Service) (m : Moment) (id : String) : Service := pollUpTo m id (s.backlog id + 1) s

/-- Takes everything that waits for any session. -/
def pollAll (s : Service) (m : Moment) : Service :=
  s.clients.keys.foldl (fun s id => s.poll m id) s

/-! ## Steps -/

/-- What a client sends: bytes if it speaks in lines, else a message. -/
inductive Payload where
  | bytes (bs : List UInt8)
  | message (m : Message)
deriving Repr

/-- **What can happen to a service.** -/
inductive Step where
  /-- From now on the far side takes connections, or does not. -/
  | accepting (b : Bool)
  | locate (feed : String)
  | names
  | subscribe (feed subscriber : String) (capacity : Nat)
  | abandon (feed : String)
  | unsubscribe (subscriber : String)
  | receive (subscriber : String)
  /-- The newest connection of a feed yields a line, fails, or ends. -/
  | line (feed text : String)
  | fail (feed : String)
  | finish (feed : String)
  | lookup (feed key : String)
  | stats (feed : String)
  | connect (client : String) (transport : Transport)
  | send (client : String) (payload : Payload)
  /-- From now on nothing can be written to a client. -/
  | breakWrites (client : String)
  | leave (client : String)
  /-- The registry, all feeds and all sessions stop at once. -/
  | kill
deriving Repr

/-- **What a step answers.** -/
inductive Reply where
  | ok
  | flag (b : Bool)
  | located (name : String)
  | names (ns : List String)
  | slot (n : Nat)
  | receipt (r : Receipt)
  | noSubscription
  | found (record : Option Json)
  | stats (s : Stats)
  | failed (e : FeedError)
deriving Repr

/-- Locates a feed the first time it is used directly, and keeps it; what is kept outlives the
registry but not the feed. -/
def withFeed (s : Service) (name : String) (use : Service → Reply × Service) : Reply × Service :=
  if s.running then
    use { s with
      registry := s.registry.locate name
      handles := name :: s.handles.filter (· ≠ name) }
  else if name ∈ s.handles then (.failed (.feedGone name), s)
  else (.failed .registryGone, s)

/-- Asks a feed something that it answers as long as it has not stopped. -/
def consult (s : Service) (name : String) (answer : Feed → Reply) : Reply × Service :=
  s.withFeed name fun s =>
    (if name ∈ s.gone then .failed (.feedGone name) else answer (s.feed name), s)

/-- A direct subscription; one of the same name gives way to it. -/
def takeSubscription (name subscriber : String) (capacity : Nat) (s : Service) : Reply × Service :=
  match s.request name capacity with
  | (none, s) => (.failed (s.refusalOf name), s)
  | (some ticket, s) =>
    let s := match s.subscriptions.get? subscriber with
      | some old => s.leave old.feed old.ticket
      | none => s
    (.slot ticket.slot, { s with subscriptions := s.subscriptions.set subscriber ⟨name, ticket⟩ })

/-- A direct subscription whose subscriber is gone before it is granted. -/
def abandonSubscription (name : String) (s : Service) : Reply × Service :=
  match s.subscribe name 1 with
  | (none, s) => (.ok, s)
  | (some ticket, s) => (.ok, s.leave name ticket)

/-- Nobody is there to hear why a feed cannot be used; only a feed that was never found is still
reported. -/
def unheard : Reply → Reply
  | .failed (.feedGone _) => .ok
  | r => r

/-- Gives a direct subscription back. -/
def dropSubscription (s : Service) (subscriber : String) : Reply × Service :=
  match s.subscriptions.get? subscriber with
  | none => (.flag false, s)
  | some old =>
    (.flag true,
      { s.leave old.feed old.ticket with subscriptions := s.subscriptions.erase subscriber })

/-- The next record of a direct subscription. -/
def receive (s : Service) (subscriber : String) : Reply × Service :=
  match s.subscriptions.get? subscriber with
  | none => (.noSubscription, s)
  | some sub =>
    let (receipt, f) := (s.feed sub.feed).receive sub.ticket.id
    (.receipt receipt, s.setFeed sub.feed f)

/-- **Something happens to a feed's connection**, if it has one; then every session looks into its
mailbox. -/
def onConnection (s : Service) (m : Moment) (name : String) (e : Feed.Event) : Reply × Service :=
  if (s.feed name).connected then
    (.flag true, (s.setFeed name ((s.feed name).step e)).pollAll m)
  else (.flag false, s)

/-- The far side ends the newest connection of a feed, if it has not done so before. -/
def finishConnection (s : Service) (m : Moment) (name : String) : Reply × Service :=
  if name ∈ s.live then
    let s := { s with live := s.live.filter (· ≠ name) }
    (.flag true, (s.onConnection m name .lose).2)
  else (.flag false, s)

/-- **Everything stops**: sessions are aborted, and no feed has a connection or a subscriber. -/
def stop (s : Service) : Service :=
  let s := s.clients.keys.foldl (fun s id => s.endSession id .aborted) s
  let s := s.registry.feeds.keys.foldl (fun s name => s.setFeed name (s.feed name).lose) s
  { s with running := false }

/-- Something arrives from a client. -/
def arrive : Payload → Connection → Connection
  | .bytes bs, .lines c => .lines (c.receive bs)
  | .message msg, .messages c => .messages (c.receive msg)
  | _, c => c

/-- Changes the conversation of a client, and reads what it says now. -/
def converse (s : Service) (id : String) (change : Connection → Connection) : Service :=
  match s.clients.get? id with
  | none => s
  | some c => (s.setClient id { c with conn := change c.conn }).hearAll id

/-- What a step does, with what happened before it still noted. -/
def perform (s : Service) (m : Moment) : Step → Reply × Service
  | .accepting b => (.ok, { s with accepting := b })
  | .locate name =>
    if s.running then s.withFeed name fun s => (.located name, s) else (.failed .registryGone, s)
  | .names => if s.running then (.names s.registry.names, s) else (.failed .registryGone, s)
  | .subscribe name subscriber capacity =>
    let (reply, s) := s.withFeed name (takeSubscription name subscriber capacity)
    (reply, if Mailbox.limit < capacity then s.pollAll m else s)
  | .abandon name => (s.withFeed name (abandonSubscription name)).map unheard id
  | .unsubscribe subscriber => s.dropSubscription subscriber
  | .receive subscriber => s.receive subscriber
  | .line name text => s.onConnection m name (.line text)
  | .fail name => s.onConnection m name .lose
  | .finish name => s.finishConnection m name
  | .lookup name key => s.consult name fun f => .found (f.cache.get? key)
  | .stats name => s.consult name fun f => .stats f.stats
  | .connect id transport =>
    (.ok, (s.endSession id .finished).setClient id ⟨.start transport, true, .asking⟩)
  | .send id payload => (.flag true, s.converse id (arrive payload))
  | .breakWrites id =>
    (.ok, match s.clients.get? id with
      | some c => s.setClient id { c with writable := false }
      | none => s)
  | .leave id => (.ok, s.converse id Connection.close)
  | .kill => (.ok, s.stop)

/-- **One step**, with nothing noted before it. -/
def step (s : Service) (m : Moment) (st : Step) : Reply × Service :=
  { s with opened := [], heard := .empty }.perform m st

/-- **The service after a run of steps**, and what each step answered. -/
def run (m : Moment) : Service → List Step → List (Reply × Service) × Service
  | s, [] => ([], s)
  | s, st :: sts =>
    let (reply, s) := s.step m st
    let (replies, last) := run m s sts
    ((reply, s) :: replies, last)

end Service

end LiveQuery
