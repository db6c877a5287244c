import LiveQuery.Cache
import LiveQuery.Json.Reader
import LiveQuery.Text.Blank

/-!
# Feed — one feed and its subscribers

A feed has at most one connection, and a table of **slots** for its subscribers.  A subscriber is
granted the lowest free slot and an id that was never granted before; slots are reused and never
move.  Every record is offered to each occupied slot without waiting: a subscriber whose mailbox is
full misses that record, and nobody else does.

The connection is opened by the first subscriber and closed by the first line that finds no
subscriber, or by its own end, which frees every slot.  A released subscriber still receives what
lies in its mailbox and then learns that it was released.

All of it is a step on a value: what happens to a feed is the list of its steps.

A mailbox cannot be asked to hold just any number of records.  A `Capacity` is what it can be asked
for, and the steps of a feed know no other; **a request for more than that is the end of the feed**
(`overask`), whoever makes it.
-/

namespace LiveQuery

open Text

/-- **The records waiting for one subscriber**, oldest first. -/
structure Mailbox where
  capacity : Nat
  waiting : List Json
deriving Repr

/-- The most that a mailbox can be asked to hold: a word of 64 bits without its top three. -/
def Mailbox.limit : Nat := 2305843009213693951

/-- **What a mailbox can be asked to hold.** -/
abbrev Capacity := Fin (Mailbox.limit + 1)

/-- A number as a capacity, if it is not too large. -/
def Capacity.ofNat? (n : Nat) : Option Capacity :=
  if h : n ≤ Mailbox.limit then some ⟨n, Nat.lt_succ_of_le h⟩ else none

namespace Mailbox

/-- An empty mailbox; it can always hold one record. -/
def empty (capacity : Capacity) : Mailbox := ⟨max capacity.val 1, []⟩

/-- Whether no more records fit. -/
def isFull (m : Mailbox) : Bool := m.capacity ≤ m.waiting.length

/-- Puts a record last. -/
def put (m : Mailbox) (record : Json) : Mailbox := { m with waiting := m.waiting ++ [record] }

end Mailbox

/-- What a feed has counted since it began. -/
structure Tally where
  opened : Nat
  delivered : Nat
  dropped : Nat
deriving DecidableEq, Repr

/-- **A feed.**  A slot holds the id of its subscriber; the mailboxes are those of the subscribers
that still listen, whether they hold a slot or not. -/
structure Feed where
  slots : List (Option Nat)
  mailboxes : Table Nat Mailbox
  connected : Bool
  nextId : Nat
  cache : Cache
  tally : Tally
deriving Repr

/-- What a subscriber is granted. -/
structure Ticket where
  slot : Nat
  id : Nat
deriving DecidableEq, Repr

/-- **What a subscriber finds in its mailbox.** -/
inductive Receipt where
  | record (v : Json)
  /-- Nothing yet. -/
  | empty
  /-- Nothing, and nothing will come: the feed has released this subscriber. -/
  | released
deriving Repr

/-- A feed as it is reported. -/
structure Stats where
  slots : Nat
  occupied : Nat
  streaming : Bool
  tally : Tally
deriving DecidableEq, Repr

namespace Feed

/-- A feed that nobody has asked for anything. -/
def idle (cache : Cache) : Feed := ⟨[], .empty, false, 0, cache, ⟨0, 0, 0⟩⟩

/-- How many slots are occupied. -/
def occupied (f : Feed) : Nat := f.slots.countP Option.isSome

/-- Whether no slot is occupied. -/
def isVacant (f : Feed) : Bool := f.slots.all Option.isNone

/-- Whether a subscriber holds a slot. -/
def holds (f : Feed) (id : Nat) : Bool := f.slots.contains (some id)

/-- The feed as it is reported. -/
def stats (f : Feed) : Stats := ⟨f.slots.length, f.occupied, f.connected, f.tally⟩

/-! ## Coming and going -/

/-- Opens the connection if there is none; none if the far side refuses. -/
def connect? (f : Feed) (accepts : Bool) : Option Feed :=
  if f.connected then some f
  else if accepts then
    some { f with connected := true, tally := { f.tally with opened := f.tally.opened + 1 } }
  else none

/-- Puts an id into the lowest free slot, or into a new one. -/
def occupy (slots : List (Option Nat)) (id : Nat) : Nat × List (Option Nat) :=
  match slots.findIdx? Option.isNone with
  | some free => (free, slots.set free (some id))
  | none => (slots.length, slots ++ [some id])

/-- Lets a subscriber in: a fresh id, a slot and an empty mailbox. -/
def register (f : Feed) (capacity : Capacity) : Ticket × Feed :=
  let (slot, slots) := occupy f.slots f.nextId
  (⟨slot, f.nextId⟩,
    { f with
      slots
      mailboxes := f.mailboxes.set f.nextId (.empty capacity)
      nextId := f.nextId + 1 })

/-- **A new subscriber**, if there is a connection or one can be opened.  A refused connection
changes nothing. -/
def subscribe (f : Feed) (accepts : Bool) (capacity : Capacity) : Option Ticket × Feed :=
  match f.connect? accepts with
  | none => (none, f)
  | some f =>
    let (ticket, f) := f.register capacity
    (some ticket, f)

/-- **Frees a slot that still belongs to its ticket**; a stale ticket frees nothing. -/
def unsubscribe (f : Feed) (t : Ticket) : Feed :=
  if f.slots[t.slot]? = some (some t.id) then { f with slots := f.slots.set t.slot none } else f

/-- The subscriber stops listening. -/
def discard (f : Feed) (id : Nat) : Feed := { f with mailboxes := f.mailboxes.erase id }

/-- **The subscriber leaves**: it stops listening and gives its slot back. -/
def leave (f : Feed) (t : Ticket) : Feed := (f.discard t.id).unsubscribe t

/-- A subscriber that is gone before it is let in: the slot it is granted is free again at once. -/
def subscribeAbandoned (f : Feed) (accepts : Bool) (capacity : Capacity) : Feed :=
  match f.subscribe accepts capacity with
  | (some ticket, f) => f.leave ticket
  | (none, f) => f

/-! ## Records -/

/-- **Offers a record to every slot in turn**: the slots, the mailboxes and the counts after it.  A
subscriber that no longer listens loses its slot. -/
def offer (record : Json) : List (Option Nat) → Table Nat Mailbox → Tally →
    List (Option Nat) × Table Nat Mailbox × Tally
  | [], boxes, tally => ([], boxes, tally)
  | none :: slots, boxes, tally =>
    let (slots, boxes, tally) := offer record slots boxes tally
    (none :: slots, boxes, tally)
  | some id :: slots, boxes, tally =>
    match boxes.get? id with
    | none =>
      let (slots, boxes, tally) := offer record slots boxes tally
      (none :: slots, boxes, tally)
    | some box =>
      if box.isFull then
        let (slots, boxes, tally) :=
          offer record slots boxes { tally with dropped := tally.dropped + 1 }
        (some id :: slots, boxes, tally)
      else
        let (slots, boxes, tally) :=
          offer record slots (boxes.set id (box.put record))
            { tally with delivered := tally.delivered + 1 }
        (some id :: slots, boxes, tally)

/-- Closes the connection and leaves everything else. -/
def closeIdle (f : Feed) : Feed := { f with connected := false }

/-- **Hands a record to the subscribers**; one that finds nobody closes the connection. -/
def deliver (f : Feed) (record : Json) : Feed :=
  let (slots, mailboxes, tally) := offer record f.slots f.mailboxes f.tally
  let f' : Feed := { f with slots, mailboxes, tally }
  if f.isVacant then f'.closeIdle else f'

/-- **A line of the connection**: with no subscriber it only closes the connection; else a line that
is blank or not JSON is passed over, and a record is cached and delivered. -/
def line (f : Feed) (text : String) : Feed :=
  if f.isVacant then f.closeIdle
  else if isBlankText text.toList then f
  else
    match Json.read? text with
    | none => f
    | some record => { f with cache := (f.cache.insert record).2 }.deliver record

/-- **The connection is over**: every slot is free. -/
def lose (f : Feed) : Feed := { f with connected := false, slots := f.slots.map fun _ => none }

/-- **A request for more than a mailbox can hold**, whether or not somebody waits for the answer:
the connection, opened first if there is none, is lost with the feed.  Nothing is left but the
mailboxes of its subscribers, who find the end after what waits there.  If the far side refuses the
connection, no mailbox is asked for, and the feed goes on. -/
def overask (f : Feed) (accepts : Bool) : Option Feed := (f.connect? accepts).map lose

/-- **The next record of a subscriber.** -/
def receive (f : Feed) (id : Nat) : Receipt × Feed :=
  match f.mailboxes.get? id with
  | some ⟨capacity, record :: waiting⟩ =>
    (.record record, { f with mailboxes := f.mailboxes.set id ⟨capacity, waiting⟩ })
  | _ => (if f.holds id then .empty else .released, f)

/-! ## Steps -/

/-- **What can happen to a feed.**  A line, and the end or failure of the connection, happen only
while there is a connection; looking up a record and asking for the counts change nothing. -/
inductive Event where
  | subscribe (accepts : Bool) (capacity : Capacity)
  | abandon (accepts : Bool) (capacity : Capacity)
  | unsubscribe (t : Ticket)
  | discard (id : Nat)
  | receive (id : Nat)
  | line (text : String)
  | lose
  | lookup (key : String)
  | stats
deriving Repr

/-- The feed after an event. -/
def step (f : Feed) : Event → Feed
  | .subscribe accepts capacity => (f.subscribe accepts capacity).2
  | .abandon accepts capacity => f.subscribeAbandoned accepts capacity
  | .unsubscribe t => f.unsubscribe t
  | .discard id => f.discard id
  | .receive id => (f.receive id).2
  | .line text => if f.connected then f.line text else f
  | .lose => if f.connected then f.lose else f
  | .lookup _ => f
  | .stats => f

/-- **The feed after a run of events.** -/
def run (f : Feed) (events : List Event) : Feed := events.foldl step f

end Feed

end LiveQuery
