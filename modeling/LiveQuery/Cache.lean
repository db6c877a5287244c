import LiveQuery.Path
import LiveQuery.Table

/-!
# Cache — the records of a feed seen last, by their key

A record is filed under the text found at one path of it; a record with no text there is not kept.
Beside the records stands the **queue** of their keys: when there are more of them than the capacity
allows, the key that came first goes, and its record with it.  A record whose key is already filed
replaces the older one without moving its key in the queue.
-/

namespace LiveQuery

/-- **Recent records by key**, and the queue of the keys, the one to be dropped next first. -/
structure Cache where
  path : String
  capacity : Nat
  records : Table String Json
  order : List String
deriving Repr

namespace Cache

/-- An empty cache. -/
def empty (path : String) (capacity : Nat) : Cache := ⟨path, capacity, .empty, []⟩

/-- How many records are kept. -/
def size (c : Cache) : Nat := c.records.size

/-- The key of a record, if it has one. -/
def keyOf? (c : Cache) (record : Json) : Option String :=
  (Path.lookup c.path record).bind Json.text?

/-- **Drops the keys that came first**, and the records under them, while the queue is too long. -/
def evict (capacity : Nat) : List String → Table String Json → List String × Table String Json
  | [], records => ([], records)
  | key :: order, records =>
    if capacity < order.length + 1 then evict capacity order (records.erase key)
    else (key :: order, records)

/-- Files a record under a key; a key under which nothing is filed yet joins the queue. -/
def file (c : Cache) (key : String) (record : Json) : Cache :=
  let queue := if c.records.contains key then c.order else c.order ++ [key]
  let (order, records) := evict c.capacity queue (c.records.set key record)
  { c with records, order }

/-- **Files a record**, and says whether it was filed. -/
def insert (c : Cache) (record : Json) : Bool × Cache :=
  if c.capacity = 0 then (false, c)
  else
    match c.keyOf? record with
    | none => (false, c)
    | some key => (true, c.file key record)

/-- The record filed under a key. -/
def get? (c : Cache) (key : String) : Option Json := c.records.get? key

end Cache

end LiveQuery
