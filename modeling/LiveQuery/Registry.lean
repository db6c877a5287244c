import LiveQuery.Feed

/-!
# Registry — the feeds by name

A feed comes into being the first time its name is asked for, and stays.  Every feed keeps recent
records by the same rule.
-/

namespace LiveQuery

/-- **The feeds by name**, and how each keeps recent records. -/
structure Registry where
  cachePath : String
  cacheCapacity : Nat
  feeds : Table String Feed
deriving Repr

namespace Registry

/-- No feeds yet. -/
def empty (cachePath : String) (cacheCapacity : Nat) : Registry :=
  ⟨cachePath, cacheCapacity, .empty⟩

/-- A feed that was never asked for. -/
def newFeed (r : Registry) : Feed := .idle (.empty r.cachePath r.cacheCapacity)

/-- The feed of a name; one that is not there yet is idle. -/
def feed (r : Registry) (name : String) : Feed := (r.feeds.get? name).getD r.newFeed

/-- Puts a feed back under its name. -/
def setFeed (r : Registry) (name : String) (f : Feed) : Registry :=
  { r with feeds := r.feeds.set name f }

/-- **Makes sure that a name has a feed.** -/
def locate (r : Registry) (name : String) : Registry := r.setFeed name (r.feed name)

/-- The names in order. -/
def names (r : Registry) : List String := r.feeds.keys.mergeSort fun a b => decide (¬ b < a)

/-- Asking for a name leaves every other feed as it is. -/
theorem feed_setFeed (r : Registry) (name other : String) (f : Feed) :
    (r.setFeed name f).feed other = if other = name then f else r.feed other := by
  simp only [feed, setFeed, Table.get?_set]
  split <;> rfl

end Registry

end LiveQuery
