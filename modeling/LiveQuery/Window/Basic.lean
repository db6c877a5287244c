import LiveQuery.EvalError

/-!
# Window/Basic — a run of recently admitted values, and its listener

A window keeps the values it was given last, oldest first, within a bound that comes with each push:
at most so many, or none older than so long.  It may have one **listener**, which is asked before a
value is admitted and told of every value that is evicted, oldest first, so that a statistic can
follow the contents without rescanning them.

A push is all or nothing: if the listener rejects the value, the contents stay as they were.
Expired values go only when the next value comes.
-/

namespace LiveQuery

/-- **What a window keeps after a push**: at most so many values, or those admitted at most so many
milliseconds ago. -/
inductive Bound where
  | count (capacity : Nat)
  | age (milliseconds : Nat)
deriving DecidableEq, Repr

/-- **An observer of a window.**  `accept` may reject the value and may remember that it did;
`evict` cannot fail; `report` gives the statistic for a window of so many values. -/
class Listener (σ : Type) where
  accept : σ → Json → Except EvalError Unit × σ
  evict : σ → Json → σ
  report : σ → Nat → Except EvalError Json

/-- A value in a window and the time it was admitted, in milliseconds. -/
structure Entry where
  value : Json
  admitted : Nat
deriving Repr

/-- **A window**: its entries, oldest first, and its listener if it has one. -/
structure Window (σ : Type) where
  entries : List Entry
  listener : Option σ
deriving Repr

namespace Window

variable {σ : Type}

/-- An empty window with no listener. -/
def empty : Window σ := ⟨[], none⟩

/-- An empty window with a listener. -/
def listened (l : σ) : Window σ := ⟨[], some l⟩

/-- **Attaches a listener** to a window that has none: there is no place for a second one. -/
def attach (w : Window σ) (l : σ) (_free : w.listener = none) : Window σ :=
  { w with listener := some l }

/-- How many values the window holds. -/
def size (w : Window σ) : Nat := w.entries.length

/-- The value admitted last. -/
def latest? (w : Window σ) : Option Json := w.entries.getLast?.map Entry.value

/-- The values, newest first. -/
def newestFirst (w : Window σ) : List Json := (w.entries.map Entry.value).reverse

/-- Whether the oldest of `count` entries has to go.  A time before its admission is no age at
all. -/
def expired (b : Bound) (now : Nat) (oldest : Entry) (count : Nat) : Bool :=
  match b with
  | .count capacity => capacity < count
  | .age limit => limit < now - oldest.admitted

/-- **Evicts from the front while the oldest entry is expired**, telling the listener of each. -/
def evictExpired [Listener σ] (b : Bound) (now : Nat) : List Entry → Option σ → Window σ
  | [], l => ⟨[], l⟩
  | e :: es, l =>
    if expired b now e (es.length + 1) then
      evictExpired b now es (l.map (Listener.evict · e.value))
    else ⟨e :: es, l⟩

/-- **Admits a value at a time, then evicts what the bound no longer allows.**  A rejected value
changes nothing but the listener. -/
def push [Listener σ] (w : Window σ) (v : Json) (b : Bound) (now : Nat) :
    Except EvalError Unit × Window σ :=
  match w.listener with
  | none => (.ok (), evictExpired b now (w.entries ++ [⟨v, now⟩]) none)
  | some l =>
    match Listener.accept l v with
    | (.error e, l) => (.error e, ⟨w.entries, some l⟩)
    | (.ok (), l) => (.ok (), evictExpired b now (w.entries ++ [⟨v, now⟩]) (some l))

/-- The listener's statistic for the present contents. -/
def report [Listener σ] (w : Window σ) : Except EvalError Json :=
  match w.listener with
  | none => .error (.invalidValue "Window" "no aggregate attached")
  | some l => Listener.report l w.size

end Window

end LiveQuery
