import LiveQuery.Text.Numeral

/-!
# Settings/Basic — what a service is told before it starts

Settings come in **layers** of assignments, a later layer winning over an earlier one key by key.  A
key is a path of names; assigning a path hides whatever was assigned at it, above it or below it, so
each key has at most one value in the end.

A value is a text or an integer, and either can stand where the other is wanted, if it can be read
so.  The six settings are read from the layers together, and only then checked.
-/

namespace LiveQuery

open Text

/-- **What a service is told.** -/
structure Settings where
  feedAddress : String
  lineAddress : String
  messageAddress : String
  queueCapacity : Nat
  cachePath : String
  cacheCapacity : Nat
deriving DecidableEq, Repr

/-- **Why there are no settings.** -/
inductive SettingsError where
  /-- The command line, or a number in one of its variables, cannot be understood. -/
  | usage
  /-- A file cannot be read, or a value is of the wrong kind. -/
  | unreadable
  | zeroQueueCapacity
  | emptyCachePath
deriving DecidableEq, Repr

/-- **The wording of a settings error.** -/
def SettingsError.message : SettingsError → String
  | .usage => "the command line cannot be understood"
  | .unreadable => "the configuration cannot be read"
  | .zeroQueueCapacity => "session.queue_capacity must be at least 1"
  | .emptyCachePath => "cache.key must not be empty"

namespace Settings

/-- **The settings of a service that is told nothing.** -/
def default : Settings where
  feedAddress := "127.0.0.1:3535"
  lineAddress := "127.0.0.1:3536"
  messageAddress := "127.0.0.1:8080"
  queueCapacity := 64
  cachePath := "unique_request_id"
  cacheCapacity := 64

instance : Inhabited Settings := ⟨default⟩

/-- **Refuses settings that no service can work with.** -/
def validate (s : Settings) : Except SettingsError Settings :=
  if s.queueCapacity = 0 then .error .zeroQueueCapacity
  else if s.cachePath = "" then .error .emptyCachePath
  else .ok s

/-! ## Assignments -/

/-- A value that is assigned. -/
inductive Scalar where
  | text (s : String)
  | integer (n : Int)
deriving DecidableEq, Repr

/-- A path of names and what is assigned to it. -/
structure Assignment where
  path : List String
  value : Scalar
deriving DecidableEq, Repr

/-- Whether one path lies on the way to the other. -/
def overlap (p q : List String) : Bool := p.isPrefixOf q || q.isPrefixOf p

/-- **Makes an assignment**, which hides those it overlaps. -/
def assign (all : List Assignment) (a : Assignment) : List Assignment :=
  a :: all.filter fun b => !overlap a.path b.path

/-- Makes the assignments of a layer, in order. -/
def assignLayer (all layer : List Assignment) : List Assignment := layer.foldl assign all

/-- The value at a path. -/
def valueAt? (all : List Assignment) (path : List String) : Option Scalar :=
  (all.find? fun a => a.path == path).map Assignment.value

/-! ## Values -/

/-- The numbers a capacity can be: those of 64 bits. -/
def capacityLimit : Nat := UInt64.size

/-- A value as a text. -/
def Scalar.asText : Scalar → String
  | .text s => s
  | .integer n => String.ofList (digitsOfInt n)

/-- **A value as a capacity.**  Words for yes and no count as one and zero, in letters of either
case. -/
def Scalar.asCapacity? : Scalar → Option Nat
  | .integer n => if 0 ≤ n then some n.toNat else none
  | .text s =>
    let word := String.ofList (s.toList.map Char.toLower)
    if word = "true" ∨ word = "on" ∨ word = "yes" then some 1
    else if word = "false" ∨ word = "off" ∨ word = "no" then some 0
    else readUnsigned? capacityLimit s.toList

/-! ## The six keys -/

/-- Where the address of the feeds is assigned. -/
def feedAddressKey : List String := ["upstream", "address"]

/-- Where the address for clients that speak in lines is assigned. -/
def lineAddressKey : List String := ["server", "tcp_address"]

/-- Where the address for clients that speak in messages is assigned. -/
def messageAddressKey : List String := ["server", "ws_address"]

/-- Where the capacity of a client's mailbox is assigned. -/
def queueCapacityKey : List String := ["session", "queue_capacity"]

/-- Where the path of a record's key is assigned. -/
def cachePathKey : List String := ["cache", "key"]

/-- Where the number of recent records is assigned. -/
def cacheCapacityKey : List String := ["cache", "capacity"]

/-- The lowest layer: the default settings as assignments. -/
def defaultLayer : List Assignment :=
  [⟨feedAddressKey, .text default.feedAddress⟩, ⟨lineAddressKey, .text default.lineAddress⟩,
    ⟨messageAddressKey, .text default.messageAddress⟩,
    ⟨queueCapacityKey, .integer default.queueCapacity⟩, ⟨cachePathKey, .text default.cachePath⟩,
    ⟨cacheCapacityKey, .integer default.cacheCapacity⟩]

/-- The text at a path. -/
def textAt (all : List Assignment) (path : List String) : Except SettingsError String :=
  match valueAt? all path with
  | some v => .ok v.asText
  | none => .error .unreadable

/-- The capacity at a path. -/
def capacityAt (all : List Assignment) (path : List String) : Except SettingsError Nat :=
  match (valueAt? all path).bind Scalar.asCapacity? with
  | some n => .ok n
  | none => .error .unreadable

/-- **The settings that assignments amount to.** -/
def ofAssignments (all : List Assignment) : Except SettingsError Settings := do
  let feedAddress ← textAt all feedAddressKey
  let lineAddress ← textAt all lineAddressKey
  let messageAddress ← textAt all messageAddressKey
  let queueCapacity ← capacityAt all queueCapacityKey
  let cachePath ← textAt all cachePathKey
  let cacheCapacity ← capacityAt all cacheCapacityKey
  .ok ⟨feedAddress, lineAddress, messageAddress, queueCapacity, cachePath, cacheCapacity⟩

/-- **The settings of some layers**, lowest first, checked. -/
def ofLayers (layers : List (List Assignment)) : Except SettingsError Settings := do
  (← ofAssignments (layers.foldl assignLayer defaultLayer)).validate

end Settings

end LiveQuery
