import LiveQuery.Service
import LiveQuery.Settings.CommandLine
import Std.Async.DNS
import Std.Async.TCP
import Std.Sync.Mutex

/-!
# Main — a service that listens

The program resolves its settings, listens for clients that speak in lines, and connects to the far
side when a feed is first asked for.  The whole service is **one value behind a lock**, and whatever
happens outside is one `Service.step` on it: what a client sends, a line of a feed, an end.  Nothing
is decided here; a step says what is to be sent and which connection is to be opened.

A step that wants a connection is taken as if there were one.  If none can be had, the step is taken
again from the same state with the connection refused.
-/

namespace LiveQuery.Listening

open Std.Net Std.Async

/-! ## Addresses -/

/-- An address as it is written: a host, a colon and a number of 16 bits. -/
def splitAddress? (address : String) : Option (String × UInt16) :=
  match address.toList.reverse.span (· ≠ ':') with
  | (number, _ :: host) => do
    let n ← Text.readUnsigned? UInt16.size number.reverse
    some (String.ofList host.reverse, n.toUInt16)
  | (_, []) => none

/-- An address of either kind, with its number. -/
def socketAddress (number : UInt16) : IPAddr → SocketAddress
  | .v4 addr => .v4 ⟨addr, number⟩
  | .v6 addr => .v6 ⟨addr, number⟩

/-- Finds out what an address stands for. -/
def resolve (address : String) : IO SocketAddress := do
  let some (host, number) := splitAddress? address
    | throw (IO.userError "invalid socket address")
  if let some addr := IPv4Addr.ofString host then
    return .v4 ⟨addr, number⟩
  let found ← (DNS.getAddrInfo host "").block
  let some addr := found[0]?
    | throw (IO.userError "the address stands for nothing")
  return socketAddress number addr

/-! ## The service behind its lock -/

/-- **What the program holds**: the service, the sockets of its clients by name, and how many
clients there have been. -/
structure Station where
  service : Service
  sockets : Table String TCP.Socket.Client
  visitors : Nat

/-- Where the far side is, and what the program holds. -/
structure Program where
  feedAddress : String
  station : Std.Mutex Station

/-- What surrounds a step: the time, and a draw. -/
def moment : IO Moment := do
  return ⟨← IO.monoMsNow, ← IO.rand 0 (UInt64.size - 1)⟩

/-- Tries something, and gives what came of it or why nothing did. -/
def attempt {α : Type} (act : IO α) : IO (Except IO.Error α) := EIO.toBaseIO act

/-- Opens a connection to an address. -/
def connect (address : String) : IO TCP.Socket.Client := do
  let socket ← TCP.Socket.Client.mk
  (socket.connect (← resolve address)).block
  return socket

/-- **Opens a connection to the far side** and asks it for a feed. -/
def dial (address feed : String) : IO (Except FeedError TCP.Socket.Client) := do
  match ← attempt (connect address) with
  | .error e => return .error (.refused address e.toString)
  | .ok socket =>
    match ← attempt (socket.send (feedCommand feed).toUTF8).block with
    | .error e => return .error (.io e.toString)
    | .ok () => return .ok socket

/-- Begins something whose end nobody waits for. -/
def start (act : Async Unit) : IO Unit := discard (attempt (discard (Async.toIO act)))

/-- **Sends a client what it is to hear**, without waiting for it; a session that ended takes its
socket along. -/
def say (station : Station) (id : String) (heard : Heard) : IO Station := do
  let some socket := station.sockets.get? id | return station
  for message in heard.messages do
    start (socket.send (message ++ "\n").toUTF8)
  match heard.ending with
  | none => return station
  | some ending =>
    if let .failed e := ending then
      IO.eprintln s!"session {id} failed: {e.message}"
    start socket.shutdown
    return { station with sockets := station.sockets.erase id }

/-- What a step wants to be done outside: everything that clients are to hear. -/
def settle (station : Station) (after : Service) : IO Station :=
  after.heard.entries.foldlM (fun station (id, heard) => say station id heard)
    { station with service := after }

/-- **One step of the service**, and the connection that it opened. -/
def advance (feedAddress : String) (station : Station) (step : Service.Step) :
    IO (Station × Option (String × TCP.Socket.Client)) := do
  let m ← moment
  let (_, after) := { station.service with accepting := true }.step m step
  match after.opened with
  | [] => return (← settle station after, none)
  | feed :: _ =>
    match ← dial feedAddress feed with
    | .ok socket => return (← settle station after, some (feed, socket))
    | .error refusal =>
      let before := { station.service with accepting := false, refusal }
      return (← settle station (before.step m step).2, none)

/-- Whether a feed still reads from the connection that was its so-many-th. -/
def isCurrent (s : Service) (feed : String) (opened : Nat) : Bool :=
  (s.feed feed).connected && (s.feed feed).tally.opened == opened

/-! ## What happens outside -/

/-- Runs something beside everything else. -/
def aside (act : IO Unit) : IO Unit :=
  discard (IO.asTask act .dedicated)

mutual

/-- **Takes a step**, unless it comes too late, and says whether it was taken.  A connection that it
opened is read from now on. -/
partial def take (p : Program) (isDue : Service → Bool) (step : Service.Step) : IO Bool := do
  let (taken, opened) ← p.station.atomically do
    let station ← get
    if isDue station.service then
      let (station, opened) ← advance p.feedAddress station step
      set station
      return (true, opened.map fun (feed, socket) =>
        (feed, (station.service.feed feed).tally.opened, socket))
    else
      return (false, none)
  if let some (feed, number, socket) := opened then
    aside (readFeed p feed number socket (.start (some feedLineLimit)))
  return taken

/-- **Reads a feed's connection** to its end, or until the feed no longer wants it. -/
partial def readFeed (p : Program) (feed : String) (number : Nat) (socket : TCP.Socket.Client)
    (reader : LineReader) : IO Unit := do
  let due := fun s => isCurrent s feed number
  match ← attempt (socket.recv? 32768).block with
  | .error _ => discard (take p due (.fail feed))
  | .ok none =>
    if let some text := reader.finish.bind Line.text? then
      discard (take p due (.line feed text))
    discard (take p due (.finish feed))
  | .ok (some bytes) =>
    let (lines, reader) := reader.feed bytes.toList
    for text in lines.filterMap Line.text? do
      discard (take p due (.line feed text))
    if (← p.station.atomically get).service |> due then
      readFeed p feed number socket reader

end

/-- Forgets a client that has left. -/
def forget (p : Program) (id : String) : IO Unit :=
  p.station.atomically do
    modify fun station =>
      let s := station.service
      { station with service := { s with clients := s.clients.erase id } }

/-- **Reads what a client sends** until it leaves. -/
partial def readClient (p : Program) (id : String) (socket : TCP.Socket.Client) : IO Unit := do
  match ← attempt (socket.recv? 32768).block with
  | .ok (some bytes) =>
    discard (take p (fun _ => true) (.send id (.bytes bytes.toList)))
    readClient p id socket
  | _ =>
    discard (take p (fun _ => true) (.leave id))
    forget p id

/-- Lets a client in under a name of its own. -/
def welcome (p : Program) (socket : TCP.Socket.Client) : IO Unit := do
  let id ← p.station.atomically do
    let station ← get
    let id := s!"client {station.visitors}"
    let (_, service) := station.service.step (← moment) (.connect id .lines)
    set { station with
      service
      sockets := station.sockets.set id socket
      visitors := station.visitors + 1 }
    return id
  aside (readClient p id socket)

/-- **Listens for clients** for ever. -/
def listen (p : Program) (address : String) : IO Unit := do
  let server ← TCP.Socket.Server.mk
  server.bind (← resolve address)
  server.listen 128
  repeat
    match ← attempt server.accept.block with
    | .ok socket => welcome p socket
    | .error e => IO.eprintln s!"a client could not be let in: {e}"

/-! ## Settings -/

/-- The variables that the settings can come from. -/
def variableNames : List String :=
  let paths := (Settings.Flag.all.filterMap Settings.Flag.key?).flatMap fun key => [key.take 1, key]
  let spelled := paths.eraseDups.map fun path =>
    "LIVETAP_" ++ "__".intercalate (path.map String.toUpper)
  Settings.Flag.all.filterMap Settings.Flag.fallback? ++ spelled

/-- The variables that are set. -/
def environment : IO (List (String × String)) :=
  variableNames.filterMapM fun name => do
    return (← IO.getEnv name).map (name, ·)

/-- **The settings of this run.**  The file that the arguments name is read first. -/
def settings (args : List String) : IO (Except SettingsError Settings) := do
  let env ← environment
  let path := (Settings.readCommandLine args env).bind (·.value? .config) |>.map String.ofList
  let file ← match path with
    | some path => (·.toOption) <$> attempt (IO.FS.readFile path)
    | none => pure none
  return Settings.load args env fun name => if some name = path then file else none

end LiveQuery.Listening

open LiveQuery LiveQuery.Listening in
/-- **Runs a service** until it is stopped. -/
def main (args : List String) : IO UInt32 := do
  match ← settings args with
  | .error e =>
    IO.eprintln s!"Error: {e.message}"
    return if e = .usage then 2 else 1
  | .ok s =>
    let service := Service.start s.cachePath s.cacheCapacity s.queueCapacity
      (.refused s.feedAddress "no answer")
    let station ← Std.Mutex.new (⟨service, .empty, 0⟩ : Station)
    listen ⟨s.feedAddress, station⟩ s.lineAddress
    return 0
