import LiveQuery.Framing.Lines
import LiveQuery.Json.Reader
import LiveQuery.Json.Writer

/-!
# Framing/Connection — a client's side of a conversation, one JSON value at a time

A client speaks either in lines, one value a line, or in messages, one value a message.  What has
arrived and was not read yet waits in the connection; `read` takes the next value out of it.  A line
is trimmed before it is read as JSON and a blank one is skipped; a message is read as it is.

A text that cannot be read costs itself only: the connection goes on with the next one.
-/

namespace LiveQuery

open Text

/-- **Why nothing can be exchanged with a client.** -/
inductive TransportError where
  /-- What arrived is not JSON. -/
  | notJson
  /-- A line is not text. -/
  | notUtf8
  /-- The stream of messages is damaged. -/
  | brokenStream
  /-- What was to be sent could not be. -/
  | brokenPipe
deriving DecidableEq, Repr

/-- **What a read finds.** -/
inductive Reading where
  | value (v : Json)
  | failed (e : TransportError)
  /-- Nothing more will come. -/
  | closed
  /-- Nothing has come yet. -/
  | pending
deriving Repr

/-- A text as a value or a failure. -/
def Reading.ofText (cs : List Char) : Reading :=
  match Json.readWithin? Json.maxDepth cs with
  | some v => .value v
  | none => .failed .notJson

/-! ## Lines -/

/-- **A conversation in lines**: the lines that have arrived, the line that is still arriving, and
whether the input has ended. -/
structure LineConn where
  arrived : List (List UInt8)
  reader : LineReader
  ended : Bool
deriving Repr

namespace LineConn

/-- Nothing has arrived yet. -/
def start : LineConn := ⟨[], .start none, false⟩

/-- The bytes of a line that is not too long. -/
def lineBytes? : Line → Option (List UInt8)
  | .bytes bs => some bs
  | .tooLong => none

/-- Bytes arrive. -/
def receive (c : LineConn) (bs : List UInt8) : LineConn :=
  if c.ended then c
  else
    let (lines, reader) := c.reader.feed bs
    { c with arrived := c.arrived ++ lines.filterMap lineBytes?, reader }

/-- The input ends; a line that no line feed ended counts as a line. -/
def close (c : LineConn) : LineConn :=
  if c.ended then c
  else ⟨c.arrived ++ (c.reader.finish.bind lineBytes?).toList, .start none, true⟩

/-- What a line says: nothing if it is blank. -/
def readLine? (bs : List UInt8) : Option Reading :=
  match decodeUtf8? bs with
  | none => some (.failed .notUtf8)
  | some s => if isBlankText s.toList then none else some (.ofText (trim s.toList))

/-- The first of some lines that is not blank, and the lines after it. -/
def firstReading? : List (List UInt8) → Option (Reading × List (List UInt8))
  | [] => none
  | bs :: rest =>
    match readLine? bs with
    | some r => some (r, rest)
    | none => firstReading? rest

/-- **The next value of a conversation in lines.** -/
def read (c : LineConn) : Reading × LineConn :=
  match firstReading? c.arrived with
  | some (r, rest) => (r, { c with arrived := rest })
  | none => (if c.ended then .closed else .pending, { c with arrived := [] })

/-- A value as it is sent. -/
def frame (v : Json) : String := v.text ++ "\n"

end LineConn

/-! ## Messages -/

/-- One message of a client, or the way its messages end. -/
inductive Message where
  | text (s : String)
  | binary (bs : List UInt8)
  /-- A message that keeps the connection alive and says nothing. -/
  | control
  /-- The client says that it leaves. -/
  | close
  /-- The bytes end without a word of leave. -/
  | cut
  /-- The bytes make no sense. -/
  | garbled
deriving DecidableEq, Repr

namespace Message

/-- What a message says, if it says something. -/
def reading? : Message → Option Reading
  | .text s => some (.ofText s.toList)
  | .binary bs =>
    match decodeUtf8? bs with
    | some s => some (.ofText s.toList)
    | none => some (.failed .notJson)
  | .control => none
  | .close => some .closed
  | .cut | .garbled => some (.failed .brokenStream)

/-- Whether nothing can be read after a message. -/
def endsReading : Message → Bool
  | .close | .cut | .garbled => true
  | _ => false

/-- Whether nothing can be sent once a message was read. -/
def endsWriting : Message → Bool
  | .close | .cut => true
  | _ => false

end Message

/-- **A conversation in messages**: those that have arrived, whether anything more is read, and
whether the client is gone. -/
structure MessageConn where
  arrived : List Message
  ended : Bool
  gone : Bool
deriving Repr

namespace MessageConn

/-- Nothing has arrived yet. -/
def start : MessageConn := ⟨[], false, false⟩

/-- A message arrives. -/
def receive (c : MessageConn) (m : Message) : MessageConn := { c with arrived := c.arrived ++ [m] }

/-- The first of some messages that says something, what it says, and the messages after it. -/
def firstReading? : List Message → Option (Message × Reading × List Message)
  | [] => none
  | m :: rest =>
    match m.reading? with
    | some r => some (m, r, rest)
    | none => firstReading? rest

/-- **The next value of a conversation in messages.** -/
def read (c : MessageConn) : Reading × MessageConn :=
  if c.ended then (.closed, c)
  else
    match firstReading? c.arrived with
    | some (m, r, rest) =>
      (r, ⟨if m.endsReading then [] else rest, m.endsReading, c.gone || m.endsWriting⟩)
    | none => (.pending, { c with arrived := [] })

/-- **A value as it is sent**, to a client that is still there. -/
def frame (c : MessageConn) (v : Json) : Except TransportError String :=
  if c.gone then .error .brokenStream else .ok v.text

end MessageConn

/-! ## Either -/

/-- How a client speaks. -/
inductive Transport where
  | lines
  | messages
deriving DecidableEq, Repr

/-- **A conversation of either kind.** -/
inductive Connection where
  | lines (c : LineConn)
  | messages (c : MessageConn)
deriving Repr

namespace Connection

/-- A conversation in which nothing has arrived yet. -/
def start : Transport → Connection
  | .lines => .lines .start
  | .messages => .messages .start

/-- The client leaves in the way its kind does. -/
def close : Connection → Connection
  | .lines c => .lines c.close
  | .messages c => .messages (c.receive .close)

/-- The next value. -/
def read : Connection → Reading × Connection
  | .lines c => let (r, c) := c.read; (r, .lines c)
  | .messages c => let (r, c) := c.read; (r, .messages c)

/-- How much has arrived and was not read yet. -/
def unread : Connection → Nat
  | .lines c => c.arrived.length
  | .messages c => c.arrived.length

/-- Reads until nothing is there, at most so many times. -/
def readUpTo : Nat → Connection → List Reading × Connection
  | 0, c => ([], c)
  | n + 1, c =>
    match c.read with
    | (.pending, c) => ([], c)
    | (.closed, c) => ([.closed], c)
    | (r, c) =>
      let (rs, c) := readUpTo n c
      (r :: rs, c)

/-- **Everything that can be read now**, in order. -/
def readAll (c : Connection) : List Reading × Connection := readUpTo (c.unread + 1) c

end Connection

end LiveQuery
