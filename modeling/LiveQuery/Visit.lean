import LiveQuery.Service

/-!
# Visit — one client, from its first word to the end of its session

The shortest run of a service that shows all of it: a client connects and sends one query; if a feed
is opened for it, the feed yields some lines and ends.
-/

namespace LiveQuery

/-- **What came of a visit**: the feed that was opened for it, the feeds known afterwards, and the
messages the client got. -/
structure Visit where
  opened : Option String
  names : List String
  messages : List String
deriving DecidableEq, Repr

namespace Visit

/-- The only client of a visit. -/
def visitor : String := "visitor"

/-- The steps that bring a client in. -/
def arrival (transport : Transport) (query : Service.Payload) : List Service.Step :=
  [.connect visitor transport, .send visitor query]

/-- The steps of a feed that yields some lines and ends. -/
def course (feed : String) (lines : List String) : List Service.Step :=
  lines.map (.line feed) ++ [.finish feed]

/-- The messages that the client got in a run. -/
def messagesOf (run : List (Service.Reply × Service)) : List String :=
  run.flatMap fun (_, s) => (s.heardBy visitor).messages

/-- **A visit to a service.** -/
def make (m : Moment) (s : Service) (transport : Transport) (query : Service.Payload)
    (lines : List String) : Visit :=
  let (before, s) := s.run m (arrival transport query)
  match s.opened with
  | [] => ⟨none, s.registry.names, messagesOf before⟩
  | feed :: _ =>
    let (after, s) := s.run m (course feed lines)
    ⟨some feed, s.registry.names, messagesOf (before ++ after)⟩

/-- A visitor whose first words are not even a greeting gets nothing and changes nothing. -/
def turnedAway (s : Service) : Visit := ⟨none, s.registry.names, []⟩

end Visit

end LiveQuery
