import LiveQuery.Binary64.Arithmetic
import LiveQuery.Binary64.Basic
import LiveQuery.Binary64.Decimal
import LiveQuery.Cache
import LiveQuery.EvalError
import LiveQuery.Feed
import LiveQuery.Framing.Connection
import LiveQuery.Framing.Lines
import LiveQuery.Json.Basic
import LiveQuery.Json.Quoted
import LiveQuery.Json.Reader
import LiveQuery.Json.Writer
import LiveQuery.Main
import LiveQuery.Path
import LiveQuery.Proofs.Binary64.Closest
import LiveQuery.Proofs.Binary64.Layout
import LiveQuery.Proofs.Binary64.Nearest
import LiveQuery.Proofs.Binary64.Overflow
import LiveQuery.Proofs.Binary64.Rounding
import LiveQuery.Proofs.Binary64.Whole
import LiveQuery.Proofs.Cache.Admissions
import LiveQuery.Proofs.Feed.Connection
import LiveQuery.Proofs.Feed.Delivery
import LiveQuery.Proofs.Feed.Independence
import LiveQuery.Proofs.Feed.Lines
import LiveQuery.Proofs.Feed.Observed
import LiveQuery.Proofs.Feed.Peak
import LiveQuery.Proofs.Feed.Seat
import LiveQuery.Proofs.Feed.Slots
import LiveQuery.Proofs.Feed.Sound
import LiveQuery.Proofs.Feed.Tenure
import LiveQuery.Proofs.Framing.Arrival
import LiveQuery.Proofs.Framing.Exchange
import LiveQuery.Proofs.Framing.Segments
import LiveQuery.Proofs.Framing.Utterance
import LiveQuery.Proofs.History
import LiveQuery.Proofs.Json.Numbers
import LiveQuery.Proofs.Json.Printed
import LiveQuery.Proofs.Json.Quoted
import LiveQuery.Proofs.Json.ReadBack
import LiveQuery.Proofs.Json.Spelling
import LiveQuery.Proofs.Path
import LiveQuery.Proofs.Registry.Handles
import LiveQuery.Proofs.Service.Acts
import LiveQuery.Proofs.Service.Conversation
import LiveQuery.Proofs.Service.Course
import LiveQuery.Proofs.Service.Meaning
import LiveQuery.Proofs.Service.Occupancy
import LiveQuery.Proofs.Service.Parties
import LiveQuery.Proofs.Service.Settled
import LiveQuery.Proofs.Service.Steps
import LiveQuery.Proofs.Service.Stopped
import LiveQuery.Proofs.Session.Cascade
import LiveQuery.Proofs.Settings.Layers
import LiveQuery.Proofs.Settings.Options
import LiveQuery.Proofs.Settings.Sources
import LiveQuery.Proofs.Statement.Blame
import LiveQuery.Proofs.Statement.Canonical
import LiveQuery.Proofs.Statement.Cleared
import LiveQuery.Proofs.Statement.Comparison
import LiveQuery.Proofs.Statement.Counting
import LiveQuery.Proofs.Statement.Grammar
import LiveQuery.Proofs.Statement.Integers
import LiveQuery.Proofs.Statement.Listeners
import LiveQuery.Proofs.Statement.Literal
import LiveQuery.Proofs.Statement.Memoryless
import LiveQuery.Proofs.Statement.Nested
import LiveQuery.Proofs.Statement.Nesting
import LiveQuery.Proofs.Statement.Recognition
import LiveQuery.Proofs.Table
import LiveQuery.Proofs.Text.Numeral
import LiveQuery.Proofs.Text.Trim
import LiveQuery.Proofs.Text.Written
import LiveQuery.Proofs.Window.Conservation
import LiveQuery.Proofs.Window.Contents
import LiveQuery.Proofs.Window.Pushes
import LiveQuery.Proofs.Window.Rescan
import LiveQuery.Proofs.Window.Residue
import LiveQuery.Proofs.Window.Tally
import LiveQuery.Proofs.Window.Traceless
import LiveQuery.Query
import LiveQuery.Registry
import LiveQuery.Service
import LiveQuery.Session
import LiveQuery.Settings.Basic
import LiveQuery.Settings.CommandLine
import LiveQuery.Settings.File
import LiveQuery.Statement.Build
import LiveQuery.Statement.Call
import LiveQuery.Statement.Error
import LiveQuery.Statement.Evaluation
import LiveQuery.Statement.Expr
import LiveQuery.Statement.Literal
import LiveQuery.Statement.Parser
import LiveQuery.Table
import LiveQuery.Text.Blank
import LiveQuery.Text.Numeral
import LiveQuery.Text.Visible
import LiveQuery.Visit
import LiveQuery.Window.Aggregate
import LiveQuery.Window.Basic
import LiveQuery.Word
