import LiveQuery.Framing.Connection
import LiveQuery.Query
import LiveQuery.Statement.Evaluation
import LiveQuery.Statement.Parser

/-!
# Session — a query meets the records of its feed

The statements of a query are parsed once; those that do not parse are left out.  A record passes if
every filter, in order, is true on it; the first that is not ends the matter, and the later ones do
not see the record.  Of a record that passes, every field is shown with its own text, a null
standing for a value that could not be computed.

A filter that has no boolean value ends the session: it would otherwise match nothing for ever.
-/

namespace LiveQuery

/-- Why a feed cannot be used. -/
inductive FeedError where
  /-- The far side does not take a connection. -/
  | refused (address reason : String)
  /-- The connection cannot be used. -/
  | io (reason : String)
  | feedGone (name : String)
  | registryGone
deriving DecidableEq, Repr

/-- **Why a session ended early.** -/
inductive SessionError where
  | invalidQuery (fault : QueryFault)
  | filter (statement : String) (cause : EvalError)
  | transport (cause : TransportError)
  | feed (cause : FeedError)
deriving Repr

/-- The wording of a feed error. -/
def FeedError.message : FeedError → String
  | .refused address reason => "Failed to connect to upstream " ++ address ++ ": " ++ reason
  | .io reason => "Upstream IO error: " ++ reason
  | .feedGone name => "Stream actor for '" ++ name ++ "' is no longer running"
  | .registryGone => "Stream registry is no longer running"

/-- The wording of a transport error. -/
def TransportError.message : TransportError → String
  | .notJson => "JSON error: not a JSON text"
  | .notUtf8 => "IO error: stream did not contain valid UTF-8"
  | .brokenStream => "WebSocket error: the stream of messages is damaged"
  | .brokenPipe => "IO error: broken"

/-- **The wording of a session error.** -/
def SessionError.message : SessionError → String
  | .invalidQuery fault => "Invalid query: " ++ fault.message
  | .filter statement cause => "Filter " ++ statement ++ " failed: " ++ cause.message
  | .transport cause => "Transport error: " ++ cause.message
  | .feed cause => "Stream error: " ++ cause.message

/-! ## Statements -/

/-- **A statement**: its text, and the tree it means. -/
structure Statement where
  text : String
  expr : Expr
deriving Repr

namespace Statement

/-- A text as a statement, if it parses. -/
def ofText? (text : String) : Option Statement :=
  match Expr.parse text with
  | .ok expr => some ⟨text, expr⟩
  | .error _ => none

/-- **The statements among some texts**; a text that does not parse is left out. -/
def parseAll (texts : List String) : List Statement := texts.filterMap ofText?

/-- The value of a statement for a record, and the statement it leaves behind. -/
def eval (s : Statement) (m : Moment) (record : Json) : Except EvalError Json × Statement :=
  let (result, expr) := s.expr.eval m record
  (result, { s with expr })

/-! ## Filters -/

/-- **The verdict of a filter's value**, which has to be boolean. -/
def verdict (text : String) : Except EvalError Json → Except SessionError Bool
  | .ok (.bool b) => .ok b
  | .ok v => .error (.filter text (.typeMismatch "filter" "result" "bool" v.kind))
  | .error e => .error (.filter text e)

/-- **Whether a record passes every filter.**  The first that is not true decides, and those after
it stay as they are. -/
def passes (m : Moment) (record : Json) : List Statement → Except SessionError Bool × List Statement
  | [] => (.ok true, [])
  | f :: fs =>
    let (result, f) := f.eval m record
    match verdict f.text result with
    | .ok true =>
      let (answer, fs) := passes m record fs
      (answer, f :: fs)
    | answer => (answer, f :: fs)

/-! ## Fields -/

/-- A field as it is shown: its text and its value, or null if it has none. -/
def shown (text : String) (result : Except EvalError Json) : Json :=
  .array [.string text, match result with
    | .ok v => v
    | .error _ => .null]

/-- **What is shown of a record**: every field in order. -/
def showAll (m : Moment) (record : Json) : List Statement → List Json × List Statement
  | [] => ([], [])
  | f :: fs =>
    let (result, f) := f.eval m record
    let (rest, fs) := showAll m record fs
    (shown f.text result :: rest, f :: fs)

end Statement

/-! ## A query at work -/

/-- **A query at work**: its filters and fields with what they remember. -/
structure View where
  filters : List Statement
  fields : List Statement
deriving Repr

namespace View

/-- The view of a query that has seen no record. -/
def ofQuery (q : Query) : View := ⟨Statement.parseAll q.filters, Statement.parseAll q.fields⟩

/-- **One record through a view**: what is shown of it, nothing if a filter is false, or the error
of a filter. -/
def record (v : View) (m : Moment) (record : Json) : Except SessionError (Option Json) × View :=
  match Statement.passes m record v.filters with
  | (.error e, filters) => (.error e, { v with filters })
  | (.ok false, filters) => (.ok none, { v with filters })
  | (.ok true, filters) =>
    let (pairs, fields) := Statement.showAll m record v.fields
    (.ok (some (.array pairs)), ⟨filters, fields⟩)

end View

end LiveQuery
