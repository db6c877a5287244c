import LiveQuery.Json.Writer
import LiveQuery.Text.Visible

/-!
# Query — what a client asks for

A query names a feed, the fields to be shown of each record, and the filters that a record has to
pass.  It arrives as a JSON value: an object with the members `logName`, `fields` and `filters`, or
an array with the same three in this order.  Only the name has to be there.

The members of an object are looked at in the order of their keys and the items of an array from the
left; the first that is of the wrong kind is what is reported.
-/

namespace LiveQuery

/-- **A client's query**: statements are still texts. -/
structure Query where
  feed : String
  fields : List String
  filters : List String
deriving DecidableEq, Repr

/-- What was to stand where something else was found. -/
inductive Wanted where
  | text
  | list
  | query
deriving DecidableEq, Repr

/-- **Why a value is not a query.** -/
inductive QueryFault where
  /-- The client's text is no value at all. -/
  | notJson
  | missingName
  | wrongKind (got : Json) (wanted : Wanted)
  /-- An array without even a name. -/
  | tooShort
  | tooLong (length : Nat)
deriving Repr

/-- The name of what was wanted. -/
def Wanted.name : Wanted → String
  | .text => "a string"
  | .list => "a sequence"
  | .query => "struct Query"

/-- **What was found**, as messages describe it. -/
def describe : Json → String
  | .null => "null"
  | .bool b => "boolean `" ++ (Json.bool b).text ++ "`"
  | .number (.int n) => "integer `" ++ (Json.number (.int n)).text ++ "`"
  | .number (.float x) => "floating point `" ++ (Json.number (.float x)).text ++ "`"
  | .string s => "string " ++ Text.visible s
  | .array _ => "sequence"
  | .object _ => "map"

/-- **The wording of a query fault.** -/
def QueryFault.message : QueryFault → String
  | .notJson => "not a JSON text"
  | .missingName => "missing field `logName`"
  | .wrongKind got wanted => "invalid type: " ++ describe got ++ ", expected " ++ wanted.name
  | .tooShort => "invalid length 0, expected struct Query with 3 elements"
  | .tooLong n => "invalid length " ++ Nat.repr n ++ ", expected fewer elements in array"

namespace Query

/-- A text. -/
def asText : Json → Except QueryFault String
  | .string s => .ok s
  | v => .error (.wrongKind v .text)

/-- A list of texts. -/
def asTexts : Json → Except QueryFault (List String)
  | .array items => items.mapM asText
  | v => .error (.wrongKind v .list)

/-- The parts of a query that have been seen. -/
structure Draft where
  feed : Option String
  fields : List String
  filters : List String

/-- Nothing seen yet. -/
def Draft.start : Draft := ⟨none, [], []⟩

/-- One member of an object; one with another key says nothing. -/
def Draft.member (d : Draft) (key : String) (v : Json) : Except QueryFault Draft :=
  if key = "logName" then (asText v).map fun s => { d with feed := some s }
  else if key = "fields" then (asTexts v).map fun ss => { d with fields := ss }
  else if key = "filters" then (asTexts v).map fun ss => { d with filters := ss }
  else .ok d

/-- A query from the members of an object. -/
def ofMembers (members : List (String × Json)) : Except QueryFault Query := do
  let d ← members.foldlM (fun d (k, v) => d.member k v) Draft.start
  match d.feed with
  | some feed => .ok ⟨feed, d.fields, d.filters⟩
  | none => .error .missingName

/-- A query from the items of an array. -/
def ofItems (items : List Json) : Except QueryFault Query :=
  match items with
  | [] => .error .tooShort
  | [name] => do .ok ⟨← asText name, [], []⟩
  | [name, fields] => do .ok ⟨← asText name, ← asTexts fields, []⟩
  | name :: fields :: filters :: rest => do
    let q : Query := ⟨← asText name, ← asTexts fields, ← asTexts filters⟩
    if rest = [] then .ok q else .error (.tooLong items.length)

/-- **A query from a value.** -/
def ofJson (v : Json) : Except QueryFault Query :=
  match v with
  | .object members => ofMembers members
  | .array items => ofItems items
  | v => .error (.wrongKind v .query)

end Query

end LiveQuery
