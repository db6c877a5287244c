import LiveQuery.Json.Basic

/-!
# EvalError — what can go wrong when a statement meets a record

An evaluation fails for one of six causes.  `message` is the one place where their wording stands.
-/

namespace LiveQuery

/-- **Why an evaluation has no value.** -/
inductive EvalError where
  /-- A path leads nowhere in the record. -/
  | fieldNotFound (path : String)
  /-- An operand is of the wrong kind. -/
  | typeMismatch (function operand expected : String) (actual : Json.Kind)
  /-- An operand is of the right kind and still unusable. -/
  | invalidValue (function message : String)
  /-- A result has no number. -/
  | overflow (function : String)
  | divisionByZero (function : String)
  /-- A mean of nothing was asked for. -/
  | emptyWindow
deriving DecidableEq, Repr

/-- **The wording of an evaluation error.** -/
def EvalError.message : EvalError → String
  | .fieldNotFound path => "Field \"" ++ path ++ "\" not found"
  | .typeMismatch function operand expected actual =>
    function ++ " expects " ++ expected ++ " for " ++ operand ++ ", got " ++ actual.name
  | .invalidValue function message => function ++ ": " ++ message
  | .overflow function => "Integer overflow in " ++ function
  | .divisionByZero function => "Division by zero in " ++ function
  | .emptyWindow => "Empty window"

end LiveQuery
