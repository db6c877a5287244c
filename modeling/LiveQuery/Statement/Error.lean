/-!
# Statement/Error — why a text is not a statement

Each cause is a constructor; `message` is the one place where their wording stands.  Texts are
quoted as they were given, without escaping.
-/

namespace LiveQuery

/-- Why an argument cannot play its part in a call; `got` is the argument in canonical form. -/
inductive ArgumentFault where
  | notAPath (got : String)
  | notAWindow (got : String)
  /-- The window already carries a statistic. -/
  | windowTaken
deriving DecidableEq, Repr

/-- **Why a text is not a statement.** -/
inductive ParseError where
  | empty
  | unbalancedParens (statement : String)
  | unbalancedQuotes (statement : String)
  | emptyArgument (statement : String)
  | unknownFunction (name : String)
  | arity (function : String) (expected actual : Nat)
  | invalidArgument (function : String) (fault : ArgumentFault)
  | invalidPath (statement : String)
deriving DecidableEq, Repr

/-- The wording of an argument fault. -/
def ArgumentFault.message : ArgumentFault → String
  | .notAPath got => "expected a non-empty path string, got " ++ got
  | .notAWindow got => "expected a window argument, got " ++ got
  | .windowTaken => "window already has an aggregate attached"

/-- **The wording of a parse error.** -/
def ParseError.message : ParseError → String
  | .empty => "Empty statement"
  | .unbalancedParens s => "Unbalanced parentheses in \"" ++ s ++ "\""
  | .unbalancedQuotes s => "Unbalanced quote marks in \"" ++ s ++ "\""
  | .emptyArgument s => "Empty argument in \"" ++ s ++ "\""
  | .unknownFunction name => "Unrecognized function name '" ++ name ++ "'"
  | .arity function expected actual =>
    function ++ " expects " ++ Nat.repr expected ++ " argument(s), got " ++ Nat.repr actual ++
      " argument(s)"
  | .invalidArgument function fault => function ++ ": " ++ fault.message
  | .invalidPath s => "\"" ++ s ++ "\" is not a literal, a function call or a field path"

end LiveQuery
