import LiveQuery.Json.Reader

/-!
# Statement/Literal — values written out in a statement

A literal is a text in quotes, an integer, or a float.  Integers and floats are written more freely
than in JSON: with a plus sign, with leading zeros, without digits on one side of the point.  An
integer beyond 64 signed bits is read as a float; words such as `inf` are no literals.
-/

namespace LiveQuery.Literal

open Text

/-- The signed integers of 64 bits, among those a value can keep. -/
def signed? (n : Int) : Option Integer := if IsSigned n then Integer.ofInt? n else none

/-- Whether a number can begin with this character. -/
def startsNumber (c : Char) : Bool := c.isDigit || c = '-' || c = '+' || c = '.'

/-- **The float that a text writes**: a sign, digits with a point somewhere, an exponent; the sign,
the point and the exponent may be missing, but not every digit.  Too large a number is none. -/
def readFloat? (cs : List Char) : Option Binary64 :=
  let (negative, digits) := scanSign cs
  match Numeral.scan negative digits with
  | some (n, []) => if n.digits = [] then none else (Binary64.ofDecimal n.decimal).finite?
  | _ => none

/-- **The value that a text writes out**, if it is a literal. -/
def read? (cs : List Char) : Option Json :=
  match cs with
  | [] => none
  | '"' :: rest =>
    match Json.scanQuoted rest with
    | some (s, []) => some (.string (String.ofList s))
    | _ => none
  | c :: _ =>
    if startsNumber c then
      match (readInt? cs).bind signed? with
      | some n => some (.number (.int n))
      | none => (readFloat? cs).map fun x => .number (.float x)
    else none

end LiveQuery.Literal
