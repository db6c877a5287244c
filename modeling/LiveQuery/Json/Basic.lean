import LiveQuery.Binary64.Arithmetic
import LiveQuery.Word

/-!
# Json/Basic — JSON values

A value is what one line of a feed decodes to.  Numbers keep **how they were written**: an integer
that fits 64 bits, signed or unsigned, stays an integer (`Integer`), every other number is a finite
binary64 number, so `3` and `3.0` are different values.  An object lists its members in the order of
their keys, each key once; `insertMember` keeps it so.
-/

namespace LiveQuery

/-- **The integers a JSON number keeps exactly**: those of 64 bits, signed or unsigned. -/
structure Integer where
  val : Int
  isWord : IsWord val
deriving DecidableEq, Repr

/-- A JSON number: an integer or a finite binary64 number. -/
inductive Number where
  | int (n : Integer)
  | float (x : Binary64)
deriving DecidableEq, Repr

/-- **A JSON value.** -/
inductive Json where
  | null
  | bool (b : Bool)
  | number (n : Number)
  | string (s : String)
  | array (items : List Json)
  | object (members : List (String × Json))
deriving Inhabited, Repr

/-- An integer as one of the kept ones, if it is. -/
def Integer.ofInt? (n : Int) : Option Integer :=
  if h : IsWord n then some ⟨n, h⟩ else none

/-- The binary64 number nearest to a number; a float is itself. -/
def Number.toBinary64 : Number → Binary64
  | .int n => Binary64.ofWord n.val n.isWord.natAbs_le
  | .float x => x

namespace Json

/-! ## Making values -/

/-- A binary64 result as a value; **what is not finite has no JSON number and is null**. -/
def ofExtended : Extended → Json
  | .finite x => .number (.float x)
  | .infinite _ => .null
  | .notANumber => .null

/-- An integer as a value; one too wide to be kept is rounded. -/
def ofInt (n : Int) : Json :=
  match Integer.ofInt? n with
  | some i => .number (.int i)
  | none => ofExtended (Binary64.ofInt n)

/-- **Adds a member in key order**; a key that is already there takes the new value. -/
def insertMember (key : String) (value : Json) : List (String × Json) → List (String × Json)
  | [] => [(key, value)]
  | (k, v) :: rest =>
    if key < k then (key, value) :: (k, v) :: rest
    else if key = k then (key, value) :: rest
    else (k, v) :: insertMember key value rest

/-- An object from members in any order; of two with one key the later counts. -/
def ofMembers (members : List (String × Json)) : Json :=
  .object (members.foldl (fun sorted (k, v) => insertMember k v sorted) [])

/-! ## Looking at values -/

/-- What a value is, as messages name it. -/
inductive Kind where
  | null | bool | int | float | string | array | map
deriving DecidableEq, Repr

/-- The name of a kind. -/
def Kind.name : Kind → String
  | .null => "null"
  | .bool => "bool"
  | .int => "int"
  | .float => "float"
  | .string => "string"
  | .array => "array"
  | .map => "map"

/-- What a value is. -/
def kind : Json → Kind
  | .null => .null
  | .bool _ => .bool
  | .number (.int _) => .int
  | .number (.float _) => .float
  | .string _ => .string
  | .array _ => .array
  | .object _ => .map

/-- The value as a binary64 number, if it is a number. -/
def number? : Json → Option Binary64
  | .number n => some n.toBinary64
  | _ => none

/-- The value as an integer, if it is one. -/
def integer? : Json → Option Int
  | .number (.int n) => some n.val
  | _ => none

/-- The value as a natural number, if it is a non-negative integer. -/
def natural? (v : Json) : Option Nat :=
  v.integer?.bind fun n => if 0 ≤ n then some n.toNat else none

/-- The value as a text, if it is one. -/
def text? : Json → Option String
  | .string s => some s
  | _ => none

/-! ## Sameness

Two values are the same when they have the same shape and the same leaves; numbers are the same when
both are integers or both floats and they are numerically equal. -/

/-- Numbers of one kind with one value; the two float zeros are the same. -/
def sameNumber : Number → Number → Bool
  | .int m, .int n => m.val == n.val
  | .float x, .float y => x.eq y
  | _, _ => false

mutual

/-- **Same shape and same leaves.** -/
def same : Json → Json → Bool
  | .null, .null => true
  | .bool a, .bool b => a == b
  | .number m, .number n => sameNumber m n
  | .string s, .string t => s == t
  | .array xs, .array ys => sameItems xs ys
  | .object xs, .object ys => sameMembers xs ys
  | _, _ => false

/-- Item by item the same. -/
def sameItems : List Json → List Json → Bool
  | [], [] => true
  | x :: xs, y :: ys => same x y && sameItems xs ys
  | _, _ => false

/-- Member by member the same. -/
def sameMembers : List (String × Json) → List (String × Json) → Bool
  | [], [] => true
  | (k, x) :: xs, (l, y) :: ys => k == l && same x y && sameMembers xs ys
  | _, _ => false

end

end Json

end LiveQuery
