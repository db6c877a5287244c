import LiveQuery.Proofs.Binary64.Rounding
import LiveQuery.Statement.Evaluation
import Mathlib.Order.Compare

/-!
# Proofs/Statement/Comparison — six predicates, one order

Two numbers or two texts have an order, and **all six predicates say what that order says**
(`Json.ComparesAs`): numbers are ordered by their binary64 values, texts by their characters.  Other
pairs have no order, and the four predicates that want one blame an operand
(`apply_of_not_comparable`).

Equality is there for all values.  It is equality of **keys** (`equal_iff_key`): the value of a
number, and of anything else the shape, in which a float zero has no sign.  So it is reflexive,
symmetric and transitive, and as the order of two numbers or texts depends on their keys alone,
equal values may stand for each other.
-/

namespace LiveQuery

/-! ## Equality -/

namespace Binary64

variable {x y : Binary64}

/-- The number without the sign of zero. -/
def unsignedZero (x : Binary64) : Binary64 := if x.units = 0 then zero false else x

theorem units_unsignedZero (x : Binary64) : x.unsignedZero.units = x.units := by
  rw [unsignedZero]
  split
  · rw [units_zero, ‹x.units = 0›]
  · rfl

theorem negative_unsignedZero (h : x.unsignedZero.units = 0) : x.unsignedZero.negative = false := by
  rw [units_unsignedZero] at h
  rw [unsignedZero, if_pos h]
  rfl

/-- **Numbers are equal if nothing but the sign of a zero can differ.** -/
theorem eq_iff (x y : Binary64) : x.eq y = true ↔ x.unsignedZero = y.unsignedZero := by
  rw [eq, beq_iff_eq, ← units_unsignedZero x, ← units_unsignedZero y]
  exact ⟨fun h => eq_of_units h negative_unsignedZero negative_unsignedZero, congrArg units⟩

end Binary64

namespace Json

/-- A number without the sign of a float zero. -/
def unsignedNumber : Number → Number
  | .int n => .int n
  | .float x => .float x.unsignedZero

mutual

/-- **The shape of a value**: itself, without the signs of its float zeros. -/
def shape : Json → Json
  | .null => .null
  | .bool b => .bool b
  | .number n => .number (unsignedNumber n)
  | .string s => .string s
  | .array vs => .array (shapeItems vs)
  | .object ms => .object (shapeMembers ms)

/-- The shapes of items. -/
def shapeItems : List Json → List Json
  | [] => []
  | v :: vs => shape v :: shapeItems vs

/-- The shapes of members. -/
def shapeMembers : List (String × Json) → List (String × Json)
  | [] => []
  | (k, v) :: ms => (k, shape v) :: shapeMembers ms

end

theorem sameNumber_iff (m n : Number) :
    sameNumber m n = true ↔ unsignedNumber m = unsignedNumber n := by
  match m, n with
  | .int m, .int n => simp [sameNumber, unsignedNumber, Integer.val_inj]
  | .float x, .float y => simp [sameNumber, unsignedNumber, Binary64.eq_iff]
  | .int _, .float _ => simp [sameNumber, unsignedNumber]
  | .float _, .int _ => simp [sameNumber, unsignedNumber]

mutual

/-- **Values are the same if they have one shape.** -/
theorem same_iff : (a b : Json) → (a.same b = true ↔ a.shape = b.shape)
  | .null, b => by cases b <;> simp [same, shape]
  | .bool _, b => by cases b <;> simp [same, shape]
  | .number _, b => by cases b <;> simp [same, shape, sameNumber_iff]
  | .string _, b => by cases b <;> simp [same, shape]
  | .array vs, b => by cases b <;> simp [same, shape, sameItems_iff vs]
  | .object ms, b => by cases b <;> simp [same, shape, sameMembers_iff ms]

theorem sameItems_iff :
    (vs ws : List Json) → (sameItems vs ws = true ↔ shapeItems vs = shapeItems ws)
  | [], [] => by simp [sameItems]
  | [], _ :: _ | _ :: _, [] => by simp [sameItems, shapeItems]
  | v :: vs, w :: ws => by simp [sameItems, shapeItems, same_iff v w, sameItems_iff vs ws]

theorem sameMembers_iff : (ms ns : List (String × Json)) →
    (sameMembers ms ns = true ↔ shapeMembers ms = shapeMembers ns)
  | [], [] => by simp [sameMembers]
  | [], _ :: _ | _ :: _, [] => by simp [sameMembers, shapeMembers]
  | (k, v) :: ms, (l, w) :: ns => by
    simp [sameMembers, shapeMembers, same_iff v w, sameMembers_iff ms ns]

end

/-- **What equality looks at**: the value of a number, and the shape of anything else. -/
def key : Json → Int ⊕ Json
  | .number n => .inl n.toBinary64.units
  | v => .inr v.shape

/-- **Values are equal if they have one key.** -/
theorem equal_iff_key (a b : Json) : a.equal b = true ↔ a.key = b.key := by
  cases a <;> cases b <;> simp [equal, number?, key, same_iff, shape, Binary64.eq]

end Json

/-! ## Order -/

theorem Binary64.order_eq (x y : Binary64) : x.order y = compare x.units y.units := by
  simp only [order, lt, decide_eq_true_eq]
  rcases Int.lt_trichotomy x.units y.units with h | h | h
  · rw [if_pos h, Int.compare_eq_lt.mpr h]
  · rw [if_neg (Int.not_lt.mpr (Int.le_of_eq h.symm)), if_neg (Int.not_lt.mpr (Int.le_of_eq h)),
      Int.compare_eq_eq.mpr h]
  · rw [if_neg (Int.lt_asymm h), if_pos h, Int.compare_eq_gt.mpr h]

theorem textOrder_eq (s t : String) : textOrder s t = compare s t := by
  change _ = compareOfLessAndEq s t
  rw [textOrder, compareOfLessAndEq]
  by_cases heq : s = t
  · subst heq
    rw [if_neg (String.lt_irrefl s), if_neg (String.lt_irrefl s), if_neg (String.lt_irrefl s),
      if_pos rfl]
  by_cases hlt : s < t
  · rw [if_pos hlt, if_pos hlt]
  · have hgt : t < s := by
      rw [← String.not_le]
      exact fun hle => heq (String.le_antisymm hle (String.not_lt.mp hlt))
    rw [if_neg hlt, if_pos hgt, if_neg hlt, if_neg heq]

/-- **What a predicate says of an order.** -/
def CompareOp.holds : CompareOp → Ordering → Bool
  | .equal, o => o == .eq
  | .notEqual, o => o != .eq
  | .greater, o => o == .gt
  | .greaterEqual, o => o != .lt
  | .less, o => o == .lt
  | .lessEqual, o => o != .gt

namespace Json

variable {a b c : Json} {o : Ordering}

/-- **All predicates say of two values what they say of an order.** -/
def ComparesAs (a b : Json) (o : Ordering) : Prop :=
  ∀ op : CompareOp, op.apply a b = .ok (op.holds o)

/-- Equality and order decide every predicate. -/
theorem comparesAs_of_order (hequal : a.equal b = (o == .eq))
    (horder : ∀ op : CompareOp, op.orderOf a b = .ok o) : a.ComparesAs b o := by
  intro op
  cases op with
  | equal => exact congrArg Except.ok hequal
  | notEqual => exact congrArg (Except.ok !·) hequal
  | greater | greaterEqual | less | lessEqual => rw [CompareOp.apply, horder]; rfl

/-- **Two numbers compare as their values do**, … -/
theorem comparesAs_number (m n : Number) :
    (number m).ComparesAs (number n) (compare m.toBinary64.units n.toBinary64.units) := by
  refine comparesAs_of_order ?_ fun op => congrArg Except.ok (Binary64.order_eq ..)
  rw [Bool.eq_iff_iff, beq_iff_eq, Std.compare_eq_iff_eq]
  exact beq_iff_eq

/-- …**and two texts as they do themselves**. -/
theorem comparesAs_string (s t : String) : (string s).ComparesAs (string t) (compare s t) := by
  refine comparesAs_of_order ?_ fun op => congrArg Except.ok (textOrder_eq ..)
  rw [Bool.eq_iff_iff, beq_iff_eq, Std.compare_eq_iff_eq]
  exact beq_iff_eq

/-! ## Values that have an order -/

/-- **Two numbers, or two texts.** -/
inductive Comparable : Json → Json → Prop
  | numbers (m n : Number) : Comparable (.number m) (.number n)
  | texts (s t : String) : Comparable (.string s) (.string t)

/-- **Comparable values have an order**, and the opposite one the other way round. -/
theorem Comparable.exists_order (h : a.Comparable b) :
    ∃ o, a.ComparesAs b o ∧ b.ComparesAs a o.swap := by
  cases h with
  | numbers m n =>
    refine ⟨_, comparesAs_number m n, ?_⟩
    rw [← Std.OrientedCmp.eq_swap]
    exact comparesAs_number n m
  | texts s t =>
    refine ⟨_, comparesAs_string s t, ?_⟩
    rw [← Std.OrientedCmp.eq_swap]
    exact comparesAs_string t s

/-- What equals a number is a number of its value, … -/
theorem exists_number_of_equal {m : Number} (h : (number m).equal c = true) :
    ∃ n, c = .number n ∧ m.toBinary64.units = n.toBinary64.units := by
  cases c with
  | number n => exact ⟨n, rfl, beq_iff_eq.mp h⟩
  | _ => simp [equal, number?, same] at h

/-- …and what equals a text is that text. -/
theorem eq_string_of_equal {s : String} (h : (string s).equal c = true) : c = .string s := by
  cases c with
  | string t => exact congrArg string (beq_iff_eq.mp h).symm
  | _ => simp [equal, number?, same] at h

/-- **Equal values may stand for each other** among comparable ones. -/
theorem Comparable.congr (h : a.Comparable b) (hc : a.equal c = true) (op : CompareOp) :
    op.apply c b = op.apply a b ∧ op.apply b c = op.apply b a := by
  cases h with
  | numbers m n =>
    obtain ⟨k, rfl, hunits⟩ := exists_number_of_equal hc
    rw [comparesAs_number k n op, comparesAs_number n k op, ← hunits]
    exact ⟨(comparesAs_number m n op).symm, (comparesAs_number n m op).symm⟩
  | texts s t =>
    rw [eq_string_of_equal hc]
    exact ⟨rfl, rfl⟩

end Json

/-! ## Values that have none -/

/-- A predicate that wants an order. -/
def CompareOp.WantsOrder (op : CompareOp) : Prop := op ≠ .equal ∧ op ≠ .notEqual

/-- **Which operand is to blame**: the right one beside a number or a text, else the left one. -/
def CompareOp.mismatch (op : CompareOp) (a b : Json) : EvalError :=
  match a with
  | .number _ => .typeMismatch op.name "right operand" "number" b.kind
  | .string _ => .typeMismatch op.name "right operand" "string" b.kind
  | _ => .typeMismatch op.name "left operand" "number or string" a.kind

theorem CompareOp.orderOf_of_not_comparable {a b : Json} (h : ¬ a.Comparable b) (op : CompareOp) :
    op.orderOf a b = .error (op.mismatch a b) := by
  match a, b with
  | .number m, .number n => exact absurd (.numbers m n) h
  | .string s, .string t => exact absurd (.texts s t) h
  | .number _, .null | .number _, .bool _ | .number _, .string _ | .number _, .array _
  | .number _, .object _ => rfl
  | .string _, .null | .string _, .bool _ | .string _, .number _ | .string _, .array _
  | .string _, .object _ => rfl
  | .null, _ | .bool _, _ | .array _, _ | .object _, _ => rfl

/-- **What has no order cannot be asked for it.** -/
theorem CompareOp.apply_of_not_comparable {op : CompareOp} {a b : Json} (hop : op.WantsOrder)
    (h : ¬ a.Comparable b) : op.apply a b = .error (op.mismatch a b) := by
  cases op with
  | equal => exact absurd rfl hop.1
  | notEqual => exact absurd rfl hop.2
  | greater | greaterEqual | less | lessEqual => rw [apply, orderOf_of_not_comparable h]; rfl

/-! ## Coherence -/

variable {a b c : Json}

theorem Json.ComparesAs.less_iff {o : Ordering} (h : a.ComparesAs b o) :
    CompareOp.less.apply a b = .ok true ↔ o = .lt := by
  rw [h .less, Except.ok.injEq]
  exact beq_iff_eq

theorem CompareOp.comparable_of_less (h : less.apply a b = .ok true) : a.Comparable b := by
  by_contra hnot
  rw [apply_of_not_comparable ⟨by decide, by decide⟩ hnot] at h
  cases h

/-- **Less is transitive.** -/
theorem CompareOp.less_trans (hab : less.apply a b = .ok true) (hbc : less.apply b c = .ok true) :
    less.apply a c = .ok true := by
  cases comparable_of_less hab with
  | numbers k m =>
    cases comparable_of_less hbc with
    | numbers _ n =>
      rw [(Json.comparesAs_number _ _).less_iff] at hab hbc ⊢
      exact Std.TransCmp.lt_trans hab hbc
  | texts r s =>
    cases comparable_of_less hbc with
    | texts _ t =>
      rw [(Json.comparesAs_string _ _).less_iff] at hab hbc ⊢
      exact Std.TransCmp.lt_trans hab hbc

/-- **The predicates agree with each other**, on values of any nesting.

* Equality never fails and is symmetric, and its opposite is its negation.
* It is reflexive, …
* … and transitive.
* Two numbers or two texts have an order that all six predicates follow, and the opposite one the
  other way round.
* Less is transitive.
* An equal value may stand on either side of a comparable one.
* Where there is no order, whatever wants one blames an operand: the right one beside a number or a
  text, else the left one. -/
theorem comparisons_are_coherent (a b c : Json) :
    (∃ v, CompareOp.equal.apply a b = .ok v ∧ CompareOp.equal.apply b a = .ok v ∧
      CompareOp.notEqual.apply a b = .ok !v) ∧
    CompareOp.equal.apply a a = .ok true ∧
    (CompareOp.equal.apply a b = .ok true → CompareOp.equal.apply b c = .ok true →
      CompareOp.equal.apply a c = .ok true) ∧
    (a.Comparable b → ∃ o, a.ComparesAs b o ∧ b.ComparesAs a o.swap) ∧
    (CompareOp.less.apply a b = .ok true → CompareOp.less.apply b c = .ok true →
      CompareOp.less.apply a c = .ok true) ∧
    (a.Comparable b → CompareOp.equal.apply a c = .ok true →
      ∀ op : CompareOp, op.apply c b = op.apply a b ∧ op.apply b c = op.apply b a) ∧
    (¬ a.Comparable b → ∀ op : CompareOp, op.WantsOrder →
      op.apply a b = .error (op.mismatch a b)) := by
  have hequal : ∀ v w : Json, CompareOp.equal.apply v w = .ok true ↔ v.key = w.key := fun v w => by
    rw [CompareOp.apply, Except.ok.injEq, Json.equal_iff_key]
  refine ⟨⟨a.equal b, rfl, congrArg Except.ok ?_, rfl⟩, (hequal a a).mpr rfl, fun hab hbc => ?_,
    Json.Comparable.exists_order, CompareOp.less_trans, fun h hc => h.congr (Except.ok.inj hc),
    fun h op hop => CompareOp.apply_of_not_comparable hop h⟩
  · rw [Bool.eq_iff_iff, Json.equal_iff_key, Json.equal_iff_key]
    exact eq_comm
  · rw [hequal] at hab hbc ⊢
    exact hab.trans hbc

/-- An integer equals the float of its value, but not inside an array; there a float zero equals the
negative one. -/
example :
    let float (x : Binary64) : Json := .number (.float x)
    let zero : Json := .number (.int ⟨0, by decide⟩)
    zero.equal (float (.zero true)) = true ∧
      (Json.array [zero]).equal (.array [float (.zero true)]) = false ∧
      (Json.array [float (.zero false)]).equal (.array [float (.zero true)]) = true := by
  decide +kernel

end LiveQuery
