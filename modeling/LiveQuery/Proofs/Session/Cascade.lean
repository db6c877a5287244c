import LiveQuery.Session

/-!
# Proofs/Session/Cascade — filters form a cascade, and fields see what passes

A record goes to the filters of a view one after the other, as long as they are true, and then to
the fields.  Seen from a single filter or field this is a run of its own: **it is as if it alone had
been evaluated on the records that reach it**, whatever the others do
(`View.filters_form_a_cascade`).

The engine is `passAll_cons`: what some filters make of a list of records is what the first makes of
all of them, and what the others make of those on which the first is true.  `reaching_cons` and
`reaching_concat` make the same cut at the first record and at the last.
-/

namespace LiveQuery

variable {r : Moment × Json} {rs : List (Moment × Json)}

namespace Statement

variable {f : Statement} {fs gs : List Statement}

/-! ## A statement alone -/

/-- **A statement after it alone has seen some records.** -/
def after (f : Statement) (rs : List (Moment × Json)) : Statement :=
  ⟨f.text, (Expr.evalAll rs f.expr).2⟩

/-- **The results of a statement that alone sees some records.** -/
def results (f : Statement) (rs : List (Moment × Json)) : List (Except EvalError Json) :=
  (Expr.evalAll rs f.expr).1

/-- Whether a result is the truth. -/
def isTrue : Except EvalError Json → Bool
  | .ok (.bool b) => b
  | _ => false

/-- Whether a statement is true on a record. -/
def isTrueOn (f : Statement) (r : Moment × Json) : Bool := isTrue (f.eval r.1 r.2).1

/-- **The records on which a statement is true** that alone sees some records. -/
def trueOn (f : Statement) : List (Moment × Json) → List (Moment × Json)
  | [] => []
  | r :: rs =>
    if f.isTrueOn r then r :: trueOn (f.eval r.1 r.2).2 rs else trueOn (f.eval r.1 r.2).2 rs

/-- **The records that reach what stands behind some filters**: the first filter sees all, and each
of the others those on which the one before it is true. -/
def reaching : List Statement → List (Moment × Json) → List (Moment × Json)
  | [], rs => rs
  | f :: fs, rs => reaching fs (f.trueOn rs)

theorem after_cons (f : Statement) (r : Moment × Json) (rs : List (Moment × Json)) :
    f.after (r :: rs) = (f.eval r.1 r.2).2.after rs := rfl

theorem results_cons (f : Statement) (r : Moment × Json) (rs : List (Moment × Json)) :
    f.results (r :: rs) = (f.eval r.1 r.2).1 :: (f.eval r.1 r.2).2.results rs := rfl

theorem trueOn_of_true (h : f.isTrueOn r = true) :
    f.trueOn (r :: rs) = r :: (f.eval r.1 r.2).2.trueOn rs := by rw [trueOn, if_pos h]

theorem trueOn_of_not_true (h : f.isTrueOn r = false) :
    f.trueOn (r :: rs) = (f.eval r.1 r.2).2.trueOn rs := by
  rw [trueOn, if_neg (by rw [h]; exact Bool.false_ne_true)]

/-- One more record is among them if the statement is true on it then. -/
theorem trueOn_concat (f : Statement) (rs : List (Moment × Json)) (r : Moment × Json) :
    f.trueOn (rs ++ [r]) = f.trueOn rs ++ if (f.after rs).isTrueOn r then [r] else [] := by
  induction rs generalizing f with
  | nil => rw [List.nil_append, trueOn]; rfl
  | cons x rs ih =>
    rw [List.cons_append, after_cons]
    cases hx : f.isTrueOn x with
    | true => rw [trueOn_of_true hx, trueOn_of_true hx, ih, List.cons_append]
    | false => rw [trueOn_of_not_true hx, trueOn_of_not_true hx, ih]

/-! ## One record and the filters -/

theorem verdict_eq_true_iff {text : String} {result : Except EvalError Json} :
    verdict text result = .ok true ↔ isTrue result = true := by
  rcases result with e | v
  case error => exact iff_of_false (fun h => by cases h) (fun h => by cases h)
  cases v with
  | bool b => exact ⟨fun h => by injection h, congrArg Except.ok⟩
  | _ => exact iff_of_false (fun h => by cases h) (fun h => by cases h)

/-- **What a filter that is not true says**: false, or what is wrong with it. -/
theorem verdict_of_not_true (h : f.isTrueOn r = false) :
    verdict f.text (f.eval r.1 r.2).1
      = match (f.eval r.1 r.2).1 with
        | .ok (.bool _) => .ok false
        | .ok value => .error (.filter f.text (.typeMismatch "filter" "result" "bool" value.kind))
        | .error e => .error (.filter f.text e) := by
  rw [isTrueOn] at h
  generalize (f.eval r.1 r.2).1 = result at h ⊢
  rcases result with e | value
  case error => rfl
  cases value with
  | bool b => exact congrArg Except.ok h
  | _ => rfl

/-- **A filter that is true hands the record on.** -/
theorem passes_of_true (h : f.isTrueOn r = true) :
    passes r.1 r.2 (f :: fs)
      = ((passes r.1 r.2 fs).1, (f.eval r.1 r.2).2 :: (passes r.1 r.2 fs).2) := by
  have hverdict : verdict (f.eval r.1 r.2).2.text (f.eval r.1 r.2).1 = .ok true :=
    verdict_eq_true_iff.mpr h
  rw [passes]
  simp only [hverdict]

/-- **One that is not keeps it**, and decides. -/
theorem passes_of_not_true (h : f.isTrueOn r = false) :
    passes r.1 r.2 (f :: fs)
      = (verdict f.text (f.eval r.1 r.2).1, (f.eval r.1 r.2).2 :: fs) := by
  have hverdict : verdict (f.eval r.1 r.2).2.text (f.eval r.1 r.2).1 ≠ .ok true := fun htrue =>
    Bool.false_ne_true (h.symm.trans (verdict_eq_true_iff.mp htrue))
  have htext : (f.eval r.1 r.2).2.text = f.text := rfl
  rw [passes, ← htext]
  dsimp only
  split
  case h_1 htrue => exact absurd htrue hverdict
  case h_2 => rfl

/-- **The first filter that is not true decides**, and if there is none the record passes. -/
theorem passes_fst (r : Moment × Json) (fs : List Statement) :
    (passes r.1 r.2 fs).1
      = match fs.find? (!·.isTrueOn r) with
        | none => .ok true
        | some f => verdict f.text (f.eval r.1 r.2).1 := by
  induction fs with
  | nil => rfl
  | cons f fs ih =>
    cases hf : f.isTrueOn r with
    | true =>
      rw [passes_of_true hf, ih, List.find?_cons_of_neg (by rw [hf]; exact Bool.false_ne_true)]
    | false => rw [passes_of_not_true hf, List.find?_cons_of_pos (by rw [hf]; rfl)]

theorem passes_fst_eq_true_iff :
    (passes r.1 r.2 fs).1 = .ok true ↔ fs.all (·.isTrueOn r) = true := by
  induction fs with
  | nil => exact iff_of_true rfl rfl
  | cons f fs ih =>
    rw [List.all_cons]
    cases hf : f.isTrueOn r with
    | true => rw [passes_of_true hf, ih, Bool.true_and]
    | false =>
      rw [passes_of_not_true hf, Bool.false_and]
      exact verdict_eq_true_iff.trans (iff_of_eq (congrArg (· = true) hf))

/-- **A filter is evaluated once if those before it are true**, and else left as it is. -/
theorem getElem?_passes_snd (r : Moment × Json) (fs : List Statement) (i : Nat) :
    (passes r.1 r.2 fs).2[i]?
      = fs[i]?.map fun f =>
          if (fs.take i).all (·.isTrueOn r) then (f.eval r.1 r.2).2 else f := by
  induction fs generalizing i with
  | nil => rfl
  | cons f fs ih =>
    cases hf : f.isTrueOn r with
    | true =>
      rw [passes_of_true hf]
      cases i with
      | zero => rfl
      | succ i =>
        rw [List.getElem?_cons_succ, ih, List.getElem?_cons_succ, List.take_succ_cons,
          List.all_cons, hf, Bool.true_and]
    | false =>
      rw [passes_of_not_true hf]
      cases i with
      | zero => rfl
      | succ i =>
        rw [List.getElem?_cons_succ, List.getElem?_cons_succ, List.take_succ_cons, List.all_cons,
          hf, Bool.false_and]
        exact (Option.map_id' ..).symm

/-! ## All records and the filters -/

/-- **Filters after some records were put to them.** -/
def passAll (fs : List Statement) (rs : List (Moment × Json)) : List Statement :=
  rs.foldl (fun fs r => (passes r.1 r.2 fs).2) fs

theorem passAll_nil (rs : List (Moment × Json)) : passAll [] rs = [] := by
  induction rs with
  | nil => rfl
  | cons r rs ih => exact ih

/-- **The first filter sees all records, the others those on which it is true.** -/
theorem passAll_cons (f : Statement) (fs : List Statement) (rs : List (Moment × Json)) :
    passAll (f :: fs) rs = f.after rs :: passAll fs (f.trueOn rs) := by
  induction rs generalizing f fs with
  | nil => rfl
  | cons r rs ih =>
    rw [passAll, List.foldl_cons, ← passAll, after_cons]
    cases hf : f.isTrueOn r with
    | true => rw [passes_of_true hf, trueOn_of_true hf, ih]; rfl
    | false => rw [passes_of_not_true hf, trueOn_of_not_true hf, ih]

/-- **Each filter is as if it alone had seen the records that reach it.** -/
theorem getElem?_passAll (fs : List Statement) (rs : List (Moment × Json)) (i : Nat) :
    (passAll fs rs)[i]? = fs[i]?.map (·.after (reaching (fs.take i) rs)) := by
  induction fs generalizing rs i with
  | nil => rw [passAll_nil]; rfl
  | cons f fs ih =>
    rw [passAll_cons]
    cases i with
    | zero => rfl
    | succ i => exact ih (f.trueOn rs) i

theorem passAll_take (fs : List Statement) (rs : List (Moment × Json)) (i : Nat) :
    passAll (fs.take i) rs = (passAll fs rs).take i := by
  induction fs generalizing rs i with
  | nil => rw [List.take_nil, passAll_nil, List.take_nil]
  | cons f fs ih =>
    cases i with
    | zero => exact passAll_nil rs
    | succ i => rw [List.take_succ_cons, passAll_cons, passAll_cons, ih, List.take_succ_cons]

theorem reaching_nil (fs : List Statement) : reaching fs [] = [] := by
  induction fs with
  | nil => rfl
  | cons f fs ih => exact ih

/-- **The first record reaches what stands behind the filters if it passes them.** -/
theorem reaching_cons (fs : List Statement) (r : Moment × Json) (rs : List (Moment × Json)) :
    reaching fs (r :: rs)
      = (if fs.all (·.isTrueOn r) then [r] else []) ++ reaching (passes r.1 r.2 fs).2 rs := by
  induction fs generalizing rs with
  | nil => rfl
  | cons f fs ih =>
    rw [reaching, List.all_cons]
    cases hf : f.isTrueOn r with
    | true => rw [passes_of_true hf, trueOn_of_true hf, ih, Bool.true_and]; rfl
    | false => rw [passes_of_not_true hf, trueOn_of_not_true hf]; rfl

/-- **…and so does one more record**, by the filters as they are then. -/
theorem reaching_concat (fs : List Statement) (rs : List (Moment × Json)) (r : Moment × Json) :
    reaching fs (rs ++ [r])
      = reaching fs rs ++ if (passAll fs rs).all (·.isTrueOn r) then [r] else [] := by
  induction fs generalizing rs with
  | nil => rw [passAll_nil]; rfl
  | cons f fs ih =>
    rw [reaching, reaching, trueOn_concat, passAll_cons, List.all_cons]
    cases hf : (f.after rs).isTrueOn r with
    | true => rw [if_pos rfl, ih, Bool.true_and]
    | false => rw [if_neg Bool.false_ne_true, List.append_nil]; exact (List.append_nil _).symm

/-! ## Fields -/

/-- A field is shown with its text, and null stands for an error. -/
theorem shown_eq (text : String) (result : Except EvalError Json) :
    shown text result = .array [.string text, result.toOption.getD .null] := by
  cases result <;> rfl

theorem showAll_fst (r : Moment × Json) (gs : List Statement) :
    (showAll r.1 r.2 gs).1 = gs.map fun g => shown g.text (g.eval r.1 r.2).1 := by
  induction gs with
  | nil => rfl
  | cons g gs ih => exact congrArg (_ :: ·) ih

theorem showAll_snd (r : Moment × Json) (gs : List Statement) :
    (showAll r.1 r.2 gs).2 = gs.map fun g => (g.eval r.1 r.2).2 := by
  induction gs with
  | nil => rfl
  | cons g gs ih => exact congrArg (_ :: ·) ih

/-- **What is shown of some records**, a row for each, with a value for each field. -/
def shownRows (gs : List Statement) : List (Moment × Json) → List (List Json)
  | [] => []
  | r :: rs =>
    (gs.map fun g => shown g.text (g.eval r.1 r.2).1)
      :: shownRows (gs.map fun g => (g.eval r.1 r.2).2) rs

theorem length_shownRows (gs : List Statement) (rs : List (Moment × Json)) :
    (shownRows gs rs).length = rs.length := by
  induction rs generalizing gs with
  | nil => rfl
  | cons r rs ih => rw [shownRows, List.length_cons, ih, List.length_cons]

theorem length_of_mem_shownRows {row : List Json} (h : row ∈ shownRows gs rs) :
    row.length = gs.length := by
  induction rs generalizing gs with
  | nil => exact absurd h List.not_mem_nil
  | cons r rs ih =>
    rcases List.mem_cons.mp h with rfl | h
    · exact List.length_map _
    · exact (ih h).trans (List.length_map _)

/-- **A column of the rows is what its field gives alone.** -/
theorem column_shownRows {j : Nat} {g : Statement} (hg : gs[j]? = some g)
    (rs : List (Moment × Json)) :
    (shownRows gs rs).map (·[j]?) = (g.results rs).map (some <| shown g.text ·) := by
  induction rs generalizing gs g with
  | nil => rfl
  | cons r rs ih =>
    have hnext : (gs.map fun g => (g.eval r.1 r.2).2)[j]? = some (g.eval r.1 r.2).2 := by
      rw [List.getElem?_map, hg]
      rfl
    rw [shownRows, List.map_cons, ih hnext, List.getElem?_map, hg, results_cons]
    rfl

end Statement

namespace View

open Statement

variable {v : View}

/-! ## A view and its records -/

/-- **Records put to a view in turn**, whatever comes of each: the outcomes, and the view in the
end. -/
def recordAll : View → List (Moment × Json) → List (Except SessionError (Option Json)) × View
  | v, [] => ([], v)
  | v, r :: rs =>
    let (outcome, v) := v.record r.1 r.2
    let (outcomes, v) := v.recordAll rs
    (outcome :: outcomes, v)

/-- What is shown of a record, field by field, if it passes. -/
def row? : Except SessionError (Option Json) → Option (List Json)
  | .ok (some (.array pairs)) => some pairs
  | _ => none

/-- **What is shown of some records**, a row for each that passes. -/
def rows (v : View) (rs : List (Moment × Json)) : List (List Json) :=
  (v.recordAll rs).1.filterMap row?

/-- A record that passes goes to the fields. -/
theorem record_of_all_true (h : v.filters.all (·.isTrueOn r) = true) :
    v.record r.1 r.2
      = (.ok (some (.array (v.fields.map fun g => shown g.text (g.eval r.1 r.2).1))),
        ⟨(passes r.1 r.2 v.filters).2, v.fields.map fun g => (g.eval r.1 r.2).2⟩) := by
  have hpasses : passes r.1 r.2 v.filters = (.ok true, (passes r.1 r.2 v.filters).2) :=
    Prod.ext (passes_fst_eq_true_iff.mpr h) rfl
  rw [record, hpasses, ← showAll_fst, ← showAll_snd]

/-- One that does not is kept from them. -/
theorem record_of_not_all_true (h : v.filters.all (·.isTrueOn r) = false) :
    row? (v.record r.1 r.2).1 = none ∧
      (v.record r.1 r.2).2 = ⟨(passes r.1 r.2 v.filters).2, v.fields⟩ := by
  have hpasses : (passes r.1 r.2 v.filters).1 ≠ .ok true := fun htrue =>
    Bool.false_ne_true (h.symm.trans (passes_fst_eq_true_iff.mp htrue))
  rw [record]
  generalize passes r.1 r.2 v.filters = answer at hpasses
  rcases answer with ⟨e | b, filters⟩
  case error => exact ⟨rfl, rfl⟩
  cases b with
  | false => exact ⟨rfl, rfl⟩
  | true => exact absurd rfl hpasses

theorem rows_cons (v : View) (r : Moment × Json) (rs : List (Moment × Json)) :
    v.rows (r :: rs) = (row? (v.record r.1 r.2).1).toList ++ (v.record r.1 r.2).2.rows rs := by
  rw [rows, recordAll, List.filterMap_cons, rows]
  cases row? (v.record r.1 r.2).1 <;> rfl

theorem recordAll_cons (v : View) (r : Moment × Json) (rs : List (Moment × Json)) :
    (v.recordAll (r :: rs)).2 = ((v.record r.1 r.2).2.recordAll rs).2 := rfl

theorem filters_record (v : View) (r : Moment × Json) :
    (v.record r.1 r.2).2.filters = (passes r.1 r.2 v.filters).2 := by
  cases h : v.filters.all (·.isTrueOn r) with
  | true => rw [record_of_all_true h]
  | false => rw [(record_of_not_all_true h).2]

theorem filters_recordAll (v : View) (rs : List (Moment × Json)) :
    (v.recordAll rs).2.filters = passAll v.filters rs := by
  induction rs generalizing v with
  | nil => rfl
  | cons r rs ih =>
    rw [recordAll, passAll, List.foldl_cons, ← passAll, ← filters_record]
    exact ih _

/-- **The fields see the records that pass**, and nothing else: what is shown, and what they are in
the end. -/
theorem rows_and_fields (v : View) (rs : List (Moment × Json)) :
    v.rows rs = shownRows v.fields (reaching v.filters rs) ∧
      (v.recordAll rs).2.fields = v.fields.map (·.after (reaching v.filters rs)) := by
  induction rs generalizing v with
  | nil =>
    rw [reaching_nil]
    exact ⟨rfl, (List.map_id _).symm⟩
  | cons r rs ih =>
    obtain ⟨hrows, hfields⟩ := ih (v.record r.1 r.2).2
    rw [rows_cons, recordAll_cons, reaching_cons, ← filters_record, hrows, hfields]
    cases h : v.filters.all (·.isTrueOn r) with
    | true =>
      rw [record_of_all_true h, List.map_map]
      exact ⟨rfl, rfl⟩
    | false =>
      obtain ⟨hrow, hrecord⟩ := record_of_not_all_true h
      rw [hrow, hrecord]
      exact ⟨rfl, rfl⟩

/-! ## The cascade -/

/-- **What a view makes of some records, and what of one more.** -/
structure Cascade (v : View) (rs : List (Moment × Json)) : Prop where
  /-- Each filter is as it is after it alone has seen the records that reach it… -/
  filter_alone (i : Nat) :
    (v.recordAll rs).2.filters[i]? = v.filters[i]?.map (·.after (reaching (v.filters.take i) rs))
  /-- …and each field, after it alone has seen those that pass all filters. -/
  field_alone :
    (v.recordAll rs).2.fields = v.fields.map (·.after (reaching v.filters rs))
  /-- One more record reaches what stands behind the first filters if all these are true on it. -/
  reaching_concat (i : Nat) (r : Moment × Json) :
    reaching (v.filters.take i) (rs ++ [r])
      = reaching (v.filters.take i) rs
        ++ if ((v.recordAll rs).2.filters.take i).all (·.isTrueOn r) then [r] else []
  /-- Each filter is evaluated on it once if those before it are true on it, and else left alone. -/
  getElem?_passes_snd (r : Moment × Json) (i : Nat) :
    (passes r.1 r.2 (v.recordAll rs).2.filters).2[i]?
      = (v.recordAll rs).2.filters[i]?.map fun f =>
          if ((v.recordAll rs).2.filters.take i).all (·.isTrueOn r) then (f.eval r.1 r.2).2 else f
  /-- The first filter that is not true on it decides: it is false, or its value is not boolean or
  cannot be computed, which are errors with its own text; if there is none the record passes. -/
  passes_fst (r : Moment × Json) :
    (passes r.1 r.2 (v.recordAll rs).2.filters).1
      = match (v.recordAll rs).2.filters.find? (!·.isTrueOn r) with
        | none => .ok true
        | some f =>
          match (f.eval r.1 r.2).1 with
          | .ok (.bool _) => .ok false
          | .ok value => .error (.filter f.text (.typeMismatch "filter" "result" "bool" value.kind))
          | .error e => .error (.filter f.text e)
  /-- There is one row for each record that passes… -/
  length_rows : (v.rows rs).length = (reaching v.filters rs).length
  /-- …with one value for each field… -/
  length_row (row : List Json) : row ∈ v.rows rs → row.length = v.fields.length
  /-- …and the values of a field are its own results for these records, with null for an error, each
  beside its text. -/
  column_rows (j : Nat) (g : Statement) :
    v.fields[j]? = some g →
      (v.rows rs).map (·[j]?)
        = (g.results (reaching v.filters rs)).map fun result =>
            some (.array [.string g.text, result.toOption.getD .null])

/-- **Filters form a cascade, and fields see what passes.** -/
theorem filters_form_a_cascade (v : View) (rs : List (Moment × Json)) : v.Cascade rs := by
  obtain ⟨hrows, hfields⟩ := rows_and_fields v rs
  exact {
    filter_alone := fun i => by rw [filters_recordAll, getElem?_passAll]
    field_alone := hfields
    reaching_concat := fun i r => by
      rw [Statement.reaching_concat, passAll_take, ← filters_recordAll]
    getElem?_passes_snd := fun r i => Statement.getElem?_passes_snd r _ i
    passes_fst := fun r => by
      rw [Statement.passes_fst]
      split
      case h_1 => rfl
      case h_2 f hfirst =>
        have hnot : f.isTrueOn r = false := by simpa using List.find?_some hfirst
        exact verdict_of_not_true hnot
    length_rows := by rw [hrows, length_shownRows]
    length_row := fun row hrow => length_of_mem_shownRows (hrows ▸ hrow)
    column_rows := fun j g hg => by
      rw [hrows, column_shownRows hg]
      exact List.map_congr_left fun result _ => congrArg some (shown_eq g.text result) }

/-- A counter behind a filter counts the records on which the filter is true.  The second and the
fourth of these pass; the first has no `z`, which shows as null.  On what is no boolean, or is not
there, the first filter fails, and the counter does not notice. -/
theorem counter_behind_a_filter :
    let record (members : List (String × Json)) : Moment × Json := (⟨0, 0⟩, .object members)
    let x : Statement := ⟨"x", .field "x"⟩
    let second : Statement := ⟨"EveryNth(2)", .everyNth (.literal (.ofInt 2)) 0⟩
    let v : View := ⟨[x, second], [⟨"z", .field "z"⟩, ⟨"y", .field "y"⟩]⟩
    let yes (n : Int) := record [("x", .bool true), ("y", .ofInt n)]
    let before := [yes 1, record [("x", .bool false)]]
    let three := record [("x", .ofInt 3)]
    let rs := before ++ [three, record [], yes 2, yes 3,
      record [("x", .bool true), ("y", .ofInt 4), ("z", .ofInt 9)]]
    let verdict (rs : List (Moment × Json)) (r : Moment × Json) :=
      (passes r.1 r.2 (v.recordAll rs).2.filters).1
    verdict [] (yes 1) = .ok false ∧
      verdict before three = .error (.filter "x" (.typeMismatch "filter" "result" "bool" .int)) ∧
      verdict before (record []) = .error (.filter "x" (.fieldNotFound "x")) ∧
      verdict before (yes 2) = .ok true ∧
      (v.rows rs).map (·[0]?) = [some (.array [.string "z", .null]),
        some (.array [.string "z", .ofInt 9])] ∧
      (v.rows rs).map (·[1]?) = [some (.array [.string "y", .ofInt 2]),
        some (.array [.string "y", .ofInt 4])] := by
  intro record x second v yes before three rs verdict
  have hnone := filters_form_a_cascade v []
  have hbefore := filters_form_a_cascade v before
  have hall := filters_form_a_cascade v rs
  refine ⟨(hnone.passes_fst (yes 1)).trans rfl, (hbefore.passes_fst three).trans rfl,
    (hbefore.passes_fst (record [])).trans rfl, (hbefore.passes_fst (yes 2)).trans rfl, ?_, ?_⟩
  · exact (hall.column_rows 0 _ rfl).trans rfl
  · exact (hall.column_rows 1 _ rfl).trans rfl

end View

end LiveQuery
