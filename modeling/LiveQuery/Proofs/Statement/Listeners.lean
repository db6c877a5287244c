import LiveQuery.Proofs.Statement.Blame
import LiveQuery.Proofs.Statement.Canonical
import LiveQuery.Proofs.Window.Traceless

/-!
# Proofs/Statement/Listeners — who listens to the windows of a statement

A tree is **served** if every window in it has the listener that its node asks for: that of its
statistic, or none.  Whatever is parsed is served (`Built.isServed`), since a call attaches a
listener only for the node that it gives (`exists_attach_of_build`), and **it stays served**, since
evaluation cannot be seen in a cleared tree (`IsServed.evalAll`).

So two refusals are never heard, though there is a wording for both.  No call says that a window is
taken, since served trees offer none (`build_ne_taken`, `exists_build_of_parseChars`).  And no
evaluation says that nobody listens, since served trees are fair (`IsServed.isFair_eval`).
-/

namespace LiveQuery

variable {w : Window Aggregate} {statistic : Option Statistic} {s : Statistic} {kind : WindowKind}
  {newest : Json}

/-! ## Windows -/

theorem Window.serves_cleared : w.cleared.Serves statistic ↔ w.Serves statistic := by
  obtain ⟨es, _ | a⟩ := w <;> exact Iff.rfl

theorem Window.serves_of_cleared_eq {w' : Window Aggregate} (h : w'.cleared = w.cleared)
    (hw : w.Serves statistic) : w'.Serves statistic :=
  serves_cleared.mp (h ▸ serves_cleared.mpr hw)

/-- **A window that has the listener of its node can be read.** -/
theorem Window.Serves.isFair_readWindow (hw : w.Serves statistic) :
    IsFair (readWindow statistic newest w) := by
  cases statistic with
  | none => exact .ok _
  | some s =>
    obtain ⟨sum, hsum⟩ := hw.exists_sum
    rw [readWindow, hsum, Window.report_some]
    exact Aggregate.isFair_report _ _

/-- **Nobody is called a window**, so a window that nobody listens to is not fair. -/
theorem IsFair.ne_unheard {result : Except EvalError Json} (h : IsFair result) :
    result ≠ .error (.invalidValue "Window" "no aggregate attached") :=
  fun hresult => absurd (h _ hresult "Window" rfl) (by decide)

namespace Expr

open Text

/-! ## Served trees -/

variable {e value size : Expr} {records : List (Moment × Json)}

/-- **A tree whose windows have the listeners that their nodes ask for**: that of the statistic of
the node if it has one, and none if it has none. -/
def IsServed : Expr → Prop
  | literal _ => True
  | field _ => True
  | getDeep path => path.IsServed
  | arith _ lhs rhs => lhs.IsServed ∧ rhs.IsServed
  | compare _ lhs rhs => lhs.IsServed ∧ rhs.IsServed
  | randomSample rate => rate.IsServed
  | everyNth n _ => n.IsServed
  | window s _ value size w => w.Serves s ∧ value.IsServed ∧ size.IsServed

/-- **Every node of a served tree has its listener.** -/
theorem IsServed.serves_of_mem (h : e.IsServed)
    (hnode : window statistic kind value size w ∈ e.nodes) : w.Serves statistic := by
  induction e with
  | literal | field => cases List.mem_singleton.mp hnode
  | getDeep path ih | randomSample rate ih | everyNth n counter ih =>
    rcases List.mem_cons.mp hnode with hnode | hnode
    · cases hnode
    · exact ih h hnode
  | arith op lhs rhs ihl ihr | compare op lhs rhs ihl ihr =>
    rcases List.mem_cons.mp hnode with hnode | hnode
    · cases hnode
    · exact (List.mem_append.mp hnode).elim (ihl h.1) (ihr h.2)
  | window s kind value size w ihv ihs =>
    rcases List.mem_cons.mp hnode with hnode | hnode
    · cases hnode
      exact h.1
    · exact (List.mem_append.mp hnode).elim (ihv h.2.1) (ihs h.2.2)

/-- **Whether a tree is served can be seen when it is cleared.** -/
theorem isServed_cleared : e.cleared.IsServed ↔ e.IsServed := by
  induction e <;> simp_all only [cleared, IsServed, Window.serves_cleared]

/-- **A served tree is served after every record.** -/
theorem IsServed.evalAll (h : e.IsServed) (records : List (Moment × Json)) :
    (evalAll records e).2.IsServed := by
  rw [← isServed_cleared, cleared_evalAll]
  exact isServed_cleared.mpr h

theorem IsServed.eval (h : e.IsServed) (m : Moment) (record : Json) :
    (e.eval m record).2.IsServed := h.evalAll [(m, record)]

/-- **What a served tree says of a record is fair**, since all its windows can be read. -/
theorem IsServed.isFair_eval (h : e.IsServed) (m : Moment) (record : Json) :
    IsFair (e.eval m record).1 := by
  induction e with
  | literal v => exact .ok _
  | field path => exact isFair_fieldAt path record
  | getDeep path ih =>
    rw [Expr.eval]
    split
    · exact (ih h).of_eq ‹_›
    · exact isFair_fieldAtValue _ record
  | arith op lhs rhs ihl ihr =>
    obtain ⟨hl, hr⟩ := h
    rw [Expr.eval]
    split
    · exact (ihl hl).of_eq ‹_›
    · split
      · exact (ihr hr).of_eq ‹_›
      · exact op.isFair_apply _ _
  | compare op lhs rhs ihl ihr =>
    obtain ⟨hl, hr⟩ := h
    rw [Expr.eval]
    split
    · exact (ihl hl).of_eq ‹_›
    · split
      · exact (ihr hr).of_eq ‹_›
      · exact (op.isFair_apply _ _).map _
  | randomSample rate ih =>
    rw [Expr.eval]
    split
    · exact (ih h).of_eq ‹_›
    · exact isFair_sampleAt m _
  | everyNth n counter ih =>
    rw [Expr.eval]
    split
    · exact (ih h).of_eq ‹_›
    · exact isFair_countTowards counter _
  | window s kind value size w ihv ihs =>
    obtain ⟨hw, hv, hs⟩ := h
    rw [Expr.eval]
    split
    · exact (ihv hv).of_eq ‹_›
    · split
      · exact (ihs hs).of_eq ‹_›
      · rename_i v _ _ _ n _ _
        have hcleared := cleared_collectValue kind m.now v n w
        split
        · exact (isFair_collectValue kind m.now v n w).of_eq ‹_›
        · rename_i hcollect
          rw [hcollect] at hcleared
          exact (Window.serves_of_cleared_eq hcleared hw).isFair_readWindow

/-- **Whatever records a served tree meets, it is fair about all of them.** -/
theorem IsServed.isFair_of_mem (h : e.IsServed) {result : Except EvalError Json}
    (hresult : result ∈ (Expr.evalAll records e).1) : IsFair result := by
  induction records generalizing e with
  | nil => cases hresult
  | cons r records ih =>
    rw [evalAll_cons] at hresult
    rcases List.mem_cons.mp hresult with rfl | hresult
    · exact h.isFair_eval r.1 r.2
    · exact ih (h.eval r.1 r.2) hresult

/-! ## Parsed trees -/

theorem Built.cleared_eq (h : Built e) : e.cleared = e := by
  induction h with
  | literal | field => rfl
  | window s kind hv hs ihv ihs =>
    rw [cleared, ihv, ihs]
    cases s <;> rfl
  | _ => simp_all only [cleared]

/-- **What calls put together is served.** -/
theorem Built.isServed (h : Built e) : e.IsServed := by
  induction h with
  | literal | field => exact True.intro
  | getDeep _ _ ih | randomSample _ ih | everyNth _ ih => exact ih
  | arith _ _ _ ihl ihr | compare _ _ _ ihl ihr => exact ⟨ihl, ihr⟩
  | window s _ _ _ ihv ihs => exact ⟨Window.serves_fresh s, ihv, ihs⟩

/-! ## Building -/

section Building

variable {name f : String} {args : List Expr} {arg : Expr} {s : Statistic} {fault : ArgumentFault}
  {cs : List Char}

/-- **Only a call of a statistic has to do with listeners.**  Another one neither looks for a
listener nor gives a node with a statistic. -/
theorem build_cases (name : String) (args : List Expr) :
    (∃ s arg, args = [arg] ∧ build name args = buildStatistic name s arg) ∨
      (∀ f, build name args ≠ .error (.invalidArgument f .windowTaken)) ∧
        ∀ s kind value size w, build name args ≠ .ok (window (some s) kind value size w) := by
  unfold build
  split
  case h_2 => exact Or.inr ⟨by simp, by simp⟩
  case h_1 function _ =>
    unfold apply
    split
    case h_5 path =>
      rw [buildGetDeep.eq_def]
      split
      · split <;> exact Or.inr ⟨by simp [argumentFault], by simp [argumentFault]⟩
      · exact Or.inr ⟨by simp [argumentFault], by simp [argumentFault]⟩
      · exact Or.inr ⟨by simp, by simp⟩
    case h_7 => exact Or.inl ⟨_, _, rfl, rfl⟩
    all_goals exact Or.inr ⟨by simp, by simp⟩

/-- **A statistic is asked of a window without a listener**, of one with a listener, or of something
else. -/
theorem buildStatistic_cases (name : String) (s : Statistic) (arg : Expr) :
    (∃ kind value size w, ∃ free : w.listener = none, arg = window none kind value size w ∧
      buildStatistic name s arg
        = .ok (window (some s) kind value size (w.attach (.start s) free))) ∨
    (∃ kind value size w, arg = window none kind value size w ∧ w.listener ≠ none ∧
      buildStatistic name s arg = .error (.invalidArgument name .windowTaken)) ∨
    buildStatistic name s arg = .error (.invalidArgument name (.notAWindow arg.text)) := by
  rw [buildStatistic.eq_def]
  split
  case h_1 kind value size w =>
    split
    case h_1 a taken =>
      refine Or.inr (Or.inl ⟨kind, value, size, w, rfl, fun free => ?_, rfl⟩)
      cases taken.symm.trans free
    case h_2 free => exact Or.inl ⟨kind, value, size, w, free, rfl, rfl⟩
  case h_2 => exact Or.inr (Or.inr rfl)

/-- **A statistic listens to a window that had no listener.** -/
theorem exists_attach_of_build (h : build name args = .ok (window (some s) kind value size w)) :
    ∃ before, ∃ free : before.listener = none,
      args = [window none kind value size before] ∧ w = before.attach (.start s) free := by
  rcases build_cases name args with ⟨s', arg, rfl, hbuild⟩ | ⟨-, hother⟩
  · rw [hbuild] at h
    rcases buildStatistic_cases name s' arg with ⟨_, _, _, before, free, rfl, hs⟩ |
        ⟨_, _, _, _, -, -, hs⟩ | hs <;>
      cases hs.symm.trans h
    exact ⟨before, free, rfl, rfl⟩
  · exact absurd h (hother s kind value size w)

/-- **A window is taken if somebody listens to it**, though no statistic was asked for. -/
theorem exists_listener_of_taken (h : build name args = .error (.invalidArgument f .windowTaken)) :
    ∃ kind value size w, args = [window none kind value size w] ∧ w.listener ≠ none := by
  rcases build_cases name args with ⟨s', arg, rfl, hbuild⟩ | ⟨hother, -⟩
  · rw [hbuild] at h
    rcases buildStatistic_cases name s' arg with ⟨_, _, _, _, _, -, hs⟩ |
        ⟨kind, value, size, w, rfl, htaken, -⟩ | hs
    · cases hs.symm.trans h
    · exact ⟨kind, value, size, w, rfl, htaken⟩
    · cases hs.symm.trans h
  · exact absurd h (hother f)

/-- **No window is taken among served trees.** -/
theorem build_ne_taken (h : ∀ a ∈ args, a.IsServed) (name f : String) :
    build name args ≠ .error (.invalidArgument f .windowTaken) := by
  intro htaken
  obtain ⟨kind, value, size, w, rfl, hw⟩ := exists_listener_of_taken htaken
  have hserves : w.Serves none := (h _ List.mem_cons_self).1
  exact hw (congrArg Window.listener hserves.eq_none)

/-! ## Parsing -/

theorem exists_error_of_collect {ε α β : Type} {g : β → Except ε α} {xs : List β} {e : ε}
    (h : collect (xs.map g) = .error e) : ∃ x ∈ xs, g x = .error e := by
  rcases collect_cases (f := g) xs with ⟨as, has⟩ | ⟨before, x, after, e', rfl, -, hx, hall⟩
  · cases (collect_of_forall₂ has).symm.trans h
  · obtain rfl := Except.error.inj (hall.symm.trans h)
    exact ⟨x, List.mem_append_right _ List.mem_cons_self, hx⟩

/-- What is wrong with the shape of a call is no fault of an argument. -/
theorem arguments_ne_invalidArgument {inside : List Char} :
    Call.arguments cs inside ≠ .error (.invalidArgument f fault) := by
  intro h
  simp only [Call.arguments] at h
  split at h
  · cases h
  · split_ifs at h <;> cases h

theorem split_ne_invalidArgument : Call.split cs ≠ .error (.invalidArgument f fault) := by
  intro h
  rw [Call.split] at h
  split at h
  case h_1 => cases h
  case h_2 name inside _ =>
    cases hinside : Call.arguments cs inside <;> rw [hinside] at h <;> cases h
    exact arguments_ne_invalidArgument hinside

/-- **Only a call finds an argument unfit**, one of its own or, before that, one inside its
arguments. -/
theorem exists_call_of_parseChars (h : parseChars cs = .error (.invalidArgument f fault)) :
    ∃ name args, Call.split (trim cs) = .ok (some (name, args)) ∧
      ((∃ arg ∈ args, parseChars arg = .error (.invalidArgument f fault)) ∨
        ∃ es, List.Forall₂ (fun a e => parseChars a = .ok e) args es ∧
          build (String.ofList name) es = .error (.invalidArgument f fault)) := by
  rw [parseChars_eq] at h
  split at h
  case isTrue => cases h
  case isFalse =>
    split at h
    case h_1 => cases h
    case h_2 =>
      split at h
      case h_1 hsplit =>
        cases h
        exact absurd hsplit split_ne_invalidArgument
      case h_2 =>
        rw [parsePath] at h
        split at h <;> cases h
      case h_3 name args hsplit =>
        refine ⟨name, args, hsplit, ?_⟩
        split at h
        case h_1 hcollect =>
          cases h
          exact Or.inl (exists_error_of_collect hcollect)
        case h_2 es hcollect => exact Or.inr ⟨es, forall₂_of_collect hcollect, h⟩

/-- **An argument is found unfit by a call of trees that parse.** -/
theorem exists_build_of_parseChars (h : parseChars cs = .error (.invalidArgument f fault)) :
    ∃ name args, (∀ a ∈ args, ∃ as, parseChars as = .ok a) ∧
      build name args = .error (.invalidArgument f fault) := by
  induction hlength : cs.length using Nat.strong_induction_on generalizing cs with
  | _ n ih =>
    subst hlength
    obtain ⟨name, args, hsplit, ⟨arg, harg, hfault⟩ | ⟨es, hes, hbuild⟩⟩ :=
      exists_call_of_parseChars h
    · have hshort : arg.length < cs.length :=
        Nat.lt_of_lt_of_le (Call.length_lt_of_split hsplit harg) (length_trim_le cs)
      exact ih _ hshort hfault rfl
    · refine ⟨_, es, fun a ha => ?_, hbuild⟩
      obtain ⟨as, -, has⟩ := exists_mem_of_forall₂ hes ha
      exact ⟨as, has⟩

end Building

/-! ## The law -/

/-- **Every window has the listener that its node asks for.**

* In a parsed tree a window listens to the statistic of its node, and to none if the node has none,
  whatever records the tree has met.  Those have changed its counters, its windows and its sums:
  cleared it is the tree that was parsed, node by node, and its canonical text is the same.  No
  result says that nobody listens.
* No statement is refused because a window is taken, and neither is a call of trees that parse.
* A call that gives a statistic has attached its listener to a window that had none. -/
theorem every_window_has_its_listener :
    (∀ statement tree, parse statement = .ok tree → ∀ records,
      let run := evalAll records tree
      (∀ s kind value size w, window s kind value size w ∈ run.2.nodes →
        w.listener.map Aggregate.statistic = s) ∧
      (run.2.cleared = tree ∧ run.2.nodes.map cleared = tree.nodes ∧ run.2.text = tree.text) ∧
      ∀ result ∈ run.1, result ≠ .error (.invalidValue "Window" "no aggregate attached")) ∧
    (∀ statement f, parse statement ≠ .error (.invalidArgument f .windowTaken)) ∧
    (∀ name args, (∀ a ∈ args, ∃ statement, parse statement = .ok a) →
      ∀ f, build name args ≠ .error (.invalidArgument f .windowTaken)) ∧
    ∀ name args s kind value size w, build name args = .ok (window (some s) kind value size w) →
      ∃ before, ∃ free : before.listener = none,
        args = [window none kind value size before] ∧ w = before.attach (.start s) free := by
  refine ⟨fun statement tree hparse records => ?_, fun statement f hrefused => ?_,
    fun name args hargs f => ?_, fun name args s kind value size w => exists_attach_of_build⟩
  · have hbuilt := built_of_parse hparse
    have hserved := hbuilt.isServed
    have hcleared : (evalAll records tree).2.cleared = tree := by
      rw [cleared_evalAll, hbuilt.cleared_eq]
    refine ⟨fun s kind value size w hnode => (hserved.evalAll records).serves_of_mem hnode,
      ⟨hcleared, ?_, text_evalAll records tree⟩, fun result hresult => ?_⟩
    · rw [← nodes_cleared, hcleared]
    · exact (hserved.isFair_of_mem hresult).ne_unheard
  · obtain ⟨name, args, hargs, hbuild⟩ := exists_build_of_parseChars hrefused
    refine build_ne_taken (fun a ha => ?_) name f hbuild
    obtain ⟨cs, hcs⟩ := hargs a ha
    exact (built_of_parse hcs).isServed
  · refine build_ne_taken (fun a ha => ?_) name f
    obtain ⟨statement, hparse⟩ := hargs a ha
    exact (built_of_parse hparse).isServed

/-- One window inside the other: the second record fails when the inner one has already let its
value in, the third has none for it, and the windows still have their listeners.  A sum that is
asked of a plain window is attached to it; a window that is taken is refused, but no statement gives
one. -/
theorem sum_inside_a_mean_keeps_its_listener :
    let record (now : Nat) (members : List (String × Json)) : Moment × Json :=
      (⟨now, 0⟩, .object members)
    let records := [record 0 [("x", Json.ofInt 1), ("y", Json.ofInt 2)],
      record 1000 [("x", .string "a"), ("y", Json.ofInt 3)],
      record 2000 [("x", Json.ofInt 4), ("y", .null)]]
    let two := literal (Json.ofInt 2)
    let sum := window (some .sum) .timed (field "y") (literal (Json.ofInt 10))
      (.listened (.start .sum))
    let mean := window (some .average) .rolling (arith .add (field "x") sum) two
      (.listened (.start .average))
    let plain := window none .rolling (field "x") two
    let run := evalAll records mean
    (parse "WindowAverage(RollingWindow(Add(x,WindowSum(TimedWindow(y,10))),2))" = .ok mean ∧
      run.1.map (·.map Json.write) = [.ok "3.0".toList,
        .error (.typeMismatch "Add" "left operand" "number" .string), .ok "6.0".toList] ∧
      (∃ value size w, window (some .average) .rolling value size w ∈ run.2.nodes ∧
        w.listener.map Aggregate.statistic = some .average) ∧
      run.2.cleared = mean ∧
      ∀ result ∈ run.1, result ≠ .error (.invalidValue "Window" "no aggregate attached")) ∧
    parse "RollingWindow(x,2)" = .ok (plain .empty) ∧
    build "WindowSum" [plain .empty] ≠ .error (.invalidArgument "WindowSum" .windowTaken) ∧
    (∃ before, ∃ free : before.listener = none, [plain .empty] = [plain before] ∧
      .listened (.start .sum) = before.attach (.start .sum) free) ∧
    build "WindowSum" [plain (.listened (.start .count))]
      = .error (.invalidArgument "WindowSum" .windowTaken) := by
  intro record records two sum mean plain run
  have hx : parseChars ['x'] = .ok (.field "x") := by rw [parseChars_eq]; rfl
  have hy : parseChars ['y'] = .ok (.field "y") := by rw [parseChars_eq]; rfl
  have htwo : parseChars ['2'] = .ok two := by rw [parseChars_eq]; rfl
  have hten : parseChars ['1', '0'] = .ok (.literal (Json.ofInt 10)) := by rw [parseChars_eq]; rfl
  have hplain : parse "RollingWindow(x,2)" = .ok (plain .empty) :=
    @parseChars_call "RollingWindow" (by decide) _ _ (.cons hx (.cons htwo .nil))
  have hsum := @parseChars_call "WindowSum" (by decide) _ _ (.cons
    (@parseChars_call "TimedWindow" (by decide) _ _ (.cons hy (.cons hten .nil))) .nil)
  have hinner := @parseChars_call "RollingWindow" (by decide) _ _ (.cons
    (@parseChars_call "Add" (by decide) _ _ (.cons hx (.cons hsum .nil))) (.cons htwo .nil))
  have hmean : parse "WindowAverage(RollingWindow(Add(x,WindowSum(TimedWindow(y,10))),2))"
      = .ok mean := @parseChars_call "WindowAverage" (by decide) _ _ (.cons hinner .nil)
  obtain ⟨hruns, -, hbuilds, hattached⟩ := every_window_has_its_listener
  obtain ⟨hlisteners, ⟨hcleared, -, -⟩, hresults⟩ := hruns _ _ hmean records
  refine ⟨⟨hmean, by decide +kernel, ?_, hcleared, hresults⟩, hplain,
    hbuilds "WindowSum" _ (List.forall_mem_singleton.mpr ⟨_, hplain⟩) _,
    hattached "WindowSum" _ .sum .rolling (field "x") two _ rfl, rfl⟩
  change ∃ value size w, window (some .average) .rolling value size w ∈
    (evalAll records mean).2.nodes ∧ _
  -- What is a window when it is cleared was one before.
  cases hrun : (evalAll records mean).2 with
  | window s kind value size w =>
    rw [hrun] at hcleared hlisteners
    obtain ⟨rfl, rfl, -, -, -⟩ := window.inj hcleared
    exact ⟨value, size, w, List.mem_cons_self, hlisteners _ _ _ _ _ List.mem_cons_self⟩
  | _ =>
    rw [hrun] at hcleared
    simp only [cleared, mean, reduceCtorEq] at hcleared

end Expr

end LiveQuery
