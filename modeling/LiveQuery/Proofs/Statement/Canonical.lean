import LiveQuery.Proofs.Statement.Cleared
import LiveQuery.Proofs.Statement.Literal

/-!
# Proofs/Statement/Canonical — the canonical text of a tree reads back as the tree

Parsing builds a tree from the leaves up (`Built`), and `Builds` lists what one call can add.  The
canonical text undoes this node by node: a literal is read from its JSON text
(`Literal.IsLiteral.read?_write`), and a call is built again from its arguments
(`Call.parseChars_write`).  Only the path of a field may have come from where it could be written
more freely, as a quoted text; if every path is itself a statement, **the canonical text parses to
the tree it was written from** (`parseChars_write_of_built`), as it was before any record.
-/

namespace LiveQuery.Expr

open Text

variable {cs : List Char} {e : Expr}

/-! ## What one call builds -/

/-- **What a call by this name can make of its arguments.** -/
inductive Builds : String → List Expr → Expr → Prop
  | arith {name : String} (op : ArithOp) (lhs rhs : Expr) :
      Builds name [lhs, rhs] (arith op lhs rhs)
  | compare {name : String} (op : CompareOp) (lhs rhs : Expr) :
      Builds name [lhs, rhs] (compare op lhs rhs)
  | randomSample {name : String} (rate : Expr) : Builds name [rate] (randomSample rate)
  | everyNth {name : String} (n : Expr) : Builds name [n] (everyNth n 0)
  | path (p : String) : Builds "GetDeep" [literal (.string p)] (field p)
  | getDeep {name : String} {path : Expr} (h : ∀ v, path ≠ literal v) :
      Builds name [path] (getDeep path)
  | window {name : String} (kind : WindowKind) (value size : Expr) :
      Builds name [value, size] (window none kind value size .empty)
  | statistic {name : String} (s : Statistic) (kind : WindowKind) (value size : Expr)
      (contents : Window Aggregate) :
      Builds name [window none kind value size contents]
        (window (some s) kind value size { contents with listener := some (Aggregate.start s) })

/-- Only one name computes a path. -/
theorem eq_of_lookup_getDeep {name : String} (h : Function.table.lookup name = some .getDeep) :
    name = "GetDeep" := by
  obtain ⟨before, after, htable, -⟩ := List.lookup_eq_some_iff.mp h
  have hmem : (name, Function.getDeep) ∈ Function.table := by
    rw [htable]
    exact List.mem_append_right _ List.mem_cons_self
  simpa [Function.table] using hmem

/-- **A call that is built is one of these.** -/
theorem builds_of_build {name : String} {args : List Expr} (h : build name args = .ok e) :
    Builds name args e := by
  rw [build] at h
  split at h
  case h_2 => cases h
  case h_1 f hf =>
    unfold apply at h
    split at h
    case h_1 => cases h; exact .arith ..
    case h_2 => cases h; exact .compare ..
    case h_3 => cases h; exact .randomSample _
    case h_4 => cases h; exact .everyNth _
    case h_5 path =>
      rw [buildGetDeep.eq_def] at h
      split at h
      case h_1 p =>
        split at h
        · cases h
        · cases h
          exact eq_of_lookup_getDeep hf ▸ .path p
      case h_2 => cases h
      case h_3 hliteral => cases h; exact .getDeep fun v => hliteral v
    case h_6 => cases h; exact .window ..
    case h_7 s arg =>
      rw [buildStatistic.eq_def] at h
      split at h
      case h_1 kind value size contents =>
        split at h
        · cases h
        · cases h
          exact .statistic ..
      case h_2 => cases h
    case h_8 => cases h

theorem exists_mem_of_forall₂ {α β : Type} {R : α → β → Prop} {as : List α} {bs : List β} {b : β}
    (h : List.Forall₂ R as bs) (hb : b ∈ bs) : ∃ a ∈ as, R a b := by
  induction h with
  | nil => cases hb
  | @cons a _ as _ hab _ ih =>
    rcases List.mem_cons.mp hb with rfl | hb
    · exact ⟨a, List.mem_cons_self, hab⟩
    · obtain ⟨a', ha', hR⟩ := ih hb
      exact ⟨a', List.mem_cons_of_mem _ ha', hR⟩

/-! ## Parsed trees -/

/-- **A tree put together by calls**, from literals and fields. -/
inductive Built : Expr → Prop
  | literal {v : Json} (h : Literal.IsLiteral v) : Built (literal v)
  | field (path : String) : Built (field path)
  | getDeep {path : Expr} (hpath : Built path) (h : ∀ v, path ≠ .literal v) : Built (getDeep path)
  | arith (op : ArithOp) {lhs rhs : Expr} (hl : Built lhs) (hr : Built rhs) :
      Built (arith op lhs rhs)
  | compare (op : CompareOp) {lhs rhs : Expr} (hl : Built lhs) (hr : Built rhs) :
      Built (compare op lhs rhs)
  | randomSample {rate : Expr} (h : Built rate) : Built (randomSample rate)
  | everyNth {n : Expr} (h : Built n) : Built (everyNth n 0)
  | window (s : Option Statistic) (kind : WindowKind) {value size : Expr} (hv : Built value)
      (hs : Built size) : Built (window s kind value size ⟨[], s.map Aggregate.start⟩)

theorem Builds.built {name : String} {args : List Expr} (h : Builds name args e)
    (hargs : ∀ a ∈ args, Built a) : Built e := by
  cases h with
  | arith op lhs rhs => exact .arith op (hargs lhs (by simp)) (hargs rhs (by simp))
  | compare op lhs rhs => exact .compare op (hargs lhs (by simp)) (hargs rhs (by simp))
  | randomSample rate => exact .randomSample (hargs rate (by simp))
  | everyNth n => exact .everyNth (hargs n (by simp))
  | path p => exact .field p
  | getDeep h => exact .getDeep (hargs _ (by simp)) h
  | window kind value size => exact .window none kind (hargs value (by simp)) (hargs size (by simp))
  | statistic s kind value size contents =>
    cases hargs _ List.mem_cons_self with
    | window _ _ hv hs => exact .window (some s) kind hv hs

/-- **Induction along parsing**: a statement is a literal, a path, or a call of statements. -/
theorem parse_induction {P : List Char → Expr → Prop}
    (literal : ∀ cs v, Literal.read? (trim cs) = some v → P cs (.literal v))
    (field : ∀ cs p, parseChars p.toList = .ok (.field p) → P cs (.field p))
    (call : ∀ cs name args es e, Call.split (trim cs) = .ok (some (name, args)) →
      List.Forall₂ (fun a e => parseChars a = .ok e ∧ P a e) args es →
      Builds (String.ofList name) es e → P cs e)
    (h : parseChars cs = .ok e) : P cs e := by
  induction hlength : cs.length using Nat.strong_induction_on generalizing cs e with
  | _ n ih =>
    subst hlength
    have hparse := h
    rw [parseChars_eq] at h
    split at h
    case isTrue => cases h
    case isFalse =>
      split at h
      case h_1 v hv => cases h; exact literal cs v hv
      case h_2 =>
        split at h
        case h_1 => cases h
        case h_2 =>
          rw [parsePath] at h
          split at h
          case isFalse => cases h
          case isTrue =>
            cases h
            refine field cs _ ?_
            rw [String.toList_ofList, parseChars_trim, hparse]
        case h_3 name args hsplit =>
          split at h
          case h_1 => cases h
          case h_2 es hes =>
            refine call cs name args es e hsplit ?_ (builds_of_build h)
            have hshort : ∀ a ∈ args, a.length < cs.length := fun a ha =>
              Nat.lt_of_lt_of_le (Call.length_lt_of_split hsplit ha) (length_trim_le cs)
            have hargs := (List.forall₂_and_left _ _).mpr ⟨hshort, forall₂_of_collect hes⟩
            exact hargs.imp fun a e hae => ⟨hae.2, ih _ hae.1 hae.2 rfl⟩

/-- **What parsing returns is put together by calls.** -/
theorem built_of_parse (h : parseChars cs = .ok e) : Built e := by
  refine parse_induction (P := fun _ e => Built e) ?_ ?_ ?_ h
  · exact fun cs v hv => .literal (Literal.isLiteral_of_read? hv)
  · exact fun cs p _ => .field p
  · intro cs name args es e _ hes hbuilds
    refine hbuilds.built fun a ha => ?_
    obtain ⟨_, -, -, hbuilt⟩ := exists_mem_of_forall₂ hes ha
    exact hbuilt

theorem Built.fresh_eq (h : Built e) : e.fresh = e := by
  induction h with
  | literal | field => rfl
  | window s kind hv hs ihv ihs => rw [fresh, ihv, ihs]
  | _ => simp_all only [fresh]

/-! ## Evaluation -/

/-- **Evaluation changes nothing but what a tree remembers.** -/
theorem fresh_evalAll (records : List (Moment × Json)) (e : Expr) :
    (evalAll records e).2.fresh = e.fresh := by
  rw [← fresh_cleared, cleared_evalAll, fresh_cleared]

/-- The canonical text stays the same. -/
theorem text_evalAll (records : List (Moment × Json)) (e : Expr) :
    (evalAll records e).2.text = e.text := by
  rw [text, text, ← write_fresh, fresh_evalAll, write_fresh]

/-! ## Reading the canonical text -/

/-- The paths of the fields in a tree. -/
def paths : Expr → List String
  | literal _ => []
  | field path => [path]
  | getDeep path => path.paths
  | arith _ lhs rhs => lhs.paths ++ rhs.paths
  | compare _ lhs rhs => lhs.paths ++ rhs.paths
  | randomSample rate => rate.paths
  | everyNth n _ => n.paths
  | window _ _ value size _ => value.paths ++ size.paths

theorem call₁_eq (name : String) (a : List Char) : call₁ name a = Call.write name.toList [a] := by
  simp [call₁, Call.write]

theorem call₂_eq (name : String) (a b : List Char) :
    call₂ name a b = Call.write name.toList [a, b] := by
  simp [call₂, Call.write]

variable {name : String} {a b : List Char} {x y : Expr}

theorem parseChars_call₁ (hname : Call.IsName name.toList) (ha : parseChars a = .ok x) :
    parseChars (call₁ name a) = build name [x] := by
  rw [call₁_eq]
  exact parseChars_call hname (.cons ha .nil)

theorem parseChars_call₂ (hname : Call.IsName name.toList) (ha : parseChars a = .ok x)
    (hb : parseChars b = .ok y) : parseChars (call₂ name a b) = build name [x, y] := by
  rw [call₂_eq]
  exact parseChars_call hname (.cons ha (.cons hb .nil))

/-- A literal is parsed from its JSON text. -/
theorem parseChars_literal {v : Json} (h : Literal.IsLiteral v) :
    parseChars v.write = .ok (.literal v) := by
  have hread := h.read?_write
  have hne : v.write ≠ [] := by
    intro hnil
    rw [hnil] at hread
    cases hread
  rw [parseChars_eq, trim_eq_self h.isTrimmed_write, if_neg hne, hread]

/-- A path that is no literal is computed. -/
theorem buildGetDeep_computed (name : String) (h : ∀ v, x ≠ literal v) :
    buildGetDeep name x = .ok (getDeep x) := by
  rw [buildGetDeep]
  · exact fun p => h (.string p)
  · exact h

/-- **The canonical text of a tree parses to the tree**, if the paths in it are statements. -/
theorem parseChars_write_of_built (h : Built e)
    (hpaths : ∀ p ∈ e.paths, parse p = .ok (.field p)) : parseChars e.write = .ok e := by
  induction h with
  | literal h => exact parseChars_literal h
  | field path => exact hpaths path List.mem_cons_self
  | @getDeep path _ h ih =>
    rw [write, parseChars_call₁ (by decide) (ih hpaths)]
    exact buildGetDeep_computed _ h
  | arith op _ _ ihl ihr =>
    obtain ⟨hl, hr⟩ := List.forall_mem_append.mp hpaths
    rw [write, parseChars_call₂ (by cases op <;> decide) (ihl hl) (ihr hr)]
    cases op <;> rfl
  | compare op _ _ ihl ihr =>
    obtain ⟨hl, hr⟩ := List.forall_mem_append.mp hpaths
    rw [write, parseChars_call₂ (by cases op <;> decide) (ihl hl) (ihr hr)]
    cases op <;> rfl
  | randomSample _ ih => rw [write, parseChars_call₁ (by decide) (ih hpaths)]; rfl
  | everyNth _ ih => rw [write, parseChars_call₁ (by decide) (ih hpaths)]; rfl
  | @window s kind value size _ _ ihv ihs =>
    obtain ⟨hv, hs⟩ := List.forall_mem_append.mp hpaths
    have hplain : parseChars (call₂ kind.name value.write size.write)
        = .ok (.window none kind value size .empty) := by
      rw [parseChars_call₂ (by cases kind <;> decide) (ihv hv) (ihs hs)]
      cases kind <;> rfl
    cases s with
    | none => rw [write, hplain]; rfl
    | some s =>
      rw [write, parseChars_call₁ (by cases s <;> decide) hplain]
      cases s <;> rfl

/-! ## Where paths come from -/

/-- **Somewhere in a statement a path is written as a quoted text.** -/
inductive QuotesPath : List Char → Prop
  | here {cs arg : List Char} {p : String}
      (h : Call.split (trim cs) = .ok (some ("GetDeep".toList, [arg])))
      (harg : Literal.read? (trim arg) = some (.string p)) : QuotesPath cs
  | inside {cs name arg : List Char} {args : List (List Char)}
      (h : Call.split (trim cs) = .ok (some (name, args))) (hmem : arg ∈ args)
      (harg : QuotesPath arg) : QuotesPath cs

/-- No call is a literal. -/
theorem Builds.ne_literal {args : List Expr} (h : Builds name args e) (v : Json) :
    e ≠ .literal v := by
  rintro rfl
  cases h

theorem not_quotesPath_of_no_split (h : Call.split (trim cs) = .ok none) : ¬ QuotesPath cs := by
  rintro (⟨hsplit, -⟩ | ⟨hsplit, -, -⟩) <;> cases h.symm.trans hsplit

/-- A call of another name quotes a path only inside its arguments. -/
theorem not_quotesPath_of_split {name : List Char} {args : List (List Char)}
    (h : Call.split (trim cs) = .ok (some (name, args))) (hname : name ≠ "GetDeep".toList)
    (hargs : ∀ a ∈ args, ¬ QuotesPath a) : ¬ QuotesPath cs := by
  rintro (⟨hsplit, -⟩ | ⟨hsplit, hmem, harg⟩) <;> cases h.symm.trans hsplit
  · exact hname rfl
  · exact hargs _ hmem harg

/-- A literal comes from the text of a literal. -/
theorem read?_of_parse {v : Json} (h : parseChars cs = .ok (.literal v)) :
    Literal.read? (trim cs) = some v := by
  refine parse_induction (P := fun cs e => ∀ v, e = .literal v → Literal.read? (trim cs) = some v)
    ?_ ?_ ?_ h v rfl
  · rintro cs v hv w ⟨⟩
    exact hv
  · rintro cs p - w ⟨⟩
  · exact fun cs name args es e _ _ hbuilds w he => absurd he (hbuilds.ne_literal w)

/-- **A call adds no path but one that was written as a text.** -/
theorem Builds.paths_eq {args : List Expr} (h : Builds name args e) :
    (name = "GetDeep" ∧ ∃ p, args = [literal (.string p)]) ∨ e.paths = args.flatMap paths := by
  cases h with
  | path p => exact Or.inl ⟨rfl, p, rfl⟩
  | _ => exact Or.inr (by simp [paths])

/-- **If no path is quoted, every path of the tree is a statement.** -/
theorem parse_path (h : parseChars cs = .ok e) (hquotes : ¬ QuotesPath cs) :
    ∀ p ∈ e.paths, parse p = .ok (.field p) := by
  refine parse_induction
    (P := fun cs e => ¬ QuotesPath cs → ∀ p ∈ e.paths, parse p = .ok (.field p)) ?_ ?_ ?_ h hquotes
  · exact fun cs v _ _ p hp => absurd hp List.not_mem_nil
  · intro cs p hp _ q hq
    obtain rfl := List.mem_singleton.mp hq
    exact hp
  · intro cs name args es e hsplit hes hbuilds hquotes p hp
    rcases hbuilds.paths_eq with ⟨hname, q, rfl⟩ | hpaths
    · obtain _ | ⟨⟨harg, -⟩, _ | _⟩ := hes
      have hname' : name = "GetDeep".toList := by rw [← hname, String.toList_ofList]
      exact absurd (.here (hname' ▸ hsplit) (read?_of_parse harg)) hquotes
    · rw [hpaths] at hp
      obtain ⟨x, hx, hp⟩ := List.mem_flatMap.mp hp
      obtain ⟨a, ha, -, hstatements⟩ := exists_mem_of_forall₂ hes hx
      exact hstatements (fun hinside => hquotes (.inside hsplit ha hinside)) p hp

/-! ## The law -/

/-- **A parsed tree whose paths are statements themselves.** -/
structure IsReadable (e : Expr) : Prop where
  parsed : ∃ s, parse s = .ok e
  paths : ∀ p ∈ e.paths, parse p = .ok (.field p)

theorem IsReadable.parse_text (h : e.IsReadable) : parse e.text = .ok e := by
  obtain ⟨s, hs⟩ := h.parsed
  rw [parse, text, String.toList_ofList]
  exact parseChars_write_of_built (built_of_parse hs) h.paths

/-- **The canonical text of a tree reads back as the tree.**

* A statement that quotes no path gives a readable tree.
* A readable tree remembers nothing, and whatever records it has met since, its text parses to the
  tree as it was.
* Texts and trees correspond: writing what a canonical text parses to gives the text again, and
  trees with one text are one tree. -/
theorem canonical_text_reads_back :
    (∀ s e, parse s = .ok e → ¬ QuotesPath s.toList → e.IsReadable) ∧
    (∀ e, e.IsReadable → e.fresh = e ∧
      ∀ records, parse (evalAll records e).2.text = .ok e) ∧
    (∀ e, e.IsReadable → ∀ records parsed, parse (evalAll records e).2.text = .ok parsed →
      parsed.text = (evalAll records e).2.text) ∧
    ∀ e e', e.IsReadable → e'.IsReadable → ∀ records records',
      (evalAll records e).2.text = (evalAll records' e').2.text → e = e' := by
  have hread : ∀ e, e.IsReadable → ∀ records, parse (evalAll records e).2.text = .ok e := by
    intro e h records
    rw [text_evalAll, h.parse_text]
  refine ⟨fun s e hs hquotes => ⟨⟨s, hs⟩, parse_path hs hquotes⟩, fun e h => ?_, ?_, ?_⟩
  · obtain ⟨s, hs⟩ := h.parsed
    exact ⟨(built_of_parse hs).fresh_eq, hread e h⟩
  · intro e h records parsed hparsed
    obtain rfl := Except.ok.inj ((hread e h records).symm.trans hparsed)
    exact (text_evalAll records e).symm
  · intro e e' h h' records records' htext
    have hparse := hread e h records
    rw [htext] at hparse
    exact Except.ok.inj (hparse.symm.trans (hread e' h' records'))

/-- A mean that was asked for by its short name is written with the long one, and reads back as the
empty window however many values have gone through it. -/
theorem short_name_reads_back :
    ∃ mean, parse "WindowAve(RollingWindow(x, 2))" = .ok mean ∧
      mean.text = "WindowAverage(RollingWindow(x,2))" ∧
      ∀ records, parse (evalAll records mean).2.text = .ok mean := by
  have hx : parseChars ['x'] = .ok (.field "x") := by rw [parseChars_eq]; rfl
  have htwo : parseChars [' ', '2'] = .ok (.literal (.number (.int ⟨2, by decide⟩))) := by
    rw [parseChars_eq]; rfl
  have hmean : parse "WindowAve(RollingWindow(x, 2))" = .ok (.window (some .average) .rolling
      (.field "x") (.literal (.number (.int ⟨2, by decide⟩))) ⟨[], some (.start .average)⟩) :=
    @parseChars_call "WindowAve" (by decide) _ _ (.cons
      (@parseChars_call "RollingWindow" (by decide) _ _ (.cons hx (.cons htwo .nil))) .nil)
  have hquotes : ¬ QuotesPath "WindowAve(RollingWindow(x, 2))".toList :=
    not_quotesPath_of_split rfl (by decide) <| List.forall_mem_singleton.mpr <|
      not_quotesPath_of_split rfl (by decide) <| List.forall_mem_cons.mpr
        ⟨not_quotesPath_of_no_split rfl,
          List.forall_mem_singleton.mpr (not_quotesPath_of_no_split rfl)⟩
  obtain ⟨hreadable, hlaw, -, -⟩ := canonical_text_reads_back
  exact ⟨_, hmean, rfl, (hlaw _ (hreadable _ _ hmean hquotes)).2⟩

end LiveQuery.Expr
