import LiveQuery.Proofs.Window.Pushes

/-!
# Proofs/Window/Conservation — a window loses nothing and invents nothing

Any listener can be watched: `Watched` passes every question and every piece of news on to it and
keeps a record.  Watching changes nothing (`pushAll_unwatched`), so what the record says of a
watched window is true of the window itself.

The law is one of conservation: **what the listener was told has gone, and then what the window
holds, are the values that were let in**, in the order of their pushes (`nothing_lost_or_invented`).
One push is described by `Push.Outcome`, with a constructor for each answer of the listener.
-/

namespace LiveQuery

/-- **What a listener was asked or told.** -/
inductive Notice where
  /-- It was asked about a value and let it in. -/
  | accepted (v : Json)
  /-- It was asked about a value and refused it. -/
  | rejected (v : Json) (e : EvalError)
  /-- It was told that a value goes. -/
  | evicted (v : Json)

/-- The value that a listener was told has gone. -/
def Notice.evicted? : Notice → Option Json
  | .evicted v => some v
  | _ => none

/-- **A listener that is watched**: itself, and everything it was asked or told so far. -/
structure Watched (σ : Type) where
  listener : σ
  notices : List Notice

namespace Watched

variable {σ : Type}

/-- The values that have gone, in the order in which the listener was told. -/
def evictions (w : Watched σ) : List Json := w.notices.filterMap Notice.evicted?

theorem evictions_append (l : σ) (w : Watched σ) (ns : List Notice) :
    (⟨l, w.notices ++ ns⟩ : Watched σ).evictions
      = w.evictions ++ ns.filterMap Notice.evicted? := List.filterMap_append

theorem filterMap_evicted? (out : List Entry) :
    (out.map fun e => Notice.evicted e.value).filterMap Notice.evicted? = out.map Entry.value := by
  rw [List.filterMap_map, ← List.filterMap_eq_map]
  rfl

variable [Listener σ]

/-- A question is passed on, and its answer noted. -/
def accept (w : Watched σ) (v : Json) : Except EvalError Unit × Watched σ :=
  match Listener.accept w.listener v with
  | (.ok (), l) => (.ok (), ⟨l, w.notices ++ [.accepted v]⟩)
  | (.error e, l) => (.error e, ⟨l, w.notices ++ [.rejected v e]⟩)

instance : Listener (Watched σ) where
  accept := accept
  evict w v := ⟨Listener.evict w.listener v, w.notices ++ [.evicted v]⟩
  report w size := Listener.report w.listener size

/-- **Every entry that goes is noted**, in order. -/
theorem evictAll_eq (w : Watched σ) (es : List Entry) :
    Listener.evictAll w es
      = ⟨Listener.evictAll w.listener es, w.notices ++ es.map (.evicted ·.value)⟩ := by
  induction es generalizing w with
  | nil => exact congrArg (Watched.mk w.listener) (List.append_nil _).symm
  | cons e es ih =>
    rw [Listener.evictAll, List.foldl_cons, ← Listener.evictAll, ih, List.map_cons]
    exact congrArg (Watched.mk _) (List.append_assoc ..)

theorem accept_of_ok {w : Watched σ} {v : Json} {l : σ}
    (h : Listener.accept w.listener v = (.ok (), l)) :
    Listener.accept w v = (.ok (), (⟨l, w.notices ++ [.accepted v]⟩ : Watched σ)) := by
  change accept w v = _
  rw [accept, h]

theorem accept_of_error {w : Watched σ} {v : Json} {e : EvalError} {l : σ}
    (h : Listener.accept w.listener v = (.error e, l)) :
    Listener.accept w v = (.error e, (⟨l, w.notices ++ [.rejected v e]⟩ : Watched σ)) := by
  change accept w v = _
  rw [accept, h]

end Watched

/-! ## One push -/

section Outcome

variable {σ : Type} [Listener σ]

/-- **What a push makes of a watched window**, by the answer of the listener. -/
inductive Push.Outcome (p : Push) (es : List Entry) (w : Watched σ) :
    Except EvalError Unit → Window (Watched σ) → Prop where
  /-- The value is let in; the listener is told of what goes after it was asked, and once. -/
  | accepted (l : σ) (out stay : List Entry)
      (answer : Listener.accept w.listener p.value = (.ok (), l))
      (entries : es ++ [p.entry] = out ++ stay) :
      Outcome p es w (.ok ())
        ⟨stay, some ⟨Listener.evictAll l out,
          w.notices ++ .accepted p.value :: out.map (.evicted ·.value)⟩⟩
  /-- The value is refused: the push fails as the listener does, and every entry stays. -/
  | rejected (e : EvalError) (l : σ)
      (answer : Listener.accept w.listener p.value = (.error e, l)) :
      Outcome p es w (.error e) ⟨es, some ⟨l, w.notices ++ [.rejected p.value e]⟩⟩

/-- **Every push has such an outcome.** -/
theorem Push.outcome (p : Push) (es : List Entry) (w : Watched σ) :
    p.Outcome es w ((⟨es, some w⟩ : Window (Watched σ)).push p.value p.bound p.now).1
      ((⟨es, some w⟩ : Window (Watched σ)).push p.value p.bound p.now).2 := by
  rcases hanswer : Listener.accept w.listener p.value with ⟨⟨e⟩ | ⟨⟨⟩⟩, l⟩
  case error =>
    rw [Window.push_of_reject (Watched.accept_of_error hanswer)]
    exact .rejected e l hanswer
  case ok =>
    rw [Window.push_of_accept (Watched.accept_of_ok hanswer), Watched.evictAll_eq,
      List.append_assoc, List.singleton_append]
    exact .accepted l _ _ hanswer (Window.gone_append_kept ..).symm

/-! ## Watching changes nothing -/

/-- A watched window, without the record. -/
def Window.unwatched (w : Window (Watched σ)) : Window σ :=
  ⟨w.entries, w.listener.map Watched.listener⟩

theorem Window.push_unwatched (es : List Entry) (w : Watched σ) (p : Push) :
    (⟨es, some w.listener⟩ : Window σ).push p.value p.bound p.now
      = (((⟨es, some w⟩ : Window (Watched σ)).push p.value p.bound p.now).1,
        ((⟨es, some w⟩ : Window (Watched σ)).push p.value p.bound p.now).2.unwatched) := by
  rcases hanswer : Listener.accept w.listener p.value with ⟨⟨e⟩ | ⟨⟨⟩⟩, l⟩
  case error =>
    rw [push_of_reject hanswer, push_of_reject (Watched.accept_of_error hanswer)]
    rfl
  case ok =>
    rw [push_of_accept hanswer, push_of_accept (Watched.accept_of_ok hanswer), Watched.evictAll_eq]
    rfl

/-- A window with a listener still has one after a push. -/
theorem Push.Outcome.exists_listener {p : Push} {es : List Entry} {w : Watched σ}
    {result : Except EvalError Unit} {after : Window (Watched σ)}
    (h : p.Outcome es w result after) :
    ∃ w', after = ⟨after.entries, some w'⟩ := by
  cases h <;> exact ⟨_, rfl⟩

/-- **Watching changes nothing**, push after push. -/
theorem Window.pushAll_unwatched (es : List Entry) (w : Watched σ) (ps : List Push) :
    (⟨es, some w.listener⟩ : Window σ).pushAll ps
      = (((⟨es, some w⟩ : Window (Watched σ)).pushAll ps).1,
        ((⟨es, some w⟩ : Window (Watched σ)).pushAll ps).2.unwatched) := by
  induction ps generalizing es w with
  | nil => rfl
  | cons p ps ih =>
    obtain ⟨w', hw'⟩ := (p.outcome es w).exists_listener
    rw [pushAll, pushAll, push_unwatched]
    dsimp only
    rw [hw']
    exact congrArg (fun t : List (Except EvalError Unit) × Window σ => (_ :: t.1, t.2)) (ih _ w')

/-! ## The law -/

/-- **One push keeps the balance**: what has gone and what is held grow by the value let in. -/
theorem Push.Outcome.balance {p : Push} {es : List Entry} {w w' : Watched σ}
    {result : Except EvalError Unit} {after : List Entry}
    (h : p.Outcome es w result ⟨after, some w'⟩) :
    w'.evictions ++ after.map Entry.value
      = w.evictions ++ es.map Entry.value ++ admittedValues [p] [result] := by
  cases h with
  | accepted l out stay answer entries =>
    have hvalues : out.map Entry.value ++ after.map Entry.value
        = es.map Entry.value ++ [p.value] := by
      rw [← List.map_append, ← entries, List.map_append]
      rfl
    rw [Watched.evictions_append, List.filterMap_cons_none rfl, Watched.filterMap_evicted?,
      List.append_assoc, hvalues, ← List.append_assoc]
    rfl
  | rejected e l answer =>
    rw [Watched.evictions_append]
    change w.evictions ++ [] ++ _ = _ ++ []
    rw [List.append_nil, List.append_nil]

/-- **…and so do all pushes.** -/
theorem Window.pushAll_balance (es : List Entry) (w : Watched σ) (ps : List Push) :
    ∃ w', ((⟨es, some w⟩ : Window (Watched σ)).pushAll ps).2.listener = some w' ∧
      w'.evictions ++ ((⟨es, some w⟩ : Window (Watched σ)).pushAll ps).2.contents
        = w.evictions ++ es.map Entry.value
          ++ admittedValues ps ((⟨es, some w⟩ : Window (Watched σ)).pushAll ps).1 := by
  induction ps generalizing es w with
  | nil => exact ⟨w, rfl, (List.append_nil _).symm⟩
  | cons p ps ih =>
    have hone := p.outcome es w
    rw [pushAll]
    generalize (⟨es, some w⟩ : Window (Watched σ)).push p.value p.bound p.now = t at hone
    obtain ⟨result, after⟩ := t
    obtain ⟨w', hafter⟩ := hone.exists_listener
    dsimp only at hone hafter ⊢
    rw [hafter] at hone ⊢
    obtain ⟨w'', hw'', hbalance⟩ := ih after.entries w'
    refine ⟨w'', hw'', ?_⟩
    rw [hbalance, hone.balance, admittedValues_cons p ps result, List.append_assoc]

/-- **A window loses nothing and invents nothing**, whatever its listener answers and whatever the
bounds and times: the values that have gone, as the listener was told, and then those that are held,
are those it began with and then those let in.  The next push has one of two outcomes: the value is
let in before anything goes, or the push fails as the listener does and every entry stays. -/
theorem nothing_lost_or_invented (es : List Entry) (l : σ) (ps : List Push) :
    let run := (⟨es, some ⟨l, []⟩⟩ : Window (Watched σ)).pushAll ps
    (⟨es, some l⟩ : Window σ).pushAll ps = (run.1, run.2.unwatched) ∧
      ∃ w : Watched σ, run.2.listener = some w ∧
        w.evictions ++ run.2.contents = es.map Entry.value ++ admittedValues ps run.1 ∧
        ∀ p : Push, p.Outcome run.2.entries w (run.2.push p.value p.bound p.now).1
          (run.2.push p.value p.bound p.now).2 := by
  intro run
  refine ⟨Window.pushAll_unwatched es ⟨l, []⟩ ps, ?_⟩
  obtain ⟨w, hw, hbalance⟩ := Window.pushAll_balance es ⟨l, []⟩ ps
  refine ⟨w, hw, hbalance, fun p => ?_⟩
  have hrun : run.2 = ⟨run.2.entries, some w⟩ := congrArg (Window.mk _) hw
  rw [hrun]
  exact p.outcome run.2.entries w

end Outcome

end LiveQuery
