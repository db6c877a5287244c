/-!
# Proofs/History — what is noted while a system runs

A system is a step on states, and a run of it is the fold of that step over its events.  An
observer **notes** something of every state and event; `history` strings his notes together.
Statements about a whole run compare a history with the state the run ends in, and the lemmas here
are what such statements are proved by:

* `history_append` and `history_concat` cut a history where the run is cut;
* `history_congr` carries it across a simulation;
* `history_filter` passes over the events that neither change the state nor are noted.
-/

namespace LiveQuery

section History

variable {σ τ ε α : Type} {step : σ → ε → σ} {note : σ → ε → List α}

/-- **What is noted during a run**, event by event, each in the state that the event finds. -/
def history (step : σ → ε → σ) (note : σ → ε → List α) : σ → List ε → List α
  | _, [] => []
  | s, e :: es => note s e ++ history step note (step s e) es

/-- The run cut in two: the second part begins where the first ends. -/
theorem history_append (s : σ) (es fs : List ε) :
    history step note s (es ++ fs)
      = history step note s es ++ history step note (es.foldl step s) fs := by
  induction es generalizing s with
  | nil => rfl
  | cons e es ih =>
    rw [List.cons_append, history, ih, history, List.foldl_cons, List.append_assoc]

/-- **One more event adds what is noted of it** in the state the run has reached. -/
theorem history_concat (s : σ) (es : List ε) (e : ε) :
    history step note s (es ++ [e]) = history step note s es ++ note (es.foldl step s) e := by
  rw [history_append, history, history, List.append_nil]

/-- What is in a history was noted of some event, and the run splits there. -/
theorem exists_of_mem_history {s : σ} {es : List ε} {a : α} (h : a ∈ history step note s es) :
    ∃ before e after, es = before ++ e :: after ∧ a ∈ note (before.foldl step s) e := by
  induction es generalizing s with
  | nil => cases h
  | cons e es ih =>
    rw [history, List.mem_append] at h
    rcases h with h | h
    · exact ⟨[], e, es, rfl, h⟩
    · obtain ⟨before, e', after, rfl, ha⟩ := ih h
      exact ⟨e :: before, e', after, rfl, ha⟩

/-- **A simulation keeps the history**: of related states the same is noted. -/
theorem history_congr {R : σ → τ → Prop} {step' : τ → ε → τ} {note' : τ → ε → List α}
    (hstep : ∀ s t e, R s t → R (step s e) (step' t e))
    (hnote : ∀ s t e, R s t → note s e = note' t e) {s : σ} {t : τ} (h : R s t) (es : List ε) :
    history step note s es = history step' note' t es := by
  induction es generalizing s t with
  | nil => rfl
  | cons e es ih => rw [history, history, hnote s t e h, ih (hstep s t e h)]

/-- A simulation relates the ends of the two runs. -/
theorem foldl_of_simulation {R : σ → τ → Prop} {step' : τ → ε → τ}
    (hstep : ∀ s t e, R s t → R (step s e) (step' t e)) {s : σ} {t : τ} (h : R s t)
    (es : List ε) : R (es.foldl step s) (es.foldl step' t) := by
  induction es generalizing s t with
  | nil => exact h
  | cons e es ih => exact ih (hstep s t e h)

/-- **Events that change nothing and of which nothing is noted may be left out.** -/
theorem history_filter {p : ε → Bool} (hstep : ∀ s e, p e = false → step s e = s)
    (hnote : ∀ s e, p e = false → note s e = []) (s : σ) (es : List ε) :
    history step note s (es.filter p) = history step note s es := by
  induction es generalizing s with
  | nil => rfl
  | cons e es ih =>
    cases hp : p e with
    | true => rw [List.filter_cons_of_pos hp, history, history, ih]
    | false =>
      have hneg : ¬ p e = true := by rw [hp]; exact Bool.false_ne_true
      rw [List.filter_cons_of_neg hneg, history, hnote s e hp, hstep s e hp, ih, List.nil_append]

end History

end LiveQuery
