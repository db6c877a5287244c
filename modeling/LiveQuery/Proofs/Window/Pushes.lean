import LiveQuery.Window.Basic

/-!
# Proofs/Window/Pushes — what a push lets in and what it lets go

An eviction cuts the entries in two: those that go, from the front, and those that stay (`gone`,
`kept`).  The listener is told of the ones that go, in order, and of nothing else
(`evictExpired_eq`).  So a push is one of two things: **the value is let in and some of the oldest
entries go** (`push_of_accept`), or it is rejected and every entry stays (`push_of_reject`).

A bound on the number of entries keeps the last ones (`kept_count`).
-/

namespace LiveQuery

variable {σ : Type} [Listener σ] {b : Bound} {now : Nat} {es : List Entry} {l l' : σ}

/-- **A value pushed into a window**, with the bound and the time of the push. -/
structure Push where
  value : Json
  bound : Bound
  now : Nat

/-- What a pushed value is in the window. -/
def Push.entry (p : Push) : Entry := ⟨p.value, p.now⟩

/-- The listener, told of some entries that go. -/
def Listener.evictAll (l : σ) (es : List Entry) : σ :=
  es.foldl (fun l e => Listener.evict l e.value) l

namespace Window

/-- The values of a window, oldest first. -/
def contents (w : Window σ) : List Json := w.entries.map Entry.value

theorem report_some (es : List Entry) (l : σ) :
    (⟨es, some l⟩ : Window σ).report = Listener.report l es.length := rfl

/-! ## Evictions -/

/-- **The entries that go**, from the front while the oldest is expired. -/
def gone (b : Bound) (now : Nat) : List Entry → List Entry
  | [] => []
  | e :: es => if expired b now e (es.length + 1) then e :: gone b now es else []

/-- **The entries that stay.** -/
def kept (b : Bound) (now : Nat) : List Entry → List Entry
  | [] => []
  | e :: es => if expired b now e (es.length + 1) then kept b now es else e :: es

/-- **Every entry goes or stays**, in its order. -/
theorem gone_append_kept (b : Bound) (now : Nat) (es : List Entry) :
    gone b now es ++ kept b now es = es := by
  induction es with
  | nil => rfl
  | cons e es ih =>
    rw [gone, kept]
    split
    · rw [List.cons_append, ih]
    · rfl

/-- What stays is the end of what was there. -/
theorem kept_suffix (b : Bound) (now : Nat) (es : List Entry) : kept b now es <:+ es :=
  ⟨gone b now es, gone_append_kept b now es⟩

/-- **An eviction tells the listener of the entries that go.** -/
theorem evictExpired_eq (b : Bound) (now : Nat) (es : List Entry) (l : Option σ) :
    evictExpired b now es l = ⟨kept b now es, l.map (Listener.evictAll · (gone b now es))⟩ := by
  induction es generalizing l with
  | nil => cases l <;> rfl
  | cons e es ih =>
    rw [evictExpired, gone, kept]
    split
    · rw [ih]
      cases l <;> rfl
    · cases l <;> rfl

/-- **A bound on the number of entries keeps the last ones.** -/
theorem kept_count (capacity now : Nat) (es : List Entry) :
    kept (.count capacity) now es = es.drop (es.length - capacity) := by
  induction es with
  | nil => exact List.drop_nil.symm
  | cons e es ih =>
    rw [kept, expired, List.length_cons]
    by_cases hfull : capacity < es.length + 1
    · rw [if_pos (decide_eq_true hfull), ih, Nat.succ_sub (Nat.le_of_lt_succ hfull),
        List.drop_succ_cons]
    · rw [if_neg (by simpa using hfull), Nat.sub_eq_zero_of_le (Nat.le_of_not_lt hfull),
        List.drop_zero]

/-! ## One push -/

/-- **A value that is accepted goes to the end**, and then the oldest entries go. -/
theorem push_of_accept {p : Push} (h : Listener.accept l p.value = (.ok (), l')) :
    push ⟨es, some l⟩ p.value p.bound p.now
      = (.ok (), ⟨kept p.bound p.now (es ++ [p.entry]),
          some (Listener.evictAll l' (gone p.bound p.now (es ++ [p.entry])))⟩) := by
  simp only [push, h]
  rw [evictExpired_eq]
  rfl

/-- **A value that is rejected changes nothing** but the listener. -/
theorem push_of_reject {p : Push} {e : EvalError} (h : Listener.accept l p.value = (.error e, l')) :
    push ⟨es, some l⟩ p.value p.bound p.now = (.error e, ⟨es, some l'⟩) := by
  simp only [push, h]

/-! ## Many pushes -/

/-- **Values pushed in turn**: what each push gives, and the window in the end. -/
def pushAll (w : Window σ) : List Push → List (Except EvalError Unit) × Window σ
  | [] => ([], w)
  | p :: ps =>
    let (result, w) := w.push p.value p.bound p.now
    let (results, w) := w.pushAll ps
    (result :: results, w)

end Window

/-- **The values that were let in**, in the order of their pushes. -/
def admittedValues : List Push → List (Except EvalError Unit) → List Json
  | p :: ps, .ok () :: results => p.value :: admittedValues ps results
  | _ :: ps, .error _ :: results => admittedValues ps results
  | _, _ => []

theorem admittedValues_cons (p : Push) (ps : List Push) (result : Except EvalError Unit)
    (results : List (Except EvalError Unit)) :
    admittedValues (p :: ps) (result :: results)
      = admittedValues [p] [result] ++ admittedValues ps results := by
  cases result <;> rfl

end LiveQuery
