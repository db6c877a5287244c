import LiveQuery.Json.Writer
import LiveQuery.Proofs.Cache.Admissions
import LiveQuery.Proofs.Feed.Sound

/-!
# Proofs/Feed/Lines — a bad line costs only itself

A line that carries no record leaves a feed with a subscriber exactly as it was, so that **every
later event finds the same feed** and answers the same (`answers_skip`).  A line that finds no
subscriber closes the connection and does nothing else.

What is left are the records that came while a slot was occupied (`kept`), and the cache is made of
these alone: the step lemma is `cache_step`, the run lemma `cache_run`.  Mailboxes, full or not,
play no part in it.
-/

namespace LiveQuery

/-- **What a feed answers to those who ask it.** -/
inductive Answer where
  | granted (t : Option Ticket)
  | receipt (r : Receipt)
  | found (record : Option Json)
  | counts (s : Stats)
deriving Repr

namespace Feed

variable {f : Feed} {text : String}

/-! ## Answers -/

/-- What is answered to an event. -/
def answer (f : Feed) : Event → List Answer
  | .subscribe accepts capacity => [.granted (f.subscribe accepts capacity).1]
  | .receive id => [.receipt (f.receive id).1]
  | .lookup key => [.found (f.cache.get? key)]
  | .stats => [.counts f.stats]
  | _ => []

/-- **What is answered during a run**, event by event. -/
def answers (f : Feed) (es : List Event) : List Answer := history step answer f es

theorem occupied_eq_zero_iff : f.occupied = 0 ↔ f.isVacant = true := by
  rw [occupied, isVacant, List.countP_eq_zero, List.all_eq_true]
  exact forall₂_congr fun _ _ => by rw [Option.not_isSome_iff_eq_none, Option.isNone_iff_eq_none]

/-- **A line without a record passes a feed with a subscriber by.** -/
theorem step_line_of_no_record (hoccupied : 0 < f.occupied) (hbad : recordOf? text = none) :
    f.step (.line text) = f := by
  have hvacant : ¬ f.isVacant = true := mt occupied_eq_zero_iff.mpr (Nat.ne_of_gt hoccupied)
  rw [step, line_eq, if_neg hvacant, hbad]
  exact ite_self f

/-- A line is blank or not JSON if it carries no record. -/
theorem recordOf?_eq_none_iff :
    recordOf? text = none ↔ Text.isBlankText text.toList = true ∨ Json.read? text = none := by
  rw [recordOf?, ite_eq_left_iff, Bool.not_eq_true]
  cases Text.isBlankText text.toList <;> simp

/-- **An event that changes nothing and is not answered might as well not have been.** -/
theorem run_skip {e : Event} {es : List Event} (h : (f.run es).step e = f.run es)
    (later : List Event) : f.run (es ++ e :: later) = f.run (es ++ later) := by
  rw [run_append, run_append]
  exact congrArg (fun g => run g later) h

theorem answers_skip {e : Event} {es : List Event} (h : (f.run es).step e = f.run es)
    (hanswer : (f.run es).answer e = []) (later : List Event) :
    f.answers (es ++ e :: later) = f.answers (es ++ later) := by
  have hcons : answers (f.run es) (e :: later) = answers (f.run es) later := by
    rw [answers, history, hanswer, h]
    rfl
  rw [answers, answers, history_append, history_append]
  exact congrArg (f.answers es ++ ·) hcons

/-- **A line that finds no subscriber** only closes the connection. -/
theorem step_line_of_vacant (hvacant : f.occupied = 0) (text : String) :
    f.step (.line text) = { f with connected := false } := by
  rw [step, line_eq, if_pos (occupied_eq_zero_iff.mp hvacant)]
  obtain ⟨slots, boxes, connected, nextId, cache, tally⟩ := f
  cases connected <;> rfl

/-! ## What the cache is fed -/

/-- **The record that a feed keeps at an event**: that of a line which finds a slot occupied. -/
def kept (f : Feed) : Event → List Json
  | .line text => if f.occupied = 0 then [] else (recordOf? text).toList
  | _ => []

theorem unsubscribe_cache (f : Feed) (t : Ticket) : (f.unsubscribe t).cache = f.cache := by
  rw [unsubscribe_eq]

/-- **The cache takes what is kept**, whatever happens to the slots and the mailboxes. -/
theorem cache_step (hf : f.Sound) (e : Event) :
    (f.step e).cache = f.cache.insertAll (f.kept e) := by
  cases e with
  | subscribe accepts capacity =>
    rw [step_subscribe]
    split <;> rfl
  | abandon accepts capacity =>
    rw [step_abandon]
    split
    · exact unsubscribe_cache _ _
    · rfl
  | unsubscribe t => exact unsubscribe_cache f t
  | receive id =>
    rw [step, receive_snd]
    rfl
  | line text =>
    by_cases hvacant : f.occupied = 0
    · rw [step_line_of_vacant hvacant, kept, if_pos hvacant]
      rfl
    · have hholders : ¬ f.isVacant = true := mt occupied_eq_zero_iff.mpr hvacant
      have hconnected : f.connected = true :=
        Bool.of_not_eq_false fun hclosed => hholders (isVacant_iff.mpr (hf.holders_eq_nil hclosed))
      rw [step, if_pos hconnected, line_eq, if_neg hholders, kept, if_neg hvacant]
      cases recordOf? text <;> rfl
  | lose =>
    rw [step]
    split <;> rfl
  | _ => rfl

/-- **The cache of a run is fed what is kept during the run**, and nothing else. -/
theorem cache_run (hf : f.Sound) (es : List Event) :
    (f.run es).cache = f.cache.insertAll (history step kept f es) := by
  induction es using List.reverseRecOn with
  | nil => rfl
  | append_singleton es e ih =>
    rw [run_concat, cache_step (hf.run es), ih, history_concat]
    exact List.foldl_append.symm

/-! ## The branch that is never taken -/

/-- Handing a record to the subscribers, where something else may be done if it finds nobody. -/
def deliverOr (nobody : Feed → Feed) (f : Feed) (record : Json) : Feed :=
  let (slots, mailboxes, tally) := offer record f.slots f.mailboxes f.tally
  let f' : Feed := { f with slots, mailboxes, tally }
  if f.isVacant then nobody f' else f'

/-- A line of the connection, handed on by `deliverOr`. -/
def lineOr (nobody : Feed → Feed) (f : Feed) (text : String) : Feed :=
  if f.isVacant then f.closeIdle
  else if Text.isBlankText text.toList then f
  else
    match Json.read? text with
    | none => f
    | some record => deliverOr nobody { f with cache := (f.cache.insert record).2 } record

/-- The feed after an event, with lines taken by `lineOr`. -/
def stepOr (nobody : Feed → Feed) (f : Feed) : Event → Feed
  | .line text => if f.connected then lineOr nobody f text else f
  | e => f.step e

/-- **A record that is handed round finds somebody**, so what would be done otherwise does not
matter. -/
theorem lineOr_eq (nobody : Feed → Feed) (f : Feed) (text : String) :
    lineOr nobody f text = f.line text := by
  rw [lineOr, line]
  split
  case isTrue => rfl
  case isFalse hvacant =>
    split
    case isTrue => rfl
    case isFalse =>
      cases Json.read? text with
      | none => rfl
      | some record => exact (if_neg hvacant).trans (if_neg hvacant).symm

theorem stepOr_eq (nobody : Feed → Feed) : stepOr nobody = step := by
  funext f e
  cases e with
  | line text => rw [stepOr, step, lineOr_eq]
  | _ => rfl

/-- **A bad line costs only itself.**  After any run,

* a line that is blank or not JSON, and finds a slot occupied, might as well not have come: whatever
  happens later, the feed and its answers are the same;
* a line that finds no slot occupied only closes the connection;
* the cache is one that was fed the records that came while a slot was occupied;
* it does not matter what is done with a record that finds nobody when it is handed round. -/
theorem bad_line_costs_only_itself (cache : Cache) (es : List Event) :
    let f := (idle cache).run es
    (∀ text, 0 < f.occupied → Text.isBlankText text.toList = true ∨ Json.read? text = none →
      ∀ later, (idle cache).run (es ++ .line text :: later) = (idle cache).run (es ++ later) ∧
        (idle cache).answers (es ++ .line text :: later) = (idle cache).answers (es ++ later)) ∧
    (∀ text, f.occupied = 0 → f.step (.line text) = { f with connected := false }) ∧
    f.cache = cache.insertAll (history step kept (idle cache) es) ∧
    ∀ nobody, es.foldl (stepOr nobody) (idle cache) = f := by
  intro f
  refine ⟨fun text hoccupied hbad later => ?_, fun text hvacant => ?_, ?_, fun nobody => ?_⟩
  · have hsame := step_line_of_no_record hoccupied (recordOf?_eq_none_iff.mpr hbad)
    exact ⟨run_skip hsame later, answers_skip hsame rfl later⟩
  · exact step_line_of_vacant hvacant text
  · exact cache_run (sound_idle cache) es
  · rw [stepOr_eq]
    rfl

/-- A record that finds no room is kept, and found in spite of an unreadable and a blank line; one
that comes after the only subscriber has left is not. -/
theorem full_mailbox_does_not_hide_a_record :
    let cache := Cache.empty "id" 4
    let es := [.subscribe true 1, .line (Cache.keyed "a" .null).text,
      .line (Cache.keyed "b" .null).text]
    let later := [.line " \t", .lookup "b", .stats]
    let f := (idle cache).run es
    let left := (idle cache).run [.subscribe true 1, .unsubscribe ⟨0, 0⟩]
    (0 < f.occupied ∧ Json.read? "[1," = none) ∧
    (idle cache).answers (es ++ .line "[1," :: later) = (idle cache).answers (es ++ later) ∧
    (idle cache).answers (es ++ later) = [.granted (some ⟨0, 0⟩),
      .found (some (Cache.keyed "b" .null)), .counts ⟨1, 1, true, ⟨1, 1, 1⟩⟩] ∧
    (left.occupied = 0 ∧ left.connected = true) ∧
    left.step (.line (Cache.keyed "c" .null).text) = { left with connected := false } := by
  have hanswers : (idle (.empty "id" 4)).answers
      [.subscribe true 1, .line (Cache.keyed "a" .null).text, .line (Cache.keyed "b" .null).text,
        .line " \t", .lookup "b", .stats]
      = [.granted (some ⟨0, 0⟩), .found (some (Cache.keyed "b" .null)),
        .counts ⟨1, 1, true, ⟨1, 1, 1⟩⟩] := by rfl
  intro cache es later f left
  have hoccupied : 0 < f.occupied := by decide
  have hbad : Json.read? "[1," = none := by rfl
  have hleft : left.occupied = 0 := by decide
  obtain ⟨hskip, -⟩ := bad_line_costs_only_itself cache es
  obtain ⟨-, hvacant, -⟩ :=
    bad_line_costs_only_itself cache [.subscribe true 1, .unsubscribe ⟨0, 0⟩]
  exact ⟨⟨hoccupied, hbad⟩, (hskip _ hoccupied (Or.inr hbad) later).2, hanswers,
    ⟨hleft, by decide⟩, hvacant _ hleft⟩

end Feed

end LiveQuery
