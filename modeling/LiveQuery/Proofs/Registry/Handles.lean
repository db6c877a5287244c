import LiveQuery.Proofs.Feed.Connection
import LiveQuery.Proofs.Table
import LiveQuery.Registry

/-!
# Proofs/Registry/Handles — one feed behind every handle

Who locates a name gets a **handle** on its feed: the number under which the feed came into being.
Feeds never go, so a handle stays good, and all that happens to a feed happens through its handles.

* `located_run`: a handle that was located stands for its name from then on, so that equal names
  and equal handles are the same thing.
* `feedAt?_run`: the feed behind a handle is what it would be alone, after all that was **asked**
  of it and nothing else.

With the laws of a single feed this gives `one_connection_per_feed`.
-/

namespace LiveQuery

namespace Registry

/-! ## Handles -/

/-- **What can happen to a registry and its feeds.**  Whoever has a handle can ask its feed for
anything, and lines come to it too. -/
inductive Event where
  | locate (name : String)
  | names
  | ask (handle : Nat) (e : Feed.Event)
deriving Repr

/-- The handle on the feed of a name. -/
def handleOf (r : Registry) (name : String) : Nat := r.feeds.keys.idxOf name

/-- **The feed behind a handle.** -/
def feedAt? (r : Registry) (handle : Nat) : Option Feed := (r.feeds.keys[handle]?).map r.feed

/-- Something happens to the feed behind a handle, if there is one. -/
def ask (r : Registry) (handle : Nat) (e : Feed.Event) : Registry :=
  match r.feeds.keys[handle]? with
  | some name => r.setFeed name ((r.feed name).step e)
  | none => r

/-- The registry after an event. -/
def step (r : Registry) : Event → Registry
  | .locate name => r.locate name
  | .names => r
  | .ask handle e => r.ask handle e

/-- **The registry after a run of events.** -/
def run (r : Registry) (es : List Event) : Registry := es.foldl step r

/-- The name that is located at an event, with the handle that is got. -/
def answer (r : Registry) : Event → List (String × Nat)
  | .locate name => [(name, (r.locate name).handleOf name)]
  | _ => []

/-- The names that were located during a run, each with the handle that was got. -/
def located (r : Registry) (es : List Event) : List (String × Nat) := history step answer r es

/-- What is asked of the feed behind a handle at an event. -/
def question (handle : Nat) (r : Registry) : Event → List Feed.Event
  | .ask j e => if j = handle ∧ (r.feedAt? handle).isSome then [e] else []
  | _ => []

/-- **What was asked of a feed during a run.** -/
def asked (r : Registry) (handle : Nat) (es : List Event) : List Feed.Event :=
  history step (question handle) r es

variable {r : Registry} {name : String} {handle : Nat}

theorem run_concat (r : Registry) (es : List Event) (e : Event) :
    r.run (es ++ [e]) = (r.run es).step e := List.foldl_append

/-! ## Names -/

theorem keys_setFeed (r : Registry) (name : String) (f : Feed) :
    (r.setFeed name f).feeds.keys
      = if name ∈ r.feeds.keys then r.feeds.keys else r.feeds.keys ++ [name] :=
  Table.keys_set r.feeds name f

/-- Whatever is asked of a feed, the names stay as they are. -/
theorem keys_ask (r : Registry) (handle : Nat) (e : Feed.Event) :
    (r.ask handle e).feeds.keys = r.feeds.keys := by
  rw [ask]
  split
  case h_1 name hname => rw [keys_setFeed, if_pos (List.mem_of_getElem? hname)]
  case h_2 => rfl

/-- **A name keeps its number.** -/
theorem getElem?_keys_step {r : Registry} (h : r.feeds.keys[handle]? = some name) (e : Event) :
    (r.step e).feeds.keys[handle]? = some name := by
  cases e with
  | locate other =>
    rw [step, locate, keys_setFeed]
    split
    · exact h
    · rw [List.getElem?_append_left (List.getElem?_eq_some_iff.mp h).1]
      exact h
  | names => exact h
  | ask j e =>
    rw [step, keys_ask]
    exact h

/-- The handle that is got stands for the name. -/
theorem getElem?_handleOf_locate (r : Registry) (name : String) :
    (r.locate name).feeds.keys[(r.locate name).handleOf name]? = some name := by
  have hmem : name ∈ (r.locate name).feeds.keys := by
    rw [locate, keys_setFeed]
    split
    case isTrue h => exact h
    case isFalse => exact List.mem_append_right _ List.mem_cons_self
  exact List.getElem?_idxOf hmem

/-- **A handle stands for the name that it was located by**, from then on. -/
theorem located_run (r : Registry) {es : List Event} (h : (name, handle) ∈ r.located es) :
    (r.run es).feeds.keys[handle]? = some name := by
  induction es using List.reverseRecOn with
  | nil => cases h
  | append_singleton es e ih =>
    rw [located, history_concat, List.mem_append] at h
    rw [run_concat]
    rcases h with h | h
    · exact getElem?_keys_step (ih h) e
    · cases e with
      | locate other =>
        cases List.mem_singleton.mp h
        exact getElem?_handleOf_locate _ _
      | _ => cases h

/-! ## Feeds -/

/-- Locating a name leaves every feed as it is. -/
theorem feed_locate (r : Registry) (name other : String) :
    (r.locate name).feed other = r.feed other := by
  rw [locate, feed_setFeed]
  split
  case isTrue h => rw [h]
  case isFalse => rfl

theorem feed_eq_newFeed (h : name ∉ r.feeds.keys) : r.feed name = r.newFeed := by
  rw [feed, Table.get?_eq_none h]
  rfl

/-- Equal names stand at equal numbers. -/
theorem handle_inj (r : Registry) {h j : Nat} (hh : r.feeds.keys[h]? = some name)
    (hj : r.feeds.keys[j]? = some name) : h = j :=
  (List.getElem?_inj (List.getElem?_eq_some_iff.mp hh).1 r.feeds.nodup).mp (hh.trans hj.symm)

/-- What is asked behind one handle changes no feed behind another. -/
theorem feed_ask_of_ne {j : Nat} (hname : r.feeds.keys[handle]? = some name) (hne : j ≠ handle)
    (e : Feed.Event) : (r.ask j e).feed name = r.feed name := by
  rw [ask]
  split
  case h_1 other hother =>
    have hother' : name ≠ other := by
      rintro rfl
      exact hne (handle_inj r hother hname)
    rw [feed_setFeed, if_neg hother']
  case h_2 => rfl

theorem feed_ask_self (hname : r.feeds.keys[handle]? = some name) (e : Feed.Event) :
    (r.ask handle e).feed name = (r.feed name).step e := by
  rw [ask, hname]
  exact (feed_setFeed ..).trans (if_pos rfl)

/-- **What was asked tells the feed**: behind its handle stands what a new feed becomes by it, and
nothing was asked where no feed is yet. -/
structure Traced (start : Feed) (handle : Nat) (r : Registry) (qs : List Feed.Event) : Prop where
  newFeed_eq : r.newFeed = start
  feed_eq : ∀ name, r.feeds.keys[handle]? = some name → r.feed name = start.run qs
  eq_nil : r.feeds.keys[handle]? = none → qs = []

namespace Traced

variable {start : Feed} {qs : List Feed.Event}

theorem locate (h : Traced start handle r qs) (other : String) :
    Traced start handle (r.locate other) qs := by
  refine ⟨h.newFeed_eq, fun name hname => ?_, fun hnew => ?_⟩
  · rw [feed_locate]
    cases hold : r.feeds.keys[handle]? with
    | some name' =>
      have hname' := (getElem?_keys_step hold (.locate other)).symm.trans hname
      exact h.feed_eq name (hold.trans hname')
    | none =>
      -- The name is new, for it would have had its number before.
      have hnew : name ∉ r.feeds.keys := by
        intro hmem
        obtain ⟨j, hj⟩ := List.mem_iff_getElem?.mp hmem
        obtain rfl : j = handle := handle_inj _ (getElem?_keys_step hj (.locate other)) hname
        rw [hold] at hj
        cases hj
      rw [feed_eq_newFeed hnew, h.newFeed_eq, h.eq_nil hold]
      rfl
  · refine h.eq_nil (Option.eq_none_iff_forall_ne_some.mpr fun name hname => ?_)
    have hname' := getElem?_keys_step hname (.locate other)
    rw [step, hnew] at hname'
    cases hname'

theorem ask (h : Traced start handle r qs) (j : Nat) (e : Feed.Event) :
    Traced start handle (r.ask j e) (qs ++ r.question handle (.ask j e)) := by
  have hnew : (r.ask j e).newFeed = r.newFeed := by
    rw [Registry.ask]
    split <;> rfl
  refine ⟨hnew.trans h.newFeed_eq, fun name hname => ?_, fun hgone => ?_⟩
  · rw [keys_ask] at hname
    have hthere : (r.feedAt? handle).isSome = true := by
      rw [feedAt?, hname]
      rfl
    by_cases hj : j = handle
    · subst hj
      rw [question, if_pos ⟨rfl, hthere⟩, Feed.run_concat, feed_ask_self hname,
        h.feed_eq name hname]
    · have hnot : ¬ (j = handle ∧ (r.feedAt? handle).isSome = true) := fun h => hj h.1
      rw [question, if_neg hnot, List.append_nil, feed_ask_of_ne hname hj, h.feed_eq name hname]
  · rw [keys_ask] at hgone
    have hnot : ¬ (j = handle ∧ (r.feedAt? handle).isSome = true) := by
      rw [feedAt?, hgone]
      exact fun h => Bool.false_ne_true h.2
    rw [question, if_neg hnot, List.append_nil]
    exact h.eq_nil hgone

theorem step (h : Traced start handle r qs) (e : Event) :
    Traced start handle (r.step e) (qs ++ r.question handle e) := by
  cases e with
  | locate other =>
    have hnone : r.question handle (.locate other) = [] := rfl
    rw [hnone, List.append_nil]
    exact h.locate other
  | names =>
    have hnone : r.question handle .names = [] := rfl
    rw [hnone, List.append_nil]
    exact h
  | ask j e => exact h.ask j e

end Traced

/-- **Each feed is what it would be alone**, after all that was asked of it. -/
theorem traced_run (path : String) (capacity handle : Nat) (es : List Event) :
    Traced (empty path capacity).newFeed handle ((empty path capacity).run es)
      ((empty path capacity).asked handle es) := by
  induction es using List.reverseRecOn with
  | nil => exact ⟨rfl, fun _ h => (nomatch h), fun _ => rfl⟩
  | append_singleton es e ih =>
    rw [run_concat, asked, history_concat]
    exact ih.step e

/-- **The feed behind a handle**, after any run. -/
theorem feedAt?_run {path : String} {capacity : Nat} {es : List Event} {f : Feed}
    (h : ((empty path capacity).run es).feedAt? handle = some f) :
    f = (empty path capacity).newFeed.run ((empty path capacity).asked handle es) := by
  obtain ⟨name, hname, rfl⟩ := Option.map_eq_some_iff.mp h
  exact (traced_run path capacity handle es).feed_eq name hname

/-! ## The law -/

/-- **At most one connection for each feed, and no subscriber without one.**  After any run of a
registry and its feeds:

* the same names have the same handles, and behind every handle that was located is a feed;
* a feed is linked to the far side as its log says, and its connection is guarded: at most one is
  open, and one is closed before the next is opened. -/
theorem one_connection_per_feed (path : String) (capacity : Nat) (es : List Event) :
    (∀ n₁ n₂ h₁ h₂, (n₁, h₁) ∈ (empty path capacity).located es →
      (n₂, h₂) ∈ (empty path capacity).located es → (n₁ = n₂ ↔ h₁ = h₂)) ∧
    (∀ n h, (n, h) ∈ (empty path capacity).located es →
      ∃ f, ((empty path capacity).run es).feedAt? h = some f) ∧
    ∀ h f, ((empty path capacity).run es).feedAt? h = some f →
      let start := (empty path capacity).newFeed
      let qs := (empty path capacity).asked h es
      f = start.run qs ∧ f.Linked (start.contacts qs) ∧ f.Guarded ∧
        (start.contacts qs).count .opened
          = (start.contacts qs).countP Contact.closes + f.connected.toNat ∧
        ∀ before between after,
          start.contacts qs = before ++ .opened :: between ++ .opened :: after →
            ∃ x ∈ between, x.closes = true := by
  refine ⟨fun n₁ n₂ h₁ h₂ hmem₁ hmem₂ => ?_, fun n h hmem => ?_, fun h f hf => ?_⟩
  · have hkey₁ := located_run _ hmem₁
    have hkey₂ := located_run _ hmem₂
    constructor
    · rintro rfl
      exact handle_inj _ hkey₁ hkey₂
    · rintro rfl
      exact Option.some.inj (hkey₁.symm.trans hkey₂)
  · exact ⟨_, congrArg (Option.map _) (located_run _ hmem)⟩
  · obtain rfl := feedAt?_run hf
    have hlinked := Feed.linked_run (.empty path capacity) ((empty path capacity).asked h es)
    refine ⟨rfl, hlinked, (Feed.sound_run _ _).guarded, ?_, fun before between after hlog => ?_⟩
    · exact Contact.count_opened hlinked.alternates
    · have hmoves := hlinked.alternates
      exact Contact.exists_closes_between (hlog ▸ hmoves)

/-- A feed that lost its connection opens another one for the next request, and one handle is as
good as the other. -/
theorem reconnected_feed_opened_two :
    let es : List Event := [.locate "a", .ask 0 (.subscribe true 1), .ask 0 .lose, .locate "b",
      .locate "a", .ask 0 (.subscribe true 1)]
    ∃ f, ((empty "key" 4).run es).feedAt? 0 = some f ∧ f.Guarded ∧ f.tally.opened = 2 := by
  obtain ⟨-, hthere, hlaws⟩ := one_connection_per_feed "key" 4 [.locate "a",
    .ask 0 (.subscribe true 1), .ask 0 .lose, .locate "b", .locate "a", .ask 0 (.subscribe true 1)]
  obtain ⟨f, hf⟩ := hthere "a" 0 (by decide)
  obtain ⟨-, hlinked, hguarded, -⟩ := hlaws 0 f hf
  refine ⟨f, hf, hguarded, ?_⟩
  rw [hlinked.opened_eq]
  decide

end Registry

end LiveQuery
