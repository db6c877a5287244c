import LiveQuery.Proofs.Service.Occupancy

/-!
# Proofs/Service/Stopped — a feed that is asked too much is gone for good

Somebody who asks a feed for more than a mailbox can hold stops it: **everybody else on it is
released, and it never has a connection again** (`request_stops_feed`).  Whoever asks for it then is
told that it is gone.

That a feed is `gone` is kept by every step (`gone_after`); what it means is in `Orderly`, since a
feed that has stopped is not lively.
-/

namespace LiveQuery

namespace Service

variable {s : Service} {name : String} {m : Moment} {e : Moment × Step}

/-- A feed that has stopped has no connection. -/
theorem disconnected_of_gone (hs : s.Orderly) (h : name ∈ s.gone) :
    (s.feed name).connected = false :=
  Bool.eq_false_iff.mpr fun hc => (hs.lively name hc).2 h

/-- **A feed that has stopped stays so** at every step but `kill`. -/
theorem gone_after (hs : s.Settled) (hkill : e.2 ≠ .kill) (h : name ∈ s.gone) :
    name ∈ (s.after e).gone := (hs.turn.steady_perform hkill e.1).2.gone name h

/-- …and over every run. -/
theorem gone_run (hs : s.Settled) {es : List (Moment × Step)} (hes : ∀ e ∈ es, e.2 ≠ .kill)
    (h : name ∈ s.gone) : name ∈ (es.foldl after s).gone := by
  induction es generalizing s with
  | nil => exact h
  | cons e es ih =>
    obtain ⟨hkill, hrest⟩ := List.forall_mem_cons.mp hes
    exact ih (hs.after hkill) hrest (gone_after hs hkill h)

/-- **What a step asks of a feed**, if it waits for an answer. -/
def Step.asks? : Step → Option String
  | .subscribe name _ _ | .lookup name _ | .stats name => some name
  | _ => none

/-- **Whoever asks a feed that has stopped is told that it is gone.** -/
theorem reply_of_gone (hs : s.Settled) (h : name ∈ s.gone) {st : Step} (hst : st.asks? = some name)
    (m : Moment) : (s.step m st).1 = .failed (.feedGone name) := by
  have hhandled : name ∈ (s.turn.handled name).gone := h
  have hrunning := hs.turn.running
  change (s.turn.perform m st).1 = _
  cases st with
  | subscribe other subscriber n =>
    obtain rfl := Option.some.inj hst
    rcases Nat.lt_or_ge Mailbox.limit n with hover | hfits
    · have hbrought := overask_brought (hs.turn.handled other).toOrderly other
      rw [perform_overask hrunning subscriber hover]
      exact congrArg Reply.failed (if_pos (hbrought.gone other hhandled))
    · obtain ⟨capacity, rfl⟩ := Capacity.exists_val_eq hfits
      have hclosed : ¬ (((s.turn.handled other).feed other).connected ||
          (s.turn.handled other).accepts other) = true := fun hopen =>
        not_gone_of_open (hs.turn.handled other).lively hopen hhandled
      rw [perform_subscribe hrunning, takeSubscription_eq, if_neg hclosed]
      exact congrArg Reply.failed (if_pos hhandled)
  | lookup other key =>
    obtain rfl := Option.some.inj hst
    rw [perform, consult, withFeed_eq hrunning]
    exact if_pos hhandled
  | stats other =>
    obtain rfl := Option.some.inj hst
    rw [perform, consult, withFeed_eq hrunning]
    exact if_pos hhandled
  | _ => cases hst

/-- **One request for more than a mailbox can hold stops a feed for good**: nobody keeps a slot of
it, it has no connection any more, and it answers nobody. -/
theorem request_stops_feed (hs : s.Settled) (hconnected : (s.feed name).connected = true)
    (subscriber : String) {n : Nat} (hover : Mailbox.limit < n) (m : Moment) :
    let request := (m, Step.subscribe name subscriber n)
    (s.step m request.2).1 = .failed (.feedGone name) ∧
      ((s.after request).feed name).stats.occupied = 0 ∧
      ∀ es : List (Moment × Step), (∀ e ∈ es, e.2 ≠ .kill) →
        ((es.foldl after (s.after request)).feed name).connected = false ∧
        ∀ st : Step, st.asks? = some name →
          ((es.foldl after (s.after request)).step m st).1 = .failed (.feedGone name) := by
  intro request
  have ht := (hs.turn.handled name).toOrderly
  have hstep : s.turn.perform m request.2 = _ :=
    perform_overask hs.turn.running subscriber hover m
  -- The feed has a connection, so it is asked, and stops.
  have hstops : name ∈ ((s.turn.handled name).overask name).gone :=
    gone_overask ((congrArg Feed.connected (congrFun (feed_handled s.turn name) name)).trans
      hconnected)
  have hgone : name ∈ (s.after request).gone := by
    rw [after_eq, hstep]
    exact (steady_pollAll (overask_brought ht name).orderly m).gone name hstops
  have hsettled : (s.after request).Settled := hs.after Step.noConfusion
  refine ⟨?_, occupied_of_lose hs Step.noConfusion (if_pos hover), fun es hes => ?_⟩
  · change (s.turn.perform m request.2).1 = _
    rw [hstep]
    exact congrArg Reply.failed (if_pos hstops)
  · have hlast := hsettled.run hes
    have hstill := gone_run hsettled hes hgone
    refine ⟨disconnected_of_gone hlast.toOrderly hstill, fun st hst => ?_⟩
    exact reply_of_gone hlast hstill hst m

/-- `b` holds its slot, and then nothing comes from the far side and `b` does nothing but look: what
it finds, and whether it keeps its slot and its connection, depends on what `c` asks for. -/
theorem neighbour_stops_the_feed :
    let m : Moment := ⟨0, 0⟩
    let s := (start "key" 4 4 .registryGone).after (m, .subscribe "a" "b" 1)
    let neighbour := fun n => s.after (m, .subscribe "a" "c" n)
    (s.feed "a").slots[0]? = some (some 0) ∧
      (((neighbour 1).step m (.receive "b")).1 = .receipt .empty ∧
        ((neighbour 1).feed "a").slots[0]? = some (some 0) ∧
        ((neighbour 1).feed "a").connected = true) ∧
      ((neighbour 2305843009213693952).step m (.receive "b")).1 = .receipt .released ∧
        ((neighbour 2305843009213693952).feed "a").slots[0]? = some none ∧
        ((neighbour 2305843009213693952).feed "a").connected = false :=
  ⟨rfl, ⟨rfl, rfl, rfl⟩, rfl, rfl, rfl⟩

end Service

end LiveQuery
