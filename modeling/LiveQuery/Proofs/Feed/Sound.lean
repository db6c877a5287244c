import LiveQuery.Proofs.Feed.Slots
import LiveQuery.Proofs.History

/-!
# Proofs/Feed/Sound — what is true of a feed at every moment

`Sound` is the invariant that all laws of a feed rest on: no subscriber holds two slots, every id
in use was granted before, and **a feed without a connection has no subscriber**.

Every event is one of a few moves, or leaves the feed alone: a subscriber is let in (`letIn`), a
ticket is given back, a subscriber stops listening or takes a record, a record is handed round
(`hand`), the connection is closed or lost.  Each law is proved move by move.
-/

namespace LiveQuery.Feed

variable {f : Feed} {t : Ticket} {accepts : Bool} {capacity : Capacity} {text : String}

/-! ## The holders -/

/-- **The ids that hold a slot**, in the order of the slots. -/
def holders (f : Feed) : List Nat := f.slots.reduceOption

theorem holds_iff {id : Nat} : f.holds id = true ↔ id ∈ f.holders := by
  rw [holds, List.contains_iff_mem, holders, List.reduceOption_mem_iff]

theorem isVacant_iff : f.isVacant = true ↔ f.holders = [] := by
  rw [isVacant, List.all_eq_true, List.eq_nil_iff_forall_not_mem]
  constructor
  · intro h id hid
    exact absurd (h _ (List.reduceOption_mem_iff.mp hid)) Bool.false_ne_true
  · intro h s hs
    cases s with
    | none => rfl
    | some id => exact absurd (List.reduceOption_mem_iff.mpr hs) (h id)

/-- Nobody holds a slot where every slot is free. -/
theorem holders_eq_nil_iff : f.holders = [] ↔ ∀ s ∈ f.slots, s = none := by
  rw [← isVacant_iff, isVacant, List.all_eq_true]
  exact forall₂_congr fun _ _ => Option.isNone_iff_eq_none

/-! ## Runs -/

theorem run_append (f : Feed) (es fs : List Event) : f.run (es ++ fs) = (f.run es).run fs :=
  List.foldl_append

theorem run_concat (f : Feed) (es : List Event) (e : Event) :
    f.run (es ++ [e]) = (f.run es).step e := run_append f es [e]

/-! ## The moves -/

/-- The ticket that a feed grants next. -/
def nextTicket (f : Feed) : Ticket := ⟨(occupy f.slots f.nextId).1, f.nextId⟩

/-- **A feed with a new subscriber**, and with a connection if it had none. -/
def letIn (f : Feed) (capacity : Capacity) : Feed where
  slots := (occupy f.slots f.nextId).2
  mailboxes := f.mailboxes.set f.nextId (.empty capacity)
  connected := true
  nextId := f.nextId + 1
  cache := f.cache
  tally := { f.tally with opened := f.tally.opened + if f.connected then 0 else 1 }

/-- The new subscriber joins the holders. -/
theorem holders_letIn (f : Feed) (capacity : Capacity) :
    (f.letIn capacity).holders.Perm (f.nextId :: f.holders) := perm_occupy f.slots f.nextId

/-- The new subscriber gets an empty mailbox. -/
theorem get?_letIn (f : Feed) (capacity : Capacity) (id : Nat) :
    (f.letIn capacity).mailboxes.get? id
      = if id = f.nextId then some (.empty capacity) else f.mailboxes.get? id :=
  Table.get?_set f.mailboxes f.nextId id (.empty capacity)

theorem subscribe_eq (f : Feed) (accepts : Bool) (capacity : Capacity) :
    f.subscribe accepts capacity
      = if f.connected || accepts then (some f.nextTicket, f.letIn capacity) else (none, f) := by
  obtain ⟨slots, boxes, connected, nextId, cache, tally⟩ := f
  cases connected with
  | true => rfl
  | false =>
    cases accepts with
    | true => rfl
    | false => rfl

/-- A feed that is not asked too much has no connection, and gets none. -/
theorem disconnected_of_overask (h : f.overask accepts = none) : f.connected = false := by
  rw [overask, Option.map_eq_none_iff, connect?] at h
  split at h
  · cases h
  · exact Bool.eq_false_iff.mpr ‹_›

/-- …and one that is has one, or can get one. -/
theorem open_of_overask {g : Feed} (h : f.overask accepts = some g) :
    (f.connected || accepts) = true := by
  obtain ⟨f', hf', -⟩ := Option.map_eq_some_iff.mp h
  rw [connect?] at hf'
  split_ifs at hf' with hc haccepts
  · rw [hc, Bool.true_or]
  · rw [haccepts, Bool.or_true]

/-- **What is left of a feed that is asked too much** is what the loss of its connection leaves, and
the counts. -/
theorem eq_of_overask {g : Feed} (h : f.overask accepts = some g) :
    g = { f.lose with tally := g.tally } := by
  obtain ⟨f', hf', rfl⟩ := Option.map_eq_some_iff.mp h
  rw [connect?] at hf'
  split_ifs at hf'
  · obtain rfl := Option.some.inj hf'
    rfl
  · obtain rfl := Option.some.inj hf'
    rfl

theorem step_subscribe (f : Feed) (accepts : Bool) (capacity : Capacity) :
    f.step (.subscribe accepts capacity)
      = if f.connected || accepts then f.letIn capacity else f := by
  rw [step, subscribe_eq]
  split <;> rfl

/-- An abandoned subscription is a subscription that ends at once. -/
theorem step_abandon (f : Feed) (accepts : Bool) (capacity : Capacity) :
    f.step (.abandon accepts capacity)
      = if f.connected || accepts then (f.letIn capacity).leave f.nextTicket else f := by
  rw [step, subscribeAbandoned, subscribe_eq]
  by_cases h : (f.connected || accepts) = true
  · rw [if_pos h, if_pos h]
  · rw [if_neg h, if_neg h]

/-- Looking into a mailbox changes nothing but the mailbox. -/
theorem receive_snd (f : Feed) (id : Nat) :
    (f.receive id).2 = { f with mailboxes := (f.receive id).2.mailboxes } := by
  rw [receive]
  split <;> rfl

/-- **Looking into a mailbox takes its oldest record out.** -/
theorem get?_receive (f : Feed) (id j : Nat) :
    (f.receive id).2.mailboxes.get? j
      = if j = id then (f.mailboxes.get? j).map Mailbox.take else f.mailboxes.get? j := by
  rw [receive]
  split
  case h_1 capacity v waiting hbox =>
    refine (Table.get?_set ..).trans ?_
    split
    case isTrue heq =>
      rw [heq, hbox]
      rfl
    case isFalse => rfl
  case h_2 hbox =>
    change f.mailboxes.get? j = _
    split
    case isTrue heq =>
      subst heq
      cases hcase : f.mailboxes.get? j with
      | none => rfl
      | some box =>
        obtain ⟨capacity, waiting⟩ := box
        cases waiting with
        | nil => rfl
        | cons v waiting => exact absurd hcase (hbox capacity v waiting)
    case isFalse => rfl

/-- **The record that a line carries**: none if it is blank or not JSON. -/
def recordOf? (text : String) : Option Json :=
  if Text.isBlankText text.toList then none else Json.read? text

/-- **A feed after a record was handed round**: it is kept, and offered to every holder. -/
def hand (f : Feed) (v : Json) : Feed :=
  let offered := offer v f.slots f.mailboxes f.tally
  { f with
    cache := (f.cache.insert v).2
    slots := offered.1
    mailboxes := offered.2.1
    tally := offered.2.2 }

/-- Those who no longer listen lose their slots. -/
theorem holders_hand (f : Feed) (v : Json) :
    (f.hand v).holders = f.holders.filter f.mailboxes.contains :=
  offer_holders v f.slots f.mailboxes f.tally

/-- Nobody holds a slot of a connection that is over. -/
theorem holders_lose (f : Feed) : f.lose.holders = [] := by
  rw [holders, lose, List.map_const', List.reduceOption_replicate_none]

theorem line_eq (f : Feed) (text : String) :
    f.line text = if f.isVacant then f.closeIdle else ((recordOf? text).map f.hand).getD f := by
  rw [line, recordOf?]
  by_cases hv : f.isVacant = true
  · rw [if_pos hv, if_pos hv]
  · rw [if_neg hv, if_neg hv]
    by_cases hb : Text.isBlankText text.toList = true
    · rw [if_pos hb, if_pos hb]
      rfl
    · rw [if_neg hb, if_neg hb]
      cases Json.read? text with
      | none => rfl
      | some v => exact if_neg hv

/-- **What holds after every move holds after every event.** -/
theorem step_of_moves {P : Feed → Prop} (same : P f) (letIn : ∀ capacity, P (f.letIn capacity))
    (leave : ∀ capacity, P ((f.letIn capacity).leave f.nextTicket))
    (unsubscribe : ∀ t, P (f.unsubscribe t)) (discard : ∀ id, P (f.discard id))
    (receive : ∀ id, P (f.receive id).2) (closeIdle : f.holders = [] → P f.closeIdle)
    (hand : ∀ v, P (f.hand v)) (lose : P f.lose) (e : Event) : P (f.step e) := by
  cases e with
  | subscribe accepts capacity =>
    rw [step_subscribe]
    split
    · exact letIn capacity
    · exact same
  | abandon accepts capacity =>
    rw [step_abandon]
    split
    · exact leave capacity
    · exact same
  | unsubscribe t => exact unsubscribe t
  | discard id => exact discard id
  | receive id => exact receive id
  | line text =>
    rw [step, line_eq]
    split
    case isFalse => exact same
    case isTrue =>
      split
      case isTrue hvacant => exact closeIdle (isVacant_iff.mp hvacant)
      case isFalse =>
        cases recordOf? text with
        | none => exact same
        | some v => exact hand v
  | lose =>
    rw [step]
    split
    · exact lose
    · exact same
  | lookup key => exact same
  | stats => exact same

/-! ## The invariant -/

/-- **What is true of a feed at every moment.** -/
structure Sound (f : Feed) : Prop where
  nodup : f.holders.Nodup
  lt_nextId : ∀ id ∈ f.holders, id < f.nextId
  get?_eq_none : ∀ id, f.nextId ≤ id → f.mailboxes.get? id = none
  holders_eq_nil : f.connected = false → f.holders = []

theorem sound_idle (cache : Cache) : (idle cache).Sound where
  nodup := List.nodup_nil
  lt_nextId := fun _ h => nomatch h
  get?_eq_none := fun _ _ => rfl
  holders_eq_nil := fun _ => rfl

namespace Sound

/-- A feed with a subscriber has a connection. -/
theorem connected_of_mem (h : f.Sound) {id : Nat} (hid : id ∈ f.holders) :
    f.connected = true := by
  cases hc : f.connected with
  | true => rfl
  | false =>
    rw [h.holders_eq_nil hc] at hid
    cases hid

/-- The next id holds nothing yet. -/
theorem nextId_notMem (h : f.Sound) : f.nextId ∉ f.holders :=
  fun hid => absurd (h.lt_nextId _ hid) (Nat.lt_irrefl _)

theorem letIn (h : f.Sound) (capacity : Capacity) : (f.letIn capacity).Sound := by
  have hholders := holders_letIn f capacity
  refine ⟨?_, fun id hid => ?_, fun id hid => ?_, fun hc => nomatch hc⟩
  · rw [hholders.nodup_iff, List.nodup_cons]
    exact ⟨h.nextId_notMem, h.nodup⟩
  · rw [hholders.mem_iff, List.mem_cons] at hid
    rcases hid with rfl | hid
    · exact Nat.lt_succ_self _
    · exact Nat.lt_succ_of_lt (h.lt_nextId id hid)
  · have hlt : f.nextId < id := hid
    rw [get?_letIn, if_neg (Nat.ne_of_gt hlt)]
    exact h.get?_eq_none id (Nat.le_of_lt hlt)

theorem unsubscribe (h : f.Sound) (t : Ticket) : (f.unsubscribe t).Sound := by
  have hmem : ∀ id ∈ (vacate f.slots t).reduceOption, id ∈ f.holders := fun id hid =>
    ((mem_vacate_iff h.nodup t).mp hid).1
  rw [unsubscribe_eq]
  refine ⟨nodup_vacate h.nodup t, fun id hid => h.lt_nextId id (hmem id hid), h.get?_eq_none, ?_⟩
  intro hc
  refine List.eq_nil_iff_forall_not_mem.mpr fun id hid => ?_
  have hid := hmem id hid
  rw [h.holders_eq_nil hc] at hid
  cases hid

theorem discard (h : f.Sound) (id : Nat) : (f.discard id).Sound := by
  refine ⟨h.nodup, h.lt_nextId, fun j hj => ?_, h.holders_eq_nil⟩
  have hget : (f.discard id).mailboxes.get? j
      = if j = id then none else f.mailboxes.get? j := Table.get?_erase f.mailboxes id j
  rw [hget, h.get?_eq_none j hj, ite_self]

theorem leave (h : f.Sound) (t : Ticket) : (f.leave t).Sound := (h.discard t.id).unsubscribe t

theorem closeIdle (h : f.Sound) (hv : f.holders = []) : f.closeIdle.Sound :=
  ⟨h.nodup, h.lt_nextId, h.get?_eq_none, fun _ => hv⟩

theorem receive (h : f.Sound) (id : Nat) : (f.receive id).2.Sound := by
  rw [receive_snd]
  refine ⟨h.nodup, h.lt_nextId, fun j hj => ?_, h.holders_eq_nil⟩
  rw [get?_receive, h.get?_eq_none j hj, Option.map_none, ite_self]

theorem hand (h : f.Sound) (v : Json) : (f.hand v).Sound := by
  have hsub : (f.hand v).holders.Sublist f.holders := by
    rw [holders_hand]
    exact List.filter_sublist
  refine ⟨h.nodup.sublist hsub, fun id hid => h.lt_nextId id (hsub.subset hid), fun j hj => ?_, ?_⟩
  · refine (get?_offer h.nodup v f.mailboxes f.tally j).trans ?_
    rw [h.get?_eq_none j hj, Option.map_none, ite_self]
  · intro hc
    rw [h.holders_eq_nil hc] at hsub
    exact List.sublist_nil.mp hsub

theorem lose (h : f.Sound) : f.lose.Sound where
  nodup := holders_lose f ▸ List.nodup_nil
  lt_nextId := fun _ hid => absurd (holders_lose f ▸ hid) List.not_mem_nil
  get?_eq_none := h.get?_eq_none
  holders_eq_nil := fun _ => holders_lose f

/-- **Whatever happens, a feed stays sound.** -/
theorem step (h : f.Sound) (e : Event) : (f.step e).Sound :=
  step_of_moves h h.letIn (fun capacity => (h.letIn capacity).leave _) h.unsubscribe h.discard
    h.receive h.closeIdle h.hand h.lose e

/-- **A feed is sound after every run.** -/
theorem run (h : f.Sound) (es : List Event) : (f.run es).Sound :=
  List.foldlRecOn es Feed.step h fun _ hg e _ => hg.step e

end Sound

/-- **What holds of every feed that a run from nothing can reach.** -/
theorem sound_run (cache : Cache) (es : List Event) : ((idle cache).run es).Sound :=
  (sound_idle cache).run es

end LiveQuery.Feed
