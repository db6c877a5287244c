import LiveQuery.Proofs.Feed.Sound
import Mathlib.Data.List.Induction

/-!
# Proofs/Feed/Connection — one connection at a time

Between a feed and the far side four things pass: a connection is opened or refused, the feed
closes it because a line found nobody, or it is lost.  This log of `contacts` runs through a
machine with two states, `Contact.after?`, which has no move for opening a second connection or
closing one that is not there: **a feed never leaves it** (`linked_run`).

From this follow the counts (`Contact.count_opened`) and that a connection is closed before the
next one is opened (`Contact.exists_closes_between`).
-/

namespace LiveQuery

/-- **What passes between a feed and the far side.** -/
inductive Contact where
  /-- A connection was asked for, and there is one now. -/
  | opened
  /-- A connection was asked for in vain. -/
  | refused
  /-- The feed closed the connection, since a line found nobody. -/
  | vacated
  /-- The connection ended or failed. -/
  | lost
deriving DecidableEq, Repr

namespace Contact

/-- Whether a contact closes the connection. -/
def closes : Contact → Bool
  | vacated | lost => true
  | _ => false

/-- **Whether there is a connection after a contact.**  None is asked for while there is one, and
none closed while there is none. -/
def after? : Bool → Contact → Option Bool
  | false, opened => some true
  | false, refused => some false
  | true, vacated => some false
  | true, lost => some false
  | _, _ => none

variable {c d : Bool} {x : Contact} {log : List Contact}

theorem count_opened_after (h : after? c x = some d) :
    [x].count opened + c.toNat = [x].countP closes + d.toNat := by
  cases c <;> cases x <;> cases h <;> rfl

/-- **Opened as often as closed**, and once more if there is a connection. -/
theorem count_opened (h : log.foldlM after? c = some d) :
    log.count opened + c.toNat = log.countP closes + d.toNat := by
  induction log generalizing c with
  | nil =>
    obtain rfl : c = d := Option.some.inj h
    rfl
  | cons x log ih =>
    rw [List.foldlM_cons] at h
    obtain ⟨b, hx, hlog⟩ := Option.bind_eq_some_iff.mp h
    have hhere := count_opened_after hx
    have hrest := ih hlog
    rw [← List.singleton_append, List.count_append, List.countP_append]
    omega

/-- Where a connection is opened, there was none, and then there is one. -/
theorem after?_opened (h : after? c opened = some d) : c = false ∧ d = true := by
  cases c <;> cases h
  exact ⟨rfl, rfl⟩

/-- **A connection is closed before the next one is opened.** -/
theorem exists_closes_between {before between after : List Contact}
    (h : (before ++ opened :: between ++ opened :: after).foldlM after? c = some d) :
    ∃ x ∈ between, x.closes = true := by
  rw [List.append_assoc, List.foldlM_append] at h
  obtain ⟨b, -, h⟩ := Option.bind_eq_some_iff.mp h
  rw [List.cons_append, List.foldlM_cons] at h
  obtain ⟨first, hfirst, h⟩ := Option.bind_eq_some_iff.mp h
  obtain rfl : first = true := (after?_opened hfirst).2
  rw [List.foldlM_append] at h
  obtain ⟨last, hbetween, h⟩ := Option.bind_eq_some_iff.mp h
  rw [List.foldlM_cons] at h
  obtain ⟨_, hsecond, -⟩ := Option.bind_eq_some_iff.mp h
  obtain rfl : last = false := (after?_opened hsecond).1
  have hcount : between.count opened + 1 = between.countP closes := count_opened hbetween
  exact List.countP_pos_iff.mp (hcount ▸ Nat.succ_pos _)

end Contact

namespace Feed

variable {f : Feed}

/-! ## The log -/

/-- **What passes at an event.**  A request asks for a connection if there is none; a line and the
end of the connection concern the one that there is. -/
def contact (f : Feed) : Event → List Contact
  | .subscribe accepts _ | .abandon accepts _ =>
    if f.connected then [] else if accepts then [.opened] else [.refused]
  | .line _ => if f.connected && f.isVacant then [.vacated] else []
  | .lose => if f.connected then [.lost] else []
  | _ => []

/-- What passes during a run. -/
def contacts (f : Feed) (es : List Event) : List Contact := history step contact f es

theorem contact_abandon (f : Feed) (accepts : Bool) (capacity : Capacity) :
    f.contact (.abandon accepts capacity) = f.contact (.subscribe accepts capacity) := rfl

/-- A subscription that ends at once leaves the connection as it is. -/
theorem leave_connected (f : Feed) (t : Ticket) :
    (f.leave t).connected = f.connected ∧ (f.leave t).tally = f.tally := by
  rw [leave, unsubscribe_eq]
  exact ⟨rfl, rfl⟩

/-- A request makes the moves of the log. -/
theorem contact_step_subscribe (f : Feed) (accepts : Bool) (capacity : Capacity) :
    (f.contact (.subscribe accepts capacity)).foldlM Contact.after? f.connected
        = some (f.step (.subscribe accepts capacity)).connected ∧
      (f.step (.subscribe accepts capacity)).tally.opened
        = f.tally.opened + (f.contact (.subscribe accepts capacity)).count .opened := by
  rw [step_subscribe, contact]
  cases hc : f.connected with
  | true => exact ⟨rfl, by rw [letIn, hc]; rfl⟩
  | false =>
    cases accepts with
    | true => exact ⟨rfl, by rw [letIn, hc]; rfl⟩
    | false => exact ⟨congrArg some hc.symm, rfl⟩

/-- **An event makes the moves of the log**, and counts the connections it opens. -/
theorem contact_step (hf : f.Sound) (e : Event) :
    (f.contact e).foldlM Contact.after? f.connected = some (f.step e).connected ∧
      (f.step e).tally.opened = f.tally.opened + (f.contact e).count .opened := by
  cases e with
  | subscribe accepts capacity => exact contact_step_subscribe f accepts capacity
  | abandon accepts capacity =>
    have hsame : (f.step (.abandon accepts capacity)).connected
          = (f.step (.subscribe accepts capacity)).connected ∧
        (f.step (.abandon accepts capacity)).tally
          = (f.step (.subscribe accepts capacity)).tally := by
      rw [step_abandon, step_subscribe]
      split
      · exact leave_connected _ _
      · exact ⟨rfl, rfl⟩
    rw [contact_abandon, hsame.1, hsame.2]
    exact contact_step_subscribe f accepts capacity
  | unsubscribe t => rw [step, unsubscribe_eq]; exact ⟨rfl, rfl⟩
  | discard id => exact ⟨rfl, rfl⟩
  | receive id =>
    rw [step, receive_snd]
    exact ⟨rfl, rfl⟩
  | line text =>
    rw [step, contact]
    cases hc : f.connected with
    | false => exact ⟨congrArg some hc.symm, rfl⟩
    | true =>
      rw [Bool.true_and, if_pos rfl, line_eq]
      cases hv : f.isVacant with
      | true => exact ⟨rfl, rfl⟩
      | false =>
        rw [if_neg Bool.false_ne_true, if_neg Bool.false_ne_true]
        cases recordOf? text with
        | none => exact ⟨congrArg some hc.symm, rfl⟩
        | some v =>
          have hopened := congrArg Tally.opened (offer_tally hf.nodup v f.mailboxes f.tally)
          exact ⟨congrArg some hc.symm, hopened⟩
  | lose =>
    rw [step, contact]
    cases hc : f.connected with
    | true => exact ⟨rfl, rfl⟩
    | false => exact ⟨congrArg some hc.symm, rfl⟩
  | lookup key => exact ⟨rfl, rfl⟩
  | stats => exact ⟨rfl, rfl⟩

/-- **A feed is linked to the far side as its log says**: the log is one of the machine's and ends
in the state the feed is in, what it opened was counted, and without a connection every slot is
free. -/
structure Linked (f : Feed) (log : List Contact) : Prop where
  alternates : log.foldlM Contact.after? false = some f.connected
  opened_eq : f.tally.opened = log.count .opened
  slots_free : f.connected = false → ∀ s ∈ f.slots, s = none

/-- **Whatever happens, a feed is linked as its log says.** -/
theorem linked_run (cache : Cache) (es : List Event) :
    ((idle cache).run es).Linked ((idle cache).contacts es) := by
  suffices h : ((idle cache).contacts es).foldlM Contact.after? false
      = some ((idle cache).run es).connected ∧
        ((idle cache).run es).tally.opened = ((idle cache).contacts es).count .opened from
    ⟨h.1, h.2, fun hc => holders_eq_nil_iff.mp ((sound_run cache es).holders_eq_nil hc)⟩
  induction es using List.reverseRecOn with
  | nil => exact ⟨rfl, rfl⟩
  | append_singleton es e ih =>
    have hstep := contact_step (sound_run cache es) e
    rw [contacts, history_concat, ← contacts, List.foldlM_append, List.count_append, ih.1,
      run_concat, hstep.2, ih.2]
    exact ⟨hstep.1, rfl⟩

/-! ## Single events -/

/-- **What is behind a contact.** -/
theorem contact_cases (f : Feed) (e : Event) :
    f.contact e = [] ∨
    (f.connected = false ∧ f.contact e = [.opened] ∧
      ∃ capacity, e = .subscribe true capacity ∨ e = .abandon true capacity) ∨
    (f.connected = false ∧ f.contact e = [.refused]) ∨
    (f.connected = true ∧ f.contact e = [.lost] ∧ e = .lose) ∨
    (f.connected = true ∧ f.contact e = [.vacated] ∧ f.holders = [] ∧ ∃ text, e = .line text) := by
  cases e with
  | subscribe accepts capacity =>
    rw [contact]
    cases f.connected with
    | true => exact Or.inl rfl
    | false =>
      cases accepts with
      | true => exact Or.inr (Or.inl ⟨rfl, rfl, capacity, Or.inl rfl⟩)
      | false => exact Or.inr (Or.inr (Or.inl ⟨rfl, rfl⟩))
  | abandon accepts capacity =>
    rw [contact]
    cases f.connected with
    | true => exact Or.inl rfl
    | false =>
      cases accepts with
      | true => exact Or.inr (Or.inl ⟨rfl, rfl, capacity, Or.inr rfl⟩)
      | false => exact Or.inr (Or.inr (Or.inl ⟨rfl, rfl⟩))
  | line text =>
    rw [contact, ← isVacant_iff]
    cases f.connected with
    | false => exact Or.inl rfl
    | true =>
      cases f.isVacant with
      | true => exact Or.inr (Or.inr (Or.inr (Or.inr ⟨rfl, rfl, rfl, text, rfl⟩)))
      | false => exact Or.inl rfl
  | lose =>
    rw [contact]
    cases f.connected with
    | true => exact Or.inr (Or.inr (Or.inr (Or.inl ⟨rfl, rfl, rfl⟩)))
    | false => exact Or.inl rfl
  | _ => exact Or.inl rfl

/-- **What may happen to the connection of a feed at an event**: only a request that finds none
opens one, and only the far side, or a line that finds nobody, closes it. -/
structure Guarded (f : Feed) : Prop where
  opens : ∀ e, f.connected = false → (f.step e).connected = true →
    ∃ capacity, e = .subscribe true capacity ∨ e = .abandon true capacity
  counts : ∀ e, (f.step e).tally.opened ≠ f.tally.opened →
    f.connected = false ∧ (f.step e).connected = true
  closes : ∀ e, f.connected = true → (f.step e).connected = false →
    e = .lose ∨ ((∃ text, e = .line text) ∧ ∀ s ∈ f.slots, s = none)
  /-- While there is a connection, what the far side would answer does not matter. -/
  asks : f.connected = true → ∀ capacity, f.subscribe true capacity = f.subscribe false capacity ∧
    f.subscribeAbandoned true capacity = f.subscribeAbandoned false capacity
  /-- A refused connection changes nothing at all. -/
  refuses : f.connected = false → ∀ capacity, f.subscribe false capacity = (none, f) ∧
    f.subscribeAbandoned false capacity = f

/-- **The connection of a sound feed is guarded.** -/
theorem Sound.guarded (hf : f.Sound) : f.Guarded where
  opens := by
    intro e hbefore hafter
    have hmoves := (contact_step hf e).1
    rw [hbefore, hafter] at hmoves
    rcases contact_cases f e with h | ⟨-, -, hrequest⟩ | ⟨-, h⟩ | ⟨hc, -, -⟩ | ⟨hc, -, -⟩
    · rw [h] at hmoves
      cases hmoves
    · exact hrequest
    · rw [h] at hmoves
      cases hmoves
    · exact absurd (hbefore.symm.trans hc) Bool.false_ne_true
    · exact absurd (hbefore.symm.trans hc) Bool.false_ne_true
  counts := by
    intro e hne
    obtain ⟨hmoves, hcount⟩ := contact_step hf e
    rcases contact_cases f e with h | ⟨hc, h, -⟩ | ⟨-, h⟩ | ⟨-, h, -⟩ | ⟨-, h, -⟩
    · exact absurd (hcount.trans (by rw [h]; rfl)) hne
    · rw [h, hc] at hmoves
      exact ⟨hc, (Option.some.inj hmoves).symm⟩
    · exact absurd (hcount.trans (by rw [h]; rfl)) hne
    · exact absurd (hcount.trans (by rw [h]; rfl)) hne
    · exact absurd (hcount.trans (by rw [h]; rfl)) hne
  closes := by
    intro e hbefore hafter
    have hmoves := (contact_step hf e).1
    rw [hbefore, hafter] at hmoves
    rcases contact_cases f e with h | ⟨hc, -, -⟩ | ⟨hc, -⟩ | ⟨-, -, he⟩ | ⟨-, -, hvacant, hline⟩
    · rw [h] at hmoves
      cases hmoves
    · exact absurd (hc.symm.trans hbefore) Bool.false_ne_true
    · exact absurd (hc.symm.trans hbefore) Bool.false_ne_true
    · exact Or.inl he
    · exact Or.inr ⟨hline, holders_eq_nil_iff.mp hvacant⟩
  asks := by
    intro hc capacity
    have hsame : f.subscribe true capacity = f.subscribe false capacity := by
      rw [subscribe_eq, subscribe_eq, hc]
      rfl
    rw [subscribeAbandoned, subscribeAbandoned, hsame]
    exact ⟨rfl, rfl⟩
  refuses := by
    intro hc capacity
    have hrefused : f.subscribe false capacity = (none, f) := by
      rw [subscribe_eq, hc]
      rfl
    rw [subscribeAbandoned, hrefused]
    exact ⟨rfl, rfl⟩

end Feed

end LiveQuery
