import LiveQuery.Proofs.Feed.Seat
import LiveQuery.Service
import Mathlib.Logic.Function.Basic

/-!
# Proofs/Service/Parties — who holds a slot

A slot is held by a direct subscription, by a client's session, or for a moment by somebody who has
no name yet (`Party`).  `Tidy` says of the feeds and the tickets of all parties that **the holders
of slots and the parties with tickets belong together**: no two parties have one ticket, and who
holds a slot is a party.

What happens to feeds and tickets are a few moves: a ticket is granted, handed on or given back, or
something happens to a feed that lets nobody in.  Each move keeps everything tidy, and leaves the
seats of all other parties as they are.
-/

namespace LiveQuery

/-- **Who can have a ticket.** -/
inductive Party where
  | subscriber (name : String)
  | client (id : String)
  /-- Somebody who has just been let in. -/
  | newcomer
deriving DecidableEq

/-- The seat that a ticket is for. -/
def seatOf (feeds : String → Feed) (sub : Subscription) : Seat :=
  (feeds sub.feed).seat sub.ticket.id

/-- **Feeds and tickets belong together.** -/
structure Tidy (feeds : String → Feed) (tickets : Party → Option Subscription) : Prop where
  sound : ∀ name, (feeds name).Sound
  issued : ∀ {p sub}, tickets p = some sub → (feeds sub.feed).Issued sub.ticket
  listens : ∀ {p sub}, tickets p = some sub → (seatOf feeds sub).mailbox.isSome = true
  distinct : ∀ {p q sub sub'}, tickets p = some sub → tickets q = some sub' →
    sub.feed = sub'.feed → sub.ticket.id = sub'.ticket.id → p = q
  owned : ∀ {name id}, id ∈ (feeds name).holders →
    ∃ p sub, tickets p = some sub ∧ sub.feed = name ∧ sub.ticket.id = id

variable {feeds : String → Feed} {tickets : Party → Option Subscription} {p q : Party}
  {sub sub' : Subscription} {name : String} {f : Feed}

theorem seatOf_update_of_ne (h : sub.feed ≠ name) (f : Feed) :
    seatOf (Function.update feeds name f) sub = seatOf feeds sub := by
  rw [seatOf, Function.update_of_ne h, seatOf]

theorem seatOf_update_self (h : sub.feed = name) (f : Feed) :
    seatOf (Function.update feeds name f) sub = f.seat sub.ticket.id := by
  subst h
  rw [seatOf, Function.update_self]

/-- After a grant a ticket is the new one, or an old one of somebody else. -/
theorem update_some_cases (h : Function.update tickets p (some sub') q = some sub) :
    (q = p ∧ sub = sub') ∨ (q ≠ p ∧ tickets q = some sub) := by
  by_cases hq : q = p
  · subst hq
    rw [Function.update_self] at h
    exact Or.inl ⟨rfl, (Option.some.inj h).symm⟩
  · rw [Function.update_of_ne hq] at h
    exact Or.inr ⟨hq, h⟩

/-- After a return a ticket is an old one of somebody else. -/
theorem ne_and_of_update_none (h : Function.update tickets p none q = some sub) :
    q ≠ p ∧ tickets q = some sub := by
  have hq : q ≠ p := by
    rintro rfl
    rw [Function.update_self] at h
    cases h
  rw [Function.update_of_ne hq] at h
  exact ⟨hq, h⟩

/-- **Who holds a slot after a granted ticket is given back**: everybody else. -/
theorem Feed.mem_holders_leave {t : Ticket} (hf : f.Sound) (ht : f.Issued t) {id : Nat} :
    id ∈ (f.leave t).holders ↔ id ∈ f.holders ∧ id ≠ t.id := by
  have hleave : (f.leave t).holders = (vacate f.slots t).reduceOption := by
    rw [leave, unsubscribe_eq]
    rfl
  rw [hleave, mem_vacate_iff hf.nodup]
  refine and_congr_right fun hid => not_congr ⟨And.left, fun heq => ⟨heq, ?_⟩⟩
  exact ht.slot_of_mem (heq ▸ hid)

namespace Tidy

/-! ## Letting nobody in -/

/-- One feed is changed for a sound one. -/
theorem sound_update (h : Tidy feeds tickets) (hsound : f.Sound) :
    ∀ other, (Function.update feeds name f other).Sound :=
  (Function.forall_update_iff feeds fun _ g => g.Sound).mpr ⟨hsound, fun other _ => h.sound other⟩

/-- One feed is changed, and the tickets it has issued stay good. -/
theorem issued_update (h : Tidy feeds tickets) (hsub : tickets q = some sub)
    (hissued : sub.feed = name → f.Issued sub.ticket) :
    (Function.update feeds name f sub.feed).Issued sub.ticket := by
  by_cases hname : sub.feed = name
  · rw [hname, Function.update_self]
    exact hissued hname
  · rw [Function.update_of_ne hname]
    exact h.issued hsub

/-- **A feed may change so long as tickets stay good and nobody new holds a slot.** -/
theorem setFeed (h : Tidy feeds tickets) (hsound : f.Sound)
    (hissued : ∀ {p sub}, tickets p = some sub → sub.feed = name →
      f.Issued sub.ticket ∧ (f.seat sub.ticket.id).mailbox.isSome = true)
    (hholders : ∀ id ∈ f.holders, id ∈ (feeds name).holders) :
    Tidy (Function.update feeds name f) tickets where
  sound := h.sound_update hsound
  issued := fun hsub => h.issued_update hsub fun hname => (hissued hsub hname).1
  listens := by
    intro p sub hsub
    by_cases hname : sub.feed = name
    · rw [seatOf_update_self hname]
      exact (hissued hsub hname).2
    · rw [seatOf_update_of_ne hname]
      exact h.listens hsub
  distinct := h.distinct
  owned := by
    intro other id hid
    by_cases hother : other = name
    · subst hother
      rw [Function.update_self] at hid
      exact h.owned (hholders id hid)
    · rw [Function.update_of_ne hother] at hid
      exact h.owned hid

/-- Looking into a mailbox keeps everything tidy. -/
theorem receive (h : Tidy feeds tickets) (name : String) (id : Nat) :
    Tidy (Function.update feeds name ((feeds name).receive id).2) tickets := by
  refine h.setFeed ((h.sound name).receive id) ?_ ?_
  · rintro p sub hsub rfl
    refine ⟨(h.issued hsub).receive id, ?_⟩
    rw [Feed.seat_receive _ sub.ticket, Seat.step]
    split
    · rw [Option.isSome_map]
      exact h.listens hsub
    · exact h.listens hsub
  · rw [Feed.receive_snd]
    exact fun id hid => hid

/-- A record that is handed round keeps everything tidy. -/
theorem hand (h : Tidy feeds tickets) (name : String) (v : Json) :
    Tidy (Function.update feeds name ((feeds name).hand v)) tickets := by
  refine h.setFeed ((h.sound name).hand v) ?_ ?_
  · rintro p sub hsub rfl
    refine ⟨(h.issued hsub).hand v, ?_⟩
    rw [Feed.seat_hand (h.sound _), Seat.hand]
    split
    · rw [Option.isSome_map]
      exact h.listens hsub
    · exact h.listens hsub
  · rw [Feed.holders_hand]
    exact fun id hid => (List.mem_filter.mp hid).1

/-- The end of a connection keeps everything tidy. -/
theorem lose (h : Tidy feeds tickets) (name : String) :
    Tidy (Function.update feeds name (feeds name).lose) tickets := by
  refine h.setFeed (h.sound name).lose ?_ ?_
  · rintro p sub hsub rfl
    refine ⟨(h.issued hsub).lose, ?_⟩
    rw [Feed.seat_lose]
    exact h.listens hsub
  · rw [Feed.holders_lose]
    exact fun id hid => absurd hid List.not_mem_nil

/-- The counts of a feed are nobody's. -/
theorem setTally (h : Tidy feeds tickets) (name : String) (tally : Tally) :
    Tidy (Function.update feeds name { feeds name with tally }) tickets := by
  have hsound := h.sound name
  refine h.setFeed ⟨hsound.nodup, hsound.lt_nextId, hsound.get?_eq_none, hsound.holders_eq_nil⟩ ?_
    fun id hid => hid
  rintro p sub hsub rfl
  have hissued := h.issued hsub
  exact ⟨⟨hissued.lt_nextId, hissued.slot_of_mem⟩, h.listens hsub⟩

/-- A feed that is asked too much leaves everything tidy. -/
theorem overask (h : Tidy feeds tickets) {accepts : Bool}
    (hf : (feeds name).overask accepts = some f) : Tidy (Function.update feeds name f) tickets := by
  have hlost := (h.lose name).setTally name f.tally
  rw [Function.update_self, Function.update_idem, ← Feed.eq_of_overask hf] at hlost
  exact hlost

/-- Closing the connection of a feed without holders keeps everything tidy. -/
theorem closeIdle (h : Tidy feeds tickets) (hnobody : (feeds name).holders = []) :
    Tidy (Function.update feeds name (feeds name).closeIdle) tickets := by
  refine h.setFeed ((h.sound name).closeIdle hnobody) ?_ fun id hid => hid
  rintro p sub hsub rfl
  exact ⟨(h.issued hsub).closeIdle, h.listens hsub⟩

/-! ## Tickets -/

/-- The seats of all others stay as they are. -/
theorem seatOf_grant (h : Tidy feeds tickets) (hsub : tickets q = some sub) (name : String)
    (capacity : Capacity) :
    seatOf (Function.update feeds name ((feeds name).letIn capacity)) sub = seatOf feeds sub := by
  by_cases hname : sub.feed = name
  · subst hname
    rw [seatOf_update_self rfl, Feed.seat_letIn (h.issued hsub), seatOf]
  · rw [seatOf_update_of_ne hname]

/-- **A ticket is granted.** -/
theorem grant (h : Tidy feeds tickets) (hp : tickets p = none) (name : String)
    (capacity : Capacity) : Tidy (Function.update feeds name ((feeds name).letIn capacity))
      (Function.update tickets p (some ⟨name, (feeds name).nextTicket⟩)) where
  sound := h.sound_update ((h.sound name).letIn capacity)
  issued := by
    intro q sub hsub
    rcases update_some_cases hsub with ⟨-, rfl⟩ | ⟨-, hsub⟩
    · rw [Function.update_self]
      exact Feed.issued_letIn _ capacity
    · exact h.issued_update hsub fun hname => (hname ▸ h.issued hsub).letIn capacity
  listens := by
    intro q sub hsub
    rcases update_some_cases hsub with ⟨-, rfl⟩ | ⟨-, hsub⟩
    · have hseat := Feed.seat_nextTicket (feeds name) capacity
      rw [seatOf, Function.update_self, Feed.nextTicket, hseat]
      rfl
    · rw [h.seatOf_grant hsub]
      exact h.listens hsub
  distinct := by
    -- The new id is larger than that of every ticket of the same feed.
    have hfresh : ∀ {q sub}, tickets q = some sub → sub.feed = name →
        sub.ticket.id ≠ (feeds name).nextId := by
      rintro q sub hsub rfl
      exact Nat.ne_of_lt (h.issued hsub).lt_nextId
    intro q r sub sub' hq hr hfeed hid
    rcases update_some_cases hq with ⟨rfl, rfl⟩ | ⟨-, hold⟩
    · rcases update_some_cases hr with ⟨rfl, -⟩ | ⟨-, hold'⟩
      · rfl
      · exact absurd hid.symm (hfresh hold' hfeed.symm)
    · rcases update_some_cases hr with ⟨rfl, rfl⟩ | ⟨-, hold'⟩
      · exact absurd hid (hfresh hold hfeed)
      · exact h.distinct hold hold' hfeed hid
  owned := by
    intro other id hid
    have hold : id ∈ (feeds other).holders →
        ∃ q sub, Function.update tickets p (some ⟨name, (feeds name).nextTicket⟩) q = some sub ∧
          sub.feed = other ∧ sub.ticket.id = id := by
      intro hid
      obtain ⟨q, sub, hsub, hfeed, hid⟩ := h.owned hid
      refine ⟨q, sub, ?_, hfeed, hid⟩
      rw [Function.update_of_ne (fun hqp => by rw [hqp, hp] at hsub; cases hsub), hsub]
    by_cases hother : other = name
    · subst hother
      rw [Function.update_self, ((feeds other).holders_letIn capacity).mem_iff,
        List.mem_cons] at hid
      rcases hid with rfl | hid
      · exact ⟨p, _, Function.update_self .., rfl, rfl⟩
      · exact hold hid
    · rw [Function.update_of_ne hother] at hid
      exact hold hid

/-- The seats of all others stay as they are. -/
theorem seatOf_release (h : Tidy feeds tickets) (hp : tickets p = some sub)
    (hq : tickets q = some sub') (hne : q ≠ p) :
    seatOf (Function.update feeds sub.feed ((feeds sub.feed).leave sub.ticket)) sub'
      = seatOf feeds sub' := by
  by_cases hname : sub'.feed = sub.feed
  · have hid : sub.ticket.id ≠ sub'.ticket.id := fun hid => hne (h.distinct hq hp hname hid.symm)
    rw [seatOf_update_self hname, Feed.seat_leave (h.sound _) (hname ▸ h.issued hq) hid, seatOf,
      hname]
  · rw [seatOf_update_of_ne hname]

/-- **A ticket is given back.** -/
theorem release (h : Tidy feeds tickets) (hp : tickets p = some sub) :
    Tidy (Function.update feeds sub.feed ((feeds sub.feed).leave sub.ticket))
      (Function.update tickets p none) where
  sound := h.sound_update ((h.sound _).leave sub.ticket)
  issued := by
    intro q sub' hsub
    obtain ⟨-, hsub⟩ := ne_and_of_update_none hsub
    exact h.issued_update hsub fun hname =>
      (hname ▸ h.issued hsub).leave (h.sound _) sub.ticket
  listens := by
    intro q sub' hsub
    obtain ⟨hqp, hsub⟩ := ne_and_of_update_none hsub
    rw [h.seatOf_release hp hsub hqp]
    exact h.listens hsub
  distinct := by
    intro q r sub' sub'' hq hr
    obtain ⟨-, hq⟩ := ne_and_of_update_none hq
    obtain ⟨-, hr⟩ := ne_and_of_update_none hr
    exact h.distinct hq hr
  owned := by
    intro other id hid
    have hstays : id ∈ (feeds other).holders ∧ ¬ (other = sub.feed ∧ id = sub.ticket.id) := by
      by_cases hother : other = sub.feed
      · rw [hother, Function.update_self, Feed.mem_holders_leave (h.sound _) (h.issued hp)] at hid
        rw [hother]
        exact ⟨hid.1, fun heq => hid.2 heq.2⟩
      · rw [Function.update_of_ne hother] at hid
        exact ⟨hid, fun heq => hother heq.1⟩
    obtain ⟨q, sub', hsub, rfl, rfl⟩ := h.owned hstays.1
    refine ⟨q, sub', ?_, rfl, rfl⟩
    rw [Function.update_of_ne, hsub]
    rintro rfl
    obtain rfl := Option.some.inj (hp.symm.trans hsub)
    exact hstays.2 ⟨rfl, rfl⟩

/-- Looking into one's own mailbox leaves the seats of all others as they are. -/
theorem seatOf_receive (h : Tidy feeds tickets) (hp : tickets p = some sub)
    (hq : tickets q = some sub') (hne : q ≠ p) :
    seatOf (Function.update feeds sub.feed ((feeds sub.feed).receive sub.ticket.id).2) sub'
      = seatOf feeds sub' := by
  by_cases hname : sub'.feed = sub.feed
  · have hid : sub.ticket.id ≠ sub'.ticket.id := fun hid => hne (h.distinct hq hp hname hid.symm)
    rw [seatOf_update_self hname, Feed.seat_receive _ sub'.ticket, Seat.step, if_neg hid, seatOf,
      hname]
  · rw [seatOf_update_of_ne hname]

/-- **A ticket is handed on** to somebody who has none. -/
theorem handOn (h : Tidy feeds tickets) (hp : tickets p = some sub) (hq : tickets q = none) :
    Tidy feeds (Function.update (Function.update tickets p none) q (some sub)) := by
  -- Who has a ticket afterwards is, up to this one name, who had it before.
  have hcame : ∀ {r sub'},
      Function.update (Function.update tickets p none) q (some sub) r = some sub' →
      (r = q ∧ sub' = sub) ∨ (r ≠ p ∧ r ≠ q ∧ tickets r = some sub') := by
    intro r sub' hr
    rcases update_some_cases hr with ⟨rfl, rfl⟩ | ⟨hrq, hr⟩
    · exact Or.inl ⟨rfl, rfl⟩
    · obtain ⟨hrp, hr⟩ := ne_and_of_update_none hr
      exact Or.inr ⟨hrp, hrq, hr⟩
  refine ⟨h.sound, fun hr => ?_, fun hr => ?_, fun {r₁ r₂ _ _} h₁ h₂ hfeed hid => ?_, fun hid => ?_⟩
  · rcases hcame hr with ⟨-, rfl⟩ | ⟨-, -, hr⟩
    · exact h.issued hp
    · exact h.issued hr
  · rcases hcame hr with ⟨-, rfl⟩ | ⟨-, -, hr⟩
    · exact h.listens hp
    · exact h.listens hr
  · rcases hcame h₁ with ⟨rfl, rfl⟩ | ⟨hp₁, -, hold₁⟩
    · rcases hcame h₂ with ⟨rfl, -⟩ | ⟨hp₂, -, hold₂⟩
      · rfl
      · exact absurd (h.distinct hp hold₂ hfeed hid).symm hp₂
    · rcases hcame h₂ with ⟨rfl, rfl⟩ | ⟨-, -, hold₂⟩
      · exact absurd (h.distinct hold₁ hp hfeed hid) hp₁
      · exact h.distinct hold₁ hold₂ hfeed hid
  · obtain ⟨r, sub', hr, hfeed, hid⟩ := h.owned hid
    by_cases hrp : r = p
    · subst hrp
      obtain rfl := Option.some.inj (hp.symm.trans hr)
      exact ⟨q, sub, Function.update_self .., hfeed, hid⟩
    · refine ⟨r, sub', ?_, hfeed, hid⟩
      have hrq : r ≠ q := by
        rintro rfl
        rw [hq] at hr
        cases hr
      rw [Function.update_of_ne hrq, Function.update_of_ne hrp, hr]

end Tidy

end LiveQuery
