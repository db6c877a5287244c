import LiveQuery.Feed
import Mathlib.Data.List.ReduceOption
import Mathlib.Data.List.Nodup

/-!
# Proofs/Feed/Slots — the slots of a feed, and what each operation does to their holders

A table of slots is read in two ways: by position, `slots[i]?`, and as the list of the ids that
hold a slot, `slots.reduceOption`.  Letting a subscriber in adds its id to the holders
(`perm_occupy`) without moving anybody (`getElem?_occupy_of_held`); freeing a slot removes the id
found there (`perm_set_none`).  Offering a record is described slot by slot and mailbox by mailbox:
as long as no id holds two slots, **each mailbox is offered the record once**, and the counts say
how many took it.
-/

namespace LiveQuery

/-- Whether one more record fits. -/
def Mailbox.hasRoom (m : Mailbox) : Bool := !m.isFull

/-- A mailbox after its oldest record was taken out. -/
def Mailbox.take (m : Mailbox) : Mailbox := { m with waiting := m.waiting.tail }

/-- **A mailbox after a record was offered to it**: a full one misses the record. -/
def Mailbox.offer (record : Json) (m : Mailbox) : Mailbox :=
  if m.isFull then m else m.put record

theorem Mailbox.offer_of_full {m : Mailbox} (h : m.isFull = true) (v : Json) : m.offer v = m :=
  if_pos h

theorem Mailbox.offer_of_room {m : Mailbox} (h : m.isFull = false) (v : Json) :
    m.offer v = m.put v :=
  if_neg (by rw [h]; exact Bool.false_ne_true)

namespace Feed

variable {slots : List (Option Nat)} {id a : Nat} {i : Nat}

/-! ## Letting in -/

theorem occupy_some_cons (a : Nat) (slots : List (Option Nat)) (id : Nat) :
    occupy (some a :: slots) id = ((occupy slots id).1 + 1, some a :: (occupy slots id).2) := by
  rw [occupy, occupy, List.findIdx?_cons]
  cases slots.findIdx? Option.isNone with
  | none => rfl
  | some free => rfl

/-- **A new subscriber joins the holders**, and nobody else comes or goes. -/
theorem perm_occupy (slots : List (Option Nat)) (id : Nat) :
    (occupy slots id).2.reduceOption.Perm (id :: slots.reduceOption) := by
  induction slots with
  | nil => exact List.Perm.refl _
  | cons s slots ih =>
    cases s with
    | none => exact List.Perm.refl _
    | some a =>
      rw [occupy_some_cons, List.reduceOption_cons_of_some, List.reduceOption_cons_of_some]
      exact (ih.cons a).trans (List.Perm.swap id a _)

/-- The slot that is granted holds the new id. -/
theorem getElem?_occupy_self (slots : List (Option Nat)) (id : Nat) :
    (occupy slots id).2[(occupy slots id).1]? = some (some id) := by
  induction slots with
  | nil => rfl
  | cons s slots ih =>
    cases s with
    | none => rfl
    | some a => rw [occupy_some_cons, List.getElem?_cons_succ, ih]

/-- **A slot that is held is not granted again.** -/
theorem getElem?_occupy_of_held (h : slots[i]? = some (some a)) (id : Nat) :
    (occupy slots id).2[i]? = some (some a) := by
  induction slots generalizing i with
  | nil => cases h
  | cons s slots ih =>
    cases s with
    | none =>
      cases i with
      | zero => cases h
      | succ i => exact h
    | some b =>
      rw [occupy_some_cons]
      cases i with
      | zero => exact h
      | succ i => exact ih h

/-! ## Freeing -/

/-- What stands in a slot is among the holders. -/
theorem mem_reduceOption_of_getElem? (h : slots[i]? = some (some a)) : a ∈ slots.reduceOption :=
  List.reduceOption_mem_iff.mpr (List.mem_of_getElem? h)

/-- **Freeing a slot takes its id from the holders**, and no other. -/
theorem perm_set_none (h : slots[i]? = some (some a)) :
    slots.reduceOption.Perm (a :: (slots.set i none).reduceOption) := by
  induction slots generalizing i with
  | nil => cases h
  | cons s slots ih =>
    cases i with
    | zero =>
      obtain rfl : s = some a := Option.some.inj h
      exact List.Perm.refl _
    | succ i =>
      rw [List.set_cons_succ]
      cases s with
      | none => exact ih h
      | some b => exact ((ih h).cons b).trans (List.Perm.swap a b _)

/-- **No id holds two slots.** -/
theorem eq_of_getElem? {j : Nat} (h : slots.reduceOption.Nodup) (hi : slots[i]? = some (some a))
    (hj : slots[j]? = some (some a)) : i = j := by
  by_contra hne
  have hset : (slots.set i none)[j]? = some (some a) := by rw [List.getElem?_set_ne hne, hj]
  have hout := (List.nodup_cons.mp ((perm_set_none hi).nodup_iff.mp h)).1
  exact hout (mem_reduceOption_of_getElem? hset)

/-- The slots after a ticket is given back: the slot of a ticket that is still good is free. -/
def vacate (slots : List (Option Nat)) (t : Ticket) : List (Option Nat) :=
  if slots[t.slot]? = some (some t.id) then slots.set t.slot none else slots

theorem unsubscribe_eq (f : Feed) (t : Ticket) :
    f.unsubscribe t = { f with slots := vacate f.slots t } := by
  rw [unsubscribe, vacate]
  split <;> rfl

/-- **Who holds a slot after a ticket is given back**: everybody but the holder of a good ticket. -/
theorem mem_vacate_iff (h : slots.reduceOption.Nodup) (t : Ticket) :
    a ∈ (vacate slots t).reduceOption ↔
      a ∈ slots.reduceOption ∧ ¬ (a = t.id ∧ slots[t.slot]? = some (some t.id)) := by
  rw [vacate]
  split
  case isTrue ht =>
    have hperm := perm_set_none ht
    obtain ⟨hout, -⟩ := List.nodup_cons.mp (hperm.nodup_iff.mp h)
    rw [hperm.mem_iff, List.mem_cons]
    constructor
    · intro ha
      exact ⟨Or.inr ha, fun hid => hout (hid.1 ▸ ha)⟩
    · rintro ⟨rfl | ha, hid⟩
      · exact absurd ⟨rfl, ht⟩ hid
      · exact ha
  case isFalse ht => exact ⟨fun ha => ⟨ha, fun hid => ht hid.2⟩, And.left⟩

theorem nodup_vacate (h : slots.reduceOption.Nodup) (t : Ticket) :
    (vacate slots t).reduceOption.Nodup := by
  rw [vacate]
  split
  case isTrue ht => exact (List.nodup_cons.mp ((perm_set_none ht).nodup_iff.mp h)).2
  case isFalse => exact h

/-- Who still holds a slot holds the one it held before. -/
theorem getElem?_vacate (h : slots.reduceOption.Nodup) {t : Ticket}
    (hi : slots[i]? = some (some a)) (ha : a ∈ (vacate slots t).reduceOption) :
    (vacate slots t)[i]? = some (some a) := by
  have hstays := ((mem_vacate_iff h t).mp ha).2
  rw [vacate]
  split
  case isTrue ht =>
    have hne : t.slot ≠ i := by
      rintro rfl
      exact hstays ⟨Option.some.inj (Option.some.inj (hi.symm.trans ht)), ht⟩
    rw [List.getElem?_set_ne hne, hi]
  case isFalse => exact hi

/-! ## Offering a record -/

variable {v : Json} {boxes : Table Nat Mailbox}

theorem offer_none_cons (v : Json) (slots : List (Option Nat)) (boxes : Table Nat Mailbox)
    (tally : Tally) :
    offer v (none :: slots) boxes tally
      = (none :: (offer v slots boxes tally).1, (offer v slots boxes tally).2) := rfl

/-- A holder that no longer listens loses its slot. -/
theorem offer_deaf (h : boxes.get? id = none) (slots : List (Option Nat)) (tally : Tally) :
    offer v (some id :: slots) boxes tally
      = (none :: (offer v slots boxes tally).1, (offer v slots boxes tally).2) := by
  rw [offer, h]

/-- A holder with a full mailbox misses the record. -/
theorem offer_full {box : Mailbox} (h : boxes.get? id = some box) (hfull : box.isFull = true)
    (slots : List (Option Nat)) (tally : Tally) :
    offer v (some id :: slots) boxes tally
      = (some id :: (offer v slots boxes { tally with dropped := tally.dropped + 1 }).1,
        (offer v slots boxes { tally with dropped := tally.dropped + 1 }).2) := by
  rw [offer, h]
  exact if_pos hfull

/-- A holder with room gets the record. -/
theorem offer_room {box : Mailbox} (h : boxes.get? id = some box) (hroom : box.isFull = false)
    (slots : List (Option Nat)) (tally : Tally) :
    offer v (some id :: slots) boxes tally
      = (some id :: (offer v slots (boxes.set id (box.put v))
          { tally with delivered := tally.delivered + 1 }).1,
        (offer v slots (boxes.set id (box.put v))
          { tally with delivered := tally.delivered + 1 }).2) := by
  rw [offer, h]
  exact if_neg (by rw [hroom]; exact Bool.false_ne_true)

theorem contains_set (h : boxes.contains id = true) (m : Mailbox) :
    (boxes.set id m).contains = boxes.contains := by
  funext j
  rw [Table.contains, Table.contains, Table.get?_set]
  split
  case isTrue hj => rw [hj]; exact h.symm
  case isFalse => rfl

/-- **Who is left in the slots**: everybody who still listens. -/
theorem offer_slots (v : Json) (slots : List (Option Nat)) (boxes : Table Nat Mailbox)
    (tally : Tally) :
    (offer v slots boxes tally).1 = slots.map (Option.filter boxes.contains) := by
  induction slots generalizing boxes tally with
  | nil => rfl
  | cons s slots ih =>
    rw [List.map_cons]
    cases s with
    | none => rw [offer_none_cons, ih, Option.filter_none]
    | some id =>
      cases hbox : boxes.get? id with
      | none =>
        have hid : boxes.contains id = false := by simp [Table.contains, hbox]
        rw [offer_deaf hbox, ih, Option.filter_some_neg hid]
      | some box =>
        have hid : boxes.contains id = true := by simp [Table.contains, hbox]
        rw [Option.filter_some_pos hid]
        cases hfull : box.isFull with
        | true => rw [offer_full hbox hfull, ih]
        | false => rw [offer_room hbox hfull, ih, contains_set hid]

/-- The holders that are left are those who listen. -/
theorem offer_holders (v : Json) (slots : List (Option Nat)) (boxes : Table Nat Mailbox)
    (tally : Tally) :
    (offer v slots boxes tally).1.reduceOption = slots.reduceOption.filter boxes.contains := by
  simp only [offer_slots, List.reduceOption, List.filterMap_map, List.filter_filterMap]
  rfl

/-- The first holder is served, and then the rest. -/
theorem get?_offer_cons {boxes' : Table Nat Mailbox} (ha : a ∉ slots.reduceOption)
    (hfirst : ∀ j, boxes'.get? j
      = if j = a then (boxes.get? a).map (Mailbox.offer v) else boxes.get? j) (id : Nat) :
    (if id ∈ slots.reduceOption then (boxes'.get? id).map (Mailbox.offer v) else boxes'.get? id)
      = if id ∈ (some a :: slots).reduceOption then (boxes.get? id).map (Mailbox.offer v)
        else boxes.get? id := by
  rw [List.reduceOption_cons_of_some, hfirst]
  by_cases hid : id = a
  · subst hid
    rw [if_neg ha, if_pos rfl, if_pos List.mem_cons_self]
  · simp only [List.mem_cons, hid, false_or, if_false]

/-- **What an offer does to the mailboxes**: that of a holder is offered the record once, every
other one stays as it is. -/
theorem get?_offer (h : slots.reduceOption.Nodup) (v : Json) (boxes : Table Nat Mailbox)
    (tally : Tally) (id : Nat) :
    (offer v slots boxes tally).2.1.get? id
      = if id ∈ slots.reduceOption then (boxes.get? id).map (Mailbox.offer v)
        else boxes.get? id := by
  induction slots generalizing boxes tally with
  | nil => rfl
  | cons s slots ih =>
    cases s with
    | none => exact ih h boxes tally
    | some a =>
      rw [List.reduceOption_cons_of_some, List.nodup_cons] at h
      obtain ⟨ha, hslots⟩ := h
      cases hbox : boxes.get? a with
      | none =>
        rw [offer_deaf hbox, ih hslots]
        refine get?_offer_cons ha (fun j => ?_) id
        split
        case isTrue hj => rw [hj, hbox, Option.map_none]
        case isFalse => rfl
      | some box =>
        cases hfull : box.isFull with
        | true =>
          rw [offer_full hbox hfull, ih hslots]
          refine get?_offer_cons ha (fun j => ?_) id
          have hoffer := Mailbox.offer_of_full hfull v
          split
          case isTrue hj => rw [hj, hbox, Option.map_some, hoffer]
          case isFalse => rfl
        | false =>
          rw [offer_room hbox hfull, ih hslots]
          refine get?_offer_cons ha (fun j => ?_) id
          have hoffer := Mailbox.offer_of_room hfull v
          rw [Table.get?_set, hbox, Option.map_some, hoffer]

/-- Whether an id has a mailbox of some kind. -/
def hasBox (kind : Mailbox → Bool) (boxes : Table Nat Mailbox) (id : Nat) : Bool :=
  (boxes.get? id).any kind

theorem countP_hasBox_set (kind : Mailbox → Bool) (m : Mailbox) (ha : a ∉ slots.reduceOption) :
    slots.reduceOption.countP (hasBox kind (boxes.set a m))
      = slots.reduceOption.countP (hasBox kind boxes) := by
  refine List.countP_congr fun id hid => ?_
  rw [hasBox, hasBox, Table.get?_set, if_neg (by rintro rfl; exact ha hid)]

/-- **What an offer counts**: the holders that had room, and those that had none. -/
theorem offer_tally (h : slots.reduceOption.Nodup) (v : Json) (boxes : Table Nat Mailbox)
    (tally : Tally) :
    (offer v slots boxes tally).2.2
      = ⟨tally.opened,
        tally.delivered + slots.reduceOption.countP (hasBox Mailbox.hasRoom boxes),
        tally.dropped + slots.reduceOption.countP (hasBox Mailbox.isFull boxes)⟩ := by
  induction slots generalizing boxes tally with
  | nil => rfl
  | cons s slots ih =>
    cases s with
    | none => exact ih h boxes tally
    | some a =>
      rw [List.reduceOption_cons_of_some, List.nodup_cons] at h
      obtain ⟨ha, hslots⟩ := h
      have hbox : ∀ kind, hasBox kind boxes a = (boxes.get? a).any kind := fun _ => rfl
      rw [List.reduceOption_cons_of_some, List.countP_cons, List.countP_cons, hbox, hbox]
      cases hget : boxes.get? a with
      | none =>
        rw [offer_deaf hget, ih hslots]
        rfl
      | some box =>
        rw [Option.any_some, Option.any_some, Mailbox.hasRoom]
        cases hfull : box.isFull with
        | true =>
          rw [offer_full hget hfull, ih hslots, Nat.add_assoc, Nat.add_comm 1]
          rfl
        | false =>
          rw [offer_room hget hfull, ih hslots, countP_hasBox_set _ _ ha, countP_hasBox_set _ _ ha,
            Nat.add_assoc, Nat.add_comm 1]
          rfl

end Feed

end LiveQuery
