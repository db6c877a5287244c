/-!
# Table — a finite map that remembers the order in which its keys came

Each key is filed once (`nodup`).  Filing under a key that is there replaces its entry **in place**;
a new key goes to the end.  `get?` is the view: what each operation does to it is one lemma.
-/

namespace LiveQuery

/-- **A finite map**, oldest key first. -/
structure Table (κ α : Type) where
  entries : List (κ × α)
  nodup : (entries.map Prod.fst).Nodup
deriving Repr

namespace Table

variable {κ α : Type} [DecidableEq κ]

/-- The empty table. -/
def empty : Table κ α := ⟨[], List.nodup_nil⟩

instance : Inhabited (Table κ α) := ⟨empty⟩

/-- The keys, oldest first. -/
def keys (t : Table κ α) : List κ := t.entries.map Prod.fst

/-- The entries without their keys, oldest first. -/
def values (t : Table κ α) : List α := t.entries.map Prod.snd

/-- How many keys there are. -/
def size (t : Table κ α) : Nat := t.entries.length

/-- The first entry of a list that is filed under a key. -/
def find? (k : κ) : List (κ × α) → Option α
  | [] => none
  | (l, a) :: rest => if k = l then some a else find? k rest

/-- **What is filed under a key.** -/
def get? (t : Table κ α) (k : κ) : Option α := find? k t.entries

/-- Whether anything is filed under a key. -/
def contains (t : Table κ α) (k : κ) : Bool := (t.get? k).isSome

/-- Files under a key in a list: in place if the key is there, else at the end. -/
def replace (k : κ) (a : α) : List (κ × α) → List (κ × α)
  | [] => [(k, a)]
  | (l, b) :: rest => if k = l then (l, a) :: rest else (l, b) :: replace k a rest

omit [DecidableEq κ] in
theorem map_fst_filter_sublist (p : κ × α → Bool) (es : List (κ × α)) :
    ((es.filter p).map Prod.fst).Sublist (es.map Prod.fst) :=
  List.filter_sublist.map _

theorem mem_map_fst_replace {k l : κ} {a : α} {es : List (κ × α)} :
    l ∈ (replace k a es).map Prod.fst ↔ l = k ∨ l ∈ es.map Prod.fst := by
  induction es with
  | nil => simp [replace]
  | cons e es ih =>
    obtain ⟨m, b⟩ := e
    by_cases h : k = m
    · subst h; simp [replace]
    · simp only [replace, if_neg h, List.map_cons, List.mem_cons, ih]
      constructor
      · rintro (h | h | h) <;> simp [h]
      · rintro (h | h | h) <;> simp [h]

theorem nodup_replace {k : κ} {a : α} {es : List (κ × α)} (h : (es.map Prod.fst).Nodup) :
    ((replace k a es).map Prod.fst).Nodup := by
  induction es with
  | nil => simp [replace]
  | cons e es ih =>
    obtain ⟨m, b⟩ := e
    rw [List.map_cons, List.nodup_cons] at h
    by_cases hk : k = m
    · subst hk
      simpa [replace] using h
    · simp only [replace, if_neg hk, List.map_cons, List.nodup_cons, mem_map_fst_replace]
      refine ⟨?_, ih h.2⟩
      rintro (hm | hm)
      · exact hk hm.symm
      · exact h.1 hm

/-- **Files an entry under a key.** -/
def set (t : Table κ α) (k : κ) (a : α) : Table κ α :=
  ⟨replace k a t.entries, nodup_replace t.nodup⟩

/-- **Removes a key.** -/
def erase (t : Table κ α) (k : κ) : Table κ α :=
  ⟨t.entries.filter fun e => !decide (e.1 = k), t.nodup.sublist (map_fst_filter_sublist _ _)⟩

/-! ## The view -/

@[simp] theorem get?_empty (k : κ) : (empty : Table κ α).get? k = none := rfl

theorem find?_replace (k l : κ) (a : α) (es : List (κ × α)) :
    find? l (replace k a es) = if l = k then some a else find? l es := by
  induction es with
  | nil => simp [replace, find?]
  | cons e es ih =>
    obtain ⟨m, b⟩ := e
    by_cases hk : k = m
    · subst hk
      by_cases hl : l = k <;> simp [replace, find?, hl]
    · by_cases hl : l = m
      · subst hl
        simp [replace, find?, hk, Ne.symm hk]
      · simp [replace, find?, hk, hl, ih]

theorem find?_filter_ne (k l : κ) (es : List (κ × α)) :
    find? l (es.filter fun e => !decide (e.1 = k)) = if l = k then none else find? l es := by
  induction es with
  | nil => simp [find?]
  | cons e es ih =>
    obtain ⟨m, b⟩ := e
    by_cases hk : m = k
    · subst hk
      by_cases hl : l = m <;> simp_all [find?]
    · by_cases hl : l = m
      · subst hl
        simp [find?, hk]
      · simp [hk, find?, hl, ih]

/-- Filing under a key changes what is found under that key only. -/
theorem get?_set (t : Table κ α) (k l : κ) (a : α) :
    (t.set k a).get? l = if l = k then some a else t.get? l := find?_replace k l a t.entries

/-- Removing a key changes what is found under that key only. -/
theorem get?_erase (t : Table κ α) (k l : κ) :
    (t.erase k).get? l = if l = k then none else t.get? l := find?_filter_ne k l t.entries

end Table

end LiveQuery
