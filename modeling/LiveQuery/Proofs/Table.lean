import LiveQuery.Table

/-!
# Proofs/Table — the keys of a table

The keys say where something is filed (`mem_keys_iff`), and filing changes them in one way only: a
new key comes last (`keys_set`).
-/

namespace LiveQuery.Table

variable {κ α : Type} [DecidableEq κ] {t : Table κ α} {k : κ}

theorem isSome_find?_iff {es : List (κ × α)} :
    (find? k es).isSome = true ↔ k ∈ es.map Prod.fst := by
  induction es with
  | nil => simp [find?]
  | cons e es ih =>
    rw [find?, List.map_cons, List.mem_cons]
    split
    case isTrue h => exact iff_of_true rfl (Or.inl h)
    case isFalse h => rw [ih, or_iff_right h]

/-- **The keys are where something is filed.** -/
theorem mem_keys_iff : k ∈ t.keys ↔ (t.get? k).isSome = true := isSome_find?_iff.symm

/-- Nothing is filed under what is no key. -/
theorem get?_eq_none (h : k ∉ t.keys) : t.get? k = none :=
  Option.not_isSome_iff_eq_none.mp (mt mem_keys_iff.mpr h)

theorem map_fst_replace (k : κ) (a : α) (es : List (κ × α)) :
    (replace k a es).map Prod.fst
      = if k ∈ es.map Prod.fst then es.map Prod.fst else es.map Prod.fst ++ [k] := by
  induction es with
  | nil => rfl
  | cons e es ih =>
    obtain ⟨l, b⟩ := e
    rw [replace, List.map_cons]
    by_cases hk : k = l
    · rw [if_pos hk, if_pos (List.mem_cons.mpr (Or.inl hk))]
      rfl
    · have hmem : k ∈ l :: es.map Prod.fst ↔ k ∈ es.map Prod.fst :=
        List.mem_cons.trans (or_iff_right hk)
      rw [if_neg hk, List.map_cons, ih]
      simp only [hmem]
      split <;> rfl

/-- **A new key comes last**, and an old one stays where it is. -/
theorem keys_set (t : Table κ α) (k : κ) (a : α) :
    (t.set k a).keys = if k ∈ t.keys then t.keys else t.keys ++ [k] :=
  map_fst_replace k a t.entries

end LiveQuery.Table
