import LiveQuery.Cache
import LiveQuery.Proofs.History
import LiveQuery.Proofs.Table
import Mathlib.Data.List.Dedup
import Mathlib.Data.List.DropRight
import Mathlib.Data.List.Induction
import Mathlib.Data.List.Perm.Subperm

/-!
# Proofs/Cache/Admissions — a cache keeps the last keys that were admitted

A key is **admitted** when a record comes for it and nothing is filed under it, so a key that was
dropped may be admitted again.  The queue of a cache is the end of this log, as long as the capacity
allows (`Holds.order_eq`), and the records are exactly those of the keys in the queue, each the
latest that came (`Holds.latest`).

The engine is `evict_fst` and `get?_evict`: evicting cuts the queue in two, and what is filed under
the first part goes.  `Holds.insert` carries everything over one record; a cache that still has room
has dropped nothing (`Holds.all_of_room`), from which the number of records follows.
-/

namespace LiveQuery

theorem Json.text?_eq_some_iff {v : Json} {s : String} : v.text? = some s ↔ v = .string s := by
  cases v <;> simp [text?]

namespace Cache

variable {path key : String} {r : Json} {rs : List Json}

/-! ## Eviction -/

/-- **The queue keeps its last keys**, … -/
theorem evict_fst (capacity : Nat) (order : List String) (records : Table String Json) :
    (evict capacity order records).1 = order.rtake capacity := by
  induction order generalizing records with
  | nil => exact (List.rtake_nil capacity).symm
  | cons key order ih =>
    rw [evict, List.rtake, List.length_cons]
    split
    case isTrue h =>
      rw [ih, List.rtake, Nat.succ_sub (Nat.le_of_lt_succ h), List.drop_succ_cons]
    case isFalse h => rw [Nat.sub_eq_zero_of_le (Nat.le_of_not_lt h), List.drop_zero]

/-- … and **what is filed under the others goes**. -/
theorem get?_evict (capacity : Nat) (order : List String) (records : Table String Json)
    (key : String) :
    (evict capacity order records).2.get? key
      = if key ∈ order.rdrop capacity then none else records.get? key := by
  induction order generalizing records with
  | nil => rw [List.rdrop_nil, if_neg List.not_mem_nil, evict]
  | cons first order ih =>
    rw [evict, List.rdrop, List.length_cons]
    split
    case isTrue h =>
      rw [ih, Table.get?_erase, List.rdrop, Nat.succ_sub (Nat.le_of_lt_succ h),
        List.take_succ_cons]
      by_cases hkey : key = first <;> simp [hkey]
    case isFalse h =>
      rw [Nat.sub_eq_zero_of_le (Nat.le_of_not_lt h), List.take_zero, if_neg List.not_mem_nil]

/-! ## Queue and records -/

/-- **The queue and the records belong together.** -/
structure Coherent (c : Cache) : Prop where
  nodup : c.order.Nodup
  mem_order_iff : ∀ key, key ∈ c.order ↔ (c.get? key).isSome = true
  length_le : c.order.length ≤ c.capacity

variable {c : Cache}

theorem coherent_empty (path : String) (capacity : Nat) : (empty path capacity).Coherent where
  nodup := List.nodup_nil
  mem_order_iff := fun _ => iff_of_false List.not_mem_nil Bool.false_ne_true
  length_le := Nat.zero_le _

/-- There are as many records as keys in the queue. -/
theorem Coherent.size_eq (h : c.Coherent) : c.size = c.order.length := by
  have hperm : c.records.keys.Perm c.order :=
    (List.perm_ext_iff_of_nodup c.records.nodup h.nodup).mpr fun key =>
      Table.mem_keys_iff.trans (h.mem_order_iff key).symm
  rw [size, Table.size, ← hperm.length_eq, Table.keys, List.length_map]

/-- Filing under a key that is in the queue replaces its record. -/
theorem Coherent.file_of_mem (h : c.Coherent) (hkey : key ∈ c.order) (r : Json) :
    (c.file key r).order = c.order ∧
      ∀ k, (c.file key r).get? k = if k = key then some r else c.get? k := by
  have hqueue : (if c.records.contains key then c.order else c.order ++ [key]) = c.order :=
    if_pos ((h.mem_order_iff key).mp hkey)
  have hfits : c.order.length - c.capacity = 0 := Nat.sub_eq_zero_of_le h.length_le
  have horder : (c.file key r).order
      = (evict c.capacity c.order (c.records.set key r)).1 := by rw [file, hqueue]
  have hget : ∀ k, (c.file key r).get? k
      = (evict c.capacity c.order (c.records.set key r)).2.get? k := fun k => by
    rw [file, hqueue]
    rfl
  constructor
  · rw [horder, evict_fst, List.rtake, hfits, List.drop_zero]
  · intro k
    rw [hget, get?_evict, List.rdrop, hfits, List.take_zero, if_neg List.not_mem_nil,
      Table.get?_set]
    rfl

/-- **Filing under a new key puts it last**, and the key that is first may have to go. -/
theorem Coherent.file_of_notMem (h : c.Coherent) {n : Nat} (hcapacity : c.capacity = n + 1)
    (hkey : key ∉ c.order) (r : Json) :
    (c.file key r).order = c.order.rtake n ++ [key] ∧
      ∀ k, (c.file key r).get? k
        = if k = key then some r else if k ∈ c.order.rdrop n then none else c.get? k := by
  have hqueue : (if c.records.contains key then c.order else c.order ++ [key])
      = c.order ++ [key] := if_neg (mt (h.mem_order_iff key).mpr hkey)
  have horder : (c.file key r).order
      = (evict c.capacity (c.order ++ [key]) (c.records.set key r)).1 := by rw [file, hqueue]
  have hget : ∀ k, (c.file key r).get? k
      = (evict c.capacity (c.order ++ [key]) (c.records.set key r)).2.get? k := fun k => by
    rw [file, hqueue]
    rfl
  constructor
  · rw [horder, evict_fst, hcapacity, List.rtake_concat_succ]
  · intro k
    have hfirst : key ∉ c.order.rdrop n := fun hmem => hkey (List.mem_of_mem_take hmem)
    rw [hget, get?_evict, hcapacity, List.rdrop_concat_succ, Table.get?_set]
    by_cases heq : k = key
    · rw [heq, if_neg hfirst, if_pos rfl, if_pos rfl]
    · rw [if_neg heq, if_neg heq]
      rfl

/-- **What was filed is there.** -/
theorem Coherent.get?_file_self (h : c.Coherent) {n : Nat} (hcapacity : c.capacity = n + 1)
    (key : String) (r : Json) : (c.file key r).get? key = some r := by
  by_cases hkey : key ∈ c.order
  · exact ((h.file_of_mem hkey r).2 key).trans (if_pos rfl)
  · exact ((h.file_of_notMem hcapacity hkey r).2 key).trans (if_pos rfl)

/-! ## One record -/

/-- **The key of a record is the text at the path of the cache.** -/
theorem keyOf?_eq_some_iff :
    c.keyOf? r = some key ↔ Path.lookup c.path r = some (.string key) := by
  rw [keyOf?, Option.bind_eq_some_iff]
  constructor
  · rintro ⟨v, hv, hkey⟩
    rw [hv, Json.text?_eq_some_iff.mp hkey]
  · exact fun h => ⟨_, h, rfl⟩

/-- **What becomes of a record**: it is passed over, or filed under its key. -/
theorem insert_cases (c : Cache) (r : Json) :
    (c.insert r = (false, c) ∧ (c.capacity = 0 ∨ c.keyOf? r = none)) ∨
    ∃ n key, c.capacity = n + 1 ∧ c.keyOf? r = some key ∧ c.insert r = (true, c.file key r) := by
  rw [insert]
  cases hcapacity : c.capacity with
  | zero => exact Or.inl ⟨rfl, Or.inl rfl⟩
  | succ n =>
    rw [if_neg (Nat.succ_ne_zero n)]
    cases c.keyOf? r with
    | none => exact Or.inl ⟨rfl, Or.inr rfl⟩
    | some key => exact Or.inr ⟨n, key, rfl, rfl, rfl⟩

/-- The last keys are those that are not among the others. -/
theorem mem_rtake_iff {order : List String} (h : order.Nodup) (n : Nat) :
    key ∈ order.rtake n ↔ key ∈ order ∧ key ∉ order.rdrop n := by
  have hsplit : order.rdrop n ++ order.rtake n = order := List.take_append_drop ..
  have hdisjoint := List.disjoint_of_nodup_append (hsplit.symm ▸ h)
  constructor
  · exact fun hmem => ⟨hsplit ▸ List.mem_append_right _ hmem, fun hfirst => hdisjoint hfirst hmem⟩
  · rintro ⟨hmem, hfirst⟩
    rw [← hsplit, List.mem_append] at hmem
    exact hmem.resolve_left hfirst

/-- **Filing keeps queue and records together.** -/
theorem Coherent.file (h : c.Coherent) {n : Nat} (hcapacity : c.capacity = n + 1) (key : String)
    (r : Json) : (c.file key r).Coherent := by
  by_cases hkey : key ∈ c.order
  · obtain ⟨horder, hget⟩ := h.file_of_mem hkey r
    refine ⟨horder ▸ h.nodup, fun k => ?_, horder ▸ h.length_le⟩
    rw [horder, hget]
    split
    case isTrue hk => exact iff_of_true (hk ▸ hkey) rfl
    case isFalse => exact h.mem_order_iff k
  · obtain ⟨horder, hget⟩ := h.file_of_notMem hcapacity hkey r
    have hlast : (c.order.rtake n).length ≤ n := by
      rw [List.rtake, List.length_drop]
      omega
    refine ⟨?_, fun k => ?_, ?_⟩
    · rw [horder, List.nodup_append_comm, List.singleton_append, List.nodup_cons]
      exact ⟨fun hmem => hkey (List.mem_of_mem_drop hmem), h.nodup.sublist (List.drop_sublist ..)⟩
    · rw [horder, hget, List.mem_append, List.mem_singleton, mem_rtake_iff h.nodup]
      by_cases hk : k = key
      · simp [hk]
      · by_cases hfirst : k ∈ c.order.rdrop n <;> simp [hk, hfirst, h.mem_order_iff]
    · rw [horder, List.length_append, List.length_singleton]
      exact Nat.le_trans (Nat.succ_le_succ hlast) (Nat.le_of_eq hcapacity.symm)

/-! ## Record after record -/

/-- The cache after some records. -/
def insertAll (c : Cache) (rs : List Json) : Cache := rs.foldl (fun c r => (c.insert r).2) c

theorem insertAll_concat (c : Cache) (rs : List Json) (r : Json) :
    c.insertAll (rs ++ [r]) = ((c.insertAll rs).insert r).2 := List.foldl_append

/-- **The key that a record brings to the queue**: its own, if nothing is filed under it. -/
def admission (c : Cache) (r : Json) : List String :=
  match c.keyOf? r with
  | some key => if (c.get? key).isNone then [key] else []
  | none => []

/-- **The admissions of some records**, in order. -/
def admissions (c : Cache) (rs : List Json) : List String :=
  history (fun c r => (c.insert r).2) admission c rs

/-- **The latest record of a key**: it has the key, and no record after it has. -/
def IsLatest (path key : String) (r : Json) (rs : List Json) : Prop :=
  ∃ before after, rs = before ++ r :: after ∧ Path.lookup path r = some (.string key) ∧
    ∀ x ∈ after, Path.lookup path x ≠ some (.string key)

theorem isLatest_concat (h : Path.lookup path r = some (.string key)) (rs : List Json) :
    IsLatest path key r (rs ++ [r]) :=
  ⟨rs, [], rfl, h, fun _ hx => absurd hx List.not_mem_nil⟩

theorem IsLatest.concat {x : Json} (h : IsLatest path key x rs)
    (hne : Path.lookup path r ≠ some (.string key)) : IsLatest path key x (rs ++ [r]) := by
  obtain ⟨before, after, rfl, hx, hafter⟩ := h
  refine ⟨before, after ++ [r], by rw [List.append_assoc]; rfl, hx, fun y hy => ?_⟩
  rcases List.mem_append.mp hy with hy | hy
  · exact hafter y hy
  · rw [List.mem_singleton.mp hy]
    exact hne

/-- **What a cache holds after some records**, given the log of the keys that were admitted. -/
structure Holds (c : Cache) (rs : List Json) (log : List String) : Prop where
  coherent : c.Coherent
  order_eq : c.order = log.rtake c.capacity
  latest : ∀ key r, c.get? key = some r → IsLatest c.path key r rs
  all_of_room : c.order.length < c.capacity → ∀ key ∈ rs.filterMap c.keyOf?, key ∈ c.order

variable {log : List String}

theorem holds_empty (path : String) (capacity : Nat) : (empty path capacity).Holds [] [] where
  coherent := coherent_empty path capacity
  order_eq := (List.rtake_nil capacity).symm
  latest := fun _ _ h => by cases h
  all_of_room := fun _ _ hkey => absurd hkey List.not_mem_nil

/-- A record that is passed over changes nothing of what the cache holds. -/
theorem Holds.pass (h : c.Holds rs log) (hpass : c.capacity = 0 ∨ c.keyOf? r = none) :
    c.Holds (rs ++ [r]) (log ++ c.admission r) := by
  rcases hpass with hzero | hnone
  · have hnil : c.order = [] :=
      List.length_eq_zero_iff.mp (Nat.le_zero.mp (hzero ▸ h.coherent.length_le))
    have hempty : ∀ key, c.get? key = none := fun key => by
      have hnot := mt (h.coherent.mem_order_iff key).mpr (hnil ▸ List.not_mem_nil)
      exact Option.not_isSome_iff_eq_none.mp hnot
    refine ⟨h.coherent, ?_, fun key x hx => ?_, fun hroom => ?_⟩
    · rw [hnil, hzero, List.rtake_zero]
    · rw [hempty] at hx
      cases hx
    · omega
  · have hkeys : (rs ++ [r]).filterMap c.keyOf? = rs.filterMap c.keyOf? := by
      rw [List.filterMap_append, List.filterMap_cons_none hnone, List.filterMap_nil,
        List.append_nil]
    refine ⟨h.coherent, ?_, fun key x hx => (h.latest key x hx).concat fun hkey => ?_, ?_⟩
    · rw [admission, hnone, List.append_nil, h.order_eq]
    · rw [← keyOf?_eq_some_iff, hnone] at hkey
      cases hkey
    · rw [hkeys]
      exact h.all_of_room

/-- After filing, the record of its key is the latest one, and so are those that were left. -/
theorem Holds.latest_file (h : c.Holds rs log) (hkey : c.keyOf? r = some key)
    (hself : (c.file key r).get? key = some r)
    (hothers : ∀ k x, k ≠ key → (c.file key r).get? k = some x → c.get? k = some x) :
    ∀ k x, (c.file key r).get? k = some x → IsLatest c.path k x (rs ++ [r]) := by
  have hlookup : Path.lookup c.path r = some (.string key) := keyOf?_eq_some_iff.mp hkey
  intro k x hx
  by_cases hk : k = key
  · subst hk
    obtain rfl : r = x := Option.some.inj (hself.symm.trans hx)
    exact isLatest_concat hlookup rs
  · refine (h.latest k x (hothers k x hk hx)).concat fun hsame => hk ?_
    rw [hlookup] at hsame
    cases hsame
    rfl

theorem filterMap_concat {k : String} (hkey : c.keyOf? r = some key)
    (hk : k ∈ (rs ++ [r]).filterMap c.keyOf?) : k ∈ rs.filterMap c.keyOf? ∨ k = key := by
  rw [List.filterMap_append, List.filterMap_cons_some hkey, List.filterMap_nil, List.mem_append,
    List.mem_singleton] at hk
  exact hk

/-- A record replaces that of its key. -/
theorem Holds.replace (h : c.Holds rs log) {n : Nat} (hcapacity : c.capacity = n + 1)
    (hkey : c.keyOf? r = some key) (hmem : key ∈ c.order) :
    (c.file key r).Holds (rs ++ [r]) log := by
  obtain ⟨horder, hget⟩ := h.coherent.file_of_mem hmem r
  refine ⟨h.coherent.file hcapacity key r, horder.trans h.order_eq, ?_, fun hroom k hk => ?_⟩
  · refine h.latest_file hkey (h.coherent.get?_file_self hcapacity key r) fun k x hk hx => ?_
    rwa [hget, if_neg hk] at hx
  · rw [horder] at hroom ⊢
    rcases filterMap_concat hkey hk with hk | rfl
    · exact h.all_of_room hroom k hk
    · exact hmem

/-- **A record is filed under a key that is admitted.** -/
theorem Holds.enter (h : c.Holds rs log) {n : Nat} (hcapacity : c.capacity = n + 1)
    (hkey : c.keyOf? r = some key) (hmem : key ∉ c.order) :
    (c.file key r).Holds (rs ++ [r]) (log ++ [key]) := by
  obtain ⟨horder, hget⟩ := h.coherent.file_of_notMem hcapacity hmem r
  have hcap : (c.file key r).capacity = n + 1 := hcapacity
  refine ⟨h.coherent.file hcapacity key r, ?_, ?_, fun hroom k hk => ?_⟩
  · have hlast : (log.rtake (n + 1)).rtake n = log.rtake n := by
      rw [List.rtake, List.rtake, List.rtake, List.drop_drop, List.length_drop]
      congr 1
      omega
    rw [horder, h.order_eq, hcap, hcapacity, List.rtake_concat_succ, hlast]
  · refine h.latest_file hkey (h.coherent.get?_file_self hcapacity key r) fun k x hk hx => ?_
    rw [hget, if_neg hk] at hx
    split at hx
    · cases hx
    · exact hx
  · -- Nothing was dropped, since the queue is not full now.
    rw [horder, hcap, List.length_append, List.length_singleton, List.rtake, List.length_drop]
      at hroom
    have hall : c.order.rtake n = c.order := by
      rw [List.rtake, Nat.sub_eq_zero_of_le (by omega), List.drop_zero]
    rw [horder, hall, List.mem_append, List.mem_singleton]
    exact (filterMap_concat hkey hk).imp_left (h.all_of_room (by omega) k)

/-- **One record more.** -/
theorem Holds.insert (h : c.Holds rs log) (r : Json) :
    (c.insert r).2.Holds (rs ++ [r]) (log ++ c.admission r) := by
  obtain ⟨heq, hpass⟩ | ⟨n, key, hcapacity, hkey, heq⟩ := insert_cases c r
  · rw [heq]
    exact h.pass hpass
  · have hlog : c.admission r = if key ∈ c.order then [] else [key] := by
      simp only [admission, hkey, h.coherent.mem_order_iff]
      cases c.get? key <;> rfl
    rw [heq, hlog]
    split
    case isTrue hmem =>
      rw [List.append_nil]
      exact h.replace hcapacity hkey hmem
    case isFalse hmem => exact h.enter hcapacity hkey hmem

/-- **What a cache holds after a run of records.** -/
theorem holds_insertAll (path : String) (capacity : Nat) (rs : List Json) :
    ((empty path capacity).insertAll rs).Holds rs ((empty path capacity).admissions rs) := by
  induction rs using List.reverseRecOn with
  | nil => exact holds_empty path capacity
  | append_singleton rs r ih =>
    rw [insertAll_concat, admissions, history_concat]
    exact ih.insert r

/-- The path and the capacity stay as they are. -/
theorem insertAll_rules (c : Cache) (rs : List Json) :
    (c.insertAll rs).path = c.path ∧ (c.insertAll rs).capacity = c.capacity := by
  induction rs using List.reverseRecOn with
  | nil => exact ⟨rfl, rfl⟩
  | append_singleton rs r ih =>
    rw [insertAll_concat]
    obtain ⟨heq, -⟩ | ⟨n, key, -, -, heq⟩ := insert_cases (c.insertAll rs) r
    · rw [heq]
      exact ih
    · rw [heq]
      exact ih

/-- **As many records as there were keys, up to the capacity.** -/
theorem Holds.size_eq (h : c.Holds rs log) :
    c.size = min c.capacity (rs.filterMap c.keyOf?).dedup.length := by
  have hsub : c.order ⊆ (rs.filterMap c.keyOf?).dedup := by
    intro key hkey
    obtain ⟨r, hr⟩ := Option.isSome_iff_exists.mp ((h.coherent.mem_order_iff key).mp hkey)
    obtain ⟨before, after, rfl, hlookup, -⟩ := h.latest key r hr
    rw [List.mem_dedup, List.mem_filterMap]
    exact ⟨r, List.mem_append_right _ List.mem_cons_self, keyOf?_eq_some_iff.mpr hlookup⟩
  have hle := (List.subperm_of_subset h.coherent.nodup hsub).length_le
  rw [h.coherent.size_eq]
  rcases Nat.lt_or_ge c.order.length c.capacity with hroom | hfull
  · have hback : (rs.filterMap c.keyOf?).dedup ⊆ c.order := fun key hkey =>
      h.all_of_room hroom key (List.mem_dedup.mp hkey)
    have hge := (List.subperm_of_subset (List.nodup_dedup _) hback).length_le
    omega
  · have hcap := h.coherent.length_le
    omega

/-- **A cache keeps the last keys that were admitted.**  After any records,

* the queue names each key once, and exactly those under which a record is filed;
* there are as many records as there were keys, up to the capacity;
* a record that is filed has its key at the path, and is the latest that has it;
* the queue is the end of the log of admissions, so **a record that replaces another leaves the
  queue as it is**;
* a record that was filed is there at once, and one that was not changes nothing. -/
theorem last_admissions_are_kept (path : String) (capacity : Nat) (rs : List Json) :
    let start := empty path capacity
    let c := start.insertAll rs
    (c.order.Nodup ∧ ∀ key, key ∈ c.order ↔ (c.get? key).isSome = true) ∧
    c.size = min capacity (rs.filterMap start.keyOf?).dedup.length ∧
    (∀ key r, c.get? key = some r → IsLatest path key r rs) ∧
    c.order = (start.admissions rs).rtake c.size ∧
    (∀ key r, c.keyOf? r = some key → key ∈ c.order →
      (c.insert r).2.order = c.order ∧ (c.insert r).2.get? key = some r) ∧
    ∀ r, ((c.insert r).1 = true →
        ∃ key, c.keyOf? r = some key ∧ (c.insert r).2.get? key = some r) ∧
      ((c.insert r).1 = false → (c.insert r).2 = c) := by
  intro start c
  have h : c.Holds rs (start.admissions rs) := holds_insertAll path capacity rs
  obtain ⟨hpath, hcapacity⟩ : c.path = path ∧ c.capacity = capacity := insertAll_rules start rs
  have hkeyOf : c.keyOf? = start.keyOf? := by
    funext r
    rw [keyOf?, keyOf?, hpath]
    rfl
  refine ⟨⟨h.coherent.nodup, h.coherent.mem_order_iff⟩, ?_, ?_, ?_, ?_, fun r => ?_⟩
  · rw [← hkeyOf, ← hcapacity]
    exact h.size_eq
  · exact hpath ▸ h.latest
  · have hsize : c.size = min c.capacity (start.admissions rs).length := by
      rw [h.coherent.size_eq, h.order_eq, List.rtake, List.length_drop]
      omega
    rw [h.order_eq, hsize, List.rtake, List.rtake]
    congr 1
    omega
  · intro key r hkey hmem
    obtain ⟨-, hzero | hnone⟩ | ⟨n, key', hcap, hkey', heq⟩ := insert_cases c r
    · have hlength := h.coherent.length_le
      rw [hzero, Nat.le_zero, List.length_eq_zero_iff] at hlength
      exact absurd (hlength ▸ hmem) List.not_mem_nil
    · exact absurd (hkey.symm.trans hnone) (Option.some_ne_none _)
    · obtain rfl : key = key' := Option.some.inj (hkey.symm.trans hkey')
      rw [heq]
      exact ⟨(h.coherent.file_of_mem hmem r).1, h.coherent.get?_file_self hcap key r⟩
  · obtain ⟨heq, -⟩ | ⟨n, key, hcap, hkey, heq⟩ := insert_cases c r
    · rw [heq]
      exact ⟨fun htrue => absurd htrue Bool.false_ne_true, fun _ => rfl⟩
    · rw [heq]
      exact ⟨fun _ => ⟨key, hkey, h.coherent.get?_file_self hcap key r⟩,
        fun hfalse => absurd hfalse.symm Bool.false_ne_true⟩

/-- A record that carries a key. -/
def keyed (key : String) (n : Json) : Json := .object [("id", .string key), ("n", n)]

/-- With room for two keys, a second record of the first key did not save it from going when a third
key came.  Now a second record of `b` leaves the queue as it is, a record of `a` is filed again, and
one without a key is not. -/
theorem second_record_saves_no_key :
    let seen := [keyed "a" .null, keyed "b" .null, keyed "a" (.bool true), keyed "c" .null]
    let c := (empty "id" 2).insertAll seen
    (c.get? "c" = some (keyed "c" .null) ∧ IsLatest "id" "c" (keyed "c" .null) seen) ∧
    (c.order = ["b", "c"] ∧ (empty "id" 2).admissions seen = ["a", "b", "c"]) ∧
    (c.insert (keyed "b" (.bool true))).2.order = ["b", "c"] ∧
    ((c.insert (keyed "a" .null)).1 = true ∧
      ∃ key, c.keyOf? (keyed "a" .null) = some key ∧
        (c.insert (keyed "a" .null)).2.get? key = some (keyed "a" .null)) ∧
    (c.insert .null).1 = false ∧ (c.insert .null).2 = c := by
  intro seen c
  obtain ⟨-, -, hlatest, -, hreplaced, hone⟩ := last_admissions_are_kept "id" 2 seen
  have hb : "b" ∈ c.order := by decide
  refine ⟨⟨rfl, hlatest "c" _ rfl⟩, ⟨by decide, by decide⟩, ?_, ⟨by decide, (hone _).1 (by decide)⟩,
    by decide, (hone _).2 (by decide)⟩
  exact (hreplaced "b" (keyed "b" (.bool true)) (by decide) hb).1.trans (by decide)

end Cache

end LiveQuery
