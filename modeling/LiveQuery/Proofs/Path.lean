import LiveQuery.Path
import LiveQuery.Proofs.Text.Numeral
import Mathlib.Data.List.Forall2

/-!
# Proofs/Path — a path says step by step where to go

A value is a tree, and a `Step` goes to one of its children: to the member of a key, or to the item
at a position.  A path is such steps written out with dots between them, and **looking it up is
taking its steps one after the other** (`lookup_eq_some_iff`).

A segment may spell a key and a position at once; which of the two it means is up to the value that
it is applied to (`step_eq_some_iff`).  A position has many spellings, with a plus sign and with
leading zeros, and all of them find the same item.
-/

namespace LiveQuery.Path

open Text

variable {cs segment : List Char} {segs : List (List Char)} {v w : Json} {n limit : Nat}

/-! ## Segments -/

/-- **The segments of a text are what its dots part.** -/
theorem segments_eq_splitOn (cs : List Char) : segments cs = cs.splitOn '.' := by
  induction cs with
  | nil => rfl
  | cons c cs ih =>
    rw [List.splitOn_cons_eq_if_modifyHead, ← ih, segments]
    have hne : segments cs ≠ [] := ih ▸ List.splitOn_ne_nil '.' cs
    obtain ⟨s, ss, hs⟩ := List.exists_cons_of_ne_nil hne
    by_cases hdot : c = '.' <;> simp [hs, hdot]

theorem segments_append_dot (as bs : List Char) :
    segments (as ++ '.' :: bs) = segments as ++ segments bs := by
  simp only [segments_eq_splitOn, List.splitOn_append_cons_self]

/-- **What is joined by dots is parted again.** -/
theorem segments_intercalate (hne : segs ≠ []) (hdot : ∀ s ∈ segs, '.' ∉ s) :
    segments (['.'].intercalate segs) = segs := by
  rw [segments_eq_splitOn, List.splitOn_intercalate '.' hdot hne]

theorem dot_notMem_of_mem_segments (h : segment ∈ segments cs) : '.' ∉ segment := by
  induction cs generalizing segment with
  | nil =>
    obtain rfl := List.mem_singleton.mp h
    exact List.not_mem_nil
  | cons c cs ih =>
    rw [segments] at h
    split at h
    case h_1 s ss hs =>
      rw [hs] at ih
      split at h
      case isTrue =>
        rcases List.mem_cons.mp h with rfl | h
        · exact List.not_mem_nil
        · exact ih h
      case isFalse hdot =>
        rcases List.mem_cons.mp h with rfl | h
        · exact List.not_mem_cons_of_ne_of_not_mem (Ne.symm hdot) (ih List.mem_cons_self)
        · exact ih (List.mem_cons_of_mem _ h)
    case h_2 hnil =>
      exact absurd (segments_eq_splitOn cs ▸ hnil) (List.splitOn_ne_nil '.' cs)

/-! ## Steps -/

/-- **A step into a value**: to the member of a key, or to the item at a position. -/
inductive Step where
  | key (k : String)
  | position (i : Fin positionLimit)
deriving DecidableEq

namespace Step

variable {s : Step}

/-- **Where a step leads**: nowhere, if the value has no such child. -/
def into? : Step → Json → Option Json
  | key k, .object members => members.lookup k
  | position i, .array items => items[i.val]?
  | _, _ => none

/-- The step as a segment of a path. -/
def write : Step → String
  | key k => k
  | position i => String.ofList (digitsOfNat i)

/-- Whether a step can be written as a segment: a key must have no dot in it. -/
def IsWritable : Step → Prop
  | key k => '.' ∉ k.toList
  | position _ => True

end Step

/-- **The node that some steps lead to**, one after the other. -/
def reach (v : Json) (steps : List Step) : Option Json := steps.foldlM (fun v s => s.into? v) v

/-- **What a segment spells**: the key it is, or the position it writes in decimal, after at most a
plus sign and any zeros. -/
inductive Spells : List Char → Step → Prop
  | key (segment : List Char) : Spells segment (.key (String.ofList segment))
  | position {plus digits : List Char} {i : Fin positionLimit} (hplus : plus = [] ∨ plus = ['+'])
      (hne : digits ≠ []) (hdigits : digits.all Char.isDigit = true)
      (hvalue : natOfDigits digits = i) : Spells (plus ++ digits) (.position i)

/-! ## One step -/

/-- A segment leads to an item if it spells a position. -/
theorem step_array_eq_some_iff {items : List Json} :
    step (.array items) segment = some w ↔
      ∃ s, Spells segment s ∧ s.into? (.array items) = some w := by
  rw [step, Option.bind_eq_some_iff]
  constructor
  · rintro ⟨i, hi, hw⟩
    obtain ⟨hlimit, plus, digits, rfl, hplus, hne, hdigits, hvalue⟩ :=
      readUnsigned?_eq_some_iff.mp hi
    exact ⟨.position ⟨i, hlimit⟩, .position hplus hne hdigits hvalue, hw⟩
  · rintro ⟨s, hs, hw⟩
    cases hs with
    | key => cases hw
    | @position plus digits i hplus hne hdigits hvalue =>
      exact ⟨i, readUnsigned?_eq_some_iff.mpr
        ⟨i.isLt, plus, digits, rfl, hplus, hne, hdigits, hvalue⟩, hw⟩

/-- **A segment takes the step that it spells.** -/
theorem step_eq_some_iff :
    step v segment = some w ↔ ∃ s, Spells segment s ∧ s.into? v = some w := by
  cases v with
  | object members =>
    constructor
    · exact fun h => ⟨_, .key segment, h⟩
    · rintro ⟨s, hs, hw⟩
      cases hs with
      | key => exact hw
      | position => cases hw
  | array items => exact step_array_eq_some_iff
  | _ =>
    refine iff_of_false (fun h => by cases h) ?_
    rintro ⟨s, -, hw⟩
    cases s <;> cases hw

/-! ## Whole paths -/

theorem reach_cons (s : Step) (steps : List Step) (v : Json) :
    reach v (s :: steps) = (s.into? v).bind (reach · steps) := rfl

/-- **Segments are followed by taking steps that they spell.** -/
theorem follow_eq_some_iff :
    follow v segs = some w ↔ ∃ steps, List.Forall₂ Spells segs steps ∧ reach v steps = some w := by
  induction segs generalizing v with
  | nil =>
    rw [follow_nil]
    constructor
    · exact fun h => ⟨[], .nil, h⟩
    · rintro ⟨steps, ⟨⟩, h⟩
      exact h
  | cons segment segs ih =>
    rw [follow_cons, Option.bind_eq_some_iff]
    constructor
    · rintro ⟨u, hu, hw⟩
      obtain ⟨s, hs, hsu⟩ := step_eq_some_iff.mp hu
      obtain ⟨steps, hsteps, hreach⟩ := ih.mp hw
      refine ⟨s :: steps, .cons hs hsteps, ?_⟩
      rw [reach_cons, hsu, Option.bind_some, hreach]
    · rintro ⟨_, hall, hreach⟩
      obtain ⟨s, steps, hs, hsteps, rfl⟩ := List.forall₂_cons_left_iff.mp hall
      rw [reach_cons, Option.bind_eq_some_iff] at hreach
      obtain ⟨u, hsu, hreach⟩ := hreach
      exact ⟨u, step_eq_some_iff.mpr ⟨s, hs, hsu⟩, ih.mpr ⟨steps, hsteps, hreach⟩⟩

/-- Segments without dots spell steps that can be written as segments. -/
theorem isWritable_of_spells {steps : List Step} (h : List.Forall₂ Spells segs steps)
    (hdot : ∀ segment ∈ segs, '.' ∉ segment) : ∀ s ∈ steps, s.IsWritable := by
  induction h with
  | nil => exact fun s hs => absurd hs List.not_mem_nil
  | cons hspells _ ih =>
    obtain ⟨hhead, htail⟩ := List.forall_mem_cons.mp hdot
    refine List.forall_mem_cons.mpr ⟨?_, ih htail⟩
    cases hspells with
    | key => rwa [Step.IsWritable, String.toList_ofList]
    | position => trivial

/-- **A path is looked up by taking the steps that it spells.** -/
theorem lookup_eq_some_iff {path : String} :
    lookup path v = some w ↔
      ∃ steps, List.Forall₂ Spells (path.toList.splitOn '.') steps ∧
        (∀ s ∈ steps, s.IsWritable) ∧ reach v steps = some w := by
  rw [lookup, follow_eq_some_iff, ← segments_eq_splitOn]
  constructor
  · rintro ⟨steps, hspells, hreach⟩
    exact ⟨steps, hspells,
      isWritable_of_spells hspells fun _ => dot_notMem_of_mem_segments, hreach⟩
  · rintro ⟨steps, hspells, -, hreach⟩
    exact ⟨steps, hspells, hreach⟩

/-- **A path after a path** is looked up from where the first one leads. -/
theorem lookup_append (p q : String) (v : Json) :
    lookup (p ++ "." ++ q) v = (lookup p v).bind (lookup q) := by
  have hchars : (p ++ "." ++ q).toList = p.toList ++ '.' :: q.toList := by
    simp [String.toList_append]
  rw [lookup, hchars, segments_append_dot, follow_append]
  rfl

/-- A step is spelled by its own text. -/
theorem spells_write (s : Step) : Spells s.write.toList s := by
  cases s with
  | key k =>
    have hkey := Spells.key k.toList
    rwa [String.ofList_toList] at hkey
  | position i =>
    have hposition := Spells.position (.inl rfl) (digitsOfNat_ne_nil i)
      (all_isDigit_digitsOfNat i) (natOfDigits_digitsOfNat i)
    rwa [List.nil_append, ← String.toList_ofList (l := digitsOfNat i)] at hposition

theorem dot_notMem_write {s : Step} (h : s.IsWritable) : '.' ∉ s.write.toList := by
  cases s with
  | key k => exact h
  | position i =>
    rw [Step.write, String.toList_ofList]
    intro hdot
    exact absurd (isDigit_of_mem_digitsOfNat hdot) (by decide)

/-- **Steps written out are looked up.** -/
theorem lookup_intercalate {steps : List Step} (hne : steps ≠ [])
    (hwritable : ∀ s ∈ steps, s.IsWritable) (h : reach v steps = some w) :
    lookup (".".intercalate (steps.map Step.write)) v = some w := by
  have hsegments : segments (".".intercalate (steps.map Step.write)).toList
      = steps.map fun s => s.write.toList := by
    rw [String.toList_intercalate, List.map_map]
    refine segments_intercalate (by simpa using hne) ?_
    simpa using fun s hs => dot_notMem_write (hwritable s hs)
  rw [lookup, hsegments, follow_eq_some_iff]
  refine ⟨steps, ?_, h⟩
  rw [List.forall₂_map_left_iff]
  exact List.forall₂_same.mpr fun s _ => spells_write s

/-! ## The law -/

/-- **Looking up a path is going step by step.**

* A path after another one is looked up from where that one leads, and nowhere if it leads nowhere.
* Steps that lead somewhere lead there when they are written out with dots between them, whatever
  is found there.
* A path finds what the steps lead to that its segments spell, one for each, and nothing else. -/
theorem path_goes_step_by_step :
    (∀ p q v, lookup (p ++ "." ++ q) v = (lookup p v).bind (lookup q)) ∧
    (∀ steps v w, steps ≠ [] → (∀ s ∈ steps, s.IsWritable) → reach v steps = some w →
      lookup (".".intercalate (steps.map Step.write)) v = some w) ∧
    ∀ path v w, lookup path v = some w ↔
      ∃ steps, List.Forall₂ Spells (path.toList.splitOn '.') steps ∧
        (∀ s ∈ steps, s.IsWritable) ∧ reach v steps = some w :=
  ⟨lookup_append, fun _ _ _ hne hwritable h => lookup_intercalate hne hwritable h,
    fun _ _ _ => lookup_eq_some_iff⟩

/-- A null under the empty key of the third item: its path ends with a dot, and the position may be
written with a plus sign and a zero. -/
theorem null_under_an_empty_key :
    let v : Json := .object [("a", .array [.null, .null, .object [("", .null)]])]
    let steps := [Step.key "a", .position ⟨2, by decide⟩, .key ""]
    reach v steps = some .null ∧ ".".intercalate (steps.map Step.write) = "a.2." ∧
      lookup "a.2." v = some .null ∧ lookup "a.+02." v = some .null := by
  intro v steps
  obtain ⟨-, hwritten, hspelled⟩ := path_goes_step_by_step
  have hreach : reach v steps = some .null := rfl
  have hwritable : ∀ s ∈ steps, s.IsWritable := by simp [steps, Step.IsWritable]
  refine ⟨hreach, rfl, hwritten steps v _ (List.cons_ne_nil _ _) hwritable hreach, ?_⟩
  refine (hspelled "a.+02." v .null).mpr ⟨steps, ?_, hwritable, hreach⟩
  exact .cons (.key ['a']) (.cons
    (.position (.inr rfl) (List.cons_ne_nil '0' ['2']) rfl rfl) (.cons (.key []) .nil))

end LiveQuery.Path
