import Mathlib.Data.List.Basic
import Mathlib.Tactic.Common

namespace Maubot.MultiDict

/-!
# Dictionaries with several values for a key

The items of headers and queries, in their order.  Two keys are the same if they have the same
norm: the letter case of the name of a header does not count.

* `getAll`, `delAll`, `setItem` — with the values that each leaves for a key;
* `Same` — two dictionaries with the same values for every key.
-/

variable {κ ν α : Type} [DecidableEq ν] (norm : κ → ν)

/-- `d.getall(k)` -/
def getAll (d : List (κ × α)) (k : κ) : List α :=
  (d.filter fun e => norm e.1 = norm k).map Prod.snd

def contains (d : List (κ × α)) (k : κ) : Bool := d.any fun e => norm e.1 = norm k

/-- `del d[k]`, for a key that is there -/
def delAll (d : List (κ × α)) (k : κ) : List (κ × α) := d.filter fun e => norm e.1 ≠ norm k

/-- `d[k] = v`: the first item of the key is replaced, and the others are removed. -/
def setItem (d : List (κ × α)) (k : κ) (v : α) : List (κ × α) :=
  match d with
  | []     => [(k, v)]
  | e :: d => if norm e.1 = norm k then (k, v) :: delAll norm d k else e :: setItem d k v

/-- The same values for every key, in the same order -/
def Same (d d' : List (κ × α)) : Prop := ∀ k, getAll norm d k = getAll norm d' k

variable {norm} {d d' : List (κ × α)} {k k' : κ} {v : α}

/-- Keys that are the same have the same values. -/
theorem getAll_congr (h : norm k = norm k') : getAll norm d k = getAll norm d k' := by
  rw [getAll, getAll, h]

/-- The values of the first dictionary come first. -/
theorem getAll_append (d d' : List (κ × α)) (k : κ) :
    getAll norm (d ++ d') k = getAll norm d k ++ getAll norm d' k := by
  rw [getAll, List.filter_append, List.map_append, getAll, getAll]

/-- An entry of another key does not count. -/
theorem getAll_cons_ne (h : norm k ≠ norm k') :
    getAll norm ((k, v) :: d) k' = getAll norm d k' := by
  rw [getAll, List.filter_cons_of_neg (by simpa using h), getAll]

/-- A key that is deleted has no values, -/
theorem getAll_delAll_self (h : norm k' = norm k) : getAll norm (delAll norm d k) k' = [] := by
  rw [getAll, delAll, List.filter_filter, List.map_eq_nil_iff, List.filter_eq_nil_iff]
  intro e _
  simp [h]

/-- and the others have theirs. -/
theorem getAll_delAll_ne (h : norm k' ≠ norm k) :
    getAll norm (delAll norm d k) k' = getAll norm d k' := by
  rw [getAll, getAll, delAll, List.filter_filter]
  congr 1
  refine List.filter_congr fun e _ => ?_
  by_cases he : norm e.1 = norm k'
  · simp [he, h]
  · simp [he]

/-- A key that is set has one value, -/
theorem getAll_setItem_self (h : norm k' = norm k) : getAll norm (setItem norm d k v) k' = [v] := by
  rw [getAll_congr h]
  induction d with
  | nil => simp [setItem, getAll]
  | cons e d ih =>
    rw [setItem]
    by_cases he : norm e.1 = norm k
    · rw [if_pos he, getAll, List.filter_cons_of_pos (by simp), List.map_cons]
      exact congrArg (List.cons v) (getAll_delAll_self rfl)
    · rw [if_neg he, getAll, List.filter_cons_of_neg (by simpa using he)]
      exact ih

/-- and the others have theirs. -/
theorem getAll_setItem_ne (h : norm k' ≠ norm k) :
    getAll norm (setItem norm d k v) k' = getAll norm d k' := by
  have hk : ¬ norm k = norm k' := Ne.symm h
  induction d with
  | nil => simp [setItem, getAll, hk]
  | cons e d ih =>
    rw [setItem]
    by_cases he : norm e.1 = norm k
    · rw [if_pos he, getAll, List.filter_cons_of_neg (by simpa using hk), getAll,
        List.filter_cons_of_neg (by simp [he, hk])]
      exact getAll_delAll_ne h
    · rw [if_neg he]
      by_cases hek : norm e.1 = norm k'
      · rw [getAll, List.filter_cons_of_pos (by simpa using hek), getAll,
          List.filter_cons_of_pos (by simpa using hek), List.map_cons, List.map_cons]
        exact congrArg (List.cons e.2) ih
      · rw [getAll, List.filter_cons_of_neg (by simpa using hek), getAll,
          List.filter_cons_of_neg (by simpa using hek)]
        exact ih

/-- A key is contained if it has values. -/
theorem contains_iff : contains norm d k = true ↔ getAll norm d k ≠ [] := by
  rw [contains, List.any_eq_true, getAll, Ne, List.map_eq_nil_iff, List.filter_eq_nil_iff]
  simp

/-! What `Same` is kept by -/

/-- The same dictionaries contain the same keys. -/
theorem Same.contains (h : Same norm d d') : contains norm d k = contains norm d' k := by
  rw [Bool.eq_iff_iff, contains_iff, contains_iff, h k]

/-- They are the same without a key if they are so at the others, -/
theorem Same.delAll (h : ∀ k', norm k' ≠ norm k → getAll norm d k' = getAll norm d' k') :
    Same norm (delAll norm d k) (delAll norm d' k) := by
  intro k'
  by_cases hk : norm k' = norm k
  · rw [getAll_delAll_self hk, getAll_delAll_self hk]
  · rw [getAll_delAll_ne hk, getAll_delAll_ne hk, h k' hk]

/-- and with it set. -/
theorem Same.setItem (h : ∀ k', norm k' ≠ norm k → getAll norm d k' = getAll norm d' k') :
    Same norm (setItem norm d k v) (setItem norm d' k v) := by
  intro k'
  by_cases hk : norm k' = norm k
  · rw [getAll_setItem_self hk, getAll_setItem_self hk]
  · rw [getAll_setItem_ne hk, getAll_setItem_ne hk, h k' hk]

end Maubot.MultiDict
