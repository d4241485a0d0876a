import Mathlib.Data.List.Nodup
import Mathlib.Tactic.Common

namespace Maubot

/-!
# Dictionaries that remember their order

A `Dict κ α` lists its entries in the order in which their keys were inserted, each key once.

* `get`, `insertNew`, `pop` with their read equations;
* `first` — the first entry whose key has a property: where one key has it, the order does not
  matter (`first_eq_some`, `first_congr`);
* `Items.set` — the same for a plain list of items.
-/

structure Dict (κ α : Type) where
  entries : List (κ × α)
  nodup   : (entries.map Prod.fst).Nodup

namespace Dict

variable {κ α : Type} [DecidableEq κ] {d : Dict κ α} {k k' : κ} {a : α}

def empty : Dict κ α := ⟨[], List.nodup_nil⟩

def get (d : Dict κ α) (k : κ) : Option α := (d.entries.find? fun e => e.1 = k).map Prod.snd

/-- `d[k] = a` for a key that is not there. -/
def insertNew (d : Dict κ α) (k : κ) (a : α) (h : d.get k = none) : Dict κ α where
  entries := d.entries ++ [(k, a)]
  nodup   := by
    rw [List.map_append, List.nodup_append]
    refine ⟨d.nodup, List.nodup_singleton _, fun x hx y hy => ?_⟩
    obtain ⟨e, he, rfl⟩ := List.mem_map.mp hx
    obtain rfl : y = k := by simpa using hy
    rintro rfl
    have hnone : d.entries.find? (fun e' => e'.1 = e.1) = none := by
      simpa [get] using h
    have := List.find?_eq_none.mp hnone e he
    simp at this

/-- `d.pop(k)` -/
def pop (d : Dict κ α) (k : κ) : Dict κ α where
  entries := d.entries.filter fun e => e.1 ≠ k
  nodup   := d.nodup.sublist (List.filter_sublist.map Prod.fst)

/-- The first entry, in the order of insertion, whose key has a property. -/
def first (d : Dict κ α) (p : κ → Bool) : Option (κ × α) := d.entries.find? fun e => p e.1

/-- An empty dictionary has no entries. -/
@[simp] theorem get_empty (k : κ) : (empty : Dict κ α).get k = none := rfl

omit [DecidableEq κ] in
/-- A key has one entry. -/
theorem eq_of_mem {e e' : κ × α} (h : e ∈ d.entries) (h' : e' ∈ d.entries) (hk : e.1 = e'.1) :
    e = e' :=
  List.inj_on_of_nodup_map d.nodup h h' hk

/-- It is found if it is there. -/
theorem get_eq_some_iff : d.get k = some a ↔ (k, a) ∈ d.entries := by
  unfold get
  constructor
  · intro h
    obtain ⟨e, he, rfl⟩ := Option.map_eq_some_iff.mp h
    have hk : e.1 = k := by simpa using List.find?_some he
    subst hk
    exact List.mem_of_find?_eq_some he
  · intro h
    cases hf : d.entries.find? (fun e => e.1 = k) with
    | none =>
      have := List.find?_eq_none.mp hf (k, a) h
      simp at this
    | some e =>
      have hk : e.1 = k := by simpa using List.find?_some hf
      have := eq_of_mem (List.mem_of_find?_eq_some hf) h hk
      simp [this]

/-- A new key has its value, -/
theorem get_insertNew_self (h : d.get k = none) : (d.insertNew k a h).get k = some a := by
  rw [get_eq_some_iff]
  exact List.mem_append_right _ List.mem_cons_self

/-- and the others have theirs. -/
theorem get_insertNew_ne (h : d.get k = none) (hne : k' ≠ k) :
    (d.insertNew k a h).get k' = d.get k' := by
  unfold get insertNew
  rw [List.find?_append]
  simp [Ne.symm hne]

/-- A key that is popped is gone, -/
@[simp] theorem get_pop_self : (d.pop k).get k = none := by
  simp [get, pop]

/-- and the others are not. -/
theorem get_pop_ne (hne : k' ≠ k) : (d.pop k).get k' = d.get k' := by
  apply Option.ext
  intro a
  rw [get_eq_some_iff, get_eq_some_iff]
  simp [pop, hne]

/-- **A unique match is found**, wherever it stands. -/
theorem first_eq_some {p : κ → Bool} (h : d.get k = some a) (hp : p k = true)
    (hunique : ∀ k' a', d.get k' = some a' → p k' = true → k' = k) : d.first p = some (k, a) := by
  rw [get_eq_some_iff] at h
  unfold first
  cases hf : d.entries.find? (fun e => p e.1) with
  | none =>
    have := List.find?_eq_none.mp hf (k, a) h
    simp [hp] at this
  | some e =>
    have hmem := List.mem_of_find?_eq_some hf
    have hk := hunique e.1 e.2 (get_eq_some_iff.mpr hmem) (by simpa using List.find?_some hf)
    rw [eq_of_mem hmem h hk]

/-- Without a key that fits, no first one is found. -/
theorem first_eq_none {p : κ → Bool} (h : ∀ k a, d.get k = some a → p k = false) :
    d.first p = none := by
  unfold first
  rw [List.find?_eq_none]
  intro e he
  simp [h e.1 e.2 (get_eq_some_iff.mpr he)]

/-- The first one is an entry that fits. -/
theorem get_of_first {p : κ → Bool} (h : d.first p = some (k, a)) :
    d.get k = some a ∧ p k = true := by
  refine ⟨get_eq_some_iff.mpr (List.mem_of_find?_eq_some h), ?_⟩
  simpa using List.find?_some h

/-- Two dictionaries with the same items, in whatever order, have the same first match, if
    there is at most one. -/
theorem first_congr {d' : Dict κ α} {p : κ → Bool} (h : ∀ k, d'.get k = d.get k)
    (hunique : ∀ k a k' a', d.get k = some a → d.get k' = some a' → p k = true →
      p k' = true → k' = k) : d'.first p = d.first p := by
  cases hf : d.first p with
  | none =>
    refine first_eq_none fun k a hk => ?_
    rw [h] at hk
    rw [get_eq_some_iff] at hk
    simpa using List.find?_eq_none.mp hf (k, a) hk
  | some e =>
    obtain ⟨hk, hp⟩ := get_of_first hf
    refine first_eq_some ((h e.1).trans hk) hp fun k' a' hk' hp' => ?_
    rw [h] at hk'
    exact hunique _ _ _ _ hk hk' hp hp'

end Dict

/-! ### Plain lists of items -/

namespace Items

variable {κ α : Type} [DecidableEq κ] {items : List (κ × α)} {k k' : κ} {a : α}

/-- `d[k] = a`: a key that is there keeps its place. -/
def set (items : List (κ × α)) (k : κ) (a : α) : List (κ × α) :=
  if k ∈ items.map Prod.fst then items.map fun x => if x.1 = k then (k, a) else x
  else items ++ [(k, a)]

/-- A change of the values -/
theorem set_map (f : α → α) (items : List (κ × α)) (k : κ) (a : α) :
    set (items.map fun x => (x.1, f x.2)) k (f a) = (set items k a).map fun x => (x.1, f x.2) := by
  have hkeys : (items.map fun x => (x.1, f x.2)).map Prod.fst = items.map Prod.fst := by
    rw [List.map_map]
    rfl
  unfold set
  rw [hkeys]
  by_cases hk : k ∈ items.map Prod.fst
  · rw [if_pos hk, if_pos hk, List.map_map, List.map_map]
    refine List.map_congr_left fun x _ => ?_
    by_cases hx : x.1 = k <;> simp [hx]
  · rw [if_neg hk, if_neg hk, List.map_append]
    rfl

/-- A key that is set stays at its place, or comes last. -/
theorem keys_set : (set items k a).map Prod.fst =
    if k ∈ items.map Prod.fst then items.map Prod.fst else items.map Prod.fst ++ [k] := by
  unfold set
  by_cases hk : k ∈ items.map Prod.fst
  · rw [if_pos hk, if_pos hk, List.map_map]
    refine List.map_congr_left fun x _ => ?_
    by_cases hx : x.1 = k <;> simp [hx]
  · rw [if_neg hk, if_neg hk, List.map_append]
    rfl

/-- Each key once -/
theorem nodup_set (h : (items.map Prod.fst).Nodup) : ((set items k a).map Prod.fst).Nodup := by
  rw [keys_set]
  by_cases hk : k ∈ items.map Prod.fst
  · rw [if_pos hk]
    exact h
  · rw [if_neg hk]
    rw [← List.concat_eq_append]
    exact h.concat hk

section Lookup

-- the comparison of a lookup need not be the one of `set`
variable [BEq κ] [LawfulBEq κ]

/-- A value that is replaced is found, -/
theorem lookup_map_self (a : α) (h : k ∈ items.map Prod.fst) :
    (items.map fun x => if x.1 = k then (k, a) else x).lookup k = some a := by
  induction items with
  | nil => cases h
  | cons x items ih =>
    obtain ⟨j, v⟩ := x
    by_cases hj : j = k
    · simp [hj]
    · have hb : (k == j) = false := by simpa using Ne.symm hj
      have hrest : k ∈ items.map Prod.fst := (List.mem_cons.mp h).resolve_left (Ne.symm hj)
      simp [hj, hb, List.lookup_cons, ih hrest]

/-- and the others are as before. -/
theorem lookup_map_ne (a : α) (hne : k' ≠ k) :
    (items.map fun x => if x.1 = k then (k, a) else x).lookup k' = items.lookup k' := by
  induction items with
  | nil => rfl
  | cons x items ih =>
    obtain ⟨j, v⟩ := x
    by_cases hj : j = k
    · have hb : (k' == k) = false := by simpa using hne
      simp [hj, hb, List.lookup_cons, ih]
    · simp [hj, List.lookup_cons, ih]

/-- **Reading back.** -/
theorem lookup_set : (set items k a).lookup k' = if k' = k then some a else items.lookup k' := by
  unfold set
  by_cases hk : k ∈ items.map Prod.fst
  · rw [if_pos hk]
    by_cases heq : k' = k
    · rw [if_pos heq, heq, lookup_map_self a hk]
    · rw [if_neg heq, lookup_map_ne a heq]
  · rw [if_neg hk, List.lookup_append]
    by_cases heq : k' = k
    · subst heq
      have hnone : items.lookup k' = none := by
        rw [List.lookup_eq_none_iff]
        intro x hx
        have hne : k' ≠ x.1 := fun he => hk (List.mem_map.mpr ⟨x, hx, he.symm⟩)
        simpa using hne
      simp [hnone]
    · have hb : (k' == k) = false := by simpa using heq
      simp [heq, hb, List.lookup_cons]

end Lookup

end Items

end Maubot
