import Mathlib.Tactic.Common
import Mathlib.Data.List.Basic
import Mathlib.Data.List.Nodup

namespace Maubot

/-!
# Hash sets whose elements may change their hash

A hash set files an element under the hash it has when it is inserted, and looks an
element up under the hash it has now.

* `contains`, `add` and `remove?` over the current `hash` and `eqv` of the elements
  (identity is tried before `eqv`);
* `Exact P s` says that `s` holds just the elements of `P`, each once and under its
  current hash.  On such a set the operations are those of a mathematical set
  (`Exact.contains_iff`, `Exact.add`, `Exact.remove`), provided that `eqv` identifies no
  two elements (`Apart`).
-/

/-- The entries in iteration order: the hash at insertion, and the element. -/
abbrev PySet (α : Type) := List (Int × α)

namespace PySet

variable {α : Type} [DecidableEq α] (hash : α → Int) (eqv : α → α → Bool)

/-- The entry that a lookup of `x` stops at. -/
def hits (x : α) (e : Int × α) : Bool := e.1 == hash x && (e.2 == x || eqv e.2 x)

def contains (s : PySet α) (x : α) : Bool := s.any (hits hash eqv x)

def add (s : PySet α) (x : α) : PySet α :=
  if contains hash eqv s x then s else s ++ [(hash x, x)]

/-- `none` stands for the `KeyError` of a missing element. -/
def remove? (s : PySet α) (x : α) : Option (PySet α) :=
  if contains hash eqv s x then some (s.eraseP (hits hash eqv x)) else none

/-- The elements in iteration order. -/
def elems (s : PySet α) : List α := s.map Prod.snd

/-- No element of `P` under the same hash is taken for `x`. -/
def Apart (P : α → Prop) (x : α) : Prop := ∀ a, P a → hash a = hash x → eqv a x → a = x

/-- The set holds just the elements of `P`, each once and under its current hash. -/
structure Exact (P : α → Prop) (s : PySet α) : Prop where
  mem_iff : ∀ h a, (h, a) ∈ s ↔ P a ∧ h = hash a
  nodup   : s.Nodup

variable {hash eqv}

namespace Exact

variable {P Q : α → Prop} {s : PySet α} {x : α}

omit [DecidableEq α] in
/-- A set is exact for what is the same. -/
theorem congr (h : Exact hash P s) (hPQ : ∀ a, P a ↔ Q a) : Exact hash Q s :=
  ⟨fun k a => by rw [h.mem_iff, hPQ], h.nodup⟩

omit [DecidableEq α] in
/-- The hashes of the elements are what they were. -/
theorem rehash {hash' : α → Int} (h : Exact hash P s) (hh : ∀ a, P a → hash' a = hash a) :
    Exact hash' P s := by
  refine ⟨fun k a => ?_, h.nodup⟩
  rw [h.mem_iff]
  exact and_congr_right fun ha => by rw [hh a ha]

omit [DecidableEq α] in
/-- The empty set is, where there is nothing. -/
theorem nil (h : ∀ a, ¬ P a) : Exact hash P ([] : PySet α) :=
  ⟨fun k a => by simp [h a], List.nodup_nil⟩

omit [DecidableEq α] in
/-- Its elements are just those. -/
theorem mem_elems (h : Exact hash P s) (a : α) : a ∈ s.elems ↔ P a := by
  simp [elems, h.mem_iff]

/-- A lookup hits the element itself, if nothing else compares equal to it. -/
theorem hits_iff (h : Exact hash P s) (hx : Apart hash eqv P x) {e : Int × α} (he : e ∈ s) :
    hits hash eqv x e = true ↔ e = (hash x, x) := by
  obtain ⟨k, a⟩ := e
  obtain ⟨hP, rfl⟩ := (h.mem_iff k a).mp he
  simp only [hits, Bool.and_eq_true, beq_iff_eq, Bool.or_eq_true, Prod.mk.injEq]
  constructor
  · rintro ⟨hk, rfl | hv⟩
    · exact ⟨rfl, rfl⟩
    · exact ⟨hk, hx a hP hk hv⟩
  · rintro ⟨hk, rfl⟩
    exact ⟨rfl, Or.inl rfl⟩

/-- So it is found exactly if it is in the set. -/
theorem contains_iff (h : Exact hash P s) (hx : Apart hash eqv P x) :
    contains hash eqv s x = true ↔ P x := by
  rw [contains, List.any_eq_true]
  constructor
  · rintro ⟨e, he, hm⟩
    rw [(h.hits_iff hx he).mp hm] at he
    exact ((h.mem_iff _ _).mp he).1
  · intro hP
    have he : (hash x, x) ∈ s := (h.mem_iff _ _).mpr ⟨hP, rfl⟩
    exact ⟨_, he, (h.hits_iff hx he).mpr rfl⟩

/-- A set that gets an element has one more. -/
theorem add (h : Exact hash P s) (hx : Apart hash eqv P x) :
    Exact hash (fun a => P a ∨ a = x) (add hash eqv s x) := by
  by_cases hP : P x
  · rw [PySet.add, if_pos ((h.contains_iff hx).mpr hP)]
    exact h.congr fun a => ⟨Or.inl, fun ha => ha.elim id fun e => e ▸ hP⟩
  · rw [PySet.add, if_neg (mt (h.contains_iff hx).mp hP)]
    refine ⟨fun k a => ?_, ?_⟩
    · rw [List.mem_append, h.mem_iff, List.mem_singleton, Prod.mk.injEq]
      constructor
      · rintro (⟨ha, hk⟩ | ⟨hk, rfl⟩)
        · exact ⟨Or.inl ha, hk⟩
        · exact ⟨Or.inr rfl, hk⟩
      · rintro ⟨ha | rfl, hk⟩
        · exact Or.inl ⟨ha, hk⟩
        · exact Or.inr ⟨hk, rfl⟩
    · rw [← List.concat_eq_append]
      exact h.nodup.concat fun he => hP ((h.mem_iff _ _).mp he).1

omit [DecidableEq α] in
/-- Erasing depends on the elements only. -/
private theorem eraseP_congr {p q : α → Bool} {l : List α} (h : ∀ a ∈ l, p a = q a) :
    l.eraseP p = l.eraseP q := by
  induction l with
  | nil => rfl
  | cons a l ih =>
    rw [List.eraseP_cons, List.eraseP_cons, h a (by simp), ih fun b hb => h b (by simp [hb])]

/-- A member is found and taken out. -/
theorem remove (h : Exact hash P s) (hx : Apart hash eqv P x) (hP : P x) :
    ∃ s', remove? hash eqv s x = some s' ∧ Exact hash (fun a => P a ∧ a ≠ x) s' := by
  have herase : s.eraseP (hits hash eqv x) = s.erase (hash x, x) := by
    rw [List.erase_eq_eraseP]
    refine eraseP_congr fun e he => ?_
    rw [Bool.eq_iff_iff, h.hits_iff hx he, beq_iff_eq, eq_comm]
  refine ⟨_, if_pos ((h.contains_iff hx).mpr hP), fun k a => ?_, ?_⟩
  · rw [herase, h.nodup.mem_erase_iff, h.mem_iff, Ne, Prod.mk.injEq]
    constructor
    · rintro ⟨hne, ha, rfl⟩
      exact ⟨⟨ha, fun e => hne ⟨by rw [e], e⟩⟩, rfl⟩
    · rintro ⟨⟨ha, hne⟩, rfl⟩
      exact ⟨fun e => hne e.2, ha, rfl⟩
  · exact h.nodup.sublist List.eraseP_sublist

end Exact

end PySet

end Maubot
