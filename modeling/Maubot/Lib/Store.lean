import Mathlib.Tactic.Common
import Mathlib.Logic.Function.Basic

namespace Maubot

/-!
# Stores of mutable objects

A reference names an object for good; what the object holds changes.

* `Store α` is a total map from references to values with the next free reference;
* `set`, `modify` and `alloc` with their read equations.  A field of a record in a store
  is framed by rewriting with `get_modify`;
* `isSome_update` — a table keeps its keys when a value is written.
-/

/-- The identity of an object. -/
abbrev Ref := Nat

/-- Objects of one class; those below `next` have been allocated. -/
structure Store (α : Type) where
  get  : Ref → α
  next : Ref

namespace Store

variable {α β : Type}

def modify (s : Store α) (r : Ref) (f : α → α) : Store α :=
  { s with get := fun q => if q = r then f (s.get q) else s.get q }

/-- Allocate an object; its reference is the `next` of before. -/
def alloc (s : Store α) (a : α) : Store α :=
  { get := fun q => if q = s.next then a else s.get q, next := s.next + 1 }

/-- A change makes no object. -/
@[simp] theorem next_modify (s : Store α) (r : Ref) (f : α → α) :
    (s.modify r f).next = s.next := rfl

/-- A new object is one more. -/
@[simp] theorem next_alloc (s : Store α) (a : α) : (s.alloc a).next = s.next + 1 := rfl

/-- What stands at a reference after a change. -/
theorem get_modify (s : Store α) (r : Ref) (f : α → α) (q : Ref) :
    (s.modify r f).get q = if q = r then f (s.get q) else s.get q := rfl

/-- At the reference it is the changed object. -/
@[simp] theorem get_modify_self (s : Store α) (r : Ref) (f : α → α) :
    (s.modify r f).get r = f (s.get r) := if_pos rfl

/-- At every other it is what it was. -/
theorem get_modify_ne (s : Store α) {r q : Ref} (f : α → α) (h : q ≠ r) :
    (s.modify r f).get q = s.get q := if_neg h

/-- No change is none. -/
theorem modify_id (s : Store α) (r : Ref) : s.modify r (fun a => a) = s := by
  simp [modify]

/-- Two changes of one object are one. -/
theorem modify_modify (s : Store α) (r : Ref) (f g : α → α) :
    (s.modify r f).modify r g = s.modify r fun a => g (f a) := by
  simp only [modify]
  congr
  funext q
  split <;> rfl

/-- What stands at a reference after an allocation. -/
theorem get_alloc (s : Store α) (a : α) (q : Ref) :
    (s.alloc a).get q = if q = s.next then a else s.get q := rfl

/-- At the next one it is the new object. -/
@[simp] theorem get_alloc_self (s : Store α) (a : α) : (s.alloc a).get s.next = a := if_pos rfl

/-- At the old ones it is what it was. -/
theorem get_alloc_of_lt (s : Store α) (a : α) {q : Ref} (h : q < s.next) :
    (s.alloc a).get q = s.get q := if_neg (Nat.ne_of_lt h)

/-- A part of the record that the update leaves alone reads the same everywhere. -/
theorem view_modify (s : Store α) (r : Ref) (f : α → α) (view : α → β)
    (h : ∀ a, view (f a) = view a) (q : Ref) : view ((s.modify r f).get q) = view (s.get q) := by
  rw [get_modify]
  split
  · exact h _
  · rfl

end Store

/-! ### Tables

A table or a cache is a partial map, written with `Function.update`. -/

section Tables

variable {κ α : Type} [DecidableEq κ]

/-- A key that is set has a value. -/
theorem isSome_update_self (m : κ → Option α) (k : κ) (a : α) :
    (Function.update m k (some a) k).isSome = true := by
  rw [Function.update_self]
  rfl

/-- And the keys that had one still have. -/
theorem isSome_update {m : κ → Option α} {q : κ} (h : (m q).isSome = true) (k : κ) (a : α) :
    (Function.update m k (some a) q).isSome = true := by
  rcases eq_or_ne q k with rfl | hq
  · exact isSome_update_self m q a
  · rwa [Function.update_of_ne hq]

/-- An entry of a table that was written to is the one written, or was there. -/
theorem of_update_eq_some {m : κ → Option α} {q k : κ} {o : Option α} {a : α}
    (h : Function.update m k o q = some a) : (q = k ∧ o = some a) ∨ (q ≠ k ∧ m q = some a) := by
  rcases eq_or_ne q k with rfl | hq
  · rw [Function.update_self] at h
    exact .inl ⟨rfl, h⟩
  · rw [Function.update_of_ne hq] at h
    exact .inr ⟨hq, h⟩

end Tables

end Maubot
