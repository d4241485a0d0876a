import Mathlib.Algebra.BigOperators.Group.List.Basic
import Mathlib.Algebra.GroupWithZero.Nat
import Mathlib.Tactic.Common

namespace Maubot

/-!
# What the tasks of a system hold together

The tasks of a concurrent system, numbered in the order in which they were started, and a
resource of which each holds some amount: `total amount tasks` is what all of them hold.

* `total_concat`, `total_set` — a task starts, or moves on;
* `le_total` — one task holds no more than all together.
-/

namespace Tasks

variable {τ : Type} {amount : τ → Nat} {tasks : List τ} {k : Nat} {t t' : τ}

def total (amount : τ → Nat) (tasks : List τ) : Nat := (tasks.map amount).sum

/-- No tasks have nothing. -/
@[simp] theorem total_nil : total amount [] = 0 := rfl

/-- A task has its part of the total, -/
@[simp] theorem total_cons : total amount (t :: tasks) = amount t + total amount tasks := by
  simp [total]

/-- also at the end. -/
@[simp] theorem total_concat : total amount (tasks ++ [t]) = total amount tasks + amount t := by
  simp [total]

/-- Both sides count the other tasks once, and this one before and after. -/
theorem total_set (amount : τ → Nat) (t' : τ) (h : tasks[k]? = some t) :
    total amount (tasks.set k t') + amount t = total amount tasks + amount t' := by
  induction tasks generalizing k with
  | nil => simp at h
  | cons u tasks ih =>
    cases k with
    | zero =>
      obtain rfl : u = t := by simpa using h
      simp only [List.set_cons_zero, total_cons]
      omega
    | succ k =>
      have := ih (k := k) (by simpa using h)
      simp only [List.set_cons_succ, total_cons]
      omega

/-- No task has more than all, -/
theorem le_total (amount : τ → Nat) (h : tasks[k]? = some t) : amount t ≤ total amount tasks := by
  induction tasks generalizing k with
  | nil => simp at h
  | cons u tasks ih =>
    rw [total_cons]
    cases k with
    | zero =>
      obtain rfl : u = t := by simpa using h
      omega
    | succ k =>
      have := ih (k := k) (by simpa using h)
      omega

/-- and no two. -/
theorem add_le_total (amount : τ → Nat) {j : Nat} (hj : tasks[j]? = some t')
    (hk : tasks[k]? = some t) (hne : j ≠ k) : amount t' + amount t ≤ total amount tasks := by
  induction tasks generalizing j k with
  | nil => simp at hj
  | cons u tasks ih =>
    rw [total_cons]
    cases j with
    | zero =>
      obtain rfl : u = t' := by simpa using hj
      cases k with
      | zero => exact absurd rfl hne
      | succ k =>
        have hk' : tasks[k]? = some t := by simpa using hk
        have := le_total amount hk'
        omega
    | succ j =>
      cases k with
      | zero =>
        obtain rfl : u = t := by simpa using hk
        have hj' : tasks[j]? = some t' := by simpa using hj
        have := le_total amount hj'
        omega
      | succ k =>
        have := ih (j := j) (k := k) (by simpa using hj) (by simpa using hk) (by omega)
        omega

/-- Two amounts may be counted together. -/
theorem total_add (f g : τ → Nat) :
    total (fun t => f t + g t) tasks = total f tasks + total g tasks := by
  induction tasks with
  | nil => rfl
  | cons t tasks ih =>
    simp only [total_cons, ih]
    omega

/-- A property of every task, when one more starts or one moves on. -/
theorem forall_getElem_concat {P : Nat → τ → Prop} (h : ∀ k t, tasks[k]? = some t → P k t)
    (ht : P tasks.length t') : ∀ k t, (tasks ++ [t'])[k]? = some t → P k t := by
  intro k t hk
  rcases Nat.lt_or_ge k tasks.length with hlt | hge
  · exact h k t ((List.getElem?_append_left hlt).symm.trans hk)
  · rw [List.getElem?_append_right hge] at hk
    obtain ⟨h0, rfl⟩ := List.getElem?_eq_some_iff.mp hk
    obtain rfl : k = tasks.length := by simp at h0; omega
    simpa using ht

/-- What holds of the task that is set and of the others holds of all. -/
theorem forall_getElem_set {P : Nat → τ → Prop} {j : Nat}
    (h : ∀ k t, k ≠ j → tasks[k]? = some t → P k t) (ht : P j t') :
    ∀ k t, (tasks.set j t')[k]? = some t → P k t := by
  intro k t hk
  by_cases hkj : k = j
  · subst hkj
    have hlt : k < tasks.length := by
      have := (List.getElem?_eq_some_iff.mp hk).1
      simpa using this
    rw [List.getElem?_set_self hlt] at hk
    obtain rfl := Option.some.inj hk
    exact ht
  · rw [List.getElem?_set_ne (Ne.symm hkj)] at hk
    exact h k t hkj hk

/-- A property of every task survives when one moves on to a state that has it. -/
theorem forall_mem_set {P : τ → Prop} (h : ∀ t ∈ tasks, P t) (ht : P t') :
    ∀ t ∈ tasks.set k t', P t := by
  intro t hmem
  rcases List.mem_or_eq_of_mem_set hmem with hmem | rfl
  · exact h t hmem
  · exact ht

end Tasks

end Maubot
