import Mathlib.Data.List.Induction
import Mathlib.Order.WellFounded
import Mathlib.Tactic.Common

namespace Maubot

/-!
# Runs of a state machine

`Reach step allowed s₀ s` says that a finite run of allowed steps leads from `s₀` to `s`.
An invariant that holds at the start and survives every allowed step holds in every state
reached (`Reach.invariant`).

`Inevitable next P s` says that every run from `s` that goes on while it can comes to a state
with `P`; a rank that each step lowers shows it (`Inevitable.of_rank`).
-/

variable {σ α : Type} {step : α → σ → σ} {allowed : σ → α → Prop} {s₀ : σ}

inductive Reach (step : α → σ → σ) (allowed : σ → α → Prop) (s₀ : σ) : σ → Prop
  | start : Reach step allowed s₀ s₀
  | step {s : σ} (a : α) (h : Reach step allowed s₀ s) (ha : allowed s a) :
      Reach step allowed s₀ (step a s)

namespace Reach

/-- What holds at first and is kept by every step holds in every state reached. -/
theorem invariant {I : σ → Prop} (h₀ : I s₀) (hstep : ∀ s a, I s → allowed s a → I (step a s))
    {s : σ} (h : Reach step allowed s₀ s) : I s := by
  induction h with
  | start => exact h₀
  | step a _ ha ih => exact hstep _ a ih ha

/-- A run of steps that are allowed is one of steps that are allowed by less. -/
theorem mono {allowed' : σ → α → Prop} (hmono : ∀ s a, allowed s a → allowed' s a) {s : σ}
    (h : Reach step allowed s₀ s) : Reach step allowed' s₀ s := by
  induction h with
  | start => exact .start
  | step a _ ha ih => exact .step a ih (hmono _ a ha)

/-- The run of a list of steps, all of which are allowed. -/
theorem replay (actions : List α) :
    Reach step (fun _ _ => True) s₀ (actions.foldl (fun s a => step a s) s₀) := by
  induction actions using List.reverseRecOn with
  | nil => exact .start
  | append_singleton actions a ih =>
    rw [List.foldl_append]
    exact ih.step a trivial

end Reach

/-- From a state, every run comes to one with `P`, and is not stuck before. -/
inductive Inevitable (next : σ → σ → Prop) (P : σ → Prop) : σ → Prop
  | now {s : σ} (h : P s) : Inevitable next P s
  | later {s : σ} (h : ∃ s', next s s') (hnext : ∀ s', next s s' → Inevitable next P s') :
      Inevitable next P s

/-- Where every step that has not arrived lowers a rank, every run arrives. -/
theorem Inevitable.of_rank {next : σ → σ → Prop} {P I : σ → Prop} {ρ : Type} [Preorder ρ]
    [WellFoundedLT ρ] (rank : σ → ρ) (hkeep : ∀ s s', I s → next s s' → I s')
    (hlower : ∀ s s', I s → next s s' → rank s' < rank s)
    (hprogress : ∀ s, I s → P s ∨ ∃ s', next s s') {s : σ} (h : I s) : Inevitable next P s := by
  have hwf : WellFounded (InvImage (· < ·) rank) := InvImage.wf rank wellFounded_lt
  induction s using hwf.induction with
  | _ s ih =>
    rcases hprogress s h with hP | hnext
    · exact .now hP
    · exact .later hnext fun s' hs' => ih s' (hlower s s' h hs') (hkeep s s' h hs')

end Maubot
