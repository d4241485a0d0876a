import Maubot.Lib.Prog

namespace Maubot

/-!
# Two runs side by side

`Twin P m n Q E` is the relational Hoare triple: from states that `P` relates, `m` and `n`
end in the same way, with the same value in states that `Q` relates, or with the same
exception in states that `E` relates.

* With `m` and `n` the same program it says what a run does not depend on: where `P` lets two
  states differ, the outcome does not look;
* with `n` a program over another, smaller state it says that `n` describes `m`;
* `TwinUpTo p` is for runs inside `try … except p`, of which an exception in `p` may end one
  and not the other.
-/

namespace Prog

variable {σ τ ε α β : Type}

def Twin (P : σ → τ → Prop) (m : Prog σ ε α) (n : Prog τ ε α) (Q : α → σ → τ → Prop)
    (E : σ → τ → Prop) : Prop :=
  ∀ s t, P s t → match m.exec s, n.exec t with
    | (.ok a, s'), (.ok b, t')       => a = b ∧ Q a s' t'
    | (.error e, s'), (.error d, t') => e = d ∧ E s' t'
    | _, _                           => False

variable {P E : σ → τ → Prop} {Q : α → σ → τ → Prop} {m : Prog σ ε α} {n : Prog τ ε α}

/-- Two programs that return the same are twins. -/
theorem twin_pure (a : α) (h : ∀ s t, P s t → Q a s t) :
    Twin P (pure a : Prog σ ε α) (pure a : Prog τ ε α) Q E :=
  fun s t hst => ⟨rfl, h s t hst⟩

/-- So are two that raise the same, -/
theorem twin_throw (e : ε) (h : ∀ s t, P s t → E s t) :
    Twin P (throw e : Prog σ ε α) (throw e : Prog τ ε α) Q E :=
  fun s t hst => ⟨rfl, h s t hst⟩

/-- two with the same outcome, -/
theorem twin_outcome (x : Except ε α) (hQ : ∀ a s t, P s t → Q a s t)
    (hE : ∀ s t, P s t → E s t) :
    Twin P (outcome x : Prog σ ε α) (outcome x : Prog τ ε α) Q E := by
  cases x with
  | ok a => exact twin_pure a (hQ a)
  | error e => exact twin_throw e hE

/-- and two that may raise the same. -/
theorem twin_raiseIf {Q : Unit → σ → τ → Prop} (x : Option ε) (hQ : ∀ s t, P s t → Q () s t)
    (hE : ∀ s t, P s t → E s t) :
    Twin P (raiseIf x : Prog σ ε Unit) (raiseIf x : Prog τ ε Unit) Q E := by
  cases x with
  | none => exact twin_pure () hQ
  | some e => exact twin_throw e hE

/-- Two changes are twins if they keep the relation. -/
theorem twin_modify {Q : Unit → σ → τ → Prop} {f : σ → σ} {g : τ → τ}
    (h : ∀ s t, P s t → Q () (f s) (g t)) :
    Twin P (modify f : Prog σ ε Unit) (modify g : Prog τ ε Unit) Q E := fun s t hst =>
  ⟨rfl, h s t hst⟩

/-- Twins one after the other are twins. -/
theorem Twin.bind {f : α → Prog σ ε β} {g : α → Prog τ ε β} {Q' : β → σ → τ → Prop}
    (hm : Twin P m n Q E) (hf : ∀ a, Twin (Q a) (f a) (g a) Q' E) :
    Twin P (m >>= f) (n >>= g) Q' E := by
  intro s t hst
  have h := hm s t hst
  rw [exec_bind, exec_bind]
  rcases hr : m.exec s with ⟨e | a, s'⟩ <;> rcases hr' : n.exec t with ⟨d | b, t'⟩ <;>
    rw [hr, hr'] at h
  · exact h
  · exact h.elim
  · exact h.elim
  · obtain ⟨rfl, hQ⟩ := h
    exact hf a s' t' hQ

/-- Each run reads its own state. -/
theorem twin_get_bind {f : σ → Prog σ ε β} {g : τ → Prog τ ε β} {Q' : β → σ → τ → Prop}
    (hf : ∀ s t, P s t → Twin P (f s) (g t) Q' E) :
    Twin P ((get : Prog σ ε σ) >>= f) ((get : Prog τ ε τ) >>= g) Q' E :=
  fun s t hst => hf s t hst s t hst

/-- Twins under one condition are too. -/
theorem twin_when {c : Prop} [Decidable c] {m : Prog σ ε Unit} {n : Prog τ ε Unit}
    {Q : Unit → σ → τ → Prop} (hm : Twin P m n Q E) (h : ∀ s t, P s t → Q () s t) :
    Twin P (when c m) (when c n) Q E := by
  rw [when, when]
  split
  · exact hm
  · exact twin_pure () h

/-- The relations afterwards may be weakened. -/
theorem Twin.post {Q' : α → σ → τ → Prop} {E' : σ → τ → Prop} (hm : Twin P m n Q E)
    (hQ : ∀ a s t, Q a s t → Q' a s t) (hE : ∀ s t, E s t → E' s t) : Twin P m n Q' E' := by
  intro s t hst
  have h := hm s t hst
  rcases hr : m.exec s with ⟨e | a, s'⟩ <;> rcases hr' : n.exec t with ⟨d | b, t'⟩ <;>
    rw [hr, hr'] at h
  · exact ⟨h.1, hE s' t' h.2⟩
  · exact h.elim
  · exact h.elim
  · exact ⟨h.1, hQ a s' t' h.2⟩

/-- What is handled in one run is handled in the other. -/
theorem twin_attempt (p : ε → Bool) {R : Except ε α → σ → τ → Prop} (hm : Twin P m n Q E)
    (hok : ∀ a s t, Q a s t → R (.ok a) s t) (herror : ∀ e s t, E s t → R (.error e) s t) :
    Twin P (attempt p m) (attempt p n) R E := by
  intro s t hst
  have h := hm s t hst
  rw [exec_attempt, exec_attempt]
  rcases hr : m.exec s with ⟨e | a, s'⟩ <;> rcases hr' : n.exec t with ⟨d | b, t'⟩ <;>
    rw [hr, hr'] at h
  · obtain ⟨rfl, hE⟩ := h
    dsimp only
    cases p e with
    | true => exact ⟨rfl, herror e s' t' hE⟩
    | false => exact ⟨rfl, hE⟩
  · exact h.elim
  · exact h.elim
  · obtain ⟨rfl, hQ⟩ := h
    exact ⟨rfl, hok a s' t' hQ⟩

/-- How the runs end. -/
theorem Twin.final {R : σ → τ → Prop} (hm : Twin P m n (fun _ => R) R) {s : σ} {t : τ} (h : P s t) :
    (m.exec s).1 = (n.exec t).1 ∧ R (m.exec s).2 (n.exec t).2 := by
  have hrun := hm s t h
  rcases hr : m.exec s with ⟨e | a, s'⟩ <;> rcases hr' : n.exec t with ⟨d | b, t'⟩ <;>
    rw [hr, hr'] at hrun
  · exact ⟨congrArg _ hrun.1, hrun.2⟩
  · exact hrun.elim
  · exact hrun.elim
  · exact ⟨congrArg _ hrun.1, hrun.2⟩

/-! ### Up to what is handled -/

/-- The exception that `try … except p` lets through. -/
def uncaught (p : ε → Bool) (r : Except ε α) : Option ε :=
  match r with
  | .ok _    => none
  | .error e => if p e then none else some e

/-- The two runs let the same exception through, if any. -/
def TwinUpTo (p : ε → Bool) (P : σ → τ → Prop) (m : Prog σ ε α) (n : Prog τ ε β)
    (R : σ → τ → Prop) : Prop :=
  ∀ s t, P s t →
    uncaught p (m.exec s).1 = uncaught p (n.exec t).1 ∧ R (m.exec s).2 (n.exec t).2

section UpTo

variable {p : ε → Bool} {R : σ → τ → Prop}

/-- Twins are twins up to any exceptions. -/
theorem Twin.upTo (p : ε → Bool) (hm : Twin P m n (fun _ => R) R) : TwinUpTo p P m n R := by
  intro s t hst
  have h := hm s t hst
  rcases hr : m.exec s with ⟨e | a, s'⟩ <;> rcases hr' : n.exec t with ⟨d | b, t'⟩ <;>
    rw [hr, hr'] at h
  · obtain ⟨rfl, hR⟩ := h
    exact ⟨rfl, hR⟩
  · exact h.elim
  · exact h.elim
  · exact ⟨rfl, h.2⟩

/-- A sequence whose second part is so is so. -/
theorem Twin.bind_upTo {γ δ : Type} {f : α → Prog σ ε γ} {g : α → Prog τ ε δ}
    (hm : Twin P m n Q R) (hf : ∀ a, TwinUpTo p (Q a) (f a) (g a) R) :
    TwinUpTo p P (m >>= f) (n >>= g) R := by
  intro s t hst
  have h := hm s t hst
  rw [exec_bind, exec_bind]
  rcases hr : m.exec s with ⟨e | a, s'⟩ <;> rcases hr' : n.exec t with ⟨d | b, t'⟩ <;>
    rw [hr, hr'] at h
  · obtain ⟨rfl, hR⟩ := h
    exact ⟨rfl, hR⟩
  · exact h.elim
  · exact h.elim
  · obtain ⟨rfl, hQ⟩ := h
    exact hf a s' t' hQ

/-- What begins with the state is so if it is so for related states. -/
theorem twinUpTo_get_bind {γ δ : Type} {f : σ → Prog σ ε γ} {g : τ → Prog τ ε δ}
    (hf : ∀ s t, P s t → TwinUpTo p P (f s) (g t) R) :
    TwinUpTo p P ((get : Prog σ ε σ) >>= f) ((get : Prog τ ε τ) >>= g) R :=
  fun s t hst => hf s t hst s t hst

/-- A run that is not matched, and raises only what is handled. -/
theorem twinUpTo_of_raises {m : Prog σ ε α} (b : β) (hm : Raises (fun e => p e = true) m)
    (h : ∀ s t, P s t → R (m.exec s).2 t) : TwinUpTo p P m (pure b : Prog τ ε β) R := by
  intro s t hst
  refine ⟨?_, h s t hst⟩
  rcases hr : (m.exec s).1 with e | a
  · show (if p e then none else some e) = none
    rw [if_pos (hm s e hr)]
  · rfl

/-- Where the exceptions are caught, they are twins again. -/
theorem TwinUpTo.attempt (hm : TwinUpTo p P m n R) :
    Twin P (do let _ ← Prog.attempt p m; pure ()) (do let _ ← Prog.attempt p n; pure ())
      (fun _ => R) R := by
  intro s t hst
  obtain ⟨huncaught, hR⟩ := hm s t hst
  rw [exec_bind, exec_bind, exec_attempt, exec_attempt]
  rcases hr : m.exec s with ⟨e | a, s'⟩ <;> rcases hr' : n.exec t with ⟨d | b, t'⟩ <;>
    rw [hr, hr'] at huncaught hR <;> simp only [uncaught] at huncaught
  · by_cases he : p e = true <;> by_cases hd : p d = true <;>
      simp only [he, hd, if_true, if_false, Bool.false_eq_true, reduceCtorEq,
        Option.some.injEq] at huncaught ⊢
    · exact ⟨trivial, hR⟩
    · exact ⟨huncaught, hR⟩
  · by_cases he : p e = true <;> simp only [he, if_true, if_false, Bool.false_eq_true,
      reduceCtorEq] at huncaught ⊢
    exact ⟨trivial, hR⟩
  · by_cases hd : p d = true <;> simp only [hd, if_true, if_false, Bool.false_eq_true,
      reduceCtorEq] at huncaught ⊢
    exact ⟨trivial, hR⟩
  · exact ⟨rfl, hR⟩

end UpTo

end Prog

end Maubot
