import Mathlib.Tactic.Common

namespace Maubot

/-!
# Programs with state and exceptions

`Prog σ ε α` is a program over a mutable state `σ` that returns an `α` or raises an `ε`;
what it did to the state stays done in both cases.

* `exec` runs a program; its equations (`exec_bind`, …) are the simp set of symbolic runs;
* `attempt`, `gather` and `zoom` are the control structures: handle some exceptions, run
  several programs and raise the first exception at the end, act on a part of the state;
* `Keeps F m` says that `m` relates the state before to the state after by the frame `F`,
  however it ends.  It composes (`keeps_bind`, …): this is how frame conditions and
  invariants of long programs are proved;
* `Triple P m Q E` is the Hoare triple, with a postcondition for each way to end;
* `Raises p m` says that `m` raises nothing outside `p`, and `Returns m` that it never raises.
-/

abbrev Prog (σ ε : Type) := ExceptT ε (StateM σ)

namespace Prog

variable {σ τ ε α β : Type}

/-- Run a program from a state: how it ended, and the state it left. -/
def exec (m : Prog σ ε α) (s : σ) : Except ε α × σ := StateT.run (ExceptT.run m) s

/-! ### Symbolic runs -/

/-- `pure` leaves the state. -/
@[simp] theorem exec_pure (a : α) (s : σ) : (pure a : Prog σ ε α).exec s = (.ok a, s) := rfl

/-- Continue after a value, pass an exception on. -/
theorem exec_bind (m : Prog σ ε α) (f : α → Prog σ ε β) (s : σ) :
    (m >>= f).exec s = match m.exec s with
      | (.ok a, s')    => (f a).exec s'
      | (.error e, s') => (.error e, s') := by
  simp only [exec, ExceptT.run_bind, StateT.run_bind]
  rcases StateT.run (ExceptT.run m) s with ⟨_ | _, _⟩ <;> rfl

/-- After a first part that returns, the second one runs from its state. -/
theorem exec_bind_ok {m : Prog σ ε α} {f : α → Prog σ ε β} {s s' : σ} {a : α}
    (h : m.exec s = (.ok a, s')) : (m >>= f).exec s = (f a).exec s' := by
  rw [exec_bind, h]

/-- After a first part that raises, the second one does not run. -/
theorem exec_bind_error {m : Prog σ ε α} {f : α → Prog σ ε β} {s s' : σ} {e : ε}
    (h : m.exec s = (.error e, s')) : (m >>= f).exec s = (.error e, s') := by
  rw [exec_bind, h]

/-- A sequence that returns has returned in both parts. -/
theorem exec_bind_eq_ok {m : Prog σ ε α} {f : α → Prog σ ε β} {s s' : σ} {b : β}
    (h : (m >>= f).exec s = (.ok b, s')) :
    ∃ a t, m.exec s = (.ok a, t) ∧ (f a).exec t = (.ok b, s') := by
  rw [exec_bind] at h
  rcases hr : m.exec s with ⟨e | a, t⟩ <;> rw [hr] at h
  · cases h
  · exact ⟨a, t, rfl, h⟩

/-- A value that is returned first runs nothing. -/
@[simp] theorem exec_pure_bind (a : α) (f : α → Prog σ ε β) (s : σ) :
    (pure a >>= f).exec s = (f a).exec s := rfl

/-- `get` returns the state. -/
@[simp] theorem exec_get (s : σ) : (get : Prog σ ε σ).exec s = (.ok s, s) := rfl

/-- What begins with `get` runs on the state that it gets. -/
@[simp] theorem exec_get_bind (f : σ → Prog σ ε β) (s : σ) :
    ((get : Prog σ ε σ) >>= f).exec s = (f s).exec s := rfl

/-- `modify` changes the state and returns. -/
@[simp] theorem exec_modify (f : σ → σ) (s : σ) :
    (modify f : Prog σ ε Unit).exec s = (.ok (), f s) := rfl

/-- What begins with `modify` runs from the changed state. -/
@[simp] theorem exec_modify_bind (f : σ → σ) (g : Unit → Prog σ ε β) (s : σ) :
    ((modify f : Prog σ ε Unit) >>= g).exec s = (g ()).exec (f s) := rfl

/-- `throw` leaves the state as it is. -/
@[simp] theorem exec_throw (e : ε) (s : σ) : (throw e : Prog σ ε α).exec s = (.error e, s) := rfl

/-- Nothing runs after `throw`. -/
@[simp] theorem exec_throw_bind (e : ε) (f : α → Prog σ ε β) (s : σ) :
    ((throw e : Prog σ ε α) >>= f).exec s = (.error e, s) := rfl

/-- `map` runs the program once and maps what it returns. -/
theorem exec_map (f : α → β) (m : Prog σ ε α) (s : σ) :
    (f <$> m).exec s = match m.exec s with
      | (.ok a, s')    => (.ok (f a), s')
      | (.error e, s') => (.error e, s') := by
  rw [← bind_pure_comp, exec_bind]
  rfl

/-! ### Control structures -/

/-- A computed outcome, as a program that leaves the state alone. -/
def outcome (x : Except ε α) : Prog σ ε α :=
  match x with
  | .ok a    => pure a
  | .error e => throw e

/-- An outcome that is known leaves the state. -/
@[simp] theorem exec_outcome (x : Except ε α) (s : σ) :
    (outcome x : Prog σ ε α).exec s = (x, s) := by
  cases x <;> rfl

/-- Raise if there is something to raise. -/
def raiseIf (x : Option ε) : Prog σ ε Unit :=
  match x with
  | none   => pure ()
  | some e => throw e

/-- Without an exception nothing is raised. -/
@[simp] theorem exec_raiseIf_none (s : σ) :
    (raiseIf none : Prog σ ε Unit).exec s = (.ok (), s) := rfl

/-- An exception is raised as it is. -/
@[simp] theorem exec_raiseIf_some (e : ε) (s : σ) :
    (raiseIf (some e) : Prog σ ε Unit).exec s = (.error e, s) := rfl

/-- Run `m` if the condition holds. -/
def when (c : Prop) [Decidable c] (m : Prog σ ε Unit) : Prog σ ε Unit :=
  if c then m else pure ()

/-- Run `m` and return how it ended; an exception outside `p` is raised again. -/
def attempt (p : ε → Bool) (m : Prog σ ε α) : Prog σ ε (Except ε α) := fun s =>
  match m.exec s with
  | (.ok a, s')    => (.ok (.ok a), s')
  | (.error e, s') => (if p e then .ok (.error e) else .error e, s')

/-- `attempt` catches what its predicate accepts, and keeps the state that was reached. -/
theorem exec_attempt (p : ε → Bool) (m : Prog σ ε α) (s : σ) :
    (attempt p m).exec s = match m.exec s with
      | (.ok a, s')    => (.ok (.ok a), s')
      | (.error e, s') => (if p e then .ok (.error e) else .error e, s') := rfl

/-- An exception that is handled becomes a value. -/
theorem exec_attempt_handled {p : ε → Bool} {m : Prog σ ε α} {s s' : σ} {e : ε}
    (h : m.exec s = (.error e, s')) (he : p e = true) :
    (attempt p m).exec s = (.ok (.error e), s') := by
  rw [exec_attempt, h]
  exact congrArg (·, s') (if_pos he)

/-- One that is not handled goes on. -/
theorem exec_attempt_raised {p : ε → Bool} {m : Prog σ ε α} {s s' : σ} {e : ε}
    (h : m.exec s = (.error e, s')) (he : p e = false) :
    (attempt p m).exec s = (.error e, s') := by
  rw [exec_attempt, h]
  exact congrArg (·, s') (if_neg (by rw [he]; exact Bool.false_ne_true))

/-- Catching does not roll the state back. -/
theorem exec_attempt_snd (p : ε → Bool) (m : Prog σ ε α) (s : σ) :
    ((attempt p m).exec s).2 = (m.exec s).2 := by
  rw [exec_attempt]
  rcases m.exec s with ⟨_ | _, _⟩ <;> rfl

/-- Run all programs one after the other, each to its end, and raise the first exception
    that one of them raised. -/
def gather : List (Prog σ ε Unit) → Prog σ ε Unit
  | []      => pure ()
  | m :: ms => do
    match ← attempt (fun _ => true) m with
    | .ok _    => gather ms
    | .error e => let _ ← attempt (fun _ => true) (gather ms); throw e

/-- Whatever the programs raise, each runs from where the one before it ended. -/
theorem exec_gather_cons_snd (m : Prog σ ε Unit) (ms : List (Prog σ ε Unit)) (s : σ) :
    ((gather (m :: ms)).exec s).2 = ((gather ms).exec (m.exec s).2).2 := by
  rw [gather, exec_bind, exec_attempt]
  rcases m.exec s with ⟨e | a, s'⟩
  · have hrest := exec_attempt_snd (fun _ => true) (gather ms) s'
    simp only [if_true]
    rw [exec_bind]
    rcases hrun : (attempt (fun _ => true) (gather ms)).exec s' with ⟨e' | r, s''⟩
    · rw [hrun] at hrest
      exact hrest
    · rw [hrun] at hrest
      exact hrest
  · rfl

/-- Run a program on a part of the state. -/
def zoom (view : σ → τ) (put : τ → σ → σ) (m : Prog τ ε α) : Prog σ ε α := fun s =>
  match m.exec (view s) with
  | (r, t) => (r, put t s)

/-- A program on a part of the state runs there and is put back. -/
@[simp] theorem exec_zoom (view : σ → τ) (put : τ → σ → σ) (m : Prog τ ε α) (s : σ) :
    (zoom view put m).exec s = ((m.exec (view s)).1, put (m.exec (view s)).2 s) := rfl

/-! ### Frames -/

/-- A reflexive and transitive relation between the state before and the state after. -/
structure Frame (σ : Type) where
  rel   : σ → σ → Prop
  refl  : ∀ s, rel s s
  trans : ∀ {s t u}, rel s t → rel t u → rel s u

namespace Frame

/-- What `view` shows of the state is unchanged. -/
def ofView {ρ : Type} (view : σ → ρ) : Frame σ where
  rel s t := view t = view s
  refl _ := rfl
  trans h h' := h'.trans h

/-- The property `I` survives. -/
def ofInv (I : σ → Prop) : Frame σ where
  rel s t := I s → I t
  refl _ h := h
  trans h h' hs := h' (h hs)

/-- Both frames. -/
def both (F G : Frame σ) : Frame σ where
  rel s t := F.rel s t ∧ G.rel s t
  refl s := ⟨F.refl s, G.refl s⟩
  trans h h' := ⟨F.trans h.1 h'.1, G.trans h.2 h'.2⟩

end Frame

/-- However `m` ends, the state after is related by the frame to the state before. -/
def Keeps (F : Frame σ) (m : Prog σ ε α) : Prop := ∀ s, F.rel s (m.exec s).2

section Keeps

variable {F : Frame σ}

/-- `pure` keeps every frame. -/
theorem keeps_pure (a : α) : Keeps F (pure a : Prog σ ε α) := fun s => F.refl s

/-- `get` keeps every frame. -/
theorem keeps_get : Keeps F (get : Prog σ ε σ) := fun s => F.refl s

/-- `throw` keeps every frame. -/
theorem keeps_throw (e : ε) : Keeps F (throw e : Prog σ ε α) := fun s => F.refl s

/-- An outcome that is known keeps every frame. -/
theorem keeps_outcome (x : Except ε α) : Keeps F (outcome x : Prog σ ε α) := fun s => by
  rw [exec_outcome]; exact F.refl s

/-- So does an exception that may be raised. -/
theorem keeps_raiseIf (x : Option ε) : Keeps F (raiseIf x : Prog σ ε Unit) := fun s => by
  cases x <;> exact F.refl s

/-- `modify` keeps a frame that its function keeps. -/
theorem keeps_modify {f : σ → σ} (h : ∀ s, F.rel s (f s)) :
    Keeps F (modify f : Prog σ ε Unit) := h

/-- A sequence keeps what its parts keep, also where the first one raises. -/
theorem keeps_bind {m : Prog σ ε α} {f : α → Prog σ ε β} (hm : Keeps F m)
    (hf : ∀ a, Keeps F (f a)) : Keeps F (m >>= f) := by
  intro s
  have h := hm s
  rw [exec_bind]
  rcases hr : m.exec s with ⟨e | a, s'⟩ <;> rw [hr] at h
  · exact h
  · exact F.trans h (hf a s')

/-- What follows a program is framed by the state that the program leaves. -/
theorem rel_bind {m : Prog σ ε α} {f : α → Prog σ ε β} (hf : ∀ a, Keeps F (f a)) (s : σ) :
    F.rel (m.exec s).2 ((m >>= f).exec s).2 := by
  rw [exec_bind]
  rcases m.exec s with ⟨e | a, t⟩
  · exact F.refl t
  · exact hf a t

/-- The continuation may use the state that was read. -/
theorem keeps_get_bind {f : σ → Prog σ ε β} (hf : ∀ s, F.rel s ((f s).exec s).2) :
    Keeps F ((get : Prog σ ε σ) >>= f) := hf

/-- What keeps a frame keeps every weaker one. -/
theorem Keeps.mono {G : Frame σ} {m : Prog σ ε α} (h : Keeps F m)
    (hFG : ∀ {s t}, F.rel s t → G.rel s t) : Keeps G m := fun s => hFG (h s)

/-- A choice keeps what both branches keep. -/
theorem keeps_ite {c : Prop} [Decidable c] {m n : Prog σ ε α} (hm : Keeps F m)
    (hn : Keeps F n) : Keeps F (if c then m else n) := by
  split
  · exact hm
  · exact hn

/-- A program that may be left out keeps what it keeps. -/
theorem keeps_when {c : Prop} [Decidable c] {m : Prog σ ε Unit} (hm : Keeps F m) :
    Keeps F (when c m) := keeps_ite hm (keeps_pure ())

/-- Catching keeps what the program keeps. -/
theorem keeps_attempt {m : Prog σ ε α} (hm : Keeps F m) (p : ε → Bool) :
    Keeps F (attempt p m) := fun s => by rw [exec_attempt_snd]; exact hm s

/-- Programs that run side by side keep what each of them keeps. -/
theorem keeps_gather {ms : List (Prog σ ε Unit)} (h : ∀ m ∈ ms, Keeps F m) :
    Keeps F (gather ms) := by
  induction ms with
  | nil => exact keeps_pure ()
  | cons m ms ih =>
    have ih' := ih (fun m' hm' => h m' (by simp [hm']))
    refine keeps_bind (keeps_attempt (h m (by simp)) _) fun r => ?_
    cases r with
    | ok _ => exact ih'
    | error e => exact keeps_bind (keeps_attempt ih' _) fun _ => keeps_throw e

/-- A loop keeps what each of its rounds keeps. -/
theorem keeps_forM {f : α → Prog σ ε PUnit} {l : List α} (h : ∀ a ∈ l, Keeps F (f a)) :
    Keeps F (l.forM f) := by
  induction l with
  | nil => exact keeps_pure _
  | cons a l ih =>
    exact keeps_bind (h a (by simp)) fun _ => ih fun b hb => h b (by simp [hb])

/-- A program on a part keeps what the part's frame says about the whole. -/
theorem keeps_zoom {G : Frame τ} {view : σ → τ} {put : τ → σ → σ} {m : Prog τ ε α}
    (hm : Keeps G m) (h : ∀ s t, G.rel (view s) t → F.rel s (put t s)) :
    Keeps F (zoom view put m) := fun s => h s _ (hm (view s))

/-- A program that keeps `I`, on the states that have it -/
def within {I : σ → Prop} (m : Prog σ ε α) (h : Keeps (.ofInv I) m) : Prog { s // I s } ε α :=
  fun s => ((m.exec s.1).1, ⟨(m.exec s.1).2, h s.1 s.2⟩)

/-- It keeps there what it keeps of all states. -/
theorem keeps_within {I : σ → Prop} {G : Frame { s // I s }} {m : Prog σ ε α}
    (h : Keeps (.ofInv I) m) (hm : Keeps F m) (hG : ∀ s t, F.rel s.1 t.1 → G.rel s t) :
    Keeps G (within m h) := fun s => hG s _ (hm s.1)

/-- Two frames that are kept are kept together. -/
theorem Keeps.both {G : Frame σ} {m : Prog σ ε α} (hF : Keeps F m) (hG : Keeps G m) :
    Keeps (F.both G) m := fun s => ⟨hF s, hG s⟩

end Keeps

/-! ### Hoare triples -/

/-- From a state in `P`, the program returns in `Q` or raises in `E`. -/
def Triple (P : σ → Prop) (m : Prog σ ε α) (Q : α → σ → Prop) (E : σ → Prop) : Prop :=
  ∀ s, P s → match m.exec s with
    | (.ok a, s')    => Q a s'
    | (.error _, s') => E s'

section Triple

variable {P P' E : σ → Prop} {Q : α → σ → Prop} {m : Prog σ ε α}

/-- A value that is returned needs its postcondition at once. -/
theorem triple_pure {a : α} (h : ∀ s, P s → Q a s) : Triple P (pure a : Prog σ ε α) Q E :=
  h

/-- The postcondition of `modify` is asked of the changed state. -/
theorem triple_modify {f : σ → σ} {Q : Unit → σ → Prop} (h : ∀ s, P s → Q () (f s)) :
    Triple P (modify f : Prog σ ε Unit) Q E := h

/-- A sequence: the postcondition of the first part is the precondition of the second. -/
theorem Triple.bind {f : α → Prog σ ε β} {Q' : β → σ → Prop} (hm : Triple P m Q E)
    (hf : ∀ a, Triple (Q a) (f a) Q' E) : Triple P (m >>= f) Q' E := by
  intro s hs
  have h := hm s hs
  rw [exec_bind]
  rcases hr : m.exec s with ⟨e | a, s'⟩ <;> rw [hr] at h
  · exact h
  · exact hf a s' h

/-- The continuation may use the state that was read. -/
theorem triple_get_bind {f : σ → Prog σ ε β} {Q' : β → σ → Prop}
    (hf : ∀ s, P s → Triple (fun s' => P s' ∧ s' = s) (f s) Q' E) :
    Triple P ((get : Prog σ ε σ) >>= f) Q' E := fun s hs => hf s hs s ⟨hs, rfl⟩

/-- … of which it need not know that it is still the same. -/
theorem triple_read {f : σ → Prog σ ε β} {Q' : β → σ → Prop}
    (hf : ∀ s, P s → Triple P (f s) Q' E) : Triple P ((get : Prog σ ε σ) >>= f) Q' E :=
  fun s hs => hf s hs s hs

/-- A precondition may be strengthened. -/
theorem Triple.pre (hm : Triple P m Q E) (h : ∀ s, P' s → P s) : Triple P' m Q E :=
  fun s hs => hm s (h s hs)

/-- Both postconditions may be weakened. -/
theorem Triple.post {Q' : α → σ → Prop} {E' : σ → Prop} (hm : Triple P m Q E)
    (hQ : ∀ a s, Q a s → Q' a s) (hE : ∀ s, E s → E' s) : Triple P m Q' E' := by
  intro s hs
  have h := hm s hs
  rcases hr : m.exec s with ⟨e | a, s'⟩ <;> rw [hr] at h
  · exact hE s' h
  · exact hQ a s' h

/-- A loop keeps its invariant if every round does. -/
theorem triple_forM {f : β → Prog σ ε PUnit} {l : List β}
    (h : ∀ b ∈ l, Triple P (f b) (fun _ => P) E) : Triple P (l.forM f) (fun _ => P) E := by
  induction l with
  | nil => exact triple_pure fun _ hs => hs
  | cons b l ih =>
    exact (h b List.mem_cons_self).bind fun _ => ih fun b' hb' => h b' (List.mem_cons_of_mem _ hb')

/-- A program that does not raise. -/
theorem Triple.returns (hm : Triple P m Q fun _ => False) {s : σ} (hs : P s) :
    ∃ a s', m.exec s = (.ok a, s') ∧ Q a s' := by
  have h := hm s hs
  rcases hr : m.exec s with ⟨e | a, s'⟩ <;> rw [hr] at h
  · exact h.elim
  · exact ⟨a, s', rfl, h⟩

/-- What holds after the program, however it ends. -/
theorem Triple.final {R : σ → Prop} (hm : Triple P m (fun _ => R) R) {s : σ} (hs : P s) :
    R (m.exec s).2 := by
  have h := hm s hs
  rcases hr : m.exec s with ⟨e | a, s'⟩ <;> rw [hr] at h <;> exact h

/-- **Frame rule.**  What survives under a frame of the program may be added to a triple. -/
theorem Triple.frame {F : Frame σ} {R : σ → Prop} (hm : Triple P m Q E) (hk : Keeps F m)
    (hR : ∀ s s', F.rel s s' → R s → R s') :
    Triple (fun s => P s ∧ R s) m (fun a s => Q a s ∧ R s) fun s => E s ∧ R s := by
  rintro s ⟨hs, hr⟩
  have h := hm s hs
  have h' := hR s _ (hk s) hr
  rcases hrun : m.exec s with ⟨e | a, s'⟩ <;> rw [hrun] at h h' <;> exact ⟨h, h'⟩

/-- A frame under which `P` survives. -/
theorem Keeps.triple {F : Frame σ} (hm : Keeps F m) (h : ∀ s s', F.rel s s' → P s → P s') :
    Triple P m (fun _ => P) P := by
  intro s hs
  have := h s _ (hm s) hs
  rcases hr : m.exec s with ⟨e | a, s'⟩ <;> rw [hr] at this <;> exact this

end Triple

/-! ### What a program can raise -/

/-- Whatever `m` raises is in `p`. -/
def Raises (p : ε → Prop) (m : Prog σ ε α) : Prop := ∀ s e, (m.exec s).1 = .error e → p e

/-- `m` returns from every state. -/
abbrev Returns (m : Prog σ ε α) : Prop := Raises (fun _ => False) m

/-- A program that cannot raise returns a value. -/
theorem Returns.exists_ok {m : Prog σ ε α} (hm : Returns m) (s : σ) :
    ∃ a, (m.exec s).1 = .ok a := by
  rcases hr : (m.exec s).1 with e | a
  · exact (hm s e hr).elim
  · exact ⟨a, rfl⟩

section Raises

variable {p : ε → Prop}

/-- The exceptions that are named may be more. -/
theorem Raises.mono {q : ε → Prop} {m : Prog σ ε α} (hm : Raises p m) (h : ∀ e, p e → q e) :
    Raises q m := fun s e he => h e (hm s e he)

/-- `pure` raises nothing. -/
theorem raises_pure (a : α) : Raises p (pure a : Prog σ ε α) := fun _ _ h => by cases h

/-- `get` raises nothing. -/
theorem raises_get : Raises p (get : Prog σ ε σ) := fun _ _ h => by cases h

/-- `modify` raises nothing. -/
theorem raises_modify (f : σ → σ) : Raises p (modify f : Prog σ ε Unit) := fun _ _ h => by
  cases h

/-- `throw` raises what it is given. -/
theorem raises_throw {e : ε} (h : p e) : Raises p (throw e : Prog σ ε α) := by
  intro s e' he
  cases he
  exact h

/-- An outcome raises the exception that it holds. -/
theorem raises_outcome {x : Except ε α} (h : ∀ e, x = .error e → p e) :
    Raises p (outcome x : Prog σ ε α) := by
  intro s e he
  rw [exec_outcome] at he
  exact h e he

/-- So does an exception that may be raised. -/
theorem raises_raiseIf {x : Option ε} (h : ∀ e, x = some e → p e) :
    Raises p (raiseIf x : Prog σ ε Unit) := by
  cases x with
  | none => exact raises_pure ()
  | some e => exact raises_throw (h e rfl)

/-- A sequence raises what its parts raise. -/
theorem raises_bind {m : Prog σ ε α} {f : α → Prog σ ε β} (hm : Raises p m)
    (hf : ∀ a, Raises p (f a)) : Raises p (m >>= f) := by
  intro s e he
  rw [exec_bind] at he
  rcases hr : m.exec s with ⟨e' | a, s'⟩ <;> rw [hr] at he
  · cases he
    exact hm s e (by rw [hr])
  · exact hf a s' e he

/-- A choice raises what its branches raise. -/
theorem raises_ite {c : Prop} [Decidable c] {m n : Prog σ ε α} (hm : Raises p m)
    (hn : Raises p n) : Raises p (if c then m else n) := by
  split
  · exact hm
  · exact hn

/-- A program that may be left out raises what it raises. -/
theorem raises_when {c : Prop} [Decidable c] {m : Prog σ ε Unit} (hm : Raises p m) :
    Raises p (when c m) := raises_ite hm (raises_pure ())

/-- What `attempt` does not handle goes on. -/
theorem raises_attempt {q : ε → Bool} {m : Prog σ ε α}
    (hm : Raises (fun e => q e = false → p e) m) : Raises p (attempt q m) := by
  intro s e he
  rw [exec_attempt] at he
  rcases hr : m.exec s with ⟨e' | a, s'⟩ <;> simp only [hr] at he
  · cases hq : q e' <;> simp only [hq, if_true, Bool.false_eq_true, if_false] at he
    · cases he
      exact hm s e (by rw [hr]) hq
    · cases he
  · cases he

/-- All exceptions are handled. -/
theorem returns_attempt (m : Prog σ ε α) : Returns (attempt (fun _ => true) m) :=
  raises_attempt fun _ _ _ h => by cases h

/-- Programs that run side by side raise what one of them raises. -/
theorem raises_gather {ms : List (Prog σ ε Unit)} (h : ∀ m ∈ ms, Raises p m) :
    Raises p (gather ms) := by
  induction ms with
  | nil => exact raises_pure ()
  | cons m ms ih =>
    intro s e he
    have ih' : Raises p (gather ms) := ih fun m' hm' => h m' (List.mem_cons_of_mem _ hm')
    simp only [gather, exec_bind, exec_attempt] at he
    rcases hr : m.exec s with ⟨e' | _, s'⟩ <;> simp only [hr, if_true] at he
    · have hp : p e' := h m List.mem_cons_self s e' (by rw [hr])
      exact raises_bind ((returns_attempt (gather ms)).mono fun _ h => h.elim)
        (fun _ => raises_throw hp) s' e he
    · exact ih' s' e he

/-- A loop raises what its rounds raise. -/
theorem raises_forM {f : α → Prog σ ε PUnit} {l : List α} (h : ∀ a ∈ l, Raises p (f a)) :
    Raises p (l.forM f) := by
  induction l with
  | nil => exact raises_pure _
  | cons a l ih =>
    exact raises_bind (h a List.mem_cons_self) fun _ =>
      ih fun b hb => h b (List.mem_cons_of_mem _ hb)

/-- A program on a part raises what it raises on the whole. -/
theorem raises_zoom {view : σ → τ} {put : τ → σ → σ} {m : Prog τ ε α} (hm : Raises p m) :
    Raises p (zoom view put m) := fun s e he => hm (view s) e he

end Raises

end Prog

end Maubot
