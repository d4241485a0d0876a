import Maubot.Lib.Runs
import Mathlib.Logic.Function.Basic

namespace Maubot

/-!
# Clients — start attempts that outlive their client

`start` and `_start` of `client.py`, cut at their `await`s, with the attempts that a failed
one leaves behind in a background task, and `delete`.

* `step` — a start begins or runs on, or the client is changed or deleted meanwhile;
* `Clear` — a client is deleted only when no start of it is pending, those apart that sleep
  while the client is disabled, and is not started or enabled again;
* `quiet_of_clear` — then nothing is started for a deleted client.
-/

/-- Where a start is suspended. -/
inductive StartAwait
  /-- `asyncio.sleep(try_n * 10)` -/
  | sleep (tryN : Nat)
  /-- `versions()` and `whoami()` -/
  | whoami (tryN : Nat)
  /-- `update()`, after which it returns -/
  | disable
  /-- the filter, the profile and the encryption, up to `start_sync()` -/
  | setUp
  /-- `_update_remote_profile()` -/
  | profile
  /-- `start_plugins()` -/
  | plugins
  deriving DecidableEq, Repr

def StartAwait.asleep : StartAwait → Bool
  | .sleep _ => true
  | _        => false

/-- How an awaited call ended. -/
inductive Answer
  | accepted
  /-- with `MatrixInvalidToken`, or for another user or device -/
  | refused
  /-- with another exception -/
  | failed
  deriving DecidableEq, Repr

/-- A client with the starts of it. -/
structure StartingClient where
  enabled : Bool := true
  started : Bool := false
  sync    : Bool := true
  /-- the sync task is running -/
  syncing : Bool := false
  /-- `delete` has completed -/
  deleted : Bool := false
  calls   : Nat → Option StartAwait := fun _ => none
  /-- not in the source: a start has started the sync task or the plugins of a deleted
      client -/
  late    : Bool := false

namespace StartingClient

variable (s : StartingClient) (k : Nat)

def suspend (a : StartAwait) : StartingClient :=
  { s with calls := Function.update s.calls k (some a) }

def done : StartingClient := { s with calls := Function.update s.calls k none }

/-- `_start` up to its first `await` -/
def tryStart (tryN : Nat) : StartingClient :=
  if !s.enabled then s.done k
  else if s.started then s.done k
  else s.suspend k (.whoami tryN)

def start (tryN : Nat) : StartingClient :=
  if 0 < tryN then s.suspend k (.sleep tryN) else s.tryStart k tryN

/-- `self.enabled = False; await self.update()` -/
def disable : StartingClient := suspend { s with enabled := false } k .disable

/-- A suspended start runs on. -/
def resume (a : StartAwait) (answer : Answer) : StartingClient :=
  match a, answer with
  | .sleep n, _         => s.tryStart k n
  | .whoami _, .accepted => s.suspend k .setUp
  | .whoami _, .refused  => s.disable k
  | .whoami n, .failed   =>
    -- the new attempt goes on under the number of this one
    if 8 ≤ n then s.disable k else s.start k (n + 1)
  | .disable, _          => s.done k
  | .setUp, .accepted    =>
    let s := { s with syncing := s.syncing || s.sync, late := s.late || (s.deleted && s.sync) }
    s.suspend k .profile
  | .setUp, _            => s.done k
  | .profile, _          =>
    let s := { s with started := true, late := s.late || s.deleted }
    s.suspend k .plugins
  | .plugins, _          => s.done k

inductive Event
  /-- a new call `start(try_n)`, under a free number -/
  | start (k : Nat) (tryN : Nat)
  /-- a suspended start runs on -/
  | resume (k : Nat) (answer : Answer)
  /-- `stop()` -/
  | stop
  /-- `enabled` or `sync` is set from elsewhere -/
  | setEnabled (enabled : Bool)
  | setSync (sync : Bool)
  /-- `delete()` completes -/
  | delete
  deriving DecidableEq, Repr

def step (e : Event) (s : StartingClient) : StartingClient :=
  match e with
  | .start k n         => if (s.calls k).isNone then s.start k n else s
  | .resume k answer   =>
    match s.calls k with
    | some a => s.resume k a answer
    | none   => s
  | .stop              => if s.started then { s with started := false, syncing := false } else s
  | .setEnabled b      => { s with enabled := b }
  | .setSync b         => { s with sync := b }
  | .delete            => { s with deleted := true }

/-! ### The property and the condition -/

/-- No start has started anything for the client after it was deleted. -/
def Quiet : Prop := s.late = false

/-- The starts that are pending sleep, and the client is disabled. -/
def Dormant : Prop := ∀ k a, s.calls k = some a → a.asleep = true ∧ s.enabled = false

/-- A client is deleted while the starts of it are dormant, and after that neither started
    while it is enabled nor enabled while a start is pending. -/
structure Clear (s : StartingClient) (e : Event) : Prop where
  delete : e = .delete → s.Dormant
  start  : ∀ k n, e = .start k n → s.deleted = true → s.enabled = false
  enable : e = .setEnabled true → s.deleted = true → ∀ k, s.calls k = none

/-! ### The invariant -/

/-- The starts of a deleted client are dormant. -/
structure Inv (s : StartingClient) : Prop where
  quiet   : s.Quiet
  dormant : s.deleted = true → s.Dormant

variable {s k}

/-- A start that sleeps is dormant, if the client is disabled. -/
theorem Dormant.suspend (h : s.Dormant) {a : StartAwait} (ha : a.asleep = true)
    (he : s.enabled = false) : (s.suspend k a).Dormant := by
  intro j b hb
  refine ⟨?_, he⟩
  rcases eq_or_ne j k with rfl | hj
  · rw [show (s.suspend j a).calls j = some a from Function.update_self _ _ _] at hb
    cases hb
    exact ha
  · rw [show (s.suspend k a).calls j = s.calls j from Function.update_of_ne hj _ _] at hb
    exact (h j b hb).1

/-- One that has ended does not disturb. -/
theorem Dormant.done (h : s.Dormant) : (s.done k).Dormant := by
  intro j b hb
  rcases eq_or_ne j k with rfl | hj
  · rw [show (s.done j).calls j = none from Function.update_self _ _ _] at hb
    cases hb
  · rw [show (s.done k).calls j = s.calls j from Function.update_of_ne hj _ _] at hb
    exact h j b hb

/-- A start of a disabled client ends, or sleeps. -/
theorem Dormant.tryStart (h : s.Dormant) (he : s.enabled = false) (n : Nat) :
    (s.tryStart k n).Dormant := by
  rw [StartingClient.tryStart, he]
  exact h.done

/-- One that begins is either over or sleeps. -/
theorem Dormant.start (h : s.Dormant) (he : s.enabled = false) (n : Nat) :
    (s.start k n).Dormant := by
  unfold StartingClient.start
  split
  · exact h.suspend rfl he
  · exact h.tryStart he n

/-- Until the client is deleted, the starts of it are free. -/
theorem Inv.of_not_deleted (hq : s.Quiet) (h : s.deleted = false) : Inv s where
  quiet := hq
  dormant hd := by
    rw [h] at hd
    cases hd

/-- A try starts nothing and deletes nothing by itself, -/
theorem tryStart_same (n : Nat) :
    (s.tryStart k n).late = s.late ∧ (s.tryStart k n).deleted = s.deleted := by
  unfold tryStart
  split
  · exact ⟨rfl, rfl⟩
  split
  · exact ⟨rfl, rfl⟩
  · exact ⟨rfl, rfl⟩

/-- and neither does a call. -/
theorem start_same (n : Nat) :
    (s.start k n).late = s.late ∧ (s.start k n).deleted = s.deleted := by
  unfold start
  split
  · exact ⟨rfl, rfl⟩
  · exact tryStart_same n

/-- A start of a client that is not deleted is not late. -/
theorem resume_same (h : s.deleted = false) (a : StartAwait) (answer : Answer) :
    (s.resume k a answer).late = s.late ∧ (s.resume k a answer).deleted = s.deleted := by
  cases a with
  | sleep n => exact tryStart_same n
  | whoami n =>
    cases answer with
    | accepted => exact ⟨rfl, rfl⟩
    | refused => exact ⟨rfl, rfl⟩
    | failed =>
      unfold resume
      dsimp only
      split
      · exact ⟨rfl, rfl⟩
      · exact start_same _
  | disable => exact ⟨rfl, rfl⟩
  | setUp =>
    cases answer with
    | accepted =>
      refine ⟨?_, rfl⟩
      show (s.late || (s.deleted && s.sync)) = s.late
      rw [h, Bool.false_and, Bool.or_false]
    | refused => exact ⟨rfl, rfl⟩
    | failed => exact ⟨rfl, rfl⟩
  | profile =>
    refine ⟨?_, rfl⟩
    show (s.late || s.deleted) = s.late
    rw [h, Bool.or_false]
  | plugins => exact ⟨rfl, rfl⟩

/-- **Step.**  A clear step keeps the invariant. -/
theorem Inv.step (h : Inv s) {e : Event} (he : s.Clear e) : Inv (step e s) := by
  cases hd : s.deleted with
  | false =>
    -- before the deletion only `delete` itself matters
    cases e with
    | delete => exact ⟨h.quiet, fun _ => he.delete rfl⟩
    | start k n =>
      unfold StartingClient.step
      dsimp only
      split
      · exact .of_not_deleted ((start_same n).1.trans h.quiet) ((start_same n).2.trans hd)
      · exact h
    | resume k answer =>
      unfold StartingClient.step
      dsimp only
      split
      · rename_i a hk
        obtain ⟨hlate, hdeleted⟩ := resume_same (k := k) hd a answer
        exact .of_not_deleted (hlate.trans h.quiet) (hdeleted.trans hd)
      · exact h
    | stop =>
      unfold StartingClient.step
      dsimp only
      split
      · exact .of_not_deleted h.quiet hd
      · exact h
    | setEnabled b => exact .of_not_deleted h.quiet hd
    | setSync b => exact .of_not_deleted h.quiet hd
  | true =>
    have hdormant : s.Dormant := h.dormant hd
    cases e with
    | delete => exact ⟨h.quiet, fun _ => hdormant⟩
    | start k n =>
      have hen : s.enabled = false := he.start k n rfl hd
      unfold StartingClient.step
      dsimp only
      split
      · exact ⟨(start_same n).1.trans h.quiet, fun _ => hdormant.start hen n⟩
      · exact h
    | resume k answer =>
      unfold StartingClient.step
      dsimp only
      split
      · rename_i a hk
        obtain ⟨ha, hen⟩ := hdormant k a hk
        cases a with
        | sleep n =>
          exact ⟨(tryStart_same n).1.trans h.quiet, fun _ => hdormant.tryStart hen n⟩
        | _ => cases ha
      · exact h
    | stop =>
      unfold StartingClient.step
      dsimp only
      split
      · exact ⟨h.quiet, fun _ => hdormant⟩
      · exact h
    | setEnabled b =>
      refine ⟨h.quiet, fun _ j a ha => ?_⟩
      cases b with
      | false => exact ⟨(hdormant j a ha).1, rfl⟩
      | true =>
        rw [show (StartingClient.step (.setEnabled true) s).calls j = s.calls j from rfl,
          he.enable rfl hd j] at ha
        cases ha
    | setSync b => exact ⟨h.quiet, fun _ => hdormant⟩

/-- A client that is not deleted. -/
structure Existing (s : StartingClient) : Prop where
  deleted : s.deleted = false
  late    : s.late = false

/-- **Starts of a deleted client.**  In every run whose steps are clear, no start begins to
    sync or starts plugins for a client that is deleted. -/
theorem quiet_of_clear {s₀ : StartingClient} (h₀ : Existing s₀) (h : Reach step Clear s₀ s) :
    s.Quiet :=
  (h.invariant (Inv.of_not_deleted h₀.late h₀.deleted) fun _ _ hs he => hs.step he).quiet

end StartingClient

/-! ### A retry after the deletion -/

namespace RetryTest

open StartingClient

/-- A start whose first requests fail: the next attempt sleeps. -/
def retrying : StartingClient := step (.resume 0 .failed) (step (.start 0 0) {})

/-- The client of the witness exists. -/
theorem existing : Existing {} := ⟨rfl, rfl⟩

/-- Its run is clear. -/
theorem retrying_reached : Reach step Clear {} retrying := by
  have hstart : Clear {} (.start 0 0) :=
    { delete := fun h => by cases h
      start := fun k n _ h => by cases h
      enable := fun h => by cases h }
  have hfail : Clear (step (.start 0 0) {}) (.resume 0 .failed) :=
    { delete := fun h => by cases h
      start := fun k n h => by cases h
      enable := fun h => by cases h }
  exact (Reach.start.step _ hstart).step _ hfail

end RetryTest

namespace StartingClient

open RetryTest in
/-- The client is deleted while a retry sleeps; the retry succeeds and begins to sync. -/
theorem retried_not_quiet :
    ¬ ∀ s₀ : StartingClient, Existing s₀ → ∀ s, Reach step (fun _ _ => True) s₀ s →
      s.Quiet := by
  intro h
  have hretrying : Reach step (fun _ _ => True) {} retrying :=
    (Reach.start.step _ trivial).step _ trivial
  have hrun := (((hretrying.step .delete trivial).step (.resume 0 .accepted) trivial).step
    (.resume 0 .accepted) trivial).step (.resume 0 .accepted) trivial
  exact absurd (h {} existing _ hrun) (by unfold Quiet; decide)

open RetryTest in
/-- The client is disabled before it is deleted; the retry wakes up and returns. -/
theorem disabled_quiet : Quiet (step (.resume 0 .accepted) (step .delete
    (step (.setEnabled false) retrying))) := by
  have hdisable : Clear retrying (.setEnabled false) :=
    { delete := fun h => by cases h
      start := fun k n h => by cases h
      enable := fun h => by cases h }
  have hdelete : Clear (step (.setEnabled false) retrying) .delete :=
    { delete := fun _ k a ha => by
        cases k with
        | zero =>
          cases ha
          exact ⟨rfl, rfl⟩
        | succ k => cases ha
      start := fun k n h => by cases h
      enable := fun h => by cases h }
  have hresume : Clear (step .delete (step (.setEnabled false) retrying))
      (.resume 0 .accepted) :=
    { delete := fun h => by cases h
      start := fun k n h => by cases h
      enable := fun h => by cases h }
  exact quiet_of_clear existing
    (((retrying_reached.step _ hdisable).step _ hdelete).step _ hresume)

end StartingClient

end Maubot
