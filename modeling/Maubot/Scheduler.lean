import Maubot.Lib.Runs
import Maubot.Lib.Tasks
import Mathlib.Data.Finset.Insert
import Mathlib.Data.Finset.Erase
import Mathlib.Data.Prod.Lex
import Mathlib.Order.WellFounded

namespace Maubot.Scheduler

/-!
# The scheduler of a plugin — `scheduler.py`

`BasicScheduler` on the event loop: between two suspensions a task runs alone, and while it runs
the code that was scheduled may call the methods of the scheduler.

* `step` — a call of the scheduler's methods, or a step of one of its tasks; a function that is
  scheduled may suspend as often as it likes, but lets a `CancelledError` out;
* `Invoking` — a loop in background mode is in its call of `func()`, which has no task yet;
* `Covered` — the set of tasks covers what could still run;
* `stop_ends_all` — once it is stopped, nothing is called any more, and every task ends, as long as
  no `func()` in background mode returns after it has called `stop`: then a task is still created.
-/

/-- The coroutine of a task -/
inductive Job
  /-- `_call_periodically` -/
  | periodically (background catchErrors : Bool)
  /-- `_call_periodically_background` -/
  | background
  /-- `_call_with_delay` -/
  | delayed (catchErrors : Bool)
  deriving DecidableEq, Repr

inductive Ended
  | returned
  | raised
  | cancelled
  deriving DecidableEq, Repr

/-- Where a task is suspended, or was last -/
inductive Phase
  | created
  /-- `asyncio.sleep`; a loop in background mode calls `func()` from here -/
  | sleeping
  /-- in the function or the coroutine that was scheduled -/
  | calling
  /-- there too, with a `CancelledError` that comes out after some more suspensions -/
  | unwinding (suspensions : Nat)
  | done (ended : Ended)
  deriving DecidableEq, Repr

structure Task where
  job        : Job
  phase      : Phase := .created
  /-- `cancel` has been called: a `CancelledError` is thrown in when the task is resumed. -/
  mustCancel : Bool := false
  deriving DecidableEq, Repr

def Task.Unfinished (t : Task) : Prop := ∀ e, t.phase ≠ .done e

instance (t : Task) : Decidable t.Unfinished :=
  match h : t.phase with
  | .done e      => .isFalse fun hu => hu e h
  | .created     => .isTrue fun e he => by rw [h] at he; cases he
  | .sleeping    => .isTrue fun e he => by rw [h] at he; cases he
  | .calling     => .isTrue fun e he => by rw [h] at he; cases he
  | .unwinding _ => .isTrue fun e he => by rw [h] at he; cases he

/-- What the code that was scheduled comes to, when it runs -/
inductive Outcome
  | suspends
  | returns
  /-- an exception, and whether it is an `Exception` -/
  | raises (isException : Bool)
  /-- a `CancelledError` of its own -/
  | raisesCancelled
  deriving DecidableEq, Repr

structure BasicScheduler where
  /-- not in the source: all tasks that were created, by their numbers -/
  created   : List Task := []
  tasks     : Finset Nat := ∅
  /-- the calls of `self.tasks.discard` that are due on the loop -/
  callbacks : List Nat := []
  /-- the task whose function or coroutine is running, or the loop that calls `func()` -/
  current   : Option Nat := none
  /-- not in the source: `stop` has been called -/
  stopped   : Bool := false
  /-- not in the source: how often a function was called, or a coroutine begun -/
  begun     : Nat := 0

namespace BasicScheduler

variable (s : BasicScheduler) (k : Nat) (t : Task)

/-! ### Steps -/

/-- `asyncio.create_task` and `_register_task` -/
def register (job : Job) : BasicScheduler :=
  { s with
    created := s.created ++ [{ job := job }]
    tasks   := insert s.created.length s.tasks }

def runPeriodically (runTaskInBackground catchErrors : Bool) : BasicScheduler :=
  s.register (.periodically runTaskInBackground catchErrors)

def runLater (catchErrors : Bool) : BasicScheduler := s.register (.delayed catchErrors)

def cancel : Task := if t.Unfinished then { t with mustCancel := true } else t

/-- `stop` -/
def stop : BasicScheduler :=
  { s with
    created := s.created.mapIdx fun k t => if k ∈ s.tasks then cancel t else t
    stopped := true }

/-- The task goes on, and is suspended again. -/
def suspend (phase : Phase) : BasicScheduler :=
  { s with
    created := s.created.set k { t with phase := phase }
    current := none }

/-- The task ends; a task that is to be cancelled does not return. -/
def finish (ended : Ended) : BasicScheduler :=
  { s with
    created   := s.created.set k
      { t with phase := .done (if t.mustCancel ∧ ended = .returned then .cancelled else ended) }
    callbacks := s.callbacks ++ [k]
    current   := none }

/-- The code that was scheduled begins to run in the task. -/
def begin : BasicScheduler :=
  { s with
    created := s.created.set k { t with phase := .calling }
    current := some k
    begun   := s.begun + 1 }

/-- An exception in the loop of `_call_periodically` -/
def raiseInLoop (isException catchErrors : Bool) : BasicScheduler :=
  if isException ∧ catchErrors then s.suspend k t .sleeping else s.finish k t .raised

/-- `self._register_task(asyncio.create_task(…(func(), caller)))`, when `func()` has come to this
    end: only if it returns is there a task. -/
def callInBackground (catchErrors : Bool) (outcome : Outcome) : BasicScheduler :=
  match outcome with
  | .suspends           => s
  | .returns            => (s.suspend k t .sleeping).register .background
  | .raises isException => s.raiseInLoop k t isException catchErrors
  | .raisesCancelled    => s.finish k t .cancelled

/-- The code that was scheduled has a `CancelledError` thrown in, and lets it out after some
    suspensions. -/
def unwind (suspensions : Nat) : BasicScheduler :=
  match suspensions with
  | 0     => s.finish k t .cancelled
  | n + 1 => s.suspend k t (.unwinding n)

/-- A `CancelledError` is thrown into the task. -/
def throwCancelled (suspensions : Nat) : BasicScheduler :=
  match t.phase with
  | .created     => s.finish k t .cancelled
  | .sleeping    => s.finish k t .cancelled
  | .calling     => s.unwind k { t with mustCancel := false } suspensions
  | .unwinding n => s.unwind k { t with mustCancel := false } n
  | .done _      => s

/-- The loop resumes a task, and nothing is thrown in. -/
def goOn : BasicScheduler :=
  match t.phase, t.job with
  | .created, .background           => s.begin k t
  | .created, _                     => s.suspend k t .sleeping
  -- the call of `func()` is plain code of the loop, which is not suspended before it is over
  | .sleeping, .periodically true _ => { s with current := some k, begun := s.begun + 1 }
  | .sleeping, _                    => s.begin k t
  | .calling, _                     => { s with current := some k }
  | .unwinding n, _                 => s.unwind k t n
  | .done _, _                      => s

/-- `suspensions` is for a `CancelledError`. -/
def resume (suspensions : Nat) : BasicScheduler :=
  match s.created[k]? with
  | none   => s
  | some t => if t.mustCancel then s.throwCancelled k t suspensions else s.goOn k t

/-- What was awaited comes to its next suspension, or to an end. -/
def await (outcome : Outcome) : BasicScheduler :=
  match outcome, t.job with
  | .suspends, _                                => s.suspend k t .calling
  | .raisesCancelled, _                         => s.finish k t .cancelled
  | .returns, .periodically _ _                 => s.suspend k t .sleeping
  | .returns, _                                 => s.finish k t .returned
  | .raises isException, .periodically _ catch' => s.raiseInLoop k t isException catch'
  | .raises isException, .background            =>
    s.finish k t (if isException then .returned else .raised)
  | .raises isException, .delayed catchErrors   =>
    s.finish k t (if isException ∧ catchErrors then .returned else .raised)

/-- The code that was scheduled comes to its next suspension, or to an end. -/
def settle (outcome : Outcome) : BasicScheduler :=
  match s.current with
  | none   => s
  | some k =>
    match s.created[k]? with
    | none   => s
    | some t =>
      match t.phase, t.job with
      | .sleeping, .periodically _ catchErrors => s.callInBackground k t catchErrors outcome
      | _, _                                   => s.await k t outcome

/-- A done callback: `self.tasks.discard` -/
def callback : BasicScheduler :=
  { s with
    tasks     := s.tasks.erase k
    callbacks := s.callbacks.erase k }

end BasicScheduler

open BasicScheduler

inductive Event
  | runPeriodically (runTaskInBackground catchErrors : Bool)
  | runLater (catchErrors : Bool)
  | stop
  | resume (k suspensions : Nat)
  | settle (outcome : Outcome)
  | callback (k : Nat)
  deriving DecidableEq, Repr

def step : Event → BasicScheduler → BasicScheduler
  | .runPeriodically background catchErrors, s => s.runPeriodically background catchErrors
  | .runLater catchErrors, s                   => s.runLater catchErrors
  | .stop, s                                   => s.stop
  | .resume k suspensions, s                   => s.resume k suspensions
  | .settle outcome, s                         => s.settle outcome
  | .callback k, s                             => s.callback k

/-- A loop in background mode is in its call of `func()`. -/
def Invoking (s : BasicScheduler) : Prop :=
  ∃ k t, s.current = some k ∧ s.created[k]? = some t ∧ t.phase = .sleeping

/-- What can happen: no method is called once the scheduler is stopped, the loop resumes no task
    and runs no callback while another task is running, and a call of `func()` is not suspended. -/
def Allowed (s : BasicScheduler) : Event → Prop
  | .runPeriodically _ _ => s.stopped = false
  | .runLater _          => s.stopped = false
  | .stop                => s.stopped = false
  | .resume k _          => s.current = none ∧ ∃ t, s.created[k]? = some t ∧ t.Unfinished
  | .settle outcome      => s.current ≠ none ∧ (Invoking s → outcome ≠ .suspends)
  | .callback k          => s.current = none ∧ k ∈ s.callbacks

/-- No `func()` that a loop in background mode calls returns once the scheduler is stopped, which
    only that `func()` itself can have done. -/
def Spares (s : BasicScheduler) (e : Event) : Prop :=
  s.stopped = true → Invoking s → e ≠ .settle .returns

/-- What can happen, but for such a return -/
structure Steady (s : BasicScheduler) (e : Event) : Prop where
  allowed : Allowed s e
  spares  : Spares s e

def Next (s s' : BasicScheduler) : Prop := ∃ e, Steady s e ∧ s' = step e s

/-! ### What could still run is in the set -/

/-- A `CancelledError` is on its way. -/
def Task.Cancelled (t : Task) : Prop := t.mustCancel = true ∨ ∃ n, t.phase = .unwinding n

/-- The task awaits what was scheduled, or is a loop that calls it. -/
def Task.Running (t : Task) : Prop :=
  t.phase = .calling ∨ t.phase = .sleeping ∧ ∃ catchErrors, t.job = .periodically true catchErrors

/-- **The cover.**  The set has every unfinished task, and but for those that are about to leave it
    no other; and once the scheduler is stopped, an error is on its way to each of them. -/
structure Covered (s : BasicScheduler) : Prop where
  registered : ∀ (k : Nat) (t : Task), s.created[k]? = some t → t.Unfinished → k ∈ s.tasks
  discarded  : ∀ k ∈ s.tasks, k ∈ s.callbacks ∨ ∃ t, s.created[k]? = some t ∧ t.Unfinished
  running    : ∀ k : Nat, s.current = some k → ∃ t, s.created[k]? = some t ∧ t.Running
  cancelled  : s.stopped = true → ∀ (k : Nat) (t : Task), s.created[k]? = some t →
    t.Unfinished → t.Cancelled
  ended      : ∀ k ∈ s.callbacks, ∃ t : Task, s.created[k]? = some t ∧ ¬ t.Unfinished

variable {s s' : BasicScheduler} {k : Nat} {t t₀ : Task}

/-- A task with a phase other than `done` is unfinished. -/
theorem unfinished_of_phase {phase : Phase} (h : t.phase = phase) (hne : ∀ e, phase ≠ .done e) :
    t.Unfinished := by
  intro e he
  exact hne e (h.symm.trans he)

/-- A task that runs is unfinished. -/
theorem Task.Running.unfinished (h : t.Running) : t.Unfinished := by
  rcases h with hphase | ⟨hphase, -⟩
  · exact unfinished_of_phase hphase nofun
  · exact unfinished_of_phase hphase nofun

/-- A task that runs does not unwind: an error that is on its way to it was not thrown yet. -/
theorem Task.Running.mustCancel (h : t.Running) (hcancelled : t.Cancelled) :
    t.mustCancel = true := by
  refine hcancelled.resolve_right fun ⟨n, hn⟩ => ?_
  rcases h with hphase | ⟨hphase, -⟩ <;>
    · rw [hphase] at hn
      cases hn

/-- An unfinished task moves on, or ends. -/
theorem Covered.of_set (h : Covered s) (h₀ : s.created[k]? = some t₀) (hu : t₀.Unfinished)
    (hcreated : s'.created = s.created.set k t) (htasks : s'.tasks = s.tasks)
    (hstopped : s'.stopped = s.stopped)
    (hcallbacks : ∀ j, j ∈ s'.callbacks ↔ j ∈ s.callbacks ∨ (j = k ∧ ¬ t.Unfinished))
    (hcancelled : s.stopped = true → t.Unfinished → t.Cancelled)
    (hcurrent : s'.current = none ∨ s'.current = some k ∧ t.phase = .calling) : Covered s' := by
  have hlt : k < s.created.length := (List.getElem?_eq_some_iff.mp h₀).1
  -- what is said of another task than `k` stays true; what is said of `k` is assumed
  have hself : s'.created[k]? = some t := by rw [hcreated, List.getElem?_set_self hlt]
  have hother {j : Nat} (hj : j ≠ k) : s'.created[j]? = s.created[j]? := by
    rw [hcreated, List.getElem?_set_ne (Ne.symm hj)]
  constructor
  · intro j u hju huu
    rw [htasks]
    by_cases hj : j = k
    · subst hj
      exact h.registered j t₀ h₀ hu
    · rw [hother hj] at hju
      exact h.registered j u hju huu
  · intro j hj
    rw [htasks] at hj
    by_cases hjk : j = k
    · subst hjk
      by_cases ht : t.Unfinished
      · exact .inr ⟨t, hself, ht⟩
      · exact .inl ((hcallbacks j).mpr (.inr ⟨rfl, ht⟩))
    · rw [hother hjk]
      exact (h.discarded j hj).imp_left fun hcallback => (hcallbacks j).mpr (.inl hcallback)
  · intro j hj
    rcases hcurrent with hnone | ⟨hsome, hphase⟩
    · rw [hnone] at hj
      cases hj
    · obtain rfl := Option.some.inj (hsome.symm.trans hj)
      exact ⟨t, hself, .inl hphase⟩
  · intro hs j u hju huu
    rw [hstopped] at hs
    by_cases hj : j = k
    · subst hj
      obtain rfl := Option.some.inj (hself.symm.trans hju)
      exact hcancelled hs huu
    · rw [hother hj] at hju
      exact h.cancelled hs j u hju huu
  · intro j hj
    rcases (hcallbacks j).mp hj with hj | ⟨rfl, ht⟩
    · obtain ⟨u, hju, huu⟩ := h.ended j hj
      have hjk : j ≠ k := by
        rintro rfl
        obtain rfl := Option.some.inj (h₀.symm.trans hju)
        exact huu hu
      exact ⟨u, (hother hjk).trans hju, huu⟩
    · exact ⟨t, hself, ht⟩

/-- A task is suspended. -/
theorem Covered.suspend (h : Covered s) (h₀ : s.created[k]? = some t₀) (hu : t₀.Unfinished)
    {phase : Phase} (hphase : ∀ e, phase ≠ .done e)
    (hcancelled : s.stopped = true → t.mustCancel = true ∨ ∃ n, phase = .unwinding n) :
    Covered (s.suspend k t phase) :=
  h.of_set h₀ hu rfl rfl rfl
    (fun _ => ⟨.inl, fun hj => hj.resolve_right fun hdone =>
      hdone.2 (unfinished_of_phase rfl hphase)⟩)
    (fun hs _ => hcancelled hs) (.inl rfl)

/-- A task ends, and its callback is due. -/
theorem Covered.finish (h : Covered s) (h₀ : s.created[k]? = some t₀) (hu : t₀.Unfinished)
    (ended : Ended) : Covered (s.finish k t ended) :=
  h.of_set h₀ hu rfl rfl rfl
    (fun _ => List.mem_append.trans (or_congr_right
      ⟨fun hj => ⟨List.mem_singleton.mp hj, fun hunfinished => hunfinished _ rfl⟩,
        fun hj => List.mem_singleton.mpr hj.1⟩))
    (fun _ hunfinished => absurd rfl (hunfinished _)) (.inl rfl)

/-- The code that was scheduled begins, before the scheduler is stopped. -/
theorem Covered.begin (h : Covered s) (h₀ : s.created[k]? = some t₀) (hu : t₀.Unfinished)
    (hs : s.stopped = false) : Covered (s.begin k t) :=
  h.of_set h₀ hu rfl rfl rfl
    (fun _ => ⟨.inl, fun hj => hj.resolve_right fun hdone =>
      hdone.2 (@unfinished_of_phase _ .calling rfl nofun)⟩)
    (fun hstopped _ => by rw [hs] at hstopped; cases hstopped) (.inr ⟨rfl, rfl⟩)

/-- A task that is registered leaves the others where they are. -/
theorem getElem_register {u : Task} (hju : s.created[k]? = some u) (job : Job) :
    (s.register job).created[k]? = some u :=
  (List.getElem?_append_left (List.getElem?_eq_some_iff.mp hju).1).trans hju

/-- A new task is in the set at once. -/
theorem Covered.register (h : Covered s) (hs : s.stopped = false) (job : Job) :
    Covered (s.register job) := by
  constructor
  · refine Tasks.forall_getElem_concat (fun j u hju huu => ?_) fun _ => ?_
    · exact Finset.mem_insert_of_mem (h.registered j u hju huu)
    · exact Finset.mem_insert_self _ _
  · intro j hj
    have hmem : j = s.created.length ∨ j ∈ s.tasks := Finset.mem_insert.mp hj
    rcases hmem with rfl | hmem
    · exact .inr ⟨_, List.getElem?_concat_length .., @unfinished_of_phase _ .created rfl nofun⟩
    · rcases h.discarded j hmem with hcallback | ⟨u, hju, huu⟩
      · exact .inl hcallback
      · exact .inr ⟨u, getElem_register hju job, huu⟩
  · intro j hj
    obtain ⟨u, hju, hphase⟩ := h.running j hj
    exact ⟨u, getElem_register hju job, hphase⟩
  · intro hstopped
    exact absurd (hs.symm.trans hstopped) (by decide)
  · intro j hj
    obtain ⟨u, hju, huu⟩ := h.ended j hj
    exact ⟨u, getElem_register hju job, huu⟩

/-- Cancelling a task does not bring it on. -/
theorem cancel_phase (t : Task) : (cancel t).phase = t.phase := by
  unfold cancel
  split
  · rfl
  · rfl

/-- Nor does it change its coroutine. -/
theorem cancel_job (t : Task) : (cancel t).job = t.job := by
  unfold cancel
  split
  · rfl
  · rfl

/-- Whether a task is unfinished is a matter of its phase. -/
theorem unfinished_congr {u : Task} (hp : u.phase = t.phase) (hu : u.Unfinished) :
    t.Unfinished := by
  intro e he
  exact hu e (hp.trans he)

/-- `stop` cancels the tasks that are registered. -/
theorem getElem_stop (s : BasicScheduler) (j : Nat) : s.stop.created[j]? =
    s.created[j]?.map fun t => if j ∈ s.tasks then cancel t else t :=
  List.getElem?_mapIdx ..

/-- Stopping brings no task on, and ends none. -/
theorem of_getElem_stop {u : Task} (hju : s.stop.created[k]? = some u) :
    ∃ t, s.created[k]? = some t ∧ u = (if k ∈ s.tasks then cancel t else t) ∧
      u.phase = t.phase := by
  rw [getElem_stop] at hju
  obtain ⟨t, hjt, rfl⟩ := Option.map_eq_some_iff.mp hju
  refine ⟨t, hjt, rfl, ?_⟩
  split
  · exact cancel_phase t
  · rfl

/-- Every task is still there, with its coroutine and where it was suspended. -/
theorem exists_getElem_stop (hjt : s.created[k]? = some t) :
    ∃ u, s.stop.created[k]? = some u ∧ u.phase = t.phase ∧ u.job = t.job := by
  refine ⟨if k ∈ s.tasks then cancel t else t, by rw [getElem_stop, hjt, Option.map_some], ?_⟩
  split
  · exact ⟨cancel_phase t, cancel_job t⟩
  · exact ⟨rfl, rfl⟩

/-- All unfinished tasks are cancelled, as the set has them. -/
theorem Covered.stop (h : Covered s) : Covered s.stop := by
  constructor
  · intro j u hju huu
    obtain ⟨t, hjt, -, hp⟩ := of_getElem_stop hju
    exact h.registered j t hjt (unfinished_congr hp huu)
  · intro j hj
    rcases h.discarded j hj with hcallback | ⟨t, hjt, ht⟩
    · exact .inl hcallback
    · obtain ⟨u, hju, hp, -⟩ := exists_getElem_stop hjt
      exact .inr ⟨u, hju, unfinished_congr hp.symm ht⟩
  · intro j hj
    obtain ⟨t, hjt, ht⟩ := h.running j hj
    obtain ⟨u, hju, hp, hjob⟩ := exists_getElem_stop hjt
    refine ⟨u, hju, ?_⟩
    rw [Task.Running, hp, hjob]
    exact ht
  · -- the set has every unfinished task, so each of them is cancelled
    intro _ j u hju huu
    obtain ⟨t, hjt, hu, hp⟩ := of_getElem_stop hju
    have ht := unfinished_congr hp huu
    rw [if_pos (h.registered j t hjt ht), cancel, if_pos ht] at hu
    rw [hu]
    exact .inl rfl
  · intro j hj
    obtain ⟨t, hjt, ht⟩ := h.ended j hj
    obtain ⟨u, hju, hp, -⟩ := exists_getElem_stop hjt
    exact ⟨u, hju, fun huu => ht (unfinished_congr hp huu)⟩

/-- Only a task that has ended leaves the set. -/
theorem Covered.callback (h : Covered s) (hk : k ∈ s.callbacks) : Covered (s.callback k) := by
  constructor
  · intro j t hjt ht
    refine Finset.mem_erase.mpr ⟨?_, h.registered j t hjt ht⟩
    rintro rfl
    obtain ⟨u, hju, huu⟩ := h.ended j hk
    obtain rfl := Option.some.inj (hju.symm.trans hjt)
    exact huu ht
  · intro j hj
    obtain ⟨hne, hmem⟩ := Finset.mem_erase.mp hj
    refine (h.discarded j hmem).imp_left fun hcallback => ?_
    exact (List.mem_erase_of_ne hne).mpr hcallback
  · exact h.running
  · exact h.cancelled
  · intro j hj
    exact h.ended j (List.mem_of_mem_erase hj)

/-! ### Every step keeps the cover -/

/-- An exception in a loop: it goes on, or ends. -/
theorem Covered.raiseInLoop (h : Covered s) (h₀ : s.created[k]? = some t₀) (hu : t₀.Unfinished)
    (hcancelled : s.stopped = true → t.mustCancel = true) (isException catchErrors : Bool) :
    Covered (s.raiseInLoop k t isException catchErrors) := by
  unfold BasicScheduler.raiseInLoop
  split
  · exact h.suspend h₀ hu nofun fun hs => .inl (hcancelled hs)
  · exact h.finish h₀ hu _

/-- A task that unwinds goes on to do so, or ends. -/
theorem Covered.unwind (h : Covered s) (h₀ : s.created[k]? = some t₀) (hu : t₀.Unfinished)
    (suspensions : Nat) : Covered (s.unwind k t suspensions) := by
  cases suspensions with
  | zero => exact h.finish h₀ hu _
  | succ n => exact h.suspend h₀ hu nofun fun _ => .inr ⟨n, rfl⟩

/-- A task that a `CancelledError` is thrown into ends, or begins to unwind. -/
theorem Covered.throwCancelled (h : Covered s) (ht : s.created[k]? = some t) (hu : t.Unfinished)
    (suspensions : Nat) : Covered (s.throwCancelled k t suspensions) := by
  unfold BasicScheduler.throwCancelled
  split
  · exact h.finish ht hu _
  · exact h.finish ht hu _
  · exact h.unwind ht hu _
  · exact h.unwind ht hu _
  · exact h

/-- A task that is not cancelled runs on, before the scheduler is stopped. -/
theorem Covered.goOn (h : Covered s) (ht : s.created[k]? = some t) (hu : t.Unfinished)
    (hs : s.stopped = false) : Covered (s.goOn k t) := by
  have hnot {p : Prop} (hstopped : s.stopped = true) : p :=
    absurd (hs.symm.trans hstopped) (by decide)
  have hrun (n : Nat) (hrunning : t.Running) :
      Covered { s with current := some k, begun := n } := by
    refine ⟨h.registered, h.discarded, fun j hj => ?_, h.cancelled, h.ended⟩
    obtain rfl := Option.some.inj hj
    exact ⟨t, ht, hrunning⟩
  unfold BasicScheduler.goOn
  split
  · exact h.begin ht hu hs
  · exact h.suspend ht hu nofun hnot
  next hphase hjob => exact hrun _ (.inr ⟨hphase, _, hjob⟩)
  · exact h.begin ht hu hs
  next hphase => exact hrun _ (.inl hphase)
  · exact h.unwind ht hu _
  · exact h

/-- The call of `func()` ends.  If it returns, one more task is registered, which is right before
    the scheduler is stopped. -/
theorem Covered.callInBackground (h : Covered s) (ht : s.created[k]? = some t) (hu : t.Unfinished)
    (hcancelled : s.stopped = true → t.mustCancel = true) {outcome : Outcome}
    (hs : s.stopped = true → outcome ≠ .returns) (catchErrors : Bool) :
    Covered (s.callInBackground k t catchErrors outcome) := by
  cases outcome with
  | suspends => exact h
  | returns =>
    have hrunning : s.stopped = false := Bool.eq_false_iff.mpr fun hstopped => hs hstopped rfl
    have hsleeps : Covered (s.suspend k t .sleeping) :=
      h.suspend ht hu nofun fun hstopped => .inl (hcancelled hstopped)
    exact hsleeps.register hrunning _
  | raises isException => exact h.raiseInLoop ht hu hcancelled _ _
  | raisesCancelled => exact h.finish ht hu _

/-- What was awaited goes on, or ends. -/
theorem Covered.await (h : Covered s) (ht : s.created[k]? = some t) (hu : t.Unfinished)
    (hcancelled : s.stopped = true → t.mustCancel = true) (outcome : Outcome) :
    Covered (s.await k t outcome) := by
  unfold BasicScheduler.await
  split
  · exact h.suspend ht hu nofun fun hs => .inl (hcancelled hs)
  · exact h.finish ht hu _
  · exact h.suspend ht hu nofun fun hs => .inl (hcancelled hs)
  · exact h.finish ht hu _
  · exact h.raiseInLoop ht hu hcancelled _ _
  · exact h.finish ht hu _
  · exact h.finish ht hu _

/-- The running task comes to its next suspension or to an end. -/
theorem Covered.settle (h : Covered s) {outcome : Outcome} (hspares : Spares s (.settle outcome)) :
    Covered (s.settle outcome) := by
  unfold BasicScheduler.settle
  split
  · exact h
  next k hcurrent =>
    obtain ⟨t, ht, hrunning⟩ := h.running k hcurrent
    have hu : t.Unfinished := hrunning.unfinished
    have hcancelled (hs : s.stopped = true) : t.mustCancel = true :=
      hrunning.mustCancel (h.cancelled hs k t ht hu)
    rw [ht]
    dsimp only
    split
    next hphase _ =>
      refine h.callInBackground ht hu hcancelled (fun hs hreturns => ?_) _
      exact hspares hs ⟨k, t, hcurrent, ht, hphase⟩ (congrArg Event.settle hreturns)
    · exact h.await ht hu hcancelled _

/-- The loop resumes a task: if the scheduler is stopped, the task is on its way out. -/
theorem Covered.resume (h : Covered s) (suspensions : Nat)
    (ha : Allowed s (.resume k suspensions)) : Covered (s.resume k suspensions) := by
  obtain ⟨-, t, ht, hu⟩ := ha
  unfold BasicScheduler.resume
  rw [ht]
  dsimp only
  split
  · exact h.throwCancelled ht hu _
  next hmust =>
    cases hs : s.stopped with
    | false => exact h.goOn ht hu hs
    | true =>
      obtain ⟨n, hn⟩ := (h.cancelled hs k t ht hu).resolve_left hmust
      unfold BasicScheduler.goOn
      rw [hn]
      exact h.unwind ht hu n

/-- **Every step** but the return of a `func()` that has stopped the scheduler keeps the cover. -/
theorem Covered.step (h : Covered s) {e : Event} (ha : Steady s e) :
    Covered (Scheduler.step e s) := by
  obtain ⟨ha, hspares⟩ := ha
  cases e with
  | runPeriodically background catchErrors => exact h.register ha _
  | runLater catchErrors => exact h.register ha _
  | stop => exact h.stop
  | resume k suspensions => exact h.resume suspensions ha
  | settle outcome => exact h.settle hspares
  | callback k => exact h.callback ha.2

/-- There is nothing to cover at first. -/
theorem covered_empty : Covered {} :=
  ⟨nofun, nofun, nofun, nofun, nofun⟩

/-! ### A scheduler that is stopped -/

/-- What a task has yet to do: to be thrown the error, and to let it out. -/
def Phase.thrown : Phase → Nat
  | .unwinding _ => 0
  | .done _      => 0
  | _            => 1

def Phase.suspensions : Phase → Nat
  | .unwinding n => n + 2
  | _            => 0

def rank (s : BasicScheduler) : Nat ×ₗ Nat :=
  toLex (Tasks.total (fun t => t.phase.thrown) s.created,
    Tasks.total (fun t => t.phase.suspensions) s.created + s.callbacks.length +
      s.current.isSome.toNat)

/-- What a step of a stopped scheduler leaves as it is -/
structure Stopped (s s' : BasicScheduler) : Prop where
  stopped : s'.stopped = s.stopped
  begun   : s'.begun = s.begun
  length  : s'.created.length = s.created.length
  subset  : s'.tasks ⊆ s.tasks

/-- No step leaves everything. -/
theorem Stopped.refl (s : BasicScheduler) : Stopped s s :=
  ⟨rfl, rfl, rfl, Finset.Subset.refl _⟩

/-- Two steps after each other -/
theorem Stopped.trans {s'' : BasicScheduler} (h : Stopped s s') (h' : Stopped s' s'') :
    Stopped s s'' :=
  ⟨h'.stopped.trans h.stopped, h'.begun.trans h.begun, h'.length.trans h.length,
    h'.subset.trans h.subset⟩

/-- Suspending a task begins nothing. -/
theorem stopped_suspend (s : BasicScheduler) (k : Nat) (t : Task) (phase : Phase) :
    Stopped s (s.suspend k t phase) :=
  ⟨rfl, rfl, List.length_set, Finset.Subset.refl _⟩

/-- Nor does ending one. -/
theorem stopped_finish (s : BasicScheduler) (k : Nat) (t : Task) (ended : Ended) :
    Stopped s (s.finish k t ended) :=
  ⟨rfl, rfl, List.length_set, Finset.Subset.refl _⟩

/-- A task that ends has less to do, though one more callback is due. -/
theorem rank_finish (h₀ : s.created[k]? = some t₀) (hu : t₀.Unfinished) (t : Task)
    (ended : Ended) : rank (s.finish k t ended) < rank s := by
  have hthrown := Tasks.total_set (fun t => t.phase.thrown)
    { t with phase := .done (if t.mustCancel ∧ ended = .returned then .cancelled else ended) } h₀
  have hsuspensions := Tasks.total_set (fun t => t.phase.suspensions)
    { t with phase := .done (if t.mustCancel ∧ ended = .returned then .cancelled else ended) } h₀
  have hlength : (s.callbacks ++ [k]).length = s.callbacks.length + 1 := by simp
  refine Prod.Lex.toLex_lt_toLex.mpr ?_
  dsimp only [BasicScheduler.finish, Phase.thrown, Phase.suspensions, Option.isSome_none,
    Bool.toNat_false] at *
  rw [hlength]
  cases hphase : t₀.phase with
  | done e => exact absurd hphase (hu e)
  | unwinding n =>
    rw [hphase] at hthrown hsuspensions
    dsimp only at hthrown hsuspensions
    right
    omega
  | _ =>
    rw [hphase] at hthrown
    dsimp only at hthrown
    left
    omega

/-- A task that is suspended has less to do if it was thrown the error, comes closer to the end of
    its unwinding, or was running. -/
theorem rank_suspend (h₀ : s.created[k]? = some t₀) (t : Task) {phase : Phase}
    (hlower : phase.thrown < t₀.phase.thrown ∨ phase.thrown = t₀.phase.thrown ∧
      phase.suspensions < t₀.phase.suspensions + s.current.isSome.toNat) :
    rank (s.suspend k t phase) < rank s := by
  have hthrown := Tasks.total_set (fun t => t.phase.thrown) { t with phase := phase } h₀
  have hsuspensions := Tasks.total_set (fun t => t.phase.suspensions) { t with phase := phase } h₀
  refine Prod.Lex.toLex_lt_toLex.mpr ?_
  dsimp only [BasicScheduler.suspend, Option.isSome_none, Bool.toNat_false] at *
  rcases hlower with hlower | ⟨hthrown', hlower⟩
  · left
    omega
  · right
    omega

/-- A step of a stopped scheduler: what it leaves as it is, and that it leads on. -/
def Leads (s s' : BasicScheduler) : Prop := Stopped s s' ∧ rank s' < rank s

/-- A task that ends leads on. -/
theorem leads_finish (h₀ : s.created[k]? = some t₀) (hu : t₀.Unfinished) (t : Task)
    (ended : Ended) : Leads s (s.finish k t ended) :=
  ⟨stopped_finish s k t ended, rank_finish h₀ hu t ended⟩

/-- A task that unwinds leads on: the error was thrown just now, or it has fewer suspensions
    left. -/
theorem leads_unwind (h₀ : s.created[k]? = some t₀) (hu : t₀.Unfinished) (t : Task) {n : Nat}
    (hn : ∀ m, t₀.phase = .unwinding m → n = m) : Leads s (s.unwind k t n) := by
  cases n with
  | zero => exact leads_finish h₀ hu t _
  | succ n =>
    refine ⟨stopped_suspend s k t _, rank_suspend h₀ t ?_⟩
    cases hphase : t₀.phase with
    | done e => exact absurd hphase (hu e)
    | unwinding m =>
      obtain rfl := hn m hphase
      refine .inr ⟨rfl, ?_⟩
      simp only [Phase.suspensions]
      omega
    | _ => exact .inl Nat.one_pos

/-- Throwing the error into a task leads on. -/
theorem leads_throwCancelled (ht : s.created[k]? = some t) (hu : t.Unfinished)
    (suspensions : Nat) : Leads s (s.throwCancelled k t suspensions) := by
  unfold BasicScheduler.throwCancelled
  split
  next => exact leads_finish ht hu _ _
  next => exact leads_finish ht hu _ _
  next hphase =>
    refine leads_unwind ht hu _ fun m hm => ?_
    rw [hphase] at hm
    cases hm
  next n hphase =>
    refine leads_unwind ht hu _ fun m hm => ?_
    rw [hphase] at hm
    exact Phase.unwinding.inj hm
  next e hphase => exact absurd hphase (hu e)

/-- The running task leads on, as long as its `func()` does not return. -/
theorem leads_settle (h : Covered s) (hs : s.stopped = true) {outcome : Outcome}
    (ha : Steady s (.settle outcome)) : Leads s (s.settle outcome) := by
  obtain ⟨⟨hne, hsuspends⟩, hspares⟩ := ha
  obtain ⟨k, hcurrent⟩ := Option.ne_none_iff_exists'.mp hne
  obtain ⟨t, ht, hrunning⟩ := h.running k hcurrent
  have hu : t.Unfinished := hrunning.unfinished
  -- a task that suspends again has been thrown into once, or has one suspension less
  have hsuspend (phase : Phase) (hthrown : phase.thrown = 1)
      (hsuspensions : phase.suspensions = 0) : Leads s (s.suspend k t phase) := by
    refine ⟨stopped_suspend s k t phase, rank_suspend ht t (.inr ⟨?_, ?_⟩)⟩
    · rcases hrunning with hphase | ⟨hphase, -⟩ <;>
        · rw [hthrown, hphase]
          rfl
    · rw [hsuspensions, hcurrent]
      exact Nat.succ_pos _
  have hraise (isException catchErrors : Bool) :
      Leads s (s.raiseInLoop k t isException catchErrors) := by
    unfold BasicScheduler.raiseInLoop
    split
    · exact hsuspend _ rfl rfl
    · exact leads_finish ht hu t _
  unfold BasicScheduler.settle
  rw [hcurrent]
  dsimp only
  rw [ht]
  dsimp only
  split
  -- in `func()`: it neither suspends for ever nor survives `stop`
  next catchErrors hphase hjob =>
    have hinvoking : Invoking s := ⟨k, t, hcurrent, ht, hphase⟩
    cases outcome with
    | suspends => exact absurd rfl (hsuspends hinvoking)
    | returns => exact absurd rfl (hspares hs hinvoking)
    | raises isException => exact hraise _ _
    | raisesCancelled => exact leads_finish ht hu t _
  · unfold BasicScheduler.await
    split
    · exact hsuspend _ rfl rfl
    · exact leads_finish ht hu t _
    · exact hsuspend _ rfl rfl
    · exact leads_finish ht hu t _
    · exact hraise _ _
    · exact leads_finish ht hu t _
    · exact leads_finish ht hu t _

/-- A callback leads on: one less is left. -/
theorem leads_callback (hk : k ∈ s.callbacks) : Leads s (s.callback k) := by
  refine ⟨⟨rfl, rfl, rfl, Finset.erase_subset _ _⟩, ?_⟩
  -- the tasks stay as they are, and one callback less is left
  have hlength := List.length_erase_of_mem hk
  have hpos := List.length_pos_of_mem hk
  refine Prod.Lex.toLex_lt_toLex.mpr (.inr ⟨rfl, ?_⟩)
  dsimp only [BasicScheduler.callback]
  omega

/-- **A stopped scheduler** begins nothing, and each of its steps leads on. -/
theorem leads_step (h : Covered s) (hs : s.stopped = true) {e : Event} (ha : Steady s e) :
    Leads s (step e s) := by
  have hcall {p : Prop} (hrunning : s.stopped = false) : p :=
    absurd (hs.symm.trans hrunning) (by decide)
  cases e with
  | runPeriodically => exact hcall ha.allowed
  | runLater => exact hcall ha.allowed
  | stop => exact hcall ha.allowed
  | resume k suspensions =>
    obtain ⟨-, t, ht, hu⟩ := ha.allowed
    show Leads s (s.resume k suspensions)
    unfold BasicScheduler.resume
    rw [ht]
    dsimp only
    split
    · exact leads_throwCancelled ht hu _
    -- the CancelledError was thrown already, and the task unwinds
    next hmust =>
      obtain ⟨n, hn⟩ := (h.cancelled hs k t ht hu).resolve_left hmust
      unfold BasicScheduler.goOn
      rw [hn]
      refine leads_unwind ht hu t fun m hm => ?_
      exact Phase.unwinding.inj (hn.symm.trans hm)
  | settle outcome => exact leads_settle h hs ha
  | callback k => exact leads_callback ha.allowed.2

/-- A `func()` that returns although it has stopped the scheduler: a task is created. -/
theorem length_settle_returns (h : Covered s) (hinvoking : Invoking s) :
    (s.settle .returns).created.length = s.created.length + 1 := by
  obtain ⟨k, t, hcurrent, ht, hphase⟩ := hinvoking
  obtain ⟨u, hu, hrunning⟩ := h.running k hcurrent
  obtain rfl := Option.some.inj (ht.symm.trans hu)
  rcases hrunning with hcalling | ⟨-, catchErrors, hjob⟩
  · rw [hphase] at hcalling
    cases hcalling
  · unfold BasicScheduler.settle
    rw [hcurrent]
    dsimp only
    rw [ht]
    dsimp only
    rw [hphase, hjob]
    show (s.created.set k _ ++ [_]).length = _
    rw [List.length_append, List.length_set]
    rfl

/-- Those returns are the only steps of a stopped scheduler that do not leave it as it is. -/
theorem stopped_iff_spares (h : Covered s) (hs : s.stopped = true) {e : Event}
    (ha : Allowed s e) : Stopped s (step e s) ↔ Spares s e := by
  constructor
  · rintro hstopped - hinvoking rfl
    have hlength := length_settle_returns h hinvoking
    have hsame : (s.settle .returns).created.length = s.created.length := hstopped.length
    omega
  · exact fun hspares => (leads_step h hs ⟨ha, hspares⟩).1

/-- Every task has ended, and none is left in the set. -/
def Quiet (s : BasicScheduler) : Prop := (∀ t ∈ s.created, ¬ t.Unfinished) ∧ s.tasks = ∅

/-- While something is left to do, the loop can do it. -/
theorem quiet_or_next (h : Covered s) : Quiet s ∨ ∃ s', Next s s' := by
  cases hcurrent : s.current with
  | some k =>
    -- the code that runs can always end, with an error of its own if need be
    have hne : s.current ≠ none := by
      rw [hcurrent]
      nofun
    exact .inr ⟨_, .settle .raisesCancelled, ⟨⟨hne, fun _ => nofun⟩, fun _ _ => nofun⟩, rfl⟩
  | none =>
    by_cases hall : ∀ t ∈ s.created, ¬ t.Unfinished
    · cases hcallbacks : s.callbacks with
      | cons k callbacks =>
        have hk : k ∈ s.callbacks := by
          rw [hcallbacks]
          exact List.mem_cons_self
        exact .inr ⟨_, .callback k, ⟨⟨hcurrent, hk⟩, fun _ _ => nofun⟩, rfl⟩
      | nil =>
        refine .inl ⟨hall, Finset.eq_empty_of_forall_notMem fun k hk => ?_⟩
        rcases h.discarded k hk with hcallback | ⟨t, ht, hu⟩
        · rw [hcallbacks] at hcallback
          cases hcallback
        · exact hall t (List.mem_of_getElem? ht) hu
    · push Not at hall
      obtain ⟨t, ht, hu⟩ := hall
      obtain ⟨k, hk⟩ := List.mem_iff_getElem?.mp ht
      exact .inr ⟨_, .resume k 0, ⟨⟨hcurrent, t, hk, hu⟩, fun _ _ => nofun⟩, rfl⟩

/-- The set covers what could still run in every state reached. -/
theorem covered_of_reach (h : Reach step Steady {} s) : Covered s :=
  Reach.invariant covered_empty (fun _ _ hcovered ha => hcovered.step ha) h

/-- What a run of a stopped scheduler leaves as it is -/
theorem stopped_of_reach (h : Covered s) (hs : s.stopped = true)
    (hreach : Reach step Steady s s') : Covered s' ∧ Stopped s s' := by
  refine hreach.invariant (I := fun s' => Covered s' ∧ Stopped s s') ⟨h, .refl s⟩ ?_
  rintro s' e ⟨hcovered, hstopped⟩ ha
  have hleads := leads_step hcovered (hstopped.stopped.trans hs) ha
  exact ⟨hcovered.step ha, hstopped.trans hleads.1⟩

/-- **Once the scheduler is stopped**, nothing that was scheduled is called or begun, no task is
    added, and every run comes to an end with all tasks ended and none in the set; all that as long
    as no `func()` in background mode returns after it has called `stop`, which is the only step
    that adds a task. -/
theorem stop_ends_all (h : Reach step Steady {} s) (hs : s.stopped = true) :
    (∀ s', Reach step Steady s s' → s'.begun = s.begun ∧
      s'.created.length = s.created.length ∧ s'.tasks ⊆ s.tasks) ∧
    Inevitable Next Quiet s ∧
    ∀ e, Allowed s e → (Stopped s (step e s) ↔ Spares s e) := by
  have hcovered := covered_of_reach h
  refine ⟨fun s' hreach => ?_, ?_, fun e ha => stopped_iff_spares hcovered hs ha⟩
  · obtain ⟨-, hstopped⟩ := stopped_of_reach hcovered hs hreach
    exact ⟨hstopped.begun, hstopped.length, hstopped.subset⟩
  · refine Inevitable.of_rank (I := fun s => Covered s ∧ s.stopped = true) rank ?_ ?_ ?_
      ⟨hcovered, hs⟩
    · rintro s s' ⟨hcovered, hs⟩ ⟨e, ha, rfl⟩
      exact ⟨hcovered.step ha, (leads_step hcovered hs ha).1.stopped.trans hs⟩
    · rintro s s' ⟨hcovered, hs⟩ ⟨e, ha, rfl⟩
      exact (leads_step hcovered hs ha).2
    · rintro s ⟨hcovered, -⟩
      exact quiet_or_next hcovered

/-! ### Two schedulers that are stopped -/

/-- A loop in background mode that is in its call of `func()`, and a coroutine that waits -/
def busy : BasicScheduler :=
  [Event.runPeriodically true true, .runLater true, .resume 0 0, .resume 1 0, .resume 0 0].foldl
    (fun s e => step e s) {}

/-- The call of `func()` is a step that the loop can come to. -/
theorem reach_busy : Reach step Steady {} busy := by
  have hscheduled : Reach step Steady {}
      (step (.runLater true) (step (.runPeriodically true true) {})) :=
    .step _ (.step _ .start ⟨rfl, nofun⟩) ⟨rfl, nofun⟩
  refine .step (.resume 0 0) (.step (.resume 1 0) (.step (.resume 0 0) hscheduled ?_) ?_) ?_ <;>
    exact ⟨⟨rfl, _, rfl, by decide⟩, nofun⟩

/-- `func()` returns, its task suspends in it, and then the scheduler is stopped. -/
theorem stop_ends_busy : Inevitable Next Quiet
    ([Event.settle .returns, .resume 2 0, .settle .suspends, .stop].foldl
      (fun s e => step e s) busy) := by
  have hreturned : Reach step Steady {} (step (.settle .returns) busy) :=
    .step _ reach_busy ⟨⟨nofun, fun _ => nofun⟩, nofun⟩
  have hbegun : Reach step Steady {} (step (.resume 2 0) (step (.settle .returns) busy)) :=
    .step _ hreturned ⟨⟨rfl, _, rfl, by decide⟩, nofun⟩
  have hinvoking : ¬ Invoking (step (.resume 2 0) (step (.settle .returns) busy)) := by
    rintro ⟨k, t, hk, ht, hphase⟩
    cases hk
    cases ht
    cases hphase
  have hallowed : Allowed (step (.resume 2 0) (step (.settle .returns) busy)) (.settle .suspends) :=
    ⟨nofun, fun h => absurd h hinvoking⟩
  have hsuspended := Reach.step _ hbegun ⟨hallowed, nofun⟩
  have hstop : Allowed (step (.settle .suspends)
      (step (.resume 2 0) (step (.settle .returns) busy))) .stop := rfl
  exact (stop_ends_all (.step .stop hsuspended ⟨hstop, nofun⟩) rfl).2.1

/-- `func()` stops the scheduler, and returns: a task is created and added, and begins to run. -/
theorem not_stop_ends_busy :
    ¬ ∀ s, Reach step Allowed {} s → s.stopped = true →
      (∀ s', Reach step Allowed s s' → s'.begun = s.begun ∧
        s'.created.length = s.created.length ∧ s'.tasks ⊆ s.tasks) := by
  intro h
  have hstop : Allowed busy .stop := rfl
  have hbusy : Reach step Allowed {} (step .stop busy) :=
    .step .stop (reach_busy.mono fun _ _ => Steady.allowed) hstop
  have hreturned : Reach step Allowed (step .stop busy)
      (step (.settle .returns) (step .stop busy)) :=
    .step _ .start ⟨nofun, fun _ => nofun⟩
  have hbegun : Reach step Allowed (step .stop busy)
      (step (.resume 2 0) (step (.settle .returns) (step .stop busy))) :=
    .step _ hreturned ⟨rfl, _, rfl, by decide⟩
  exact absurd (h _ hbusy rfl _ hbegun).1 (by decide)

end Maubot.Scheduler
