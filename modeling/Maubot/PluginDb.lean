import Maubot.Lib.Runs
import Maubot.Lib.Tasks

namespace Maubot

/-!
# The connections of a plugin database

`ProxyPostgresDatabase` gives a plugin connections of the shared pool, at most `max_conns` at
a time: `acquire_direct` takes a permit of a bounded semaphore before it asks the pool, and
`stop` drains the permits, each with a timeout.

* `step` — one task goes on from where it waits: its wait is over, fails or is cancelled;
* `Accounted` — the permits that uses hold, the free ones and the drained ones add up;
* `permits_accounted` — so they do in every run, and a complete drain is final.
-/

/-- `asyncio.BoundedSemaphore` -/
structure BoundedSemaphore where
  bound : Nat
  value : Nat
  deriving DecidableEq, Repr

namespace BoundedSemaphore

def new (value : Nat) : BoundedSemaphore := ⟨value, value⟩

/-- `acquire()` takes a permit, or waits for one.  A permit that `release` hands to a waiter
    is the waiter's from then on. -/
def acquire (s : BoundedSemaphore) : Option BoundedSemaphore :=
  if 0 < s.value then some { s with value := s.value - 1 } else none

/-- `release()`, which raises `ValueError` where the bound is exceeded -/
def release (s : BoundedSemaphore) : Option BoundedSemaphore :=
  if s.bound ≤ s.value then none else some { s with value := s.value + 1 }

/-- A permit that is taken is one less. -/
theorem acquire_eq_some {s s' : BoundedSemaphore} (h : s.acquire = some s') :
    s'.bound = s.bound ∧ s.value = s'.value + 1 := by
  unfold acquire at h
  split at h
  · obtain rfl := Option.some.inj h
    exact ⟨rfl, by show s.value = s.value - 1 + 1; omega⟩
  · cases h

/-- One that is given back is one more. -/
theorem release_of_lt {s : BoundedSemaphore} (h : s.value < s.bound) :
    s.release = some { s with value := s.value + 1 } := by
  unfold release
  rw [if_neg (by omega)]

end BoundedSemaphore

namespace ProxyDatabase

/-- How an `await` ends, or the body of an `async with`. -/
inductive Outcome
  | ok
  | raised
  | cancelled
  deriving DecidableEq, Repr

/-- Where an `acquire_direct` is. -/
inductive Use
  /-- `async with self._conn_sema` -/
  | acquiring
  /-- `self._underlying_pool.acquire_direct()` is entered -/
  | connecting
  /-- `SET search_path` to the schema -/
  | setting
  /-- `yield conn` -/
  | yielded
  /-- `SET search_path` back, after the body ended -/
  | resetting (body : Outcome)
  /-- `conn.wrapped.close()` -/
  | closing (body : Outcome)
  /-- the connection goes back to the pool -/
  | returning (body : Outcome)
  | ended (body : Outcome)
  /-- the semaphore's `__aexit__` raised -/
  | overReleased
  deriving DecidableEq, Repr

/-- Where a `stop()` is: how many permits it has obtained. -/
inductive Stop
  | draining (got : Nat)
  | returned (got : Nat) (timedOut : Bool)
  | cancelled (got : Nat)
  deriving DecidableEq, Repr

inductive Task
  | use (u : Use)
  | stop (d : Stop)
  deriving DecidableEq, Repr

inductive Event
  /-- a new call of `acquire_direct` or of `stop` -/
  | acquireDirect
  | stop
  /-- task `k` goes on; `closed` is `conn.wrapped.is_closed()` where it is asked -/
  | resume (k : Nat) (outcome : Outcome) (closed : Bool)
  deriving DecidableEq, Repr

end ProxyDatabase

open ProxyDatabase

structure ProxyDatabase where
  maxConns : Nat
  connSema : BoundedSemaphore
  tasks    : List Task := []
  deriving DecidableEq, Repr

namespace ProxyDatabase

/-- `__init__` -/
def new (maxConns : Nat) : ProxyDatabase where
  maxConns := maxConns
  connSema := .new maxConns

/-- The semaphore's `__aexit__`. -/
def Use.leave (s : BoundedSemaphore) (body : Outcome) : BoundedSemaphore × Use :=
  match s.release with
  | some s' => (s', .ended body)
  | none    => (s, .overReleased)

/-- The `finally` block, up to its first `await`. -/
def Use.finish (body : Outcome) (closed : Bool) : Use :=
  if closed then .returning body else .resetting body

/-- `acquire_direct` goes on from where it waits. -/
def Use.resume (s : BoundedSemaphore) (u : Use) (o : Outcome) (closed : Bool) :
    BoundedSemaphore × Use :=
  match u, o with
  | .acquiring, .ok       =>
    match s.acquire with
    | some s' => (s', .connecting)
    | none    => (s, .acquiring)
  | .acquiring, o         => (s, .ended o)
  | .connecting, .ok      => (s, .setting)
  | .connecting, o        => Use.leave s o
  | .setting, .ok         => (s, .yielded)
  | .setting, o           => (s, .returning o)
  | .yielded, o           => (s, Use.finish o closed)
  | .resetting b, .ok     => (s, .returning b)
  -- `except Exception`, which a cancellation is not
  | .resetting b, .raised => (s, .closing b)
  | .resetting _, o       => (s, .returning o)
  | .closing b, .ok       => (s, .returning b)
  | .closing _, o         => (s, .returning o)
  | .returning b, .ok     => Use.leave s b
  | .returning _, o       => Use.leave s o
  | .ended b, _           => (s, .ended b)
  | .overReleased, _      => (s, .overReleased)

/-- The head of the loop of `stop`, with `got` turns behind it. -/
def Stop.turn (maxConns got : Nat) : Stop :=
  if got < maxConns then .draining got else .returned got false

/-- `stop` goes on: `wait_for` has a permit, times out without one, or is cancelled. -/
def Stop.resume (maxConns : Nat) (s : BoundedSemaphore) (d : Stop) (o : Outcome) :
    BoundedSemaphore × Stop :=
  match d, o with
  | .draining got, .ok        =>
    match s.acquire with
    | some s' => (s', Stop.turn maxConns (got + 1))
    | none    => (s, .draining got)
  | .draining got, .raised    => (s, .returned got true)
  | .draining got, .cancelled => (s, .cancelled got)
  | .returned got t, _        => (s, .returned got t)
  | .cancelled got, _         => (s, .cancelled got)

def Task.resume (maxConns : Nat) (s : BoundedSemaphore) (t : Task) (o : Outcome) (closed : Bool) :
    BoundedSemaphore × Task :=
  match t with
  | .use u  => let (s', u') := u.resume s o closed; (s', .use u')
  | .stop d => let (s', d') := d.resume maxConns s o; (s', .stop d')

def step (e : Event) (w : ProxyDatabase) : ProxyDatabase :=
  match e with
  | .acquireDirect     => { w with tasks := w.tasks ++ [.use .acquiring] }
  | .stop              => { w with tasks := w.tasks ++ [.stop (Stop.turn w.maxConns 0)] }
  | .resume k o closed =>
    match w.tasks[k]? with
    | none   => w
    | some t =>
      let (s', t') := t.resume w.maxConns w.connSema o closed
      { w with connSema := s', tasks := w.tasks.set k t' }

/-- Every run, from a state of the database on. -/
def ReachableFrom (w₀ w : ProxyDatabase) : Prop := Reach step (fun _ _ => True) w₀ w

/-! ### Permits -/

/-- Whether the use has a connection of the pool. -/
def Use.connections : Use → Nat
  | .setting | .yielded | .resetting _ | .closing _ | .returning _ => 1
  | .acquiring | .connecting | .ended _ | .overReleased => 0

/-- Whether it has its permit and no connection yet. -/
def Use.pending : Use → Nat
  | .connecting => 1
  | _ => 0

def Stop.got : Stop → Nat
  | .draining got | .returned got _ | .cancelled got => got

def Task.connections : Task → Nat
  | .use u  => u.connections
  | .stop _ => 0

def Task.pending : Task → Nat
  | .use u  => u.pending
  | .stop _ => 0

def Task.drained : Task → Nat
  | .use _  => 0
  | .stop d => d.got

/-- The permits a task holds. -/
def Task.permits (t : Task) : Nat := t.connections + t.pending + t.drained

def inUse (w : ProxyDatabase) : Nat := Tasks.total Task.connections w.tasks

def pending (w : ProxyDatabase) : Nat := Tasks.total Task.pending w.tasks

def drained (w : ProxyDatabase) : Nat := Tasks.total Task.drained w.tasks

/-- The permits of all tasks are those in use, pending and drained. -/
theorem total_permits (w : ProxyDatabase) :
    Tasks.total Task.permits w.tasks = w.inUse + w.pending + w.drained := by
  show Tasks.total (fun t => t.connections + t.pending + t.drained) w.tasks = _
  rw [Tasks.total_add, Tasks.total_add]
  rfl

/-! ### What one task does to the permits -/

/-- The task is not one that released a permit too many, and a `stop` that returned without
    a timeout has them all. -/
def Task.Sound (maxConns : Nat) : Task → Prop
  | .use u                       => u ≠ .overReleased
  | .stop (.returned got false)  => got = maxConns
  | .stop (.draining got)        => got < maxConns
  | .stop _                      => True

/-- What a task that goes on gives to the semaphore, it had before. -/
structure Conserves (s s' : BoundedSemaphore) (before after : Nat) : Prop where
  bound : s'.bound = s.bound
  value : s'.value + after = s.value + before

variable (s : BoundedSemaphore) {maxConns : Nat} (closed : Bool)

/-- A use that is left gives its permit back. -/
theorem Use.leave_conserves {s : BoundedSemaphore} (b : Outcome) (h : s.value < s.bound) :
    Conserves s (Use.leave s b).1 1 0 ∧ (Use.leave s b).2 = .ended b := by
  unfold Use.leave
  rw [BoundedSemaphore.release_of_lt h]
  exact ⟨⟨rfl, rfl⟩, rfl⟩

/-- One that is in the body has a connection. -/
theorem Use.finish_permits (b : Outcome) :
    (Use.finish b closed).connections = 1 ∧ (Use.finish b closed).pending = 0 ∧
      Use.finish b closed ≠ .overReleased := by
  cases closed <;> exact ⟨rfl, rfl, nofun⟩

/-- **A use conserves permits**, and never releases one too many, where the permit it holds
    is one of the semaphore's. -/
theorem Use.resume_conserves (u : Use) (o : Outcome) (hu : u ≠ .overReleased)
    (h : s.value + (u.connections + u.pending) ≤ s.bound) :
    Conserves s (u.resume s o closed).1 (u.connections + u.pending)
        ((u.resume s o closed).2.connections + (u.resume s o closed).2.pending) ∧
      (u.resume s o closed).2 ≠ .overReleased := by
  -- both ways out of the semaphore's `async with`
  have leaves : ∀ b, s.value + 1 ≤ s.bound →
      Conserves s (Use.leave s b).1 1
          ((Use.leave s b).2.connections + (Use.leave s b).2.pending) ∧
        (Use.leave s b).2 ≠ .overReleased := by
    intro b hs
    obtain ⟨hc, he⟩ := Use.leave_conserves (s := s) b (by omega)
    rw [he]
    exact ⟨hc, nofun⟩
  -- a step that leaves the semaphore alone
  have stays : ∀ u' : Use, u'.connections + u'.pending = u.connections + u.pending →
      u' ≠ .overReleased → Conserves s s (u.connections + u.pending)
          (u'.connections + u'.pending) ∧ u' ≠ .overReleased :=
    fun u' he hne => ⟨⟨rfl, by rw [he]⟩, hne⟩
  cases u with
  | acquiring =>
    cases o with
    | ok =>
      cases ha : s.acquire with
      | none =>
        have hr : Use.resume s .acquiring .ok closed = (s, .acquiring) := by
          simp only [Use.resume, ha]
        rw [hr]
        exact stays .acquiring rfl nofun
      | some s' =>
        have hr : Use.resume s .acquiring .ok closed = (s', .connecting) := by
          simp only [Use.resume, ha]
        obtain ⟨hb, hv⟩ := BoundedSemaphore.acquire_eq_some ha
        rw [hr]
        refine ⟨⟨hb, ?_⟩, nofun⟩
        show s'.value + 1 = s.value + 0
        omega
    | raised => exact stays (.ended .raised) rfl nofun
    | cancelled => exact stays (.ended .cancelled) rfl nofun
  | connecting =>
    cases o with
    | ok => exact stays .setting rfl nofun
    | raised => exact leaves .raised h
    | cancelled => exact leaves .cancelled h
  | setting =>
    cases o with
    | ok => exact stays .yielded rfl nofun
    | raised => exact stays (.returning .raised) rfl nofun
    | cancelled => exact stays (.returning .cancelled) rfl nofun
  | yielded =>
    obtain ⟨hc, hp, hne⟩ := Use.finish_permits closed o
    exact stays (Use.finish o closed) (by rw [hc, hp]; rfl) hne
  | resetting b =>
    cases o with
    | ok => exact stays (.returning b) rfl nofun
    | raised => exact stays (.closing b) rfl nofun
    | cancelled => exact stays (.returning .cancelled) rfl nofun
  | closing b =>
    cases o with
    | ok => exact stays (.returning b) rfl nofun
    | raised => exact stays (.returning .raised) rfl nofun
    | cancelled => exact stays (.returning .cancelled) rfl nofun
  | returning b =>
    cases o with
    | ok => exact leaves b h
    | raised => exact leaves .raised h
    | cancelled => exact leaves .cancelled h
  | ended b => exact stays (.ended b) rfl nofun
  | overReleased => exact absurd rfl hu

/-- A turn of `stop` takes no permit by itself, -/
theorem Stop.turn_got (got : Nat) : (Stop.turn maxConns got).got = got := by
  unfold Stop.turn
  split <;> rfl

/-- and it is sound for what it has. -/
theorem Stop.turn_sound {got : Nat} (h : got ≤ maxConns) :
    (Task.stop (Stop.turn maxConns got)).Sound maxConns := by
  unfold Stop.turn
  split
  · assumption
  · show got = maxConns
    omega

/-- **A drain conserves permits**: it obtains one or none. -/
theorem Stop.resume_conserves (d : Stop) (o : Outcome) (hd : (Task.stop d).Sound maxConns) :
    Conserves s (d.resume maxConns s o).1 d.got (d.resume maxConns s o).2.got ∧
      (Task.stop (d.resume maxConns s o).2).Sound maxConns := by
  cases d with
  | draining got =>
    cases o with
    | ok =>
      have hlt : got < maxConns := hd
      cases ha : s.acquire with
      | none =>
        have hr : Stop.resume maxConns s (.draining got) .ok = (s, .draining got) := by
          simp only [Stop.resume, ha]
        rw [hr]
        exact ⟨⟨rfl, rfl⟩, hd⟩
      | some s' =>
        have hr : Stop.resume maxConns s (.draining got) .ok =
            (s', Stop.turn maxConns (got + 1)) := by
          simp only [Stop.resume, ha]
        obtain ⟨hb, hv⟩ := BoundedSemaphore.acquire_eq_some ha
        rw [hr]
        refine ⟨⟨hb, ?_⟩, Stop.turn_sound hlt⟩
        show s'.value + (Stop.turn maxConns (got + 1)).got = s.value + got
        rw [Stop.turn_got]
        omega
    | raised => exact ⟨⟨rfl, rfl⟩, trivial⟩
    | cancelled => exact ⟨⟨rfl, rfl⟩, trivial⟩
  | returned got t => exact ⟨⟨rfl, rfl⟩, hd⟩
  | cancelled got => exact ⟨⟨rfl, rfl⟩, trivial⟩

/-- So a task that runs on conserves the permits. -/
theorem Task.resume_conserves (t : Task) (o : Outcome) (ht : t.Sound maxConns)
    (h : s.value + t.permits ≤ s.bound) :
    Conserves s (t.resume maxConns s o closed).1 t.permits
        (t.resume maxConns s o closed).2.permits ∧
      (t.resume maxConns s o closed).2.Sound maxConns := by
  cases t with
  | use u => exact Use.resume_conserves s closed u o ht h
  | stop d =>
    obtain ⟨⟨hb, hv⟩, hs⟩ := Stop.resume_conserves s d o ht
    refine ⟨⟨hb, ?_⟩, hs⟩
    show _ + (0 + 0 + (d.resume maxConns s o).2.got) = s.value + (0 + 0 + d.got)
    rw [Nat.zero_add, Nat.zero_add]
    exact hv

/-! ### Runs -/

/-- The free permits and those that tasks hold are all there are. -/
structure Accounted (n : Nat) (w : ProxyDatabase) : Prop where
  maxConns : w.maxConns = n
  bound    : w.connSema.bound = n
  total    : w.connSema.value + Tasks.total Task.permits w.tasks = n
  sound    : ∀ t ∈ w.tasks, t.Sound n

/-- A new database has all of them. -/
theorem accounted_new (n : Nat) : Accounted n (new n) where
  maxConns := rfl
  bound    := rfl
  total    := rfl
  sound    := nofun

/-- A new task, which holds no permit yet. -/
theorem Accounted.start {n : Nat} {w : ProxyDatabase} {t : Task} (h : Accounted n w)
    (hp : t.permits = 0) (ht : t.Sound n) : Accounted n { w with tasks := w.tasks ++ [t] } where
  maxConns := h.maxConns
  bound    := h.bound
  total    := by rw [Tasks.total_concat, hp]; exact h.total
  sound t' hmem := by
    rcases List.mem_append.mp hmem with hmem | hmem
    · exact h.sound t' hmem
    · rw [List.mem_singleton.mp hmem]
      exact ht

/-- A `stop` that begins has none. -/
theorem Stop.turn_zero_permits (n : Nat) : (Task.stop (Stop.turn n 0)).permits = 0 := by
  show 0 + 0 + (Stop.turn n 0).got = 0
  rw [Stop.turn_got]

/-- A task that waits runs on, -/
theorem step_resume {w : ProxyDatabase} {k : Nat} {t : Task} (h : w.tasks[k]? = some t)
    (o : Outcome) (closed : Bool) :
    step (.resume k o closed) w =
      { w with connSema := (t.resume w.maxConns w.connSema o closed).1,
               tasks := w.tasks.set k (t.resume w.maxConns w.connSema o closed).2 } := by
  simp only [step, h]

/-- and one that is not there does not. -/
theorem step_resume_none {w : ProxyDatabase} {k : Nat} (h : w.tasks[k]? = none)
    (o : Outcome) (closed : Bool) : step (.resume k o closed) w = w := by
  simp only [step, h]

/-- So every step accounts for all permits, -/
theorem accounted_step {n : Nat} {w : ProxyDatabase} (e : Event) (h : Accounted n w) :
    Accounted n (step e w) := by
  cases e with
  | acquireDirect => exact h.start rfl nofun
  | stop =>
    have hturn : (Task.stop (Stop.turn w.maxConns 0)).Sound n := by
      rw [h.maxConns]
      exact Stop.turn_sound (Nat.zero_le n)
    exact h.start (Stop.turn_zero_permits w.maxConns) hturn
  | resume k o closed =>
    cases ht : w.tasks[k]? with
    | none =>
      rw [step_resume_none ht]
      exact h
    | some t =>
      have hle : t.permits ≤ Tasks.total Task.permits w.tasks := Tasks.le_total Task.permits ht
      have htotal := h.total
      have hbound := h.bound
      obtain ⟨⟨hb, hv⟩, hs⟩ := Task.resume_conserves w.connSema closed t o
        (h.sound t (List.mem_of_getElem? ht)) (by omega)
      rw [step_resume ht, h.maxConns]
      -- the other tasks hold what they held
      have hset := Tasks.total_set Task.permits (t.resume n w.connSema o closed).2 ht
      exact
        { maxConns := rfl
          bound    := hb.trans h.bound
          total    := by dsimp only; omega
          sound    := Tasks.forall_mem_set h.sound hs }

/-- and every run does. -/
theorem accounted_of_reachable {n : Nat} {w₀ w : ProxyDatabase} (h₀ : Accounted n w₀)
    (h : ReachableFrom w₀ w) : Accounted n w :=
  h.invariant h₀ (fun _ e hw _ => accounted_step e hw)

/-! ### A complete drain -/

/-- A `stop` that has returned stays as it is. -/
theorem returned_step {w : ProxyDatabase} {k got : Nat} {t : Bool} (e : Event)
    (h : w.tasks[k]? = some (.stop (.returned got t))) :
    (step e w).tasks[k]? = some (.stop (.returned got t)) := by
  have hlt : k < w.tasks.length := (List.getElem?_eq_some_iff.mp h).1
  cases e with
  | acquireDirect => exact (List.getElem?_append_left hlt).trans h
  | stop => exact (List.getElem?_append_left hlt).trans h
  | resume j o closed =>
    cases ht : w.tasks[j]? with
    | none =>
      rw [step_resume_none ht]
      exact h
    | some u =>
      rw [step_resume ht]
      show (w.tasks.set j _)[k]? = _
      by_cases hjk : j = k
      · subst hjk
        obtain rfl : u = .stop (.returned got t) := Option.some.inj (ht.symm.trans h)
        rw [List.getElem?_set_self hlt]
        cases o <;> rfl
      · rw [List.getElem?_set_ne hjk]
        exact h

/-- A `stop` that has returned does so for good. -/
theorem returned_of_reachable {w₀ w : ProxyDatabase} {k got : Nat} {t : Bool}
    (h₀ : w₀.tasks[k]? = some (.stop (.returned got t))) (h : ReachableFrom w₀ w) :
    w.tasks[k]? = some (.stop (.returned got t)) :=
  h.invariant (I := fun w => w.tasks[k]? = some (.stop (.returned got t))) h₀
    (fun _ e hw _ => returned_step e hw)

/-- No permit is left where a `stop` has returned without a timeout. -/
theorem Accounted.drained_of_returned {n : Nat} {w : ProxyDatabase} {k got : Nat}
    (h : Accounted n w) (hk : w.tasks[k]? = some (.stop (.returned got false))) :
    got = n ∧ w.inUse = 0 ∧ w.pending = 0 ∧ w.connSema.value = 0 := by
  have hgot : got = n := h.sound _ (List.mem_of_getElem? hk)
  have hle : got ≤ w.drained := Tasks.le_total Task.drained hk
  have htotal := h.total
  rw [total_permits] at htotal
  exact ⟨hgot, by omega, by omega, by omega⟩

/-! ### Every run -/

/-- **The permits add up in every run.**  A use that still waits for the pool holds its permit
    without a connection, so it counts beside the connections in use; the semaphore never
    raises; and once a `stop` returned without a timeout, no use has a permit any more. -/
theorem permits_accounted (n : Nat) (w : ProxyDatabase) (h : ReachableFrom (new n) w) :
    w.inUse + w.pending + w.connSema.value + w.drained = n ∧
      w.inUse ≤ n ∧
      Task.use .overReleased ∉ w.tasks ∧
      ∀ k got : Nat, w.tasks[k]? = some (.stop (.returned got false)) →
        got = n ∧ ∀ w', ReachableFrom w w' → w'.inUse = 0 ∧ w'.pending = 0 := by
  have hw : Accounted n w := accounted_of_reachable (accounted_new n) h
  have htotal := hw.total
  rw [total_permits] at htotal
  refine ⟨by omega, by omega, fun hmem => hw.sound _ hmem rfl, ?_⟩
  intro k got hk
  refine ⟨(hw.drained_of_returned hk).1, fun w' h' => ?_⟩
  have hw' : Accounted n w' := accounted_of_reachable hw h'
  obtain ⟨-, hin, hpending, -⟩ := hw'.drained_of_returned (returned_of_reachable hk h')
  exact ⟨hin, hpending⟩

/-- One connection allowed: a use does not get it, then a `stop` drains the permit. -/
theorem permits_accounted_drained :
    let w := [Event.acquireDirect, .resume 0 .ok false, .resume 0 .raised false, .stop,
      .resume 1 .ok false].foldl (fun w e => step e w) (new 1)
    w.tasks[1]? = some (.stop (.returned 1 false)) ∧
      ∀ w', ReachableFrom w w' → w'.inUse = 0 ∧ w'.pending = 0 := by
  intro w
  have hk : w.tasks[1]? = some (.stop (.returned 1 false)) := by decide
  exact ⟨hk, ((permits_accounted 1 w (Reach.replay _)).2.2.2 1 1 hk).2⟩

/-- A use that has its permit and waits for a connection of the pool. -/
theorem permit_without_connection :
    ∃ n w, ReachableFrom (new n) w ∧ w.inUse + w.connSema.value + w.drained ≠ n := by
  refine ⟨1, _, Reach.replay [.acquireDirect, .resume 0 .ok false], ?_⟩
  decide

end ProxyDatabase

end Maubot
