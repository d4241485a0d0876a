import Maubot.Lib.Runs
import Maubot.Lib.Store
import Mathlib.Data.Finset.Insert
import Mathlib.Data.Finset.Erase

namespace Maubot

/-!
# Plugin instances — starts and stops that overlap

`start` and `stop` of `instance.py` on one instance, cut at their `await`s: between two of
these a call runs alone.

* `AsyncInstance` — the fields the calls decide by, and where each call is suspended;
* `step` — a call begins, or runs on to its next `await`; `step_cases` says what a step does;
* `Exclusive` — a plugin object is made only while no other call has one in hand; which is so if
  `start()` is called only while no call is pending (`Serial`, `exclusive_of_serial`);
* `safe_of_exclusive` — then there is at most one live plugin, and it is the instance's.

`loader.load()` and `loader.read_file()` are coroutines that never wait, so they are no places where
a call is suspended.
-/

/-- Where a call is suspended. -/
inductive Await
  /-- `Client.get` in `load` -/
  | getClient
  /-- `update_enabled(False)`, after which `start` returns -/
  | disable
  /-- `update_db_engine` in `start_database` -/
  | updateDbEngine
  /-- `inst_db.start()` -/
  | startDatabase
  | internalStart (plugin : Ref)
  | internalStop (plugin : Ref)
  /-- `inst_db.stop()` -/
  | stopDatabase
  deriving DecidableEq, Repr

/-- The call has a plugin in hand, or the database of one. -/
def Await.holds : Await → Bool
  | .internalStart _ => true
  | .internalStop _  => true
  | .stopDatabase    => true
  | _                => false

/-- The call runs a hook of a plugin. -/
def Await.inHooks : Await → Bool
  | .internalStart _ => true
  | .internalStop _  => true
  | _                => false

/-- A call in the hooks holds the instance. -/
theorem Await.inHooks_of_not_holds {a : Await} (h : a.holds = false) : a.inHooks = false := by
  cases a with
  | internalStart => cases h
  | internalStop => cases h
  | _ => rfl

/-- How a call ended. -/
inductive Ended
  | returned
  /-- with an `Exception` -/
  | raised
  /-- with another exception, such as `CancelledError` -/
  | cancelled
  deriving DecidableEq, Repr

/-- What a call meets until it is suspended again. -/
structure Meets where
  /-- the call that was awaited -/
  awaited        : Ended := .returned
  findLoader     : Bool := true
  getClient      : Bool := true
  /-- `loader.load()` -/
  loadClass      : Ended := .returned
  /-- `loader.meta.database` -/
  database       : Bool := false
  /-- `cls.get_db_upgrade_table()` -/
  upgradeTable   : Ended := .returned
  /-- `database_engine` is `None` -/
  noEngine       : Bool := false
  /-- the checks of `start_database`, and making `inst_db` -/
  createDatabase : Ended := .returned
  /-- the database is an sqlalchemy `Engine`, which is opened and closed without waiting -/
  legacy         : Bool := false
  /-- `cls.get_config_class()` -/
  configClass    : Ended := .returned
  /-- whether it returns a class -/
  hasConfig      : Bool := false
  /-- reading and parsing `base-config.yaml`; a missing file counts as a return -/
  readConfig     : Ended := .returned
  /-- `cls(...)` -/
  construct      : Ended := .returned
  deriving DecidableEq, Repr

/-- An instance with the calls on it. -/
structure AsyncInstance where
  started : Bool := false
  enabled : Bool := true
  /-- `client`, `loader` and `inst_db` are set -/
  client  : Bool := false
  loader  : Bool := false
  instDb  : Bool := false
  plugin  : Option Ref := none
  calls   : Nat → Option Await := fun _ => none
  /-- not in the source: the plugins that have begun `internal_start` and neither failed
      nor ended `internal_stop` -/
  live    : Finset Ref := ∅
  /-- the next plugin object -/
  next    : Ref := 0

namespace AsyncInstance

variable (s : AsyncInstance) (k : Nat) (m : Meets)

/-! ### From one await to the next -/

def suspend (a : Await) : AsyncInstance := { s with calls := Function.update s.calls k (some a) }

def done : AsyncInstance := { s with calls := Function.update s.calls k none }

/-- `await self.update_enabled(False)`, then `return` -/
def disable : AsyncInstance :=
  if s.enabled then suspend { s with enabled := false } k .disable else s.done k

/-- An exception inside `try … except Exception`. -/
def guarded (e : Ended) (next : AsyncInstance) : AsyncInstance :=
  match e with
  | .returned  => next
  | .raised    => s.disable k
  | .cancelled => s.done k

/-- An exception that ends the call. -/
def unguarded (e : Ended) (next : AsyncInstance) : AsyncInstance :=
  match e with
  | .returned => next
  | _         => s.done k

/-- `self.plugin = cls(...)`, up to the first `await` of `internal_start` -/
def construct : AsyncInstance :=
  s.unguarded k m.construct
    (suspend { s with plugin := some s.next, live := insert s.next s.live, next := s.next + 1 } k
      (.internalStart s.next))

def configure : AsyncInstance :=
  s.unguarded k m.configClass
    (if m.hasConfig then s.unguarded k m.readConfig (s.construct k m) else s.construct k m)

def createDatabase : AsyncInstance :=
  s.guarded k m.createDatabase
    (if m.legacy then configure { s with instDb := true } k m
      else suspend { s with instDb := true } k .startDatabase)

def openDatabase : AsyncInstance :=
  if m.database then
    s.guarded k m.upgradeTable
      (if m.noEngine then s.suspend k .updateDbEngine else s.createDatabase k m)
  else s.configure k m

/-- `cls = await self.loader.load()`, and what follows it -/
def loadClass : AsyncInstance := s.unguarded k m.loadClass (s.openDatabase k m)

def getClient : AsyncInstance :=
  if s.client then s.loadClass k m else s.suspend k .getClient

def load : AsyncInstance :=
  if s.loader then s.getClient k m
  else if m.findLoader then getClient { s with loader := true } k m
  else s.disable k

def start : AsyncInstance :=
  if s.started then s
  else if !s.enabled then s
  else s.load k m

/-- `stop` after the plugin's `internal_stop` -/
def stopDatabase : AsyncInstance :=
  if s.instDb && !m.legacy then suspend { s with plugin := none } k .stopDatabase
  else done { s with plugin := none } k

def stop : AsyncInstance :=
  if s.started then
    match s.plugin with
    | some p => suspend { s with started := false } k (.internalStop p)
    | none   => stopDatabase { s with started := false } k m
  else s

/-- The plugin has failed, or its `internal_stop` has ended. -/
def ended (p : Ref) : AsyncInstance := { s with live := s.live.erase p }

/-- A suspended call runs on. -/
def resume (a : Await) : AsyncInstance :=
  match a with
  | .getClient       => s.unguarded k m.awaited
      (if m.getClient then loadClass { s with client := true } k m
        else disable { s with client := false } k)
  | .disable         => s.done k
  | .updateDbEngine  => s.guarded k m.awaited (s.createDatabase k m)
  | .startDatabase   => s.guarded k m.awaited (s.configure k m)
  | .internalStart p =>
    match m.awaited with
    | .returned  => done { s with started := true } k
    | .raised    => (s.ended p).disable k
    | .cancelled => (s.ended p).done k
  | .internalStop p  =>
    match m.awaited with
    | .cancelled => (s.ended p).done k
    | _          => (s.ended p).stopDatabase k m
  | .stopDatabase    => s.done k

/-! ### Steps -/

inductive Event
  /-- a new call `start()` or `stop()`, under a free number -/
  | start (k : Nat) (m : Meets)
  | stop (k : Nat) (m : Meets)
  /-- a suspended call runs on -/
  | resume (k : Nat) (m : Meets)
  /-- `enabled` is set from elsewhere -/
  | setEnabled (enabled : Bool)
  deriving DecidableEq, Repr

/-- The call that runs in a step -/
def Event.call : Event → Option Nat
  | .start k _    => some k
  | .stop k _     => some k
  | .resume k _   => some k
  | .setEnabled _ => none

def step (e : Event) (s : AsyncInstance) : AsyncInstance :=
  match e with
  | .start k m         => if (s.calls k).isNone then s.start k m else s
  | .stop k m          => if (s.calls k).isNone then s.stop k m else s
  | .resume k m        =>
    match s.calls k with
    | some a => s.resume k m a
    | none   => s
  | .setEnabled b      => { s with enabled := b }

/-! ### The property -/

/-- At most one plugin is live, and while the instance is started it is `plugin`. -/
structure Safe (s : AsyncInstance) : Prop where
  one    : ∀ p ∈ s.live, ∀ q ∈ s.live, p = q
  plugin : s.started = true → ∃ p ∈ s.live, s.plugin = some p

/-- A `stop()` that found `started` set returns in this step. -/
def StopReturns (s : AsyncInstance) : Event → Prop
  | .stop k m   => s.started = true ∧ s.calls k = none ∧ (step (.stop k m) s).calls k = none
  | .resume k m => ((∃ p, s.calls k = some (.internalStop p)) ∨ s.calls k = some .stopDatabase) ∧
    (step (.resume k m) s).calls k = none
  | _           => False

/-- No call is pending. -/
def Quiescent (s : AsyncInstance) : Prop := ∀ k, s.calls k = none

/-! ### The condition -/

/-- No call but `k` has a plugin in hand. -/
def Alone (s : AsyncInstance) (k : Nat) : Prop :=
  ∀ j, j ≠ k → ∀ a, s.calls j = some a → a.holds = false

/-- A plugin object is made only while none is started and no other call has one in hand. -/
def Exclusive (s : AsyncInstance) (e : Event) : Prop :=
  (step e s).next ≠ s.next → s.started = false ∧ ∀ k, e.call = some k → s.Alone k

/-- The schedule of the calls: `start()` is called only while no call is pending.  `stop()` may be
    called at any time. -/
def Serial (s : AsyncInstance) : Event → Prop
  | .start _ _ => s.Quiescent
  | _          => True

/-! ### What a step does -/

variable {s k m} {s' : AsyncInstance}

/-- Only the call itself has run on, and it has no plugin in hand. -/
structure Calm (k : Nat) (s s' : AsyncInstance) : Prop where
  started : s'.started = s.started
  plugin  : s'.plugin = s.plugin
  live    : s'.live = s.live
  next    : s'.next = s.next
  others  : ∀ j, j ≠ k → s'.calls j = s.calls j
  call    : ∀ a, s'.calls k = some a → a.holds = false

/-- The call has made a plugin and begun its `internal_start`. -/
structure Begun (k : Nat) (s s' : AsyncInstance) : Prop where
  started : s'.started = s.started
  plugin  : s'.plugin = some s.next
  live    : s'.live = insert s.next s.live
  next    : s'.next = s.next + 1
  others  : ∀ j, j ≠ k → s'.calls j = s.calls j
  call    : s'.calls k = some (.internalStart s.next)

def Moved (k : Nat) (s s' : AsyncInstance) : Prop := Calm k s s' ∨ Begun k s s'

/-- A call that suspends without holding it is calm. -/
theorem calm_suspend {a : Await} (ha : a.holds = false) : Calm k s (s.suspend k a) where
  started := rfl
  plugin := rfl
  live := rfl
  next := rfl
  others _ hj := Function.update_of_ne hj _ _
  call b hb := by
    have hk : (s.suspend k a).calls k = some a := Function.update_self _ _ _
    rw [hk] at hb
    cases hb
    exact ha

/-- So is one that ends. -/
theorem calm_done : Calm k s (s.done k) where
  started := rfl
  plugin := rfl
  live := rfl
  next := rfl
  others _ hj := Function.update_of_ne hj _ _
  call b hb := by
    have hk : (s.done k).calls k = none := Function.update_self _ _ _
    rw [hk] at hb
    cases hb

/-- So is one that disables the instance. -/
theorem calm_disable : Calm k s (s.disable k) := by
  unfold disable
  split
  · have h : Calm k { s with enabled := false } _ := calm_suspend (a := .disable) rfl
    exact ⟨h.started, h.plugin, h.live, h.next, h.others, h.call⟩
  · exact calm_done

/-- A failure that is caught moves no more than the step. -/
theorem moved_guarded {e : Ended} (h : Moved k s s') : Moved k s (s.guarded k e s') := by
  cases e with
  | returned => exact h
  | raised => exact Or.inl calm_disable
  | cancelled => exact Or.inl calm_done

/-- Neither does one that is not caught. -/
theorem moved_unguarded {e : Ended} (h : Moved k s s') : Moved k s (s.unguarded k e s') := by
  cases e with
  | returned => exact h
  | raised => exact Or.inl calm_done
  | cancelled => exact Or.inl calm_done

/-- The plugin object is made on the way to `internal_start`. -/
theorem moved_construct : Moved k s (s.construct k m) :=
  moved_unguarded (Or.inr
    { started := rfl, plugin := rfl, live := rfl, next := rfl
      others := fun _ hj => Function.update_of_ne hj _ _
      call := Function.update_self _ _ _ })

/-- The fields that a call sets on its way do not matter. -/
theorem Moved.of_same {t : AsyncInstance} (h : Moved k t s') (hs : t.started = s.started)
    (hp : t.plugin = s.plugin) (hl : t.live = s.live) (hn : t.next = s.next)
    (hc : t.calls = s.calls) : Moved k s s' := by
  rcases h with h | h
  · exact Or.inl ⟨h.started.trans hs, h.plugin.trans hp, h.live.trans hl, h.next.trans hn,
      fun j hj => (h.others j hj).trans (congrFun hc j), h.call⟩
  · exact Or.inr ⟨h.started.trans hs, h.plugin.trans (by rw [hn]), h.live.trans (by rw [hn, hl]),
      h.next.trans (by rw [hn]), fun j hj => (h.others j hj).trans (congrFun hc j),
      h.call.trans (by rw [hn])⟩

/-- Before it the configs are read. -/
theorem moved_configure : Moved k s (s.configure k m) := by
  refine moved_unguarded ?_
  split
  · exact moved_unguarded moved_construct
  · exact moved_construct

/-- Before them the database is started. -/
theorem moved_createDatabase : Moved k s (s.createDatabase k m) := by
  refine moved_guarded ?_
  split
  · exact moved_configure.of_same rfl rfl rfl rfl rfl
  · exact Moved.of_same (Or.inl (calm_suspend rfl)) rfl rfl rfl rfl rfl

/-- Or not. -/
theorem moved_openDatabase : Moved k s (s.openDatabase k m) := by
  unfold openDatabase
  split
  · refine moved_guarded ?_
    split
    · exact Or.inl (calm_suspend rfl)
    · exact moved_createDatabase
  · exact moved_configure

/-- Before that the class is loaded. -/
theorem moved_loadClass : Moved k s (s.loadClass k m) := moved_unguarded moved_openDatabase

/-- And the client got. -/
theorem moved_getClient : Moved k s (s.getClient k m) := by
  unfold getClient
  split
  · exact moved_loadClass
  · exact Or.inl (calm_suspend rfl)

/-- So every way through `load` is a move. -/
theorem moved_load : Moved k s (s.load k m) := by
  unfold load
  split
  · exact moved_getClient
  split
  · exact moved_getClient.of_same rfl rfl rfl rfl rfl
  · exact Or.inl calm_disable

/-- What one step does. -/
inductive Effect (e : Event) (s s' : AsyncInstance) : Prop
  /-- the instance and its calls are as they were, `enabled` apart -/
  | same (started : s'.started = s.started) (plugin : s'.plugin = s.plugin)
      (live : s'.live = s.live) (next : s'.next = s.next) (calls : s'.calls = s.calls)
  /-- a call outside of the plugin's own hooks has run on -/
  | calm (k : Nat) (he : e.call = some k) (h : Calm k s s')
      (hk : ∀ a, s.calls k = some a → a.inHooks = false)
  | begun (k : Nat) (he : e.call = some k) (h : Begun k s s')
      (hk : ∀ a, s.calls k = some a → a.holds = false)
  /-- `internal_start` has returned, or failed -/
  | started (k : Nat) (p : Ref) (hk : s.calls k = some (.internalStart p))
      (h : s' = done { s with started := true } k)
  | failed (k : Nat) (p : Ref) (hk : s.calls k = some (.internalStart p))
      (h : Calm k (s.ended p) s')
  /-- `stop` has begun `internal_stop` -/
  | stopping (k : Nat) (p : Ref) (hs : s.started = true) (hp : s.plugin = some p)
      (hk : s.calls k = none)
      (h : s' = suspend { s with started := false } k (.internalStop p))
  | noPlugin (hs : s.started = true) (hp : s.plugin = none)
  /-- `internal_stop` has ended -/
  | stopped (k : Nat) (p : Ref) (hk : s.calls k = some (.internalStop p))
      (started : s'.started = s.started) (live : s'.live = s.live.erase p)
      (next : s'.next = s.next) (others : ∀ j, j ≠ k → s'.calls j = s.calls j)
      (call : ∀ a, s'.calls k = some a → a = .stopDatabase)

/-- A call without a plugin in hand has run on. -/
theorem effect_moved {e : Event} (he : e.call = some k) (h : Moved k s s')
    (hk : ∀ a, s.calls k = some a → a.holds = false) : Effect e s s' := by
  rcases h with h | h
  · exact .calm k he h fun a ha => Await.inHooks_of_not_holds (hk a ha)
  · exact .begun k he h hk

/-- What a call of `start` does up to its first suspension. -/
theorem effect_start (hk : s.calls k = none) : Effect (.start k m) s (s.start k m) := by
  unfold start
  split
  · exact .same rfl rfl rfl rfl rfl
  split
  · exact .same rfl rfl rfl rfl rfl
  · exact effect_moved rfl moved_load fun a ha => by rw [hk] at ha; cases ha

/-- What a call of `stop` does up to its own. -/
theorem effect_stop (hk : s.calls k = none) : Effect (.stop k m) s (s.stop k m) := by
  unfold stop
  split
  · rename_i hs
    split
    · rename_i p hp
      exact .stopping k p hs hp hk rfl
    · rename_i hp
      exact .noPlugin hs hp
  · exact .same rfl rfl rfl rfl rfl

/-- The end of `stop` sets only `plugin`, and at most waits for the database. -/
theorem stopDatabase_eq (s : AsyncInstance) (k : Nat) (m : Meets) :
    s.stopDatabase k m = suspend { s with plugin := none } k .stopDatabase ∨
      s.stopDatabase k m = done { s with plugin := none } k := by
  unfold stopDatabase
  split
  · exact Or.inl rfl
  · exact Or.inr rfl

/-- What a start does after the hooks. -/
theorem effect_internalStart {p : Ref} (hk : s.calls k = some (.internalStart p)) :
    Effect (.resume k m) s (s.resume k m (.internalStart p)) := by
  unfold resume
  cases m.awaited with
  | returned => exact .started k p hk rfl
  | raised => exact .failed k p hk calm_disable
  | cancelled => exact .failed k p hk calm_done

/-- What a stop does after them. -/
theorem effect_internalStop {p : Ref} (hk : s.calls k = some (.internalStop p)) :
    Effect (.resume k m) s (s.resume k m (.internalStop p)) := by
  have hdone (t : AsyncInstance) (h : t.calls k = none) (a : Await) (ha : t.calls k = some a) :
      a = .stopDatabase := by
    rw [h] at ha
    cases ha
  have hwait (t : AsyncInstance) (h : t.calls k = some .stopDatabase) (a : Await)
      (ha : t.calls k = some a) : a = .stopDatabase := by
    rw [h] at ha
    cases ha
    rfl
  have hended : Effect (.resume k m) s ((s.ended p).done k) :=
    .stopped k p hk rfl rfl rfl (fun j hj => Function.update_of_ne hj _ _)
      (hdone _ (Function.update_self _ _ _))
  have hclose : Effect (.resume k m) s ((s.ended p).stopDatabase k m) := by
    rcases stopDatabase_eq (s.ended p) k m with h | h <;> rw [h]
    · exact .stopped k p hk rfl rfl rfl (fun j hj => Function.update_of_ne hj _ _)
        (hwait _ (Function.update_self _ _ _))
    · exact .stopped k p hk rfl rfl rfl (fun j hj => Function.update_of_ne hj _ _)
        (hdone _ (Function.update_self _ _ _))
  unfold resume
  cases m.awaited with
  | returned => exact hclose
  | raised => exact hclose
  | cancelled => exact hended

/-- Hence what a call does when it runs on, wherever it is. -/
theorem effect_resume {a : Await} (hk : s.calls k = some a) :
    Effect (.resume k m) s (s.resume k m a) := by
  have hmoved {t : AsyncInstance} (ha : a.holds = false) (h : Moved k s t) :
      Effect (.resume k m) s t :=
    effect_moved rfl h fun b hb => by
      rw [hk] at hb
      cases hb
      exact ha
  cases a with
  | getClient =>
    refine hmoved rfl (moved_unguarded ?_)
    split
    · exact moved_loadClass.of_same rfl rfl rfl rfl rfl
    · exact Moved.of_same (Or.inl calm_disable) rfl rfl rfl rfl rfl
  | disable => exact hmoved rfl (Or.inl calm_done)
  | updateDbEngine => exact hmoved rfl (moved_guarded moved_createDatabase)
  | startDatabase => exact hmoved rfl (moved_guarded moved_configure)
  | internalStart p => exact effect_internalStart hk
  | internalStop p => exact effect_internalStop hk
  | stopDatabase =>
    refine .calm k rfl calm_done fun b hb => ?_
    rw [hk] at hb
    cases hb
    rfl

/-- **Step.**  Every step has one of the effects listed. -/
theorem step_cases (e : Event) (s : AsyncInstance) : Effect e s (step e s) := by
  cases e with
  | start k m =>
    unfold step
    dsimp only
    split
    · rename_i hk
      exact effect_start (Option.isNone_iff_eq_none.mp hk)
    · exact .same rfl rfl rfl rfl rfl
  | stop k m =>
    unfold step
    dsimp only
    split
    · rename_i hk
      exact effect_stop (Option.isNone_iff_eq_none.mp hk)
    · exact .same rfl rfl rfl rfl rfl
  | resume k m =>
    unfold step
    dsimp only
    split
    · rename_i a hk
      exact effect_resume hk
    · exact .same rfl rfl rfl rfl rfl
  | setEnabled b => exact .same rfl rfl rfl rfl rfl

/-! ### The invariant -/

/-- Where the instance is between two steps: each plugin object is in the hands of one call. -/
inductive Phase (s : AsyncInstance) : Prop
  | idle (hs : s.started = false) (hl : s.live = ∅)
      (hc : ∀ j a, s.calls j = some a → a.inHooks = false)
  | starting (k : Nat) (p : Ref) (hs : s.started = false) (hp : s.plugin = some p)
      (hl : s.live = {p}) (hk : s.calls k = some (.internalStart p)) (hc : s.Alone k)
  | running (p : Ref) (hs : s.started = true) (hp : s.plugin = some p) (hl : s.live = {p})
      (hc : ∀ j a, s.calls j = some a → a.holds = false)
  | stopping (k : Nat) (p : Ref) (hs : s.started = false) (hl : s.live = {p})
      (hk : s.calls k = some (.internalStop p)) (hc : s.Alone k)

/-- In every phase at most one plugin object lives. -/
theorem Phase.safe (h : Phase s) : Safe s := by
  have hone {p : Ref} (hl : s.live = {p}) : ∀ q ∈ s.live, ∀ r ∈ s.live, q = r := by
    intro q hq r hr
    rw [hl, Finset.mem_singleton] at hq hr
    rw [hq, hr]
  cases h with
  | idle hs hl _ =>
    refine ⟨fun q hq => ?_, fun h => ?_⟩
    · rw [hl] at hq
      cases hq
    · rw [hs] at h
      cases h
  | starting k p hs _ hl _ _ => exact ⟨hone hl, fun h => by rw [hs] at h; cases h⟩
  | running p hs hp hl _ =>
    exact ⟨hone hl, fun _ => ⟨p, by rw [hl]; exact Finset.mem_singleton_self p, hp⟩⟩
  | stopping k p hs hl _ _ => exact ⟨hone hl, fun h => by rw [hs] at h; cases h⟩

/-- After a calm step, a call with a plugin in hand was suspended there before. -/
theorem Calm.calls (h : Calm k s s') {j : Nat} {a : Await} (ha : s'.calls j = some a) :
    a.holds = false ∨ s.calls j = some a := by
  by_cases hj : j = k
  · subst hj
    exact Or.inl (h.call a ha)
  · rw [h.others j hj] at ha
    exact Or.inr ha

/-- Who is alone stays alone. -/
theorem Calm.alone (h : Calm k s s') {j : Nat} (hj : s.Alone j) : s'.Alone j := by
  intro i hi a ha
  rcases h.calls ha with h | h
  · exact h
  · exact hj i hi a h

/-- A call that runs a hook is not the one that has run on calmly. -/
theorem Calm.keeps (h : Calm k s s') (hk : ∀ a, s.calls k = some a → a.inHooks = false) {j : Nat}
    {a : Await} (ha : s.calls j = some a) (hooks : a.inHooks = true) : s'.calls j = some a := by
  by_cases hj : j = k
  · subst hj
    rw [hk a ha] at hooks
    cases hooks
  · rw [h.others j hj, ha]

/-- A calm step of a call outside the hooks keeps the phase. -/
theorem Phase.of_calm (h : Phase s) (hs' : Calm k s s')
    (hk : ∀ a, s.calls k = some a → a.inHooks = false) : Phase s' := by
  cases h with
  | idle hs hl hc =>
    refine .idle (hs'.started.trans hs) (hs'.live.trans hl) fun j a ha => ?_
    rcases hs'.calls ha with h | h
    · exact Await.inHooks_of_not_holds h
    · exact hc j a h
  | starting j p hs hp hl hj hc =>
    exact .starting j p (hs'.started.trans hs) (hs'.plugin.trans hp) (hs'.live.trans hl)
      (hs'.keeps hk hj rfl) (hs'.alone hc)
  | running p hs hp hl hc =>
    refine .running p (hs'.started.trans hs) (hs'.plugin.trans hp) (hs'.live.trans hl)
      fun j a ha => ?_
    rcases hs'.calls ha with h | h
    · exact h
    · exact hc j a h
  | stopping j p hs hl hj hc =>
    exact .stopping j p (hs'.started.trans hs) (hs'.live.trans hl) (hs'.keeps hk hj rfl)
      (hs'.alone hc)

/-- Only the one who is alone holds. -/
theorem Alone.eq {j : Nat} {a : Await} (h : s.Alone j) (hk : s.calls k = some a)
    (ha : a.holds = true) : k = j := by
  by_contra hne
  have hfree := h k hne a hk
  rw [ha] at hfree
  cases hfree

/-- A hook runs in the call that the phase names. -/
theorem Phase.of_internalStart (h : Phase s) {p : Ref} (hk : s.calls k = some (.internalStart p)) :
    s.started = false ∧ s.plugin = some p ∧ s.live = {p} ∧ s.Alone k := by
  cases h with
  | idle hs hl hc => cases hc k _ hk
  | starting j q hs hp hl hj hc =>
    obtain rfl := hc.eq hk rfl
    rw [hk] at hj
    cases hj
    exact ⟨hs, hp, hl, hc⟩
  | running q hs hp hl hc => cases hc k _ hk
  | stopping j q hs hl hj hc =>
    obtain rfl := hc.eq hk rfl
    rw [hk] at hj
    cases hj

/-- In the hooks of a stop the instance is not started and its object lives still. -/
theorem Phase.of_internalStop (h : Phase s) {p : Ref} (hk : s.calls k = some (.internalStop p)) :
    s.started = false ∧ s.live = {p} ∧ s.Alone k := by
  cases h with
  | idle hs hl hc => cases hc k _ hk
  | starting j q hs hp hl hj hc =>
    obtain rfl := hc.eq hk rfl
    rw [hk] at hj
    cases hj
  | running q hs hp hl hc => cases hc k _ hk
  | stopping j q hs hl hj hc =>
    obtain rfl := hc.eq hk rfl
    rw [hk] at hj
    cases hj
    exact ⟨hs, hl, hc⟩

/-- Where nothing has a plugin in hand, none is live. -/
theorem Phase.of_free (h : Phase s) (hs : s.started = false)
    (hc : ∀ j a, s.calls j = some a → a.holds = false) : s.live = ∅ := by
  cases h with
  | idle _ hl _ => exact hl
  | starting j q _ _ _ hj _ => cases hc j _ hj
  | running q hs' _ _ _ =>
    rw [hs] at hs'
    cases hs'
  | stopping j q _ _ hj _ => cases hc j _ hj

/-- A started instance has one living object, and no call holds. -/
theorem Phase.of_started (h : Phase s) (hs : s.started = true) :
    ∃ p, s.plugin = some p ∧ s.live = {p} ∧ ∀ j a, s.calls j = some a → a.holds = false := by
  cases h with
  | running p _ hp hl hc => exact ⟨p, hp, hl, hc⟩
  | idle hs' => rw [hs] at hs'; cases hs'
  | starting _ _ hs' => rw [hs] at hs'; cases hs'
  | stopping _ _ hs' => rw [hs] at hs'; cases hs'

/-- What the call itself does leaves it alone. -/
theorem Alone.of_others (h : s.Alone k) (hs' : ∀ j, j ≠ k → s'.calls j = s.calls j) :
    s'.Alone k := by
  intro j hj a ha
  rw [hs' j hj] at ha
  exact h j hj a ha

/-- The phase is seen from four fields. -/
theorem Phase.of_same (h : Phase s) (hs : s'.started = s.started) (hp : s'.plugin = s.plugin)
    (hl : s'.live = s.live) (hc : s'.calls = s.calls) : Phase s' := by
  have halone {k : Nat} (h : s.Alone k) : s'.Alone k := h.of_others fun j _ => congrFun hc j
  cases h with
  | idle hs₀ hl₀ hc₀ =>
    exact .idle (hs.trans hs₀) (hl.trans hl₀) fun j a ha => hc₀ j a (by rw [hc] at ha; exact ha)
  | starting k p hs₀ hp₀ hl₀ hk hc₀ =>
    exact .starting k p (hs.trans hs₀) (hp.trans hp₀) (hl.trans hl₀) (by rw [hc]; exact hk)
      (halone hc₀)
  | running p hs₀ hp₀ hl₀ hc₀ =>
    exact .running p (hs.trans hs₀) (hp.trans hp₀) (hl.trans hl₀) fun j a ha =>
      hc₀ j a (by rw [hc] at ha; exact ha)
  | stopping k p hs₀ hl₀ hk hc₀ =>
    exact .stopping k p (hs.trans hs₀) (hl.trans hl₀) (by rw [hc]; exact hk) (halone hc₀)

/-- The calls after one has ended. -/
theorem Alone.free (h : s.Alone k) (hs' : ∀ j, j ≠ k → s'.calls j = s.calls j)
    (hk : ∀ a, s'.calls k = some a → a.holds = false) (j : Nat) (a : Await)
    (ha : s'.calls j = some a) : a.holds = false := by
  by_cases hj : j = k
  · subst hj
    exact hk a ha
  · exact h.of_others hs' j hj a ha

/-- **Step.**  An exclusive step keeps the invariant. -/
theorem Phase.step (h : Phase s) {e : Event} (he : s.Exclusive e) : Phase (step e s) := by
  have hcase := step_cases e s
  unfold Exclusive at he
  generalize AsyncInstance.step e s = s' at hcase he
  have herase (p : Ref) : ({p} : Finset Ref).erase p = ∅ := by
    ext q
    simp
  cases hcase with
  | same hs hp hl _ hc => exact h.of_same hs hp hl hc
  | calm k _ hcalm hk => exact h.of_calm hcalm hk
  | begun k hev hb hk =>
    -- a start that makes a plugin is alone, and the instance is not started
    obtain ⟨hs, hall⟩ := he (by rw [hb.next]; exact Nat.succ_ne_self _)
    have halone : s.Alone k := hall k hev
    have hlive : s.live = ∅ := h.of_free hs (halone.free (fun _ _ => rfl) hk)
    refine .starting k s.next (hb.started.trans hs) hb.plugin ?_ hb.call
      (halone.of_others hb.others)
    rw [hb.live, hlive]
    rfl
  | started k p hk hs' =>
    obtain ⟨_, hp, hl, hc⟩ := h.of_internalStart hk
    subst hs'
    refine .running p rfl hp hl (hc.free (fun j hj => Function.update_of_ne hj _ _) fun a ha => ?_)
    rw [show (done { s with started := true } k).calls k = none from
      Function.update_self _ _ _] at ha
    cases ha
  | failed k p hk hcalm =>
    obtain ⟨hs, _, hl, hc⟩ := h.of_internalStart hk
    refine .idle (hcalm.started.trans hs) ?_ fun j a ha =>
      Await.inHooks_of_not_holds (hc.free hcalm.others hcalm.call j a ha)
    rw [hcalm.live, ended, hl, herase]
  | stopping k p hs hp hk hs' =>
    obtain ⟨q, hq, hl, hc⟩ := h.of_started hs
    rw [hp] at hq
    cases hq
    subst hs'
    refine .stopping k p rfl hl (Function.update_self _ _ _) fun j hj a ha => ?_
    rw [show (suspend { s with started := false } k (.internalStop p)).calls j = s.calls j from
      Function.update_of_ne hj _ _] at ha
    exact hc j a ha
  | noPlugin hs hp =>
    obtain ⟨p, hp', _⟩ := h.of_started hs
    rw [hp] at hp'
    cases hp'
  | stopped k p hk hs hl _ ho hc =>
    obtain ⟨hs₀, hl₀, halone⟩ := h.of_internalStop hk
    refine .idle (hs.trans hs₀) ?_ fun j a ha => ?_
    · rw [hl, hl₀, herase]
    · by_cases hj : j = k
      · subst hj
        rw [hc a ha]
        rfl
      · exact Await.inHooks_of_not_holds (halone.of_others ho j hj a ha)

/-- The invariant over runs: the phase, and plugin objects are new when they are made. -/
structure Orderly (s : AsyncInstance) : Prop where
  phase : Phase s
  old   : ∀ p ∈ s.live, p < s.next

/-- A step of a call that is exclusive keeps the phases. -/
theorem Orderly.step (h : Orderly s) {e : Event} (he : s.Exclusive e) : Orderly (step e s) where
  phase := h.phase.step he
  old := by
    -- the cases of one event, whatever call it belongs to
    have hcase := step_cases e s
    generalize AsyncInstance.step e s = s' at hcase
    intro p hp
    cases hcase with
    | same _ _ hl hn _ =>
      rw [hl] at hp
      rw [hn]
      exact h.old p hp
    | calm k _ hcalm _ =>
      rw [hcalm.live] at hp
      rw [hcalm.next]
      exact h.old p hp
    | begun k _ hb _ =>
      rw [hb.live] at hp
      rw [hb.next]
      rcases Finset.mem_insert.mp hp with rfl | hp
      · exact Nat.lt_succ_self _
      · exact Nat.lt_succ_of_lt (h.old p hp)
    | started k q _ hs' =>
      subst hs'
      exact h.old p hp
    | failed k q _ hcalm =>
      rw [hcalm.live] at hp
      rw [hcalm.next]
      exact h.old p (Finset.mem_of_mem_erase hp)
    | stopping k q _ _ _ hs' =>
      subst hs'
      exact h.old p hp
    | noPlugin hs hp' =>
      obtain ⟨q, hq, _⟩ := h.phase.of_started hs
      rw [hp'] at hq
      cases hq
    | stopped k q _ _ hl hn _ _ =>
      rw [hl] at hp
      rw [hn]
      exact h.old p (Finset.mem_of_mem_erase hp)

/-- Only the call that makes a plugin object counts `next` up. -/
theorem Phase.begun (h : Phase s) {e : Event} (he : (AsyncInstance.step e s).next ≠ s.next) :
    ∃ k, e.call = some k ∧ Begun k s (AsyncInstance.step e s) := by
  have hcase := step_cases e s
  generalize AsyncInstance.step e s = s' at hcase he
  cases hcase with
  | begun k hev hb _ => exact ⟨k, hev, hb⟩
  | same _ _ _ hn _ => exact absurd hn he
  | calm _ _ hcalm _ => exact absurd hcalm.next he
  | started _ _ _ hs' =>
    subst hs'
    exact absurd rfl he
  | failed _ _ _ hcalm => exact absurd hcalm.next he
  | stopping _ _ _ _ _ hs' =>
    subst hs'
    exact absurd rfl he
  | noPlugin hs hp =>
    obtain ⟨q, hq, _⟩ := h.of_started hs
    rw [hp] at hq
    cases hq
  | stopped _ _ _ _ _ hn _ _ => exact absurd hn he

/-- While the instance is started or a hook runs, a plugin is live. -/
theorem Phase.live_of_busy (h : Phase s)
    (hbusy : s.started = true ∨ ∃ j a, s.calls j = some a ∧ a.inHooks = true) :
    ∃ p, s.live = {p} := by
  cases h with
  | starting k p _ _ hl _ _ => exact ⟨p, hl⟩
  | running p _ _ hl _ => exact ⟨p, hl⟩
  | stopping k p _ hl _ _ => exact ⟨p, hl⟩
  | idle hs hl hc =>
    rcases hbusy with h | ⟨j, a, hj, ha⟩
    · rw [hs] at h
      cases h
    · rw [hc j a hj] at ha
      cases ha

/-- A plugin made while another one is live. -/
theorem Orderly.not_safe (h : Orderly s) {e : Event}
    (he : (AsyncInstance.step e s).next ≠ s.next)
    (hbusy : s.started = true ∨ ∃ j a, s.calls j = some a ∧ a.inHooks = true) :
    ¬ Safe (AsyncInstance.step e s) := by
  obtain ⟨p, hp⟩ := h.phase.live_of_busy hbusy
  obtain ⟨k, -, hb⟩ := h.phase.begun he
  intro hsafe
  have hlive : p ∈ s.live := by
    rw [hp]
    exact Finset.mem_singleton_self p
  have heq : p = s.next := hsafe.one p (by rw [hb.live]; exact Finset.mem_insert_of_mem hlive)
    s.next (by rw [hb.live]; exact Finset.mem_insert_self _ _)
  exact absurd (h.old p hlive) (by rw [heq]; exact Nat.lt_irrefl _)

/-- Closing the database ends no plugin object. -/
theorem live_stopDatabase : (s.stopDatabase k m).live = s.live := by
  rcases stopDatabase_eq s k m with h | h <;> rw [h] <;> rfl

/-- By then none lives. -/
theorem Phase.of_stopDatabase (h : Phase s) (hk : s.calls k = some .stopDatabase) :
    s.live = ∅ := by
  cases h with
  | idle _ hl _ => exact hl
  | starting j q _ _ _ hj hc =>
    obtain rfl := hc.eq hk rfl
    rw [hk] at hj
    cases hj
  | running q _ _ _ hc => cases hc k _ hk
  | stopping j q _ _ hj hc =>
    obtain rfl := hc.eq hk rfl
    rw [hk] at hj
    cases hj

/-- `stop()` of a started instance begins `internal_stop`. -/
theorem step_stop {p : Ref} (hk : s.calls k = none) (hs : s.started = true)
    (hp : s.plugin = some p) :
    step (.stop k m) s = suspend { s with started := false } k (.internalStop p) := by
  simp only [step, hk, Option.isNone_none, if_true, stop, hs, hp]

/-- When a `stop()` of a started instance returns, no plugin is live. -/
theorem Phase.live_of_stopReturns (h : Phase s) {e : Event} (he : s.StopReturns e) :
    (AsyncInstance.step e s).live = ∅ := by
  cases e with
  | start k m => exact he.elim
  | setEnabled b => exact he.elim
  | stop k m =>
    obtain ⟨hs, hk, hreturns⟩ := he
    obtain ⟨p, hp, _⟩ := h.of_started hs
    rw [step_stop hk hs hp, show (suspend { s with started := false } k (.internalStop p)).calls k =
      some (.internalStop p) from Function.update_self _ _ _] at hreturns
    cases hreturns
  | resume k m =>
    obtain ⟨⟨p, hk⟩ | hk, -⟩ := he
    · obtain ⟨_, hl, _⟩ := h.of_internalStop hk
      have hended : (s.ended p).live = ∅ := by
        rw [ended, hl]
        ext q
        simp
      simp only [AsyncInstance.step, hk, resume]
      cases m.awaited with
      | returned => exact live_stopDatabase.trans hended
      | raised => exact live_stopDatabase.trans hended
      | cancelled => exact hended
    · simp only [AsyncInstance.step, hk, resume]
      exact h.of_stopDatabase hk

/-! ### Runs -/

/-- No call has been made on the instance, which is not started. -/
structure Fresh (s : AsyncInstance) : Prop where
  started : s.started = false
  live    : s.live = ∅
  calls   : s.Quiescent

/-- A fresh instance is orderly. -/
theorem Fresh.orderly (h : Fresh s) : Orderly s where
  phase := .idle h.started h.live fun j a ha => by
    rw [h.calls j] at ha
    cases ha
  old p hp := by
    rw [h.live] at hp
    cases hp

/-! ### Calls one after the other -/

/-- At most one call is pending, and none while the instance is started. -/
structure Single (s : AsyncInstance) : Prop where
  one     : ∀ j k, (s.calls j).isSome = true → (s.calls k).isSome = true → j = k
  started : s.started = true → s.Quiescent

/-- It has no calls yet. -/
theorem Single.of_fresh (h : Fresh s) : Single s where
  one j k hj := by
    rw [h.calls j] at hj
    cases hj
  started hs := by
    rw [h.started] at hs
    cases hs

/-- A step does nothing, or no other call is pending, and only a `stop()` finds the instance
    started. -/
theorem Single.alone (h : Single s) {e : Event} (he : s.Serial e) (hk : e.call = some k) :
    step e s = s ∨ (∀ j, j ≠ k → s.calls j = none) ∧ (s.started = true → ∃ m, e = .stop k m) := by
  cases e with
  | start k m =>
    cases hk
    cases hs : s.started with
    | true  => exact .inl (by simp [step, start, hs])
    | false => exact .inr ⟨fun j _ => he j, by simp⟩
  | stop k m =>
    cases hk
    cases hs : s.started with
    | true  => exact .inr ⟨fun j _ => h.started hs j, fun _ => ⟨m, rfl⟩⟩
    | false => exact .inl (by simp [step, stop, hs])
  | resume k m =>
    cases hk
    cases hcall : s.calls k with
    | none   => exact .inl (by simp [step, hcall])
    | some a =>
      have hpending : (s.calls k).isSome = true := by rw [hcall]; rfl
      refine .inr ⟨fun j hj => ?_, fun hs => ?_⟩
      · by_contra hne
        exact hj (h.one j k (Option.isSome_iff_ne_none.mpr hne) hpending)
      · rw [h.started hs k] at hcall
        cases hcall
  | setEnabled b => cases hk

/-- `stop()` makes no plugin object. -/
theorem next_stop (k : Nat) (m : Meets) (s : AsyncInstance) :
    (step (.stop k m) s).next = s.next := by
  unfold step
  dsimp only
  split
  · unfold stop
    split
    · split
      · rfl
      · rcases stopDatabase_eq { s with started := false } k m with h | h <;> rw [h] <;> rfl
    · rfl
  · rfl

/-- **Step.**  Where no call is pending when `start()` is called, a plugin object is made only while
    no other call is pending at all. -/
theorem Single.exclusive (h : Single s) {e : Event} (he : s.Serial e) : s.Exclusive e := by
  intro hnext
  cases hk : e.call with
  | none   =>
    cases e with
    | setEnabled b => exact absurd rfl hnext
    | _            => cases hk
  | some k =>
    rcases h.alone he hk with hsame | ⟨hothers, hstop⟩
    · exact absurd (by rw [hsame]) hnext
    · refine ⟨?_, fun j hj i hi a ha => ?_⟩
      · cases hs : s.started with
        | false => rfl
        | true  =>
          obtain ⟨m, rfl⟩ := hstop hs
          exact absurd (next_stop k m s) hnext
      · cases hj
        rw [hothers i hi] at ha
        cases ha

/-- Where only the call `k` can be pending, and not in a started instance -/
theorem Single.of_others (ho : ∀ j, j ≠ k → s.calls j = none)
    (hs : s.started = true → s.calls k = none) : Single s where
  one i j hi hj := by
    have hk {j : Nat} (hj : (s.calls j).isSome = true) : j = k := by
      by_contra hne
      rw [ho j hne] at hj
      cases hj
    rw [hk hi, hk hj]
  started h j := by
    by_cases hj : j = k
    · rw [hj]
      exact hs h
    · exact ho j hj

/-- **Step.**  One call at a time stays one call at a time. -/
theorem Single.step (h : Single s) (hphase : Phase s) {e : Event} (he : s.Serial e) :
    Single (step e s) := by
  cases hk : e.call with
  | none   =>
    cases e with
    | setEnabled b => exact ⟨h.one, h.started⟩
    | _            => cases hk
  | some k =>
    rcases h.alone he hk with hsame | ⟨hothers, hstop⟩
    · rw [hsame]
      exact h
    cases hs : s.started with
    | true  =>
      obtain ⟨m, rfl⟩ := hstop hs
      obtain ⟨p, hp, _⟩ := hphase.of_started hs
      rw [step_stop (h.started hs k) hs hp]
      exact .of_others (fun j hj => (Function.update_of_ne hj _ _).trans (hothers j hj))
        fun hs' => by cases hs'
    | false =>
      have hcase := step_cases e s
      generalize AsyncInstance.step e s = s' at hcase
      -- whichever call runs, it is `k`
      have hpending {j : Nat} {a : Await} (hj : s.calls j = some a) : j = k := by
        by_contra hne
        rw [hothers j hne] at hj
        cases hj
      have hsame (ho : ∀ j, j ≠ k → s'.calls j = s.calls j) (hs' : s'.started = s.started) :
          Single s' :=
        .of_others (fun j hj => (ho j hj).trans (hothers j hj)) fun h => by
          rw [hs', hs] at h
          cases h
      cases hcase with
      | same hs' _ _ _ hc => exact hsame (fun j _ => congrFun hc j) hs'
      | calm j hj hcalm _ =>
        obtain rfl : k = j := Option.some.inj (hk.symm.trans hj)
        exact hsame hcalm.others hcalm.started
      | begun j hj hb _ =>
        obtain rfl : k = j := Option.some.inj (hk.symm.trans hj)
        exact hsame hb.others hb.started
      | started j p hj hs' =>
        obtain rfl := hpending hj
        subst hs'
        exact .of_others (fun i hi => (Function.update_of_ne hi _ _).trans (hothers i hi))
          fun _ => Function.update_self _ _ _
      | failed j p hj hcalm =>
        obtain rfl := hpending hj
        exact hsame hcalm.others hcalm.started
      | stopping j p hs' => rw [hs] at hs'; cases hs'
      | noPlugin hs' => rw [hs] at hs'; cases hs'
      | stopped j p hj hs' _ _ ho _ =>
        obtain rfl := hpending hj
        exact hsame ho hs'

/-- **One call at a time.**  If `start()` is called only while no call is pending, every step is
    exclusive. -/
theorem exclusive_of_serial {s₀ : AsyncInstance} (h₀ : Fresh s₀) (h : Reach step Serial s₀ s) :
    Reach step Exclusive s₀ s := by
  have hrun : Reach step Exclusive s₀ s ∧ Phase s ∧ Single s := by
    induction h with
    | start => exact ⟨.start, h₀.orderly.phase, .of_fresh h₀⟩
    | step e _ he ih =>
      obtain ⟨hrun, hphase, hsingle⟩ := ih
      have hexclusive := hsingle.exclusive he
      exact ⟨hrun.step e hexclusive, hphase.step hexclusive, hsingle.step hphase he⟩
  exact hrun.1

/-- **Overlapping calls.**  In every run whose steps are exclusive, at most one plugin is
    live, it is `plugin` while the instance is started, and none is left when a `stop()`
    returns to an instance without calls.  A step that makes a plugin while the instance is
    started or a hook runs leads to two live plugins.  And the steps are exclusive in every run in
    which `start()` is called only while no call is pending. -/
theorem safe_of_exclusive {s₀ : AsyncInstance} (h₀ : Fresh s₀) :
    (∀ s, Reach step Exclusive s₀ s → Safe s ∧
      (∀ e, s.Exclusive e → s.StopReturns e → (step e s).Quiescent → (step e s).live = ∅) ∧
      ∀ e, (step e s).next ≠ s.next →
        (s.started = true ∨ ∃ j a, s.calls j = some a ∧ a.inHooks = true) →
          ¬ Safe (step e s)) ∧
    ∀ s, Reach step Serial s₀ s → Reach step Exclusive s₀ s := by
  refine ⟨fun s h => ?_, fun s h => exclusive_of_serial h₀ h⟩
  have hs : Orderly s := h.invariant h₀.orderly fun _ _ hs he => hs.step he
  exact ⟨hs.phase.safe, fun e _ he _ => hs.phase.live_of_stopReturns he,
    fun e he hbusy => hs.not_safe he hbusy⟩

end AsyncInstance

/-! ### Two starts at once -/

namespace ConcurrencyTest

open AsyncInstance

/-- An instance with its client and its loader. -/
def loaded : AsyncInstance := { client := true, loader := true }

/-- The instance of the witness is fresh. -/
theorem loaded_fresh : Fresh loaded := ⟨rfl, rfl, fun _ => rfl⟩

/-- `start()`, run until it waits for `internal_start`, and until it returns. -/
def starting : AsyncInstance := step (.start 0 {}) loaded

def running : AsyncInstance := step (.resume 0 {}) starting

/-- The instance is started by one call. -/
theorem running_serial : Reach step Serial loaded running := by
  have hstart : Reach step Serial loaded starting :=
    Reach.step (Event.start 0 {}) Reach.start loaded_fresh.calls
  exact Reach.step (Event.resume 0 {}) hstart trivial

end ConcurrencyTest

namespace AsyncInstance

open ConcurrencyTest in
/-- Start the instance, then stop it. -/
theorem running_safe :
    Safe running ∧ (step (.resume 0 {}) (step (.stop 0 {}) running)).live = ∅ := by
  obtain ⟨hsafe, hserial⟩ := safe_of_exclusive loaded_fresh
  have hstop := hserial _ (Reach.step (Event.stop 0 {}) running_serial trivial)
  refine ⟨(hsafe _ (hserial _ running_serial)).1,
    (hsafe _ hstop).2.1 (.resume 0 {}) (fun h => (h rfl).elim) ⟨Or.inl ⟨0, rfl⟩, rfl⟩ fun k => ?_⟩
  cases k with
  | zero => rfl
  | succ k => rfl

open ConcurrencyTest in
/-- `start()` is called again while the plugin of a first call runs its `internal_start`: two
    plugins are live. -/
theorem overlapping_not_safe :
    ¬ ∀ s₀ : AsyncInstance, Fresh s₀ → ∀ s, Reach step (fun _ _ => True) s₀ s →
      Safe s ∧ ∀ e, s.StopReturns e → (step e s).Quiescent → (step e s).live = ∅ := by
  intro h
  have hrun : Reach step (fun _ _ => True) loaded
      (step (.start 1 {}) (step (.start 0 {}) loaded)) :=
    (Reach.start.step _ trivial).step _ trivial
  have hone := (h loaded loaded_fresh _ hrun).1.one
  exact absurd (hone 0 (by decide) 1 (by decide)) (by decide)

end AsyncInstance

end Maubot
