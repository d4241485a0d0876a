import Maubot.Loader.Reload

namespace Maubot

/-!
# Replaced plugins — `upload_replacement_plugin`

An update stops the instances of the plugin, reloads its loader from the new archive and starts
them again, all of one kind at a time in one `gather`; what fails is rolled back.

* `Doing.step` — `start` and `stop` of an instance, from one place where they wait to the next;
* `Replacing`, `step` — the handler, the coroutines that it gathered, and the instances;
* `Committed`, `RolledBack` — how an update is meant to end, and `Bears`, what it can cope with;
* `exec_uploadReplacementPlugin` — without instances, it is the handler of `PluginUpload`.

A coroutine can go on while others wait, also one of a `gather` that has already raised.
-/

open Prog Management ZipLoader Zipimport

namespace Replacement

variable {B E C Y M ι : Type}

/-! ### Coroutines -/

/-- A `PluginInstance`, as far as an update changes it. -/
structure Inst where
  enabled : Bool
  started : Bool
  /-- the class of `self.plugin` -/
  plugin  : Option Ref
  deriving DecidableEq, Repr

/-- Where a coroutine is.  An instance that a loader references has its client and its loader. -/
inductive Doing
  /-- `start`, not begun -/
  | start
  /-- between the loading of the class and `self.plugin = cls(...)` -/
  | starting (cls : Ref)
  /-- `self.plugin.internal_start()` -/
  | running
  /-- `update_enabled(False)`, with the flag set -/
  | disabling
  /-- `stop`, not begun -/
  | stop
  /-- `self.plugin.internal_stop()` -/
  | stopping
  /-- `self.stop_database()` -/
  | closing
  | done (raised : Option PyExc)
  deriving DecidableEq, Repr

/-- How what a coroutine waits for ends; `guarded` if it was in the `try` around the database. -/
structure Outcome where
  raised  : Option PyExc := none
  guarded : Bool := false

/-- What `except Exception` lets through -/
def Outcome.unlogged (o : Outcome) : Option PyExc :=
  match o.raised with
  | none   => none
  | some e => if e.isException then none else some e

namespace Inst

/-- A failure was logged. -/
def disable (x : Inst) : Inst × Doing :=
  if x.enabled then ({ x with enabled := false }, .disabling) else (x, .done none)

end Inst

namespace Doing

/-- Whether `start` comes past its guards, to the loading of the class. -/
def loads (x : Inst) : Doing → Bool
  | .start => !x.started && x.enabled
  | _      => false

/-- The next part of `start` or `stop`; `cls` is what loading the class returned. -/
def step (cls : Except PyExc Ref) (o : Outcome) (x : Inst) : Doing → Inst × Doing
  | .start        =>
    if loads x .start then
      match cls with
      | .ok cls  => (x, .starting cls)
      | .error e => (x, .done (some e))
    else (x, .done none)
  | .starting cls =>
    match o.raised with
    | none   => ({ x with plugin := some cls }, .running)
    | some e => if o.guarded && e.isException then x.disable else (x, .done (some e))
  | .running      =>
    match o.raised with
    | none   => ({ x with started := true }, .done none)
    -- `except Exception`: logged, and nothing is raised
    | some e => if e.isException then x.disable else (x, .done (some e))
  | .disabling    => (x, .done o.raised)
  | .stop         =>
    if x.started then ({ x with started := false }, .stopping) else (x, .done none)
  | .stopping     =>
    match o.unlogged with
    | none   => ({ x with plugin := none }, .closing)
    | some e => (x, .done (some e))
  | .closing      => (x, .done o.unlogged)
  | .done raised  => (x, .done raised)

def raised : Doing → Option PyExc
  | .done raised => raised
  | _            => none

def isDone : Doing → Bool
  | .done _ => true
  | _       => false

end Doing

/-- A coroutine, and its instance -/
structure Task (ι : Type) where
  inst  : ι
  doing : Doing

/-! ### The handler -/

/-- The `await` at which the handler is; `e` is what is rolled back. -/
inductive Waits
  /-- `stop_instances()` before the reload -/
  | stopping
  /-- `start_instances()` after it -/
  | starting
  /-- `start_instances()` after the new archive could not be loaded -/
  | restarting (e : PyExc)
  /-- `stop_instances()` after an instance did not start -/
  | stoppingAgain (e : PyExc)
  /-- … and `start_instances()` -/
  | restartingAgain (e : PyExc)
  | ended (response : Except PyExc Response)

/-- What the handler is called with, and the `references` of the loader. -/
structure Call (B ι : Type) where
  uploads    : Uploads
  plugin     : Ref
  content    : B
  newVersion : Version
  now        : Nat
  references : List ι

structure Replacing (B E M ι : Type) where
  loaders   : Loaders B E M
  instances : ι → Inst
  tasks     : List (Task ι) := []
  /-- the first task of the `gather` that the handler waits for -/
  gathered  : Nat := 0
  /-- the first exception in that `gather` -/
  raised    : Option PyExc := none
  oldPath   : Path
  path      : Path
  waits     : Waits := .stopping

namespace Replacing

variable (P : Platform B E C Y M) (c : Call B ι) (s : Replacing B E M ι)

/-- `asyncio.gather` of one coroutine for each of the instances -/
def gather (doing : Doing) (instances : List ι) : Replacing B E M ι :=
  { s with tasks    := s.tasks ++ instances.map fun i => ⟨i, doing⟩,
           gathered := s.tasks.length,
           raised   := none }

def stopInstances : Replacing B E M ι :=
  s.gather .stop (c.references.filter fun i => (s.instances i).started)

def startInstances : Replacing B E M ι :=
  s.gather .start (c.references.filter fun i => (s.instances i).enabled)

/-- `await plugin.reload(new_path=path)`, which nothing interrupts -/
def reload (path : Path) : Except PyExc Ref × Replacing B E M ι :=
  let r := (ZipLoader.reload P c.plugin (some path)).exec s.loaders
  (r.1, { s with loaders := r.2 })

/-- `ZippedPluginLoader.trash(path)`, for a file that can be removed -/
def trash (path : Path) : Replacing B E M ι :=
  { s with loaders := ((ZipLoader.trash P path none).exec s.loaders).2 }

def answer (response : Except PyExc Response) : Replacing B E M ι :=
  { s with waits := .ended response }

/-- The end of a rollback: what `except` does not catch is raised once the new file is gone. -/
def rolledBack (caught : PyExc → Bool) (response : Response) (raised : Option PyExc) :
    Replacing B E M ι :=
  (s.trash P s.path).answer <|
    match raised with
    | none   => .ok response
    | some e => if caught e then .ok response else .error e

/-- From where the handler waits to where it waits next -/
def advance : Replacing B E M ι :=
  match s.waits with
  | .stopping          =>
    match s.raised with
    | some e => s.answer (.error e)
    | none   =>
      match s.reload P c s.path with
      | (.ok _, s)    => { s.startInstances c with waits := .starting }
      | (.error e, s) =>
        if e.isMaubotZipImportError then
          match s.reload P c s.oldPath with
          | (.ok _, s)     => { s.startInstances c with waits := .restarting e }
          | (.error e', s) =>
            s.rolledBack P PyExc.isMaubotZipImportError (.pluginImportError e.msg) (some e')
        else s.answer (.error e)
  | .restarting e      =>
    s.rolledBack P PyExc.isMaubotZipImportError (.pluginImportError e.msg) s.raised
  | .starting          =>
    match s.raised with
    | none   => (s.trash P s.oldPath).answer (.ok (.updated false))
    | some e =>
      -- `except Exception`: the other starts of the `gather` go on meanwhile
      if e.isException then { s.stopInstances c with waits := .stoppingAgain e }
      else s.answer (.error e)
  | .stoppingAgain e   =>
    match s.raised with
    | some e' => s.rolledBack P PyExc.isException (.pluginReloadError e.msg) (some e')
    | none    =>
      match s.reload P c s.oldPath with
      | (.ok _, s)     => { s.startInstances c with waits := .restartingAgain e }
      | (.error e', s) => s.rolledBack P PyExc.isException (.pluginReloadError e.msg) (some e')
  | .restartingAgain e =>
    s.rolledBack P PyExc.isException (.pluginReloadError e.msg) s.raised
  | .ended _           => s

variable [DecidableEq ι]

/-- A coroutine and its instance are moved on. -/
def put (k : Nat) (i : ι) (r : Inst × Doing) : Replacing B E M ι :=
  { s with instances := Function.update s.instances i r.1,
           tasks     := s.tasks.set k ⟨i, r.2⟩,
           raised    := if s.gathered ≤ k then s.raised <|> r.2.raised else s.raised }

/-- What task `k` waits for has ended. -/
def run (k : Nat) (o : Outcome) : Replacing B E M ι :=
  match s.tasks[k]? with
  | none   => s
  | some t =>
    let x := s.instances t.inst
    if t.doing.loads x then
      let r := (ZipLoader.load P c.plugin false).exec s.loaders
      { s with loaders := r.2 }.put k t.inst (t.doing.step r.1 o x)
    else s.put k t.inst (t.doing.step (.error { cls := .attributeError }) o x)

end Replacing

/-- The handler up to its first `await`, for a loader that has not been deleted -/
def begin (P : Platform B E C Y M) (c : Call B ι) (instances : ι → Inst) (l : Loaders B E M) :
    Replacing B E M ι :=
  let oldPath := (l.loaders.get c.plugin).path.getD []
  let version := ((l.loaders.get c.plugin).pluginMeta.map PluginMeta.version).getD ⟨""⟩
  let path := replacementPath c.uploads version c.newVersion c.now oldPath
  let l := ((writeFile P path c.content none).exec l).2
  Replacing.stopInstances c { loaders := l, instances, oldPath, path }

inductive Event
  | run (k : Nat) (o : Outcome)
  | advance

def step (P : Platform B E C Y M) (c : Call B ι) [DecidableEq ι] (e : Event)
    (s : Replacing B E M ι) : Replacing B E M ι :=
  match e with
  | .run k o => s.run P c k o
  | .advance => s.advance P c

/-! ### How an update ends -/

/-- The `gather` that the handler waits for has returned or raised. -/
def Settled (s : Replacing B E M ι) : Prop :=
  s.raised ≠ none ∨ ∀ t ∈ s.tasks.drop s.gathered, t.doing.isDone = true

def Waits.isEnded : Waits → Bool
  | .ended _ => true
  | _        => false

/-- A handler that has ended has an answer. -/
theorem Waits.isEnded_iff {w : Waits} : w.isEnded = true ↔ ∃ r, w = .ended r := by
  cases w <;> simp [Waits.isEnded]

/-- Whether the instances are started for the old archive again. -/
def Waits.restarts : Waits → Bool
  | .restarting _      => true
  | .restartingAgain _ => true
  | _                  => false

/-- What can happen until the handler ends.  Instances that are started for the old archive
    again do start. -/
def Allowed (s : Replacing B E M ι) : Event → Prop
  | .run k o => s.waits.isEnded = false ∧ (∃ t, s.tasks[k]? = some t ∧ t.doing.isDone = false) ∧
      (s.waits.restarts = true → s.gathered ≤ k → o.raised = none)
  | .advance => s.waits.isEnded = false ∧ Settled s

section Ends

variable (P : Platform B E C Y M) (c : Call B ι) (b : ι → Inst) (l : Loaders B E M)

/-- What loading the new archive gives, after the instances were stopped -/
def update : Except PyExc Ref × Loaders B E M :=
  (ZipLoader.reload P c.plugin (some (begin P c b l).path)).exec (begin P c b l).loaders

/-- What reloading the old archive gives after that -/
def restore : Except PyExc Ref × Loaders B E M :=
  (ZipLoader.reload P c.plugin (some (begin P c b l).oldPath)).exec (update P c b l).2

structure Committed (s : Replacing B E M ι) : Prop where
  path       : (s.loaders.loaders.get c.plugin).path = some (begin P c b l).path
  pluginMeta : ∃ m, readMeta P (.ok c.content) = .ok (c.content, m) ∧
    (s.loaders.loaders.get c.plugin).pluginMeta = some m
  cls        : ∃ cls, (update P c b l).1 = .ok cls ∧
    (s.loaders.loaders.get c.plugin).loaded = some cls ∧
    ∀ i ∈ c.references, (b i).started = true →
      (s.instances i).started = true ∧ (s.instances i).plugin = some cls
  oldFile    : s.loaders.bytesAt P (begin P c b l).oldPath = none

structure RolledBack (s : Replacing B E M ι) : Prop where
  path       : (s.loaders.loaders.get c.plugin).path = (l.loaders.get c.plugin).path
  pluginMeta : (s.loaders.loaders.get c.plugin).pluginMeta = (l.loaders.get c.plugin).pluginMeta
  cls        : ∃ cls, (restore P c b l).1 = .ok cls ∧
    (s.loaders.loaders.get c.plugin).loaded = some cls
  oldFile    : ∃ old, l.bytesAt P (begin P c b l).oldPath = some old ∧
    s.loaders.bytesAt P (begin P c b l).oldPath = some old
  newFile    : s.loaders.bytesAt P (begin P c b l).path = none
  instances  : ∀ i ∈ c.references, (s.instances i).enabled = (b i).enabled ∧
    (s.instances i).started = (b i).started

/-! ### When it does -/

/-- What a rollback needs: the instances that are enabled are those that ran, and the new file is
    not the old one. -/
structure Restorable : Prop where
  instances : ∀ i ∈ c.references, (b i).enabled = (b i).started
  path      : abspath P.cwd (begin P c b l).path ≠ abspath P.cwd (begin P c b l).oldPath

/-- Instances that run are enabled, and the new archive is loaded or refused. -/
structure Careful : Prop where
  enabled : ∀ i ∈ c.references, (b i).started = true → (b i).enabled = true
  loads   : ∀ e, (update P c b l).1 = .error e →
    e.isMaubotZipImportError = true ∧ Restorable P c b l

/-- A failure that the update copes with: no instance that ran is disabled, and what the handler
    sees it can roll back. -/
def Bearable (t : Task ι) (guarded : Bool) (e : PyExc) : Prop :=
  match t.doing with
  | .starting _ =>
    if guarded && e.isException then (b t.inst).started = false
    else e.isException = true ∧ Restorable P c b l
  | .running    => e.isException = true ∧ (b t.inst).started = false
  | .disabling  => e.isException = true ∧ Restorable P c b l
  | .stopping   => e.isException = true
  | .closing    => e.isException = true
  | _           => True

def Bears (s : Replacing B E M ι) : Event → Prop
  | .run k o => ∀ t e, s.tasks[k]? = some t → o.raised = some e → Bearable P c b l t o.guarded e
  | .advance => True

end Ends

/-! ### Steps of a coroutine -/

/-- An exception that is not logged is no `Exception`. -/
theorem Outcome.unlogged_eq_some {o : Outcome} {e : PyExc} :
    o.unlogged = some e ↔ o.raised = some e ∧ e.isException = false := by
  unfold Outcome.unlogged
  grind

namespace Doing

/-- `start` on its way to a started instance -/
def going : Doing → Bool
  | .start      => true
  | .starting _ => true
  | .running    => true
  | _           => false

/-- `start` past its guards -/
def begun : Doing → Bool
  | .starting _ => true
  | .running    => true
  | _           => false

def stops : Doing → Bool
  | .stop     => true
  | .stopping => true
  | .closing  => true
  | _         => false

variable {cls : Except PyExc Ref} {o : Outcome} {x : Inst} {d : Doing}

/-- A task that is done is not going, -/
theorem going_of_done (h : d.isDone = true) : d.going = false := by
  cases d with
  | done => rfl
  | _ => cases h

/-- has not just begun, -/
theorem begun_of_done (h : d.isDone = true) : d.begun = false := by
  cases d with
  | done => rfl
  | _ => cases h

/-- and does not stop. -/
theorem stops_of_done (h : d.isDone = true) : d.stops = false := by
  cases d with
  | done => rfl
  | _ => cases h

/-- Only a task that loads depends on the class. -/
theorem step_congr (h : d.loads x = false) (cls' : Except PyExc Ref) :
    d.step cls o x = d.step cls' o x := by
  cases d with
  | start => simp only [step, h, Bool.false_eq_true, if_false]
  | _ => rfl

/-- What a step does, by what the coroutine was doing -/
theorem enabled_of_step (h : (d.step cls o x).1.enabled = true) : x.enabled = true := by
  cases d <;> simp only [step, Inst.disable] at h <;> grind

/-- An instance is disabled by an exception of its start. -/
theorem raised_of_disabled (hx : x.enabled = true) (h : (d.step cls o x).1.enabled = false) :
    ∃ e, o.raised = some e ∧ e.isException = true ∧
      ((∃ r, d = .starting r) ∧ o.guarded = true ∨ d = .running) := by
  cases d <;> simp only [step, Inst.disable] at h <;> grind

/-- It is started by the step behind its hooks. -/
theorem started_of_step (h : (d.step cls o x).1.started = true) :
    x.started = true ∨ d = .running := by
  cases d <;> simp only [step, Inst.disable] at h <;> grind

/-- Only an enabled instance begins to start. -/
theorem begun_of_step (h : (d.step cls o x).2.begun = true) :
    d.begun = true ∨ x.enabled = true := by
  cases d <;> simp only [step, Inst.disable, loads] at h <;> grind [begun]

/-- A task that does not stop leaves a started instance. -/
theorem stays_started (hd : d.stops = false) (h : x.started = true) :
    (d.step cls o x).1.started = true := by
  cases d <;> simp only [step, Inst.disable] <;> grind [stops]

/-- A task that stops has done so from the beginning. -/
theorem stops_of_step (h : (d.step cls o x).2.stops = true) : d.stops = true := by
  cases d <;> simp only [step, Inst.disable] at h <;> grind [stops]

/-- While nothing fails, an enabled instance comes closer to its start. -/
theorem goes_on {r : Ref} (ho : d ≠ .start → o.raised = none) (hd : d.going = true)
    (hx : x.enabled = true) :
    (d.step (.ok r) o x).2.going = true ∨ (d.step (.ok r) o x).1.started = true := by
  cases d <;> simp only [step, Inst.disable, loads] <;> grind [going]

/-- A task with its class raises what its hooks raise. -/
theorem raised_of_step {r : Ref} (hdone : d.isDone = false) {e : PyExc}
    (h : (d.step (.ok r) o x).2.raised = some e) : o.raised = some e := by
  cases d <;> simp only [step, Inst.disable] at h <;>
    grind [raised, isDone, Outcome.unlogged_eq_some]

/-- The class of the plugin changes where it is constructed. -/
theorem plugin_of_step (hd : d.stops = false) : (d.step cls o x).1.plugin = x.plugin ∨
    ∃ r, d = .starting r ∧ (d.step cls o x).1.plugin = some r := by
  cases d <;> simp only [step, Inst.disable] <;> grind [stops]

/-- A plugin runs after it was made. -/
theorem running_of_step (h : (d.step cls o x).2 = .running) :
    ∃ r, d = .starting r ∧ (d.step cls o x).1.plugin = some r := by
  cases d <;> simp only [step, Inst.disable] at h ⊢ <;> grind

/-- It is made from the class that was loaded. -/
theorem starting_of_step {r : Ref} (h : (d.step cls o x).2 = .starting r) : cls = .ok r := by
  cases d <;> simp only [step, Inst.disable] at h <;> grind

/-- Stopping raises nothing that is an `Exception`. -/
theorem step_of_stops (hd : d.stops = true)
    (ho : ∀ e, o.raised = some e → d ≠ .stop → e.isException = true) :
    (d.step cls o x).2.stops = true ∨ (d.step cls o x).2 = .done none := by
  cases d <;> simp only [step] <;> grind [stops, Outcome.unlogged]

/-- A stop that goes on leaves the instance not started. -/
theorem not_started_of_stop : (step cls o x .stop).1.started = false := by
  simp only [step]
  grind

end Doing

/-! ### Without instances -/

section Idle

variable {P : Platform B E C Y M} {c : Call B ι} {b : ι → Inst} {l : Loaders B E M}

/-- Nothing to wait for -/
def idle (b : ι → Inst) (l : Loaders B E M) (oldPath path : Path) (waits : Waits) :
    Replacing B E M ι := { loaders := l, instances := b, oldPath, path, waits }

/-- No instance is started. -/
theorem startInstances_idle (href : c.references = []) (oldPath path : Path) (waits : Waits) :
    (idle b l oldPath path waits).startInstances c = idle b l oldPath path waits := by
  simp only [Replacing.startInstances, href]
  rfl

/-- The first rollback raises what its `except` does not catch. -/
theorem exec_rollBackReload {plugin : Ref} {oldPath : Path} (path : Path) {l' : Loaders B E M}
    {r : Except PyExc Ref}
    (h : (ZipLoader.reload P plugin (some oldPath)).exec l = (r, l')) :
    (rollBackReload P plugin oldPath path {}).exec l =
      (match r with
        | .ok _    => .ok ()
        | .error e => if e.isMaubotZipImportError then .ok () else .error e,
        ((ZipLoader.trash P path none).exec l').2) := by
  unfold rollBackReload finallyDo
  cases r with
  | ok cls =>
    rw [exec_bind, exec_attempt, exec_bind, exec_attempt, exec_bind_ok h]
    rfl
  | error e =>
    rw [exec_bind, exec_attempt, exec_bind, exec_attempt, exec_bind_error h]
    dsimp only
    by_cases he : e.isMaubotZipImportError = true
    · rw [if_pos he, if_pos he]
      rfl
    · rw [if_neg he, if_neg he]
      rfl

/-- **The two models of the handler agree.**  Without instances, the events of a replacement are
    the one run of the handler in `PluginUpload`. -/
theorem exec_uploadReplacementPlugin {p : Path} {m : PluginMeta}
    (hpath : (l.loaders.get c.plugin).path = some p)
    (hmeta : (l.loaders.get c.plugin).pluginMeta = some m) (href : c.references = []) :
    ∃ r, (((begin P c b l).advance P c).advance P c).waits = .ended r ∧
      (uploadReplacementPlugin P c.uploads c.plugin c.content c.newVersion c.now {}).exec l =
        (r, (((begin P c b l).advance P c).advance P c).loaders) := by
  obtain ⟨path, hp⟩ : ∃ q, q = replacementPath c.uploads m.version c.newVersion c.now p := ⟨_, rfl⟩
  obtain ⟨w, hwrite⟩ : ∃ w, (writeFile P path c.content none).exec l = (.ok (), w) := ⟨_, rfl⟩
  have hbegin : begin P c b l = idle b w p path .stopping := by
    unfold begin
    rw [hpath, hmeta]
    simp only [Replacing.stopInstances, Replacing.gather, href, Option.map_some,
      Option.getD_some, ← hp, hwrite]
    rfl
  have hstart (l : Loaders B E M) (waits : Waits) :
      (idle b l p path waits).startInstances c = idle b l p path waits :=
    startInstances_idle href p path waits
  rw [hbegin]
  unfold uploadReplacementPlugin
  rw [exec_get_bind]
  dsimp only
  rw [hpath, hmeta]
  simp only [present, pure_bind, ← hp]
  rw [exec_bind_ok hwrite, exec_bind_ok (exec_raiseIf_none _), exec_bind, exec_attempt]
  -- by what the two reloads do, as the handler tells them apart
  rcases hreload : (ZipLoader.reload P c.plugin (some path)).exec w with ⟨e | cls, w'⟩
  · by_cases he : e.isMaubotZipImportError = true
    · dsimp only
      rw [if_pos he]
      dsimp only
      rcases hback : (ZipLoader.reload P c.plugin (some p)).exec w' with ⟨e' | cls, w''⟩
      -- the old archive is refused too
      · have hfirst : (idle b w p path .stopping).advance P c =
            (idle b w'' p path .stopping).rolledBack P PyExc.isMaubotZipImportError
              (.pluginImportError e.msg) (some e') := by
          simp only [Replacing.advance, Replacing.reload, idle, hreload, hback, if_pos he]
        rw [hfirst, exec_bind, exec_rollBackReload path hback]
        dsimp only [Replacing.rolledBack]
        by_cases he' : e'.isMaubotZipImportError = true
        · rw [if_pos he', if_pos he']
          exact ⟨_, rfl, rfl⟩
        · rw [if_neg he', if_neg he']
          exact ⟨_, rfl, rfl⟩
      · have hfirst : (idle b w p path .stopping).advance P c =
            idle b w'' p path (.restarting e) := by
          have hstart := hstart w'' .stopping
          simp only [Replacing.advance, Replacing.reload, idle, hreload, hback,
            if_pos he] at hstart ⊢
          rw [hstart]
        rw [hfirst, exec_bind, exec_rollBackReload path hback]
        exact ⟨_, rfl, rfl⟩
    -- any other exception of the reload is not caught
    · have hfirst : (idle b w p path .stopping).advance P c =
          (idle b w' p path .stopping).answer (.error e) := by
        simp only [Replacing.advance, Replacing.reload, idle, hreload, if_neg he]
      rw [hfirst]
      dsimp only
      rw [if_neg he]
      exact ⟨_, rfl, rfl⟩
  · have hfirst : (idle b w p path .stopping).advance P c = idle b w' p path .starting := by
      have hstart := hstart w' .stopping
      simp only [Replacing.advance, Replacing.reload, idle, hreload] at hstart ⊢
      rw [hstart]
    rw [hfirst]
    exact ⟨_, rfl, rfl⟩

end Idle

end Replacement

end Maubot
