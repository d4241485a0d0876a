import Maubot.Instance.Frames
import Maubot.Client.Lookup

namespace Maubot

open Prog

/-!
# Plugin instances — starts and stops that succeed

* `failCount` — how many starts and stops have failed so far;
* `Steady S i` — the frame of a call that changes no setting of the instance `i`, or fails;
* `start_started`, `stop_stopped` — what a start and a stop that do not fail achieve.
-/

variable {L : Type} (S : Setup L)

/-- A failure of a start or a stop. -/
def Failure.isStartStop : Failure → Bool
  | .removeReference _ => false
  | _                  => true

/-- The number of starts and stops that have failed. -/
def failCount (w : World L) : Nat := w.failures.countP Failure.isStartStop

/-- The plugin does not rewrite its config while it starts. -/
def StartEnv.KeepsConfig (env : StartEnv) : Prop :=
  env.preStart.saves = [] ∧ env.start.saves = []

/-- No failure is forgotten. -/
def Growing (L : Type) : Frame (World L) where
  rel w w' := failCount w ≤ failCount w'
  refl _ := Nat.le_refl _
  trans := Nat.le_trans

namespace PluginInstance

/-! ### The settings of an instance -/

/-- The id and the settings that a user chooses. -/
structure Settings where
  id          : String
  type        : String
  enabled     : Bool
  primaryUser : String
  configStr   : String

def settings (inst : PluginInstance) : Settings where
  id := inst.id
  type := inst.type
  enabled := inst.enabled
  primaryUser := inst.primaryUser
  configStr := inst.configStr

/-- The instance has its settings, and the loaders are found under their ids. -/
structure SameSettings (i : Ref) (w w' : World L) : Prop where
  settings : (w'.instances.get i).settings = (w.instances.get i).settings
  find     : S.loaders.find w'.loaders = S.loaders.find w.loaders
  metaId   : ∀ l, (metaOf S w' l).id = (metaOf S w l).id

/-- Nothing has happened to the settings. -/
theorem SameSettings.refl (i : Ref) (w : World L) : SameSettings S i w w := ⟨rfl, rfl, fun _ => rfl⟩

/-- Two steps that leave the settings leave them together. -/
theorem SameSettings.trans {i : Ref} {w w' w'' : World L} (h : SameSettings S i w w')
    (h' : SameSettings S i w' w'') : SameSettings S i w w'' :=
  ⟨h'.settings.trans h.settings, h'.find.trans h.find, fun l => (h'.metaId l).trans (h.metaId l)⟩

/-- No failure is forgotten; and while none is added, the settings are kept. -/
def Steady (i : Ref) : Frame (World L) where
  rel w w' := failCount w ≤ failCount w' ∧ (failCount w' = failCount w → SameSettings S i w w')
  refl w := ⟨Nat.le_refl _, fun _ => .refl S i w⟩
  trans {s t u} h h' := by
    refine ⟨Nat.le_trans h.1 h'.1, fun he => ?_⟩
    have ht : failCount t = failCount s := Nat.le_antisymm (he ▸ h'.1) h.1
    exact (h.2 ht).trans S (h'.2 (he.trans ht.symm))

variable {S} {i : Ref} {α : Type}

/-- A step that touches no failure and no setting. -/
theorem steady_modify {f : World L → World L} (hfail : ∀ w, (f w).failures = w.failures)
    (hf : ∀ w, SameSettings S i w (f w)) : Keeps (Steady S i) (modify f : Action L Unit) :=
  fun w => ⟨Nat.le_of_eq (congrArg _ (hfail w)).symm, fun _ => hf w⟩

/-- What leaves the settings of one instance takes no failure back. -/
theorem growing_of_steady {m : Action L α} (hm : Keeps (Steady S i) m) :
    Keeps (Growing L) m := hm.mono fun h => h.1

/-- A report about a start or a stop counts. -/
theorem failCount_report {x : Failure} (hx : x.isStartStop = true) (w : World L) :
    failCount ((report x : Action L Unit).exec w).2 = failCount w + 1 := by
  simp [report, failCount, hx]

/-- After a failure is recorded, settings may change. -/
theorem steady_report {x : Failure} (hx : x.isStartStop = true) {m : Action L α}
    (hm : Keeps (Growing L) m) : Keeps (Steady S i) (do report x; m) := by
  intro w
  have hle : failCount w + 1 ≤ failCount (m.exec ((report x : Action L Unit).exec w).2).2 :=
    failCount_report hx w ▸ hm _
  refine ⟨Nat.le_trans (Nat.le_succ _) hle, fun he => ?_⟩
  exact absurd (he ▸ hle) (Nat.not_succ_le_self _)

/-! ### Steady steps -/

/-- A field that is no setting may be set. -/
theorem steady_setInstance {f : PluginInstance → PluginInstance}
    (hf : ∀ inst, (f inst).settings = inst.settings) : Keeps (Steady S i) (setInstance i f) :=
  steady_modify (fun _ => rfl) fun w =>
    { SameSettings.refl S i w with settings := Store.view_modify _ _ _ settings hf i }

/-- The row is written from the settings, and not they from it. -/
theorem steady_update : Keeps (Steady S i) (update i) := by
  refine keeps_bind keeps_get fun _ => keeps_ite (keeps_pure ()) (keeps_ite (keeps_throw _) ?_)
  exact steady_modify (fun _ => rfl) fun w => { SameSettings.refl S i w with }

/-- A field that is set is no report. -/
theorem growing_setInstance (i : Ref) (f : PluginInstance → PluginInstance) :
    Keeps (Growing L) (setInstance i f) := fun _ => Nat.le_refl _

/-- `update_enabled` reports nothing. -/
theorem growing_updateEnabled (i : Ref) (e : Option Bool) :
    Keeps (Growing L) (updateEnabled i e : Action L Unit) := by
  refine keeps_bind keeps_get fun w => ?_
  cases e with
  | none => exact keeps_pure ()
  | some e =>
    refine keeps_ite (keeps_pure ()) (keeps_bind (growing_setInstance i _) fun _ => ?_)
    exact keeps_bind keeps_get fun _ =>
      keeps_ite (keeps_pure ()) (keeps_ite (keeps_throw _) fun _ => Nat.le_refl _)

/-- A failure that disables the instance. -/
theorem steady_disable {x : Failure} (hx : x.isStartStop = true) (a : α) :
    Keeps (Steady S i) (do report x; updateEnabled i (some false); pure a : Action L α) :=
  steady_report hx (keeps_bind (growing_updateEnabled i _) fun _ => keeps_pure a)

/-- The engine is no setting of a request. -/
theorem steady_updateDbEngine (e : Option DatabaseEngine) :
    Keeps (Steady S i) (updateDbEngine i e) := by
  refine keeps_bind keeps_get fun w => ?_
  cases e with
  | none => exact keeps_pure ()
  | some e =>
    exact keeps_ite (keeps_pure ())
      (keeps_bind (steady_setInstance fun _ => rfl) fun _ => steady_update)

/-- A failure that is logged leaves the settings, and is counted. -/
theorem steady_logged {x : Failure} (hx : x.isStartStop = true) {m : Action L Unit}
    (hm : Keeps (Steady S i) m) : Keeps (Steady S i) (logged x m) := by
  refine keeps_bind (keeps_attempt hm _) fun r => ?_
  cases r with
  | ok _ => exact keeps_pure ()
  | error _ =>
    have := steady_report (S := S) (i := i) hx (keeps_pure () : Keeps (Growing L) (pure ()))
    rwa [bind_pure] at this

/-- Asking for the loader leaves everything. -/
theorem steady_theLoader : Keeps (Steady S i) (theLoader i) := by
  refine keeps_bind keeps_get fun w => ?_
  split
  · exact keeps_pure _
  · exact keeps_throw _

/-- Asking for the client leaves everything. -/
theorem steady_theClient : Keeps (Steady S i) (theClient i) := by
  refine keeps_bind keeps_get fun w => ?_
  split
  · exact keeps_pure _
  · exact keeps_throw _

/-- A loader does not touch the instances when it loads a class. -/
theorem steady_loadClass (l : Ref) : Keeps (Steady S i) (loadClass S l) :=
  keeps_zoom ((S.loaders.load_find l).both (S.loaders.load_meta l)) fun _ _ h =>
    ⟨Nat.le_refl _, fun _ => ⟨rfl, h.1, congrFun h.2⟩⟩

/-- The database is opened for the settings and leaves them. -/
theorem steady_startDatabase (sqliteDbExists : Bool) (create : Option PyExc)
    (actuallyStart : Option (Option PyExc)) :
    Keeps (Steady S i) (startDatabase S i sqliteDbExists create actuallyStart) := by
  have hset (db : InstDb) : Keeps (Steady S i) (setInstDb i create db) :=
    keeps_bind (keeps_raiseIf create) fun _ => steady_setInstance fun _ => rfl
  have hlegacy : Keeps (Steady S i) (checkLegacyEngine i) := by
    refine keeps_bind keeps_get fun w => ?_
    split
    · exact steady_updateDbEngine _
    · exact keeps_throw _
    · exact keeps_pure ()
  have hchoose : Keeps (Steady S i) (chooseEngine S i sqliteDbExists) := by
    refine keeps_bind keeps_get fun w => ?_
    split
    · exact keeps_pure ()
    · exact keeps_ite (steady_updateDbEngine _) (steady_updateDbEngine _)
  refine keeps_bind steady_theLoader fun l => keeps_bind keeps_get fun w => ?_
  split
  · exact keeps_bind hlegacy fun _ => hset _
  · refine keeps_bind hchoose fun _ => keeps_bind ?_ fun _ => keeps_raiseIf _
    exact keeps_bind keeps_get fun w => keeps_ite (keeps_ite (hset _) (keeps_throw _)) (hset _)
  · exact keeps_throw _

/-- So does the step of `start` that opens it. -/
theorem steady_openDatabase (l : Ref) (env : StartEnv) :
    Keeps (Steady S i) (openDatabase S i l env) := by
  refine keeps_bind keeps_get fun w => keeps_ite ?_ (keeps_pure true)
  refine keeps_bind (keeps_attempt
    (keeps_bind (keeps_raiseIf _) fun _ => steady_startDatabase _ _ _) _) fun r => ?_
  cases r with
  | ok _ => exact keeps_pure true
  | error _ => exact steady_disable rfl false

/-- Closing the database leaves the settings. -/
theorem steady_closeDatabase (env : StopEnv) : Keeps (Steady S i) (closeDatabase i env) := by
  refine keeps_bind keeps_get fun w => keeps_ite (steady_logged rfl ?_) (keeps_pure ())
  refine keeps_bind keeps_get fun w => ?_
  split
  · exact keeps_raiseIf _
  · exact keeps_throw _

/-- The base config is read into the plugin, not into the settings. -/
theorem steady_readConfig (env : StartEnv) : Keeps (Steady S i) (readConfig i env) := by
  refine keeps_bind (keeps_outcome _) fun b => keeps_ite ?_ (keeps_pure ())
  exact keeps_bind (keeps_attempt (keeps_raiseIf _) _) fun _ => steady_setInstance fun _ => rfl

/-- The web app is no setting. -/
theorem steady_enableWebapp : Keeps (Steady S i) (enableWebapp S i) := by
  refine keeps_bind keeps_get fun w => keeps_bind ?_ fun _ => steady_setInstance fun _ => rfl
  refine keeps_bind keeps_get fun w => ?_
  split
  · exact keeps_pure _
  · exact keeps_bind (steady_modify (fun _ => rfl) fun w => { SameSettings.refl S i w with })
      fun _ => keeps_pure _

/-- Neither is its absence. -/
theorem steady_disableWebapp : Keeps (Steady S i) (disableWebapp S i) := by
  refine keeps_bind keeps_get fun w => keeps_bind ?_ fun _ => steady_setInstance fun _ => rfl
  refine keeps_bind keeps_get fun w => ?_
  split
  · exact keeps_pure _
  · exact keeps_bind (steady_modify (fun _ => rfl) fun w => { SameSettings.refl S i w with })
      fun _ => steady_modify (fun _ => rfl) fun w => { SameSettings.refl S i w with }

/-! ### Plugins -/

/-- Handlers are registered at the client and at the web app. -/
theorem steady_registerHandlerClass (p : Ref) (obj : List Attribute) :
    Keeps (Steady S i) (Plugin.registerHandlerClass p obj) := by
  refine keeps_forM fun a _ => keeps_ite ?_ (keeps_pure ())
  refine keeps_bind (keeps_forM fun t _ => ?_) fun _ => keeps_bind keeps_get fun w => ?_
  · exact keeps_bind (steady_modify (fun _ => rfl) fun w => { SameSettings.refl S i w with })
      fun _ => keeps_bind keeps_get fun _ =>
        steady_modify (fun _ => rfl) fun w => { SameSettings.refl S i w with }
  · split
    · exact keeps_pure ()
    · exact keeps_forM fun h _ => keeps_bind (keeps_raiseIf _) fun _ =>
        steady_modify (fun _ => rfl) fun w => { SameSettings.refl S i w with }

/-- A hook that has no config written. -/
theorem steady_runHook (p : Ref) {h : Hook} (hsaves : h.saves = []) :
    Keeps (Steady S i) (Plugin.runHook (saveConfig i) p h) := by
  refine keeps_bind (keeps_forM fun obj _ => steady_registerHandlerClass p obj) fun _ => ?_
  rw [hsaves]
  exact keeps_bind (keeps_pure _) fun _ => keeps_raiseIf _

/-- A hook that saves no config leaves the settings when a plugin starts. -/
theorem steady_internalStart (p : Ref) {env : StartEnv} (henv : env.KeepsConfig) :
    Keeps (Steady S i)
      (Plugin.internalStart (saveConfig i) p env.attributes env.preStart env.start) :=
  keeps_bind (steady_runHook p henv.1) fun _ =>
    keeps_bind (steady_registerHandlerClass p _) fun _ => steady_runHook p henv.2

/-- The hooks of a stop leave the settings, raising or not. -/
theorem steady_internalStop (p : Ref) (preStop stop : Option PyExc) :
    Keeps (Steady S i) (Plugin.internalStop p preStop stop) := by
  refine keeps_bind (keeps_raiseIf _) fun _ => keeps_bind ?_ fun _ => keeps_bind ?_ fun _ =>
    keeps_raiseIf _
  · exact keeps_bind keeps_get fun _ => keeps_forM fun h _ =>
      steady_modify (fun _ => rfl) fun w => { SameSettings.refl S i w with }
  · refine keeps_bind keeps_get fun w => ?_
    split
    · exact keeps_pure ()
    · exact steady_modify (fun _ => rfl) fun w => { SameSettings.refl S i w with }

/-- The plugin object is made out of the settings. -/
theorem steady_construct (l cls : Ref) (env : StartEnv) :
    Keeps (Steady S i) (construct i l cls env) := by
  refine keeps_bind steady_theClient fun c => keeps_bind (keeps_raiseIf _) fun _ =>
    keeps_bind keeps_get fun w => ?_
  exact keeps_bind (steady_modify (fun _ => rfl) fun w => { SameSettings.refl S i w with })
    fun _ => keeps_bind (steady_setInstance fun _ => rfl) fun _ => keeps_pure _

/-- The whole start of the plugin leaves the settings. -/
theorem steady_startPlugin (p : Ref) {env : StartEnv} (henv : env.KeepsConfig) :
    Keeps (Steady S i) (startPlugin i p env) := by
  refine keeps_bind (keeps_attempt (steady_internalStart p henv) _) fun r => ?_
  cases r with
  | ok _ => exact steady_setInstance fun _ => rfl
  | error _ => exact steady_report rfl (growing_updateEnabled i _)

/-! ### Start and stop -/

/-- A client that is looked up, or made from its row, is no instance. -/
theorem steady_getClient (u : String) :
    Keeps (Steady S i) (Client.get S u none none none) := by
  intro w
  rcases Client.exec_get (S := S) u w with ⟨c, _, he⟩ | ⟨row, w', _, _, he, hm⟩ | ⟨_, _, he⟩ <;>
    rw [he]
  · exact (Steady S i).refl w
  · have hinst : w'.instances = w.instances := by rw [hm.others]
    have hloaders : w'.loaders = w.loaders := by rw [hm.others]
    have hfail : w'.failures = w.failures := by rw [hm.others]
    refine ⟨Nat.le_of_eq (congrArg _ hfail).symm, fun _ => ⟨?_, ?_, fun l => ?_⟩⟩
    · rw [hinst]
    · rw [hloaders]
    · rw [metaOf, hloaders]
      rfl
  · exact (Steady S i).refl w

/-- The instance gets a loader, and its settings stay where it is disabled for want of one. -/
theorem steady_loadLoader : Keeps (Steady S i) (loadLoader S i) := by
  refine keeps_bind keeps_get fun w => keeps_ite (keeps_pure true) ?_
  split
  · exact keeps_bind (steady_setInstance fun _ => rfl) fun _ => keeps_pure true
  · exact steady_disable rfl false

/-- It gets a client in the same way. -/
theorem steady_loadClient : Keeps (Steady S i) (loadClient S i) :=
  keeps_bind keeps_get fun _ => keeps_ite (keeps_pure true) <|
    keeps_bind (steady_getClient _) fun _ => keeps_bind (steady_setInstance fun _ => rfl) fun _ =>
    keeps_ite (keeps_pure true) (steady_disable rfl false)

/-- References are no settings. -/
theorem steady_addToLoader (l : Ref) : Keeps (Steady S i) (addToLoader S i l) :=
  keeps_bind keeps_get fun _ =>
    steady_modify (fun _ => rfl) fun w => { SameSettings.refl S i w with }

/-- References at the client are none either. -/
theorem steady_addToClient (c : Ref) : Keeps (Steady S i) (addToClient S i c) :=
  keeps_bind keeps_get fun _ =>
    steady_modify (fun _ => rfl) fun w => { SameSettings.refl S i w with }

/-- The last step of `load` leaves the settings. -/
theorem steady_loadReferences : Keeps (Steady S i) (loadReferences S i) :=
  keeps_bind steady_theLoader fun l => keeps_bind keeps_get fun _ =>
    keeps_bind (keeps_when steady_enableWebapp) fun _ => keeps_bind (steady_addToLoader l) fun _ =>
    keeps_bind steady_theClient fun c => steady_addToClient c

/-- The whole of `load` leaves them. -/
theorem steady_dependencies : Keeps (Steady S i) (dependencies S i) := by
  refine keeps_bind keeps_get fun w => keeps_ite ?_ (keeps_pure true)
  refine keeps_bind steady_loadLoader fun b => keeps_ite ?_ (keeps_pure false)
  refine keeps_bind steady_loadClient fun b => keeps_ite ?_ (keeps_pure false)
  exact keeps_bind steady_loadReferences fun _ => keeps_pure true

/-- Neither direction of the adjustment of the web app touches them. -/
theorem steady_adjustWebapp (l : Ref) : Keeps (Steady S i) (adjustWebapp S i l) :=
  keeps_bind keeps_get fun _ =>
    keeps_ite steady_enableWebapp (keeps_ite steady_disableWebapp (keeps_pure ()))

/-- A start whose dependencies are there leaves the settings, with hooks that save nothing. -/
theorem steady_startLoaded {env : StartEnv} (henv : env.KeepsConfig) :
    Keeps (Steady S i) (startLoaded S i env) := by
  refine keeps_bind steady_theLoader fun l => keeps_bind (steady_loadClass l) fun cls =>
    keeps_bind (steady_adjustWebapp l) fun _ => keeps_bind (steady_openDatabase l env) fun b =>
    keeps_ite ?_ (keeps_pure ())
  exact keeps_bind (steady_readConfig env) fun _ => keeps_bind (steady_construct l cls env) fun p =>
    steady_startPlugin p henv

/-- A start keeps the settings, or fails. -/
theorem steady_start {env : StartEnv} (henv : env.KeepsConfig) :
    Keeps (Steady S i) (start S i env) :=
  keeps_bind keeps_get fun _ => keeps_ite (keeps_pure ()) <| keeps_ite (keeps_pure ()) <|
    keeps_bind steady_dependencies fun _ => keeps_ite (steady_startLoaded henv) (keeps_pure ())

/-- A stop keeps the settings. -/
theorem steady_stop (env : StopEnv) : Keeps (Steady S i) (stop i env) := by
  refine keeps_bind keeps_get fun w => keeps_ite ?_ (keeps_pure ())
  refine keeps_bind (steady_setInstance fun _ => rfl) fun _ => keeps_bind (steady_logged rfl ?_)
    fun _ => keeps_bind (steady_setInstance fun _ => rfl) fun _ => steady_closeDatabase env
  refine keeps_bind keeps_get fun w => ?_
  split
  · exact steady_internalStop _ _ _
  · exact keeps_throw _

/-! ### What they achieve -/

section Achieve

variable {n : Nat}

/-- No failure is forgotten. -/
theorem triple_growing {m : Action L α} (hm : Keeps (Growing L) m) :
    Triple (n ≤ failCount ·) m (fun _ => (n ≤ failCount ·)) (fun _ => True) := by
  intro w hw
  have := Nat.le_trans hw (hm w)
  rcases hr : m.exec w with ⟨_ | _, w'⟩
  · trivial
  · rwa [hr] at this

/-- After a report about a start or a stop there is one failure more. -/
theorem triple_report {x : Failure} (hx : x.isStartStop = true) :
    Triple (n ≤ failCount ·) (report x : Action L Unit) (fun _ => (n < failCount ·))
      (fun _ => True) :=
  fun w hw => Nat.lt_of_lt_of_eq (Nat.lt_succ_of_le hw) (failCount_report hx w).symm

/-- A step that answers `false` has failed. -/
def FailsUnless (n : Nat) (b : Bool) (w : World L) : Prop :=
  n ≤ failCount w ∧ (b = false → n < failCount w)

/-- A step that says it went well owes no failure. -/
theorem failsUnless_true {w : World L} (h : n ≤ failCount w) : FailsUnless n true w :=
  ⟨h, by simp⟩

/-- What the instance is disabled for is a failure. -/
theorem triple_disable {x : Failure} (hx : x.isStartStop = true) :
    Triple (n ≤ failCount ·) (do report x; updateEnabled i (some false); pure false : Action L Bool)
      (FailsUnless n) (fun _ => True) :=
  (triple_report hx).bind fun _ =>
    (triple_growing (n := n + 1) (growing_updateEnabled i _)).bind fun _ =>
    triple_pure fun _ h => ⟨Nat.le_of_lt h, fun _ => h⟩

/-- After `false`, the same answer. -/
theorem triple_failsUnless {m : Action L Bool}
    (hm : Triple (n ≤ failCount ·) m (FailsUnless n) (fun _ => True)) (b : Bool) :
    Triple (FailsUnless n b) (if b then m else pure false) (FailsUnless n) (fun _ => True) := by
  cases b with
  | true => exact hm.pre fun _ h => h.1
  | false => exact triple_pure fun _ h => h

/-- Where no loader is found, a failure has been reported. -/
theorem outcome_loadLoader :
    Triple (n ≤ failCount ·) (loadLoader S i) (FailsUnless n) (fun _ => True) := by
  refine triple_get_bind fun w _ => Triple.pre (P := (n ≤ failCount ·)) ?_ fun _ h => h.1
  split
  · exact triple_pure fun _ => failsUnless_true
  split
  · exact (triple_growing (growing_setInstance i _)).bind fun _ =>
      triple_pure fun _ => failsUnless_true
  · exact triple_disable rfl

/-- Where no client is found, a failure has been reported. -/
theorem outcome_loadClient :
    Triple (n ≤ failCount ·) (loadClient S i) (FailsUnless n) (fun _ => True) := by
  refine triple_get_bind fun w _ => Triple.pre (P := (n ≤ failCount ·)) ?_ fun _ h => h.1
  split
  · exact triple_pure fun _ => failsUnless_true
  refine (triple_growing (growing_of_steady (steady_getClient (i := i) _))).bind fun c => ?_
  refine (triple_growing (growing_setInstance i _)).bind fun _ => ?_
  split
  · exact triple_pure fun _ => failsUnless_true
  · exact triple_disable rfl

/-- Without its dependencies a start has failed. -/
theorem outcome_dependencies :
    Triple (n ≤ failCount ·) (dependencies S i) (FailsUnless n) (fun _ => True) := by
  refine triple_get_bind fun w _ => Triple.pre (P := (n ≤ failCount ·)) ?_ fun _ h => h.1
  split
  · refine outcome_loadLoader.bind (triple_failsUnless ?_)
    refine outcome_loadClient.bind (triple_failsUnless ?_)
    exact (triple_growing (growing_of_steady steady_loadReferences)).bind fun _ =>
      triple_pure fun _ => failsUnless_true
  · exact triple_pure fun _ => failsUnless_true

/-- Where the database does not open, a failure has been reported. -/
theorem outcome_openDatabase (l : Ref) (env : StartEnv) :
    Triple (n ≤ failCount ·) (openDatabase S i l env) (FailsUnless n) (fun _ => True) := by
  refine triple_get_bind fun w _ => Triple.pre (P := (n ≤ failCount ·)) ?_ fun _ h => h.1
  split
  · have hopen : Keeps (Growing L) (attempt PyExc.isException (do
        raiseIf env.upgradeTable
        startDatabase S i env.sqliteDbExists env.createDatabase (some env.startDatabase))) :=
      growing_of_steady (i := i) (keeps_attempt
        (keeps_bind (keeps_raiseIf _) fun _ => steady_startDatabase _ _ _) _)
    refine (triple_growing hopen).bind fun r => ?_
    cases r with
    | ok _ => exact triple_pure fun _ => failsUnless_true
    | error _ => exact triple_disable rfl
  · exact triple_pure fun _ => failsUnless_true

/-- The plugin has started, or its start has failed. -/
theorem outcome_startPlugin (S : Setup L) (p : Ref) {env : StartEnv} (henv : env.KeepsConfig) :
    Triple (n ≤ failCount ·) (startPlugin i p env : Action L Unit)
      (fun _ w => n < failCount w ∨ (w.instances.get i).started = true) (fun _ => True) := by
  refine (triple_growing (growing_of_steady (keeps_attempt
    (steady_internalStart (S := S) p henv) _))).bind fun r => ?_
  cases r with
  | ok _ => exact triple_modify fun w _ => Or.inr (by rw [Store.get_modify_self])
  | error _ =>
    refine (triple_report rfl).bind fun _ => ?_
    exact (triple_growing (n := n + 1) (growing_updateEnabled i _)).post
      (fun _ _ h => Or.inl h) fun _ h => h

/-- A start whose dependencies are there either starts the instance or reports a failure. -/
theorem outcome_startLoaded {env : StartEnv} (henv : env.KeepsConfig) :
    Triple (n ≤ failCount ·) (startLoaded S i env)
      (fun _ w => n < failCount w ∨ (w.instances.get i).started = true) (fun _ => True) := by
  refine (triple_growing (growing_of_steady (steady_theLoader (S := S)))).bind fun l => ?_
  refine (triple_growing (growing_of_steady (i := i) (steady_loadClass l))).bind fun cls => ?_
  refine (triple_growing (growing_of_steady (steady_adjustWebapp l))).bind fun _ => ?_
  refine (outcome_openDatabase l env).bind fun b => ?_
  cases b with
  | false => exact triple_pure fun _ h => Or.inl (h.2 rfl)
  | true =>
    refine Triple.pre (P := (n ≤ failCount ·)) ?_ fun _ h => h.1
    refine (triple_growing (growing_of_steady (steady_readConfig (S := S) env))).bind fun _ => ?_
    have hconstruct := growing_of_steady (steady_construct (i := i) l cls env (S := S))
    refine (triple_growing hconstruct).bind fun p => ?_
    exact outcome_startPlugin S p henv

/-- **A start of an enabled instance.**  It has started, or failed, or raised. -/
theorem start_started {env : StartEnv} (henv : env.KeepsConfig) {w w' : World L}
    (henabled : (w.instances.get i).enabled = true)
    (he : (start S i env).exec w = (.ok (), w')) (hfail : failCount w' = failCount w) :
    (w'.instances.get i).started = true := by
  rw [start, exec_get_bind] at he
  by_cases hst : (w.instances.get i).started = true
  · rw [if_pos hst] at he
    cases he
    exact hst
  rw [if_neg hst, if_neg (by simp [henabled])] at he
  have htriple : Triple (failCount w ≤ failCount ·) (do
      if ← dependencies S i then startLoaded S i env else pure ())
      (fun _ v => failCount w < failCount v ∨ (v.instances.get i).started = true)
      (fun _ => True) := by
    refine outcome_dependencies.bind fun b => ?_
    cases b with
    | false => exact triple_pure fun _ h => Or.inl (h.2 rfl)
    | true => exact (outcome_startLoaded henv).pre fun _ h => h.1
  have := htriple w (Nat.le_refl _)
  rw [he] at this
  exact this.resolve_left (hfail ▸ Nat.lt_irrefl _)

end Achieve

/-- A disabled instance is not started. -/
theorem start_of_disabled {env : StartEnv} {w : World L}
    (h : (w.instances.get i).enabled = false) : (start S i env).exec w = (.ok (), w) := by
  rw [start, exec_get_bind]
  by_cases hst : (w.instances.get i).started = true
  · rw [if_pos hst]
    rfl
  · rw [if_neg hst, if_pos (by simp [h])]
    rfl

/-- The instance does not count as started. -/
def Down (L : Type) (i : Ref) : Frame (World L) :=
  .ofInv fun w => (w.instances.get i).started = false

/-- What starts nothing leaves a stopped instance stopped. -/
theorem down_of_quiet {m : Action L α} (hm : Keeps (Quiet S) m) : Keeps (Down L i) m :=
  hm.mono fun h hw => (congrArg PluginInstance.started (h.core i) :).trans hw

/-- The hooks of a stop start nothing. -/
theorem down_internalStop (p : Ref) (preStop stop : Option PyExc) :
    Keeps (Down L i) (Plugin.internalStop p preStop stop) := by
  refine keeps_bind (keeps_raiseIf _) fun _ => keeps_bind ?_ fun _ => keeps_bind ?_ fun _ =>
    keeps_raiseIf _
  · exact keeps_bind keeps_get fun _ => keeps_forM fun h _ => keeps_modify fun _ hw => hw
  · refine keeps_bind keeps_get fun w => ?_
    split
    · exact keeps_pure ()
    · exact keeps_modify fun _ hw => hw

/-- **A stop.**  However it ends, the instance does not count as started. -/
theorem stop_stopped (S : Setup L) (env : StopEnv) (w : World L) :
    (((stop i env).exec w).2.instances.get i).started = false := by
  rw [stop, exec_get_bind]
  by_cases hst : (w.instances.get i).started = true
  · rw [if_pos hst, exec_setInstance_bind]
    have hrest : Keeps (Down L i) (do
        logged (.stopInstance i) (stopPlugin i env)
        setInstance i fun inst => { inst with plugin := none }
        closeDatabase i env : Action L Unit) := by
      refine keeps_bind (keeps_bind (keeps_attempt (keeps_bind keeps_get fun w => ?_) _)
        fun r => ?_)
        fun _ => keeps_bind (fun w hw => ?_) fun _ =>
          down_of_quiet (quiet_closeDatabase (S := S) i env)
      · split
        · exact down_internalStop _ _ _
        · exact keeps_throw _
      · cases r with
        | ok _ => exact keeps_pure ()
        | error _ => exact keeps_modify fun _ hw => hw
      · exact (congrArg PluginInstance.started (get_setInstance_self i _ w)).trans hw
    exact hrest _ (congrArg PluginInstance.started (get_setInstance_self i _ w))
  · rw [if_neg hst]
    simpa using hst

/-! ### Updates that succeed -/

variable (S i) in
/-- The settings of the instance have changed by `f`, and the loaders are found as before. -/
structure Changed (f : Settings → Settings) (w w' : World L) : Prop where
  settings : (w'.instances.get i).settings = f (w.instances.get i).settings
  find     : S.loaders.find w'.loaders = S.loaders.find w.loaders
  metaId   : ∀ l, (metaOf S w' l).id = (metaOf S w l).id

/-- Two changes of the settings one after the other are their composition. -/
theorem Changed.trans {f g : Settings → Settings} {w w' w'' : World L}
    (h : Changed S i f w w') (h' : Changed S i g w' w'') : Changed S i (g ∘ f) w w'' where
  settings := by rw [h'.settings, h.settings]; rfl
  find := h'.find.trans h.find
  metaId l := (h'.metaId l).trans (h.metaId l)

/-- No change is a change by the identity. -/
theorem SameSettings.changed {w w' : World L} (h : SameSettings S i w w') :
    Changed S i (fun s => s) w w' := ⟨h.settings, h.find, h.metaId⟩

/-- Where `m` returns and no start or stop has failed in it, it relates the states by `R`. -/
def Achieves (m : Action L α) (R : World L → α → World L → Prop) : Prop :=
  ∀ w a w', m.exec w = (.ok a, w') →
    failCount w ≤ failCount w' ∧ (failCount w' = failCount w → R w a w')

section Achieves

variable {β : Type} {m : Action L α} {R R' : World L → α → World L → Prop}

/-- A result may be weakened. -/
theorem Achieves.mono (h : Achieves m R) (hR : ∀ w a w', R w a w' → R' w a w') :
    Achieves m R' := fun w a w' he =>
  ⟨(h w a w' he).1, fun hfail => hR w a w' ((h w a w' he).2 hfail)⟩

/-- A value that is returned leaves the world. -/
theorem achieves_pure {a : α} (h : ∀ w, R w a w) : Achieves (pure a : Action L α) R := by
  rintro w b w' ⟨⟩
  exact ⟨Nat.le_refl _, fun _ => h w⟩

/-- The rule of a sequence: the results of the two parts are composed. -/
theorem Achieves.bind {f : α → Action L β} {T : α → World L → β → World L → Prop}
    {Q : World L → β → World L → Prop} (hm : Achieves m R) (hf : ∀ a, Achieves (f a) (T a))
    (hQ : ∀ w a w' b w'', R w a w' → T a w' b w'' → Q w b w'') : Achieves (m >>= f) Q := by
  intro w b w'' he
  obtain ⟨a, w', hm', hf'⟩ := exec_bind_eq_ok he
  obtain ⟨hle, hR⟩ := hm w a w' hm'
  obtain ⟨hle', hT⟩ := hf a w' b w'' hf'
  refine ⟨Nat.le_trans hle hle', fun hfail => ?_⟩
  have hmid : failCount w' = failCount w := Nat.le_antisymm (hfail ▸ hle') hle
  exact hQ w a w' b w'' (hR hmid) (hT (hfail.trans hmid.symm))

/-- The continuation may use the state that was read. -/
theorem achieves_get_bind {f : World L → Action L β} {Q : World L → β → World L → Prop}
    (hf : ∀ w, Achieves (f w) fun w' b w'' => w' = w → Q w' b w'') :
    Achieves (world >>= f) Q := fun w b w' he =>
  ⟨(hf w w b w' he).1, fun hfail => (hf w w b w' he).2 hfail rfl⟩

/-- What leaves the settings achieves that they are the same. -/
theorem achieves_of_steady (hm : Keeps (Steady S i) m) :
    Achieves m fun w _ w' => SameSettings S i w w' := by
  intro w a w' he
  have h := hm w
  rw [he] at h
  exact h

/-- A field that is set changes the settings as the function on the instance says. -/
theorem achieves_setInstance {f : PluginInstance → PluginInstance} {g : Settings → Settings}
    (hf : ∀ inst, (f inst).settings = g inst.settings) :
    Achieves (setInstance i f : Action L Unit) fun w _ w' => Changed S i g w w' := by
  rintro w _ w' ⟨⟩
  refine ⟨Nat.le_refl _, fun _ => ⟨?_, rfl, fun _ => rfl⟩⟩
  exact (congrArg PluginInstance.settings (get_setInstance_self i f w)).trans (hf _)

/-- A setting is assigned and the row written. -/
theorem achieves_assign {f : PluginInstance → PluginInstance} {g : Settings → Settings}
    (hf : ∀ inst, (f inst).settings = g inst.settings) {m : Action L Unit}
    (hm : Keeps (Steady S i) m) :
    Achieves (do setInstance i f; m) fun w _ w' => Changed S i g w w' :=
  (achieves_setInstance hf).bind (fun _ => achieves_of_steady hm)
    fun _ _ _ _ _ h h' => h.trans h'.changed

/-- `update_id` sets the id in lower case, where one is given. -/
theorem achieves_updateId (newId : Option String) :
    Achieves (updateId S i newId) fun w _ w' =>
      Changed S i (fun s => { s with id := (newId.map S.lower).getD s.id }) w w' := by
  refine achieves_get_bind fun w => ?_
  cases newId with
  | none => exact achieves_pure fun w _ => ⟨rfl, rfl, fun _ => rfl⟩
  | some n =>
    show Achieves (if S.lower n = (w.instances.get i).id then pure () else _) _
    split
    · rename_i hn
      refine achieves_pure ?_
      rintro v rfl
      exact ⟨by simp [hn, settings], rfl, fun _ => rfl⟩
    · have hrename (old : String) : Keeps (Steady S i) (renameRow (S.lower n) old) := by
        refine keeps_bind keeps_get fun w => ?_
        split
        · exact keeps_pure ()
        · exact keeps_ite (keeps_throw _)
            (steady_modify (fun _ => rfl) fun w => { SameSettings.refl S i w with })
      refine Achieves.mono (R := fun w _ w' =>
        Changed S i (fun s => { s with id := S.lower n }) w w') ?_ fun _ _ _ h _ => h
      refine achieves_get_bind fun w' => (achieves_of_steady (hrename _)).bind
        (fun _ => achieves_setInstance (S := S) (g := fun s => { s with id := S.lower n })
          fun _ => rfl) fun _ _ _ _ _ h h' _ => h.changed.trans h'

/-- `update_enabled` sets the flag that is given, and keeps the old one for `None`. -/
theorem achieves_updateEnabled (enabled : Option Bool) :
    Achieves (updateEnabled i enabled) fun w _ w' =>
      Changed S i (fun s => { s with enabled := enabled.getD s.enabled }) w w' := by
  refine achieves_get_bind fun w => ?_
  cases enabled with
  | none => exact achieves_pure fun w _ => ⟨rfl, rfl, fun _ => rfl⟩
  | some e =>
    show Achieves (if e = (w.instances.get i).enabled then pure () else _) _
    split
    · rename_i he
      refine achieves_pure ?_
      rintro v rfl
      exact ⟨by simp [he, settings], rfl, fun _ => rfl⟩
    · exact (achieves_assign (fun _ => rfl) steady_update).mono fun _ _ _ h _ => h

/-- `update_config` sets the text that is given, with a hook that saves nothing of its own. -/
theorem achieves_updateConfig (config : Option String) {onUpdate : Hook}
    (hsaves : onUpdate.saves = []) :
    Achieves (updateConfig i config onUpdate) fun w _ w' =>
      Changed S i (fun s => { s with configStr := config.getD s.configStr }) w w' := by
  refine achieves_get_bind fun w => ?_
  cases config with
  | none => exact achieves_pure fun w _ => ⟨rfl, rfl, fun _ => rfl⟩
  | some c =>
    show Achieves (if (w.instances.get i).configStr = c then pure () else _) _
    split
    · rename_i hc
      refine achieves_pure ?_
      rintro v rfl
      exact ⟨by simp [hc, settings], rfl, fun _ => rfl⟩
    · have hnotify : Keeps (Steady S i) (do notifyPlugin i onUpdate; update i) := by
        refine keeps_bind (keeps_bind keeps_get fun w => ?_) fun _ => steady_update
        split
        · exact steady_runHook _ hsaves
        · exact keeps_pure ()
      exact (achieves_assign (fun _ => rfl) hnotify).mono fun _ _ _ h _ => h

/-- A start that reports nothing has started the instance if it is enabled, and does nothing
    otherwise. -/
theorem achieves_start {env : StartEnv} (henv : env.KeepsConfig) :
    Achieves (start S i env) fun w _ w' => SameSettings S i w w' ∧
      ((w.instances.get i).enabled = true → (w'.instances.get i).started = true) ∧
      ((w.instances.get i).enabled = false → w' = w) := by
  intro w _ w' he
  obtain ⟨hle, hsame⟩ := achieves_of_steady (steady_start henv) w _ w' he
  refine ⟨hle,
    fun hfail => ⟨hsame hfail, fun hen => start_started henv hen he hfail, fun hdis => ?_⟩⟩
  rw [start_of_disabled hdis] at he
  exact (Prod.ext_iff.mp he).2.symm

/-- A stop that reports nothing has stopped it. -/
theorem achieves_stop (env : StopEnv) :
    Achieves (stop i env) fun w _ w' => SameSettings S i w w' ∧
      (w'.instances.get i).started = false := by
  intro w _ w' he
  obtain ⟨hle, hsame⟩ := achieves_of_steady (S := S) (steady_stop (i := i) env) w _ w' he
  refine ⟨hle, fun hfail => ⟨hsame hfail, ?_⟩⟩
  have := stop_stopped (i := i) S env w
  rwa [he] at this

/-- `update_started` brings an instance to the state that is asked for, as far as it is enabled. -/
theorem achieves_updateStarted (started : Option Bool) {env : StopEnv × StartEnv}
    (henv : env.2.KeepsConfig) :
    Achieves (updateStarted S i started env) fun w _ w' => SameSettings S i w w' ∧
      (started = some true → (w.instances.get i).enabled = true →
        (w'.instances.get i).started = true) ∧
      (started = some false → (w'.instances.get i).started = false) := by
  refine achieves_get_bind fun w => ?_
  cases started with
  | none => exact achieves_pure fun w _ => ⟨.refl S i w, by simp, by simp⟩
  | some b =>
    show Achieves (if b = (w.instances.get i).started then pure () else
      if b = true then start S i env.2 else stop i env.1) _
    split
    · rename_i hb
      refine achieves_pure ?_
      rintro v rfl
      exact ⟨.refl S i v, fun h _ => by rw [← hb]; simpa using h,
        fun h => by rw [← hb]; simpa using h⟩
    · cases b with
      | true => exact (achieves_start henv).mono fun _ _ _ h _ => ⟨h.1, fun _ => h.2.1, by simp⟩
      | false => exact (achieves_stop env.1).mono fun _ _ _ h _ => ⟨h.1, by simp, fun _ => h.2⟩

/-- An instance that leaves its client keeps its settings. -/
theorem steady_removeFromClient : Keeps (Steady S i) (removeFromClient S i) := by
  refine keeps_bind keeps_get fun w => ?_
  split
  · exact keeps_pure ()
  split
  · exact steady_modify (fun _ => rfl) fun w => { SameSettings.refl S i w with }
  · exact keeps_bind (fun w => ⟨by simp [report, failCount, Failure.isStartStop],
      fun _ => { SameSettings.refl S i w with }⟩) fun _ => keeps_throw _

/-- One that leaves its loader keeps them too. -/
theorem steady_removeFromLoader : Keeps (Steady S i) (removeFromLoader S i) := by
  refine keeps_bind keeps_get fun w => ?_
  split
  · exact keeps_pure ()
  split
  · exact steady_modify (fun _ => rfl) fun w => { SameSettings.refl S i w with }
  · exact keeps_bind (fun w => ⟨by simp [report, failCount, Failure.isStartStop],
      fun _ => { SameSettings.refl S i w with }⟩) fun _ => keeps_throw _

/-- The instance runs just if it is enabled. -/
def RunsIfEnabled (i : Ref) (w : World L) : Prop :=
  (w.instances.get i).started = (w.instances.get i).enabled

/-- A stop, an assignment, and steady steps before a start. -/
theorem achieves_restart {f : World L → PluginInstance → PluginInstance}
    {g : World L → Settings → Settings} (hf : ∀ v inst, (f v inst).settings = g v inst.settings)
    (hfs : ∀ v inst, (f v inst).started = inst.started) {m : Action L Unit}
    (hm : Keeps (Steady S i) m) (hdown : Keeps (Down L i) m) {env : StopEnv × StartEnv}
    (henv : env.2.KeepsConfig) :
    Achieves (do stop i env.1; let v ← world; setInstance i (f v); m; start S i env.2)
      fun w _ w' => (∃ v, LinksUnchanged S w v ∧ Changed S i (g v) w w') ∧ RunsIfEnabled i w' := by
  -- down after the stop, and still down when the start begins
  have hstop : Achieves (stop i env.1) fun w _ v => LinksUnchanged S w v ∧ SameSettings S i w v ∧
      (v.instances.get i).started = false := by
    intro w _ v he
    obtain ⟨hle, h⟩ := achieves_stop (S := S) env.1 w _ v he
    have hlinks := links_stop (S := S) i env.1 w
    rw [he] at hlinks
    exact ⟨hle, fun hfail => ⟨hlinks, h hfail⟩⟩
  have hsteps : Achieves m fun w _ v => SameSettings S i w v ∧
      ((w.instances.get i).started = false → (v.instances.get i).started = false) := by
    intro w _ v he
    have hd := hdown w
    obtain ⟨hle, h⟩ := achieves_of_steady hm w _ v he
    rw [he] at hd
    exact ⟨hle, fun hfail => ⟨h hfail, hd⟩⟩
  have hlast : Achieves (do m; start S i env.2) fun w _ w' => SameSettings S i w w' ∧
      ((w.instances.get i).started = false → RunsIfEnabled i w') := by
    refine hsteps.bind (fun _ => achieves_start henv) fun w _ v _ w' h h' =>
      ⟨h.1.trans S h'.1, fun hst => ?_⟩
    have hen : (w'.instances.get i).enabled = (v.instances.get i).enabled :=
      congrArg Settings.enabled h'.1.settings
    cases hv : (v.instances.get i).enabled with
    | true => exact (h'.2.1 hv).trans (hen.trans hv).symm
    | false =>
      obtain rfl := h'.2.2 hv
      exact (h.2 hst).trans hv.symm
  have hassign : Achieves (do let v ← world; setInstance i (f v); m; start S i env.2)
      fun w _ w' => Changed S i (g w) w w' ∧
        ((w.instances.get i).started = false → RunsIfEnabled i w') := by
    have hset (v : World L) : Achieves (setInstance i (f v)) fun w _ w' =>
        Changed S i (g v) w w' ∧
          (w'.instances.get i).started = (w.instances.get i).started := by
      intro w _ w' he
      obtain ⟨hle, h⟩ := achieves_setInstance (S := S) (hf v) w _ w' he
      refine ⟨hle, fun hfail => ⟨h hfail, ?_⟩⟩
      cases he
      exact (congrArg PluginInstance.started (get_setInstance_self i (f v) w)).trans (hfs v _)
    refine achieves_get_bind fun v => (hset v).bind (fun _ => hlast) ?_
    rintro w _ _ _ _ h h' rfl
    exact ⟨h.1.trans h'.1.changed, fun hst => h'.2 (h.2.trans hst)⟩
  exact hstop.bind (fun _ => hassign) fun _ _ v _ _ h h' =>
    ⟨⟨v, h.1, h.2.1.changed.trans h'.1⟩, h'.2 h.2.2⟩

/-- Other fields than `started` may be set on a stopped instance. -/
theorem down_setInstance {f : PluginInstance → PluginInstance}
    (hf : ∀ inst, (f inst).started = inst.started) :
    Keeps (Down L i) (setInstance i f : Action L Unit) := fun w hw =>
  (congrArg PluginInstance.started (get_setInstance_self i f w)).trans ((hf _).trans hw)

/-- A removal of a reference touches no instance. -/
theorem down_removeFromClient : Keeps (Down L i) (removeFromClient S i) := by
  refine keeps_bind keeps_get fun w => ?_
  split
  · exact keeps_pure ()
  split
  · exact keeps_modify fun _ hw => hw
  · exact keeps_bind (keeps_modify fun _ hw => hw) fun _ => keeps_throw _

/-- An instance that leaves its loader is not started by that. -/
theorem down_removeFromLoader : Keeps (Down L i) (removeFromLoader S i) := by
  refine keeps_bind keeps_get fun w => ?_
  split
  · exact keeps_pure ()
  split
  · exact keeps_modify fun _ hw => hw
  · exact keeps_bind (keeps_modify fun _ hw => hw) fun _ => keeps_throw _

/-- The client is switched to the one that was found, under its id. -/
theorem achieves_switchClient (c : Ref) {env : StopEnv × StartEnv} (henv : env.2.KeepsConfig) :
    Achieves (switchClient S i c env) fun w _ w' =>
      Changed S i (fun s => { s with primaryUser := (w.clients.get c).id }) w w' := by
  have hsteps : Keeps (Steady S i) (do
      removeFromClient S i
      setInstance i fun inst => { inst with client := some c }
      addToClient S i c
      update i) :=
    keeps_bind steady_removeFromClient fun _ => keeps_bind (steady_setInstance fun _ => rfl)
      fun _ => keeps_bind (steady_addToClient c) fun _ => steady_update
  have hdown : Keeps (Down L i) (do
      removeFromClient S i
      setInstance i fun inst => { inst with client := some c }
      addToClient S i c
      update i) :=
    keeps_bind down_removeFromClient fun _ => keeps_bind (down_setInstance fun _ => rfl)
      fun _ => keeps_bind (keeps_bind keeps_get fun _ => keeps_modify fun _ hw => hw) fun _ =>
        down_of_quiet (S := S) (quiet_update i)
  have h := achieves_restart (S := S) (i := i)
    (f := fun v inst => { inst with primaryUser := (v.clients.get c).id })
    (g := fun v s => { s with primaryUser := (v.clients.get c).id }) (fun _ _ => rfl)
    (fun _ _ => rfl) hsteps hdown henv
  simp only [bind_assoc] at h
  refine h.mono ?_
  rintro w _ w' ⟨⟨v, hv, hchanged⟩, _⟩
  rwa [hv.clients] at hchanged

/-- The loader is switched to the plugin that was found, and an enabled instance runs again. -/
theorem achieves_switchLoader (l : Ref) {env : StopEnv × StartEnv} (henv : env.2.KeepsConfig) :
    Achieves (switchLoader S i l env) fun w _ w' =>
      Changed S i (fun s => { s with type := (metaOf S w l).id }) w w' ∧ RunsIfEnabled i w' := by
  have hsteps : Keeps (Steady S i) (do
      removeFromLoader S i
      setInstance i fun inst => { inst with loader := some l }
      addToLoader S i l
      update i) :=
    keeps_bind steady_removeFromLoader fun _ => keeps_bind (steady_setInstance fun _ => rfl)
      fun _ => keeps_bind (steady_addToLoader l) fun _ => steady_update
  have hdown : Keeps (Down L i) (do
      removeFromLoader S i
      setInstance i fun inst => { inst with loader := some l }
      addToLoader S i l
      update i) :=
    keeps_bind down_removeFromLoader fun _ => keeps_bind (down_setInstance fun _ => rfl)
      fun _ => keeps_bind (keeps_bind keeps_get fun _ => keeps_modify fun _ hw => hw) fun _ =>
        down_of_quiet (S := S) (quiet_update i)
  have h := achieves_restart (S := S) (i := i)
    (f := fun v inst => { inst with type := (metaOf S v l).id })
    (g := fun v s => { s with type := (metaOf S v l).id }) (fun _ _ => rfl) (fun _ _ => rfl)
    hsteps hdown henv
  simp only [bind_assoc] at h
  refine h.mono ?_
  rintro w _ w' ⟨⟨v, hv, hchanged⟩, hstarted⟩
  rw [hv.metaId] at hchanged
  exact ⟨hchanged, hstarted⟩

/-- The client of the primary user exists. -/
def HasClient (w : World L) (u : String) : Prop :=
  (w.clientCache u).isSome = true ∨ (w.clientRows u).isSome = true

/-- A lookup that returns nothing has changed nothing; one that returns a client returns that of
    the id. -/
theorem achieves_getClient (u : String) :
    Achieves (Client.get S u none none none) fun w r w' =>
      (r = none → w' = w ∧ ¬ HasClient w u) ∧ ∀ c, r = some c → HasClient w u ∧
        SameSettings S i w w' ∧
        ((∀ u c, w.clientCache u = some c → (w.clients.get c).id = u) →
          (w'.clients.get c).id = u) := by
  intro w r w' he
  have hsteady := steady_getClient (S := S) (i := i) u w
  rw [he] at hsteady
  refine ⟨hsteady.1, fun hfail => ?_⟩
  have hsame := hsteady.2 hfail
  rcases Client.exec_get (S := S) u w with ⟨c, hc, he'⟩ | ⟨row, v, _, hrow, he', hm⟩ |
      ⟨hc, hrow, he'⟩ <;> rw [he] at he'
  · cases he'
    refine ⟨by simp, ?_⟩
    rintro x ⟨⟩
    exact ⟨Or.inl (by rw [hc]; rfl), hsame, fun hknown => hknown u c hc⟩
  · cases he'
    refine ⟨by simp, ?_⟩
    rintro x ⟨⟩
    exact ⟨Or.inr (by rw [hrow]; rfl), hsame, fun _ => hm.id⟩
  · cases he'
    exact ⟨fun _ => ⟨rfl, by simp [HasClient, hc, hrow]⟩, by simp⟩

/-- What follows the lookup of a client, by what the lookup gives. -/
theorem achieves_switchFound (r : Option Ref) {env : StopEnv × StartEnv}
    (henv : env.2.KeepsConfig) :
    Achieves (match r with
      | none   => pure false
      | some c => do
        switchClient S i c env
        pure true : Action L Bool) fun w b w' =>
      (r = none → b = false ∧ w' = w) ∧ ∀ c, r = some c → b = true ∧
        Changed S i (fun s => { s with primaryUser := (w.clients.get c).id }) w w' := by
  cases r with
  | none => exact achieves_pure fun _ => by simp
  | some c =>
    refine (achieves_switchClient c henv).bind (fun _ => achieves_pure (R := fun w b w' =>
      b = true ∧ w' = w) fun _ => ⟨rfl, rfl⟩) ?_
    rintro w _ _ _ _ h ⟨rfl, rfl⟩
    refine ⟨by simp, ?_⟩
    rintro x ⟨⟩
    exact ⟨rfl, h⟩

/-- The update finds the client, or answers `false` and changes nothing. -/
theorem achieves_updatePrimaryUser (user : Option String) {env : StopEnv × StartEnv}
    (henv : env.2.KeepsConfig) :
    Achieves (updatePrimaryUser S i user env) fun w b w' =>
      (∀ u c, w.clientCache u = some c → (w.clients.get c).id = u) →
      (b = true → Changed S i (fun s => { s with primaryUser := user.getD s.primaryUser }) w w' ∧
        ∀ u, user = some u → u ≠ (w.instances.get i).primaryUser → HasClient w u) ∧
      (b = false → w' = w ∧
        ∃ u, user = some u ∧ u ≠ (w.instances.get i).primaryUser ∧ ¬ HasClient w u) := by
  refine achieves_get_bind fun w => ?_
  cases user with
  | none => exact achieves_pure fun w _ _ => ⟨fun _ => ⟨⟨rfl, rfl, fun _ => rfl⟩, by simp⟩, by simp⟩
  | some u =>
    show Achieves (if u = (w.instances.get i).primaryUser then pure true else _) _
    split
    · rename_i hu
      refine achieves_pure ?_
      rintro v rfl _
      exact ⟨fun _ => ⟨⟨by simp [hu, settings], rfl, fun _ => rfl⟩, by simp [hu]⟩, by simp⟩
    · rename_i hu
      -- the client is looked for first; only if there is one the instance goes over
      refine (achieves_getClient (i := i) u).bind (fun r => achieves_switchFound r henv) ?_
      rintro v r v' b v'' hget hsw rfl hknown
      cases r with
      | none =>
        obtain ⟨rfl, hmissing⟩ := hget.1 rfl
        obtain ⟨rfl, rfl⟩ := hsw.1 rfl
        exact ⟨by simp, fun _ => ⟨rfl, u, rfl, hu, hmissing⟩⟩
      | some c =>
        obtain ⟨hhas, hsame, hid⟩ := hget.2 c rfl
        obtain ⟨rfl, hchanged⟩ := hsw.2 c rfl
        rw [hid hknown] at hchanged
        refine ⟨fun _ => ⟨hsame.changed.trans hchanged, ?_⟩, by simp⟩
        rintro x ⟨⟩ _
        exact hhas

/-- The update finds the loader and restarts the plugin, or changes nothing. -/
theorem achieves_updateType (type : Option String) {env : StopEnv × StartEnv}
    (henv : env.2.KeepsConfig) :
    Achieves (updateType S i type env) fun w _ w' =>
      (∀ t, type = some t → t ≠ (w.instances.get i).type →
        ∀ l, S.loaders.find w.loaders t = some l →
        Changed S i (fun s => { s with type := (metaOf S w l).id }) w w' ∧ RunsIfEnabled i w') ∧
      ((∀ t, type = some t → t = (w.instances.get i).type ∨ S.loaders.find w.loaders t = none) →
        w' = w) := by
  refine achieves_get_bind fun w => ?_
  cases type with
  | none => exact achieves_pure fun w _ => ⟨by simp, fun _ => rfl⟩
  | some t =>
    show Achieves (if t = (w.instances.get i).type then pure true else _) _
    split
    · rename_i ht
      refine achieves_pure ?_
      rintro v rfl
      refine ⟨?_, fun _ => rfl⟩
      rintro x ⟨⟩ hx
      exact absurd ht hx
    · rename_i ht
      -- a type without a loader is refused before anything is stopped
      cases hl : S.loaders.find w.loaders t with
      | none =>
        refine achieves_pure ?_
        rintro v rfl
        refine ⟨?_, fun _ => rfl⟩
        rintro x ⟨⟩ _ l hl'
        rw [hl] at hl'
        cases hl'
      | some l =>
        refine (achieves_switchLoader l henv).bind (fun _ => achieves_pure (R := fun w b w' =>
          w' = w) fun _ => rfl) ?_
        rintro v _ _ _ _ h rfl rfl
        refine ⟨?_, fun hno => ?_⟩
        · rintro x ⟨⟩ _ l' hl'
          rw [hl] at hl'
          cases hl'
          exact h
        · rcases hno t rfl with he | he
          · exact absurd he ht
          · rw [hl] at he
            cases he

end Achieves

end PluginInstance

end Maubot
