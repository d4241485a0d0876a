import Maubot.Instance.Basic
import Maubot.Client.Lookup

namespace Maubot

open Prog

/-!
# Plugin instances — what starting and stopping can raise

`start` and `stop` pass on what they do not handle.  If all that a call meets are
`Exception`s, in Python's sense, so is what it raises (`exceptions_start`,
`exceptions_stop`).

* `StartEnv.exceptions`, `StopEnv.exceptions` — what the code around a call may raise;
* `Exceptions m` — `m` raises only `Exception`s.
-/

variable {L : Type} {S : Setup L}

/-- Only `Exception`s are raised. -/
abbrev Exceptions {σ α : Type} (m : Prog σ PyExc α) : Prop := Raises (·.isException = true) m

/-! ### What a call meets -/

def Attribute.exceptions (a : Attribute) : List PyExc := a.webHandlers.filterMap (·.refused)

def Hook.exceptions (h : Hook) : List PyExc :=
  h.registers.flatten.flatMap Attribute.exceptions ++ h.raises.toList

/-- The exception of an outcome. -/
def raisedBy {α : Type} (x : Except PyExc α) : List PyExc :=
  match x with
  | .ok _    => []
  | .error e => [e]

def StartEnv.exceptions (env : StartEnv) : List PyExc :=
  env.upgradeTable.toList ++ env.createDatabase.toList ++ env.startDatabase.toList ++
    raisedBy env.configClass ++ env.baseConfig.toList ++ env.construct.toList ++
    env.attributes.flatMap Attribute.exceptions ++ env.preStart.exceptions ++ env.start.exceptions

def StopEnv.exceptions (env : StopEnv) : List PyExc :=
  env.preStop.toList ++ env.stop.toList ++ env.stopDatabase.toList

/-- All of them are `Exception`s. -/
def Proper (raised : List PyExc) : Prop := ∀ e ∈ raised, e.isException = true

/-- Exceptions of two kinds are proper if both kinds are. -/
theorem Proper.append {a b : List PyExc} (h : Proper (a ++ b)) : Proper a ∧ Proper b :=
  ⟨fun e he => h e (List.mem_append_left _ he), fun e he => h e (List.mem_append_right _ he)⟩

/-- A proper exception may be raised, -/
theorem exceptions_raiseIf {σ : Type} {x : Option PyExc} (h : Proper x.toList) :
    Exceptions (raiseIf x : Prog σ PyExc Unit) :=
  raises_raiseIf fun e he => h e (by rw [he]; exact List.mem_singleton_self e)

/-- and a proper outcome had. -/
theorem exceptions_outcome {σ α : Type} {x : Except PyExc α} (h : Proper (raisedBy x)) :
    Exceptions (outcome x : Prog σ PyExc α) :=
  raises_outcome fun e he => h e (by rw [he]; exact List.mem_singleton_self e)

/-- An exception that is raised inside `try … except Exception`. -/
theorem exceptions_attempt {σ α : Type} {p : PyExc → Bool} {m : Prog σ PyExc α}
    (h : Exceptions m) : Exceptions (attempt p m) :=
  raises_attempt (h.mono fun _ he _ => he)

/-- `try … except Exception` around a program that raises nothing else. -/
theorem returns_handled {σ α : Type} {m : Prog σ PyExc α} (h : Exceptions m) :
    Returns (attempt PyExc.isException m) :=
  raises_attempt (h.mono fun e he hn => by rw [he] at hn; cases hn)

namespace PluginInstance

variable {i : Ref}

/-! ### Rows and attributes -/

/-- The table raises an `Exception`, -/
theorem exceptions_update : Exceptions (update i : Action L Unit) :=
  raises_bind raises_get fun _ => raises_ite (raises_pure ()) <|
    raises_ite (raises_throw rfl) (raises_modify _)

/-- when the flag is saved -/
theorem exceptions_updateEnabled (e : Option Bool) :
    Exceptions (updateEnabled i e : Action L Unit) := by
  refine raises_bind raises_get fun w => ?_
  cases e with
  | none => exact raises_pure ()
  | some b =>
    exact raises_ite (raises_pure ()) (raises_bind (raises_modify _) fun _ => exceptions_update)

/-- or the engine. -/
theorem exceptions_updateDbEngine (e : Option DatabaseEngine) :
    Exceptions (updateDbEngine i e : Action L Unit) := by
  refine raises_bind raises_get fun w => ?_
  cases e with
  | none => exact raises_pure ()
  | some b =>
    exact raises_ite (raises_pure ()) (raises_bind (raises_modify _) fun _ => exceptions_update)

/-- An attribute of `None` raises one, of the loader -/
theorem exceptions_theLoader : Exceptions (theLoader i : Action L Ref) := by
  refine raises_bind raises_get fun w => ?_
  split
  · exact raises_pure _
  · exact raises_throw rfl

/-- or of the client. -/
theorem exceptions_theClient : Exceptions (theClient i : Action L Ref) := by
  refine raises_bind raises_get fun w => ?_
  split
  · exact raises_pure _
  · exact raises_throw rfl

/-! ### Load -/

/-- A web app is mounted without one -/
theorem returns_enableWebapp (i : Ref) : Returns (enableWebapp S i) := by
  refine raises_bind raises_get fun w => raises_bind ?_ fun _ => raises_modify _
  refine raises_bind raises_get fun v => ?_
  split
  · exact raises_pure _
  · exact raises_bind (raises_modify _) fun _ => raises_pure _

/-- and taken off without one. -/
theorem returns_disableWebapp (i : Ref) : Returns (disableWebapp S i) := by
  refine raises_bind raises_get fun w => raises_bind ?_ fun _ => raises_modify _
  refine raises_bind raises_get fun v => ?_
  split
  · exact raises_pure _
  · exact raises_bind (raises_modify _) fun _ => raises_modify _

/-- A client that is only looked up raises nothing. -/
theorem returns_getClient (u : String) : Returns (Client.get S u none none none) := by
  intro w e he
  rcases Client.exec_get (S := S) u w with ⟨c, -, h⟩ | ⟨row, w', -, -, h, -⟩ | ⟨-, -, h⟩ <;>
    rw [h] at he <;> cases he

/-- Hence `load` raises an `Exception` at most. -/
theorem exceptions_load : Exceptions (load S i) := by
  have hdisable {x : Failure} : Exceptions (do
      report x
      updateEnabled i (some false)
      pure false : Action L Bool) :=
    raises_bind (raises_modify _) fun _ =>
      raises_bind (exceptions_updateEnabled _) fun _ => raises_pure _
  have hloader : Exceptions (loadLoader S i) := by
    refine raises_bind raises_get fun w => raises_ite (raises_pure _) ?_
    split
    · exact raises_bind (raises_modify _) fun _ => raises_pure _
    · exact hdisable
  have hclient : Exceptions (loadClient S i) :=
    raises_bind raises_get fun w => raises_ite (raises_pure _) <|
      raises_bind ((returns_getClient _).mono fun _ h => h.elim) fun c =>
        raises_bind (raises_modify _) fun _ => raises_ite (raises_pure _) hdisable
  have hreferences : Exceptions (loadReferences S i) :=
    raises_bind exceptions_theLoader fun l => raises_bind raises_get fun w =>
      raises_bind (raises_when ((returns_enableWebapp i).mono fun _ h => h.elim)) fun _ =>
      raises_bind (raises_bind raises_get fun _ => raises_modify _) fun _ =>
      raises_bind exceptions_theClient fun c => raises_bind raises_get fun _ => raises_modify _
  exact raises_bind hloader fun b => raises_ite
    (raises_bind hclient fun b => raises_ite
      (raises_bind hreferences fun _ => raises_pure _) (raises_pure _)) (raises_pure _)

/-! ### Start -/

/-- So does a database that is started, -/
theorem exceptions_startDatabase {sqliteDbExists : Bool} {create start : Option PyExc}
    (hc : Proper create.toList) (hs : Proper start.toList) :
    Exceptions (startDatabase S i sqliteDbExists create (some start)) := by
  have hset (db : InstDb) : Exceptions (setInstDb i create db : Action L Unit) :=
    raises_bind (exceptions_raiseIf hc) fun _ => raises_modify _
  refine raises_bind exceptions_theLoader fun l => raises_bind raises_get fun w => ?_
  split
  · refine raises_bind (raises_bind raises_get fun v => ?_) fun _ => hset _
    split
    · exact exceptions_updateDbEngine _
    · exact raises_throw rfl
    · exact raises_pure ()
  · refine raises_bind (raises_bind raises_get fun v => ?_) fun _ => raises_bind ?_ fun _ =>
      exceptions_raiseIf hs
    · split
      · exact raises_pure ()
      · exact raises_ite (exceptions_updateDbEngine _) (exceptions_updateDbEngine _)
    · exact raises_bind raises_get fun v =>
        raises_ite (raises_ite (hset _) (raises_throw rfl)) (hset _)
  · exact raises_throw rfl

/-- a registration of handlers, -/
theorem exceptions_registerHandlerClass (p : Ref) {obj : List Attribute}
    (h : Proper (obj.flatMap Attribute.exceptions)) :
    Exceptions (Plugin.registerHandlerClass p obj : Action L Unit) := by
  refine raises_forM fun a ha => raises_ite ?_ (raises_pure ())
  refine raises_bind (raises_forM fun t _ => ?_) fun _ => raises_bind raises_get fun w => ?_
  · exact raises_bind (raises_modify _) fun _ => raises_bind raises_get fun _ => raises_modify _
  · split
    · exact raises_pure ()
    · refine raises_forM fun x hx => raises_bind (exceptions_raiseIf ?_) fun _ => raises_modify _
      intro e he
      refine h e (List.mem_flatMap.mpr ⟨a, ha, List.mem_filterMap.mpr ⟨x, hx, ?_⟩⟩)
      exact Option.mem_toList.mp he

/-- and a hook, if what the plugin raises is proper. -/
theorem exceptions_runHook (p : Ref) {h : Hook} (hh : Proper h.exceptions) :
    Exceptions (Plugin.runHook (saveConfig i) p h : Action L Unit) := by
  obtain ⟨hregisters, hraises⟩ := hh.append
  refine raises_bind (raises_forM fun obj hobj => ?_) fun _ =>
    raises_bind (raises_forM fun val _ => ?_) fun _ => exceptions_raiseIf hraises
  · refine exceptions_registerHandlerClass p fun e he => ?_
    obtain ⟨a, ha, hea⟩ := List.mem_flatMap.mp he
    exact hregisters e (List.mem_flatMap.mpr ⟨a, List.mem_flatten_of_mem hobj ha, hea⟩)
  · exact raises_bind raises_get fun w => raises_ite (raises_pure ()) <|
      raises_bind (raises_modify _) fun _ =>
      raises_bind ((returns_attempt _).mono fun _ h => h.elim) fun _ => raises_pure ()

/-- **Start.**  What it raises are `Exception`s if those around it are. -/
theorem exceptions_start (hload : ∀ l, Exceptions (S.loaders.load l)) {env : StartEnv}
    (henv : Proper env.exceptions) : Exceptions (start S i env) := by
  obtain ⟨henv, hstart⟩ := henv.append
  obtain ⟨henv, hpreStart⟩ := henv.append
  obtain ⟨henv, hattributes⟩ := henv.append
  obtain ⟨henv, hconstruct⟩ := henv.append
  obtain ⟨henv, hbaseConfig⟩ := henv.append
  obtain ⟨henv, hconfigClass⟩ := henv.append
  obtain ⟨henv, hstartDatabase⟩ := henv.append
  obtain ⟨hupgradeTable, hcreateDatabase⟩ := henv.append
  -- each part of `start` raises exceptions only, since its dependencies do
  have hadjust (l : Ref) : Exceptions (adjustWebapp S i l) :=
    raises_bind raises_get fun w =>
      raises_ite ((returns_enableWebapp i).mono fun _ h => h.elim) <|
      raises_ite ((returns_disableWebapp i).mono fun _ h => h.elim) (raises_pure ())
  have hopen (l : Ref) : Exceptions (openDatabase S i l env) := by
    refine raises_bind raises_get fun w => raises_ite ?_ (raises_pure _)
    refine raises_bind (exceptions_attempt ?_) fun r => ?_
    · exact raises_bind (exceptions_raiseIf hupgradeTable) fun _ =>
        exceptions_startDatabase hcreateDatabase hstartDatabase
    · cases r with
      | ok _ => exact raises_pure _
      | error _ =>
        exact raises_bind (raises_modify _) fun _ =>
          raises_bind (exceptions_updateEnabled _) fun _ => raises_pure _
  have hconfig : Exceptions (readConfig i env : Action L Unit) :=
    raises_bind (exceptions_outcome hconfigClass) fun b => raises_ite
      (raises_bind (exceptions_attempt (exceptions_raiseIf hbaseConfig)) fun _ => raises_modify _)
      (raises_pure ())
  have hmake (l cls : Ref) : Exceptions (construct i l cls env : Action L Ref) :=
    raises_bind exceptions_theClient fun c => raises_bind (exceptions_raiseIf hconstruct) fun _ =>
      raises_bind raises_get fun w => raises_bind (raises_modify _) fun _ =>
      raises_bind (raises_modify _) fun _ => raises_pure _
  have hplugin (p : Ref) : Exceptions (startPlugin i p env : Action L Unit) := by
    refine raises_bind (exceptions_attempt ?_) fun r => ?_
    · exact raises_bind (exceptions_runHook p hpreStart) fun _ =>
        raises_bind (exceptions_registerHandlerClass p hattributes) fun _ =>
        exceptions_runHook p hstart
    · cases r with
      | ok _ => exact raises_modify _
      | error _ => exact raises_bind (raises_modify _) fun _ => exceptions_updateEnabled _
  refine raises_bind raises_get fun w => raises_ite (raises_pure ()) <|
    raises_ite (raises_pure ()) <| raises_bind ?_ fun b => raises_ite ?_ (raises_pure ())
  · -- the loader was missing, and is looked for once more
    exact raises_bind raises_get fun w => raises_ite exceptions_load (raises_pure _)
  · -- and then the parts follow each other
    exact raises_bind exceptions_theLoader fun l =>
      raises_bind (raises_zoom (hload l)) fun cls => raises_bind (hadjust l) fun _ =>
      raises_bind (hopen l) fun b => raises_ite
        (raises_bind hconfig fun _ => raises_bind (hmake l cls) fun p => hplugin p) (raises_pure ())

/-! ### Stop -/

/-- **Stop.**  A plugin that raises only `Exception`s does not make `stop` raise. -/
theorem returns_stop {env : StopEnv} (hpreStop : Proper env.preStop.toList)
    (hstop : Proper env.stop.toList) (hdatabase : Proper env.stopDatabase.toList) :
    Returns (stop i env : Action L Unit) := by
  have hlogged {x : Failure} {m : Action L Unit} (hm : Exceptions m) : Returns (logged x m) := by
    refine raises_bind (returns_handled hm) fun r => ?_
    cases r with
    | ok _ => exact raises_pure ()
    | error _ => exact raises_modify _
  have hplugin : Exceptions (stopPlugin i env : Action L Unit) := by
    refine raises_bind raises_get fun w => ?_
    split
    · refine raises_bind (exceptions_raiseIf hpreStop) fun _ =>
        raises_bind
          (raises_bind raises_get fun _ => raises_forM fun _ _ => raises_modify _) fun _ =>
        raises_bind (raises_bind raises_get fun v => ?_) fun _ => exceptions_raiseIf hstop
      split
      · exact raises_pure ()
      · exact raises_modify _
    · exact raises_throw rfl
  refine raises_bind raises_get fun w => raises_ite ?_ (raises_pure ())
  refine raises_bind (raises_modify _) fun _ => raises_bind (hlogged hplugin) fun _ =>
    raises_bind (raises_modify _) fun _ => raises_bind raises_get fun v =>
    raises_ite (hlogged (raises_bind raises_get fun u => ?_)) (raises_pure ())
  split
  · exact exceptions_raiseIf hdatabase
  · exact raises_throw rfl

end PluginInstance

end Maubot
