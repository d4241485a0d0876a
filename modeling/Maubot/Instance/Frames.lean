import Maubot.Instance.Basic

namespace Maubot

open Prog

/-!
# Plugin instances — what a call leaves alone

Most steps of `start` and `stop` touch neither the links between the objects nor the
identity of the instances:

* `Quiet S` — settings, rows and databases may change, with a lemma for each step that
  does no more (`quiet_update`, `quiet_openDatabase`, …);
* `Links S` — plugins may also start and stop (`links_startLoaded`, `links_stop`);
* the frames of the properties of instances are coarser than these, and take the lemmas
  over by `Keeps.mono`.
-/

variable {L : Type} (S : Setup L)

namespace PluginInstance

/-- The fields of an instance that a quiet step leaves alone. -/
def core (inst : PluginInstance) : PluginInstance :=
  { inst with
    enabled := false, configStr := "", databaseEngine := none, config := false, instDb := none }

/-- Nothing has changed but the settings of instances, the values in their rows, and what
    the loaders keep to themselves. -/
structure Unchanged (w w' : World L) : Prop where
  next             : w'.instances.next = w.instances.next
  core             : ∀ i, (w'.instances.get i).core = (w.instances.get i).core
  instanceCache    : w'.instanceCache = w.instanceCache
  rows             : ∀ k, (w'.instanceRows k).isSome = (w.instanceRows k).isSome
  clients          : w'.clients = w.clients
  clientCache      : w'.clientCache = w.clientCache
  clientRows       : w'.clientRows = w.clientRows
  matrixClients    : w'.matrixClients = w.matrixClients
  eventHandlers    : w'.eventHandlers = w.eventHandlers
  plugins          : w'.plugins = w.plugins
  webapps          : w'.webapps = w.webapps
  pluginRoutes     : w'.pluginRoutes = w.pluginRoutes
  loaderReferences : w'.loaderReferences = w.loaderReferences
  find             : S.loaders.find w'.loaders = S.loaders.find w.loaders
  metaId           : ∀ l, (metaOf S w' l).id = (metaOf S w l).id
  removals         : ∀ i, Failure.removeReference i ∈ w'.failures → .removeReference i ∈ w.failures

/-- Nothing has changed. -/
theorem Unchanged.refl (w : World L) : Unchanged S w w :=
  { next := rfl, core := fun _ => rfl, instanceCache := rfl, rows := fun _ => rfl, clients := rfl
    clientCache := rfl, clientRows := rfl, matrixClients := rfl, eventHandlers := rfl
    plugins := rfl, webapps := rfl, pluginRoutes := rfl, loaderReferences := rfl, find := rfl
    metaId := fun _ => rfl, removals := fun _ h => h }

/-- Two steps without a change are one. -/
theorem Unchanged.trans {w w' w'' : World L} (h : Unchanged S w w') (h' : Unchanged S w' w'') :
    Unchanged S w w'' where
  next := h'.next.trans h.next
  core i := (h'.core i).trans (h.core i)
  instanceCache := h'.instanceCache.trans h.instanceCache
  rows k := (h'.rows k).trans (h.rows k)
  clients := h'.clients.trans h.clients
  clientCache := h'.clientCache.trans h.clientCache
  clientRows := h'.clientRows.trans h.clientRows
  matrixClients := h'.matrixClients.trans h.matrixClients
  eventHandlers := h'.eventHandlers.trans h.eventHandlers
  plugins := h'.plugins.trans h.plugins
  webapps := h'.webapps.trans h.webapps
  pluginRoutes := h'.pluginRoutes.trans h.pluginRoutes
  loaderReferences := h'.loaderReferences.trans h.loaderReferences
  find := h'.find.trans h.find
  metaId l := (h'.metaId l).trans (h.metaId l)
  removals i hi := h.removals i (h'.removals i hi)

/-- The frame of a quiet step. -/
def Quiet : Frame (World L) where
  rel := Unchanged S
  refl := Unchanged.refl S
  trans := Unchanged.trans S

/-! ### Quiet steps -/

variable {S}

/-- Fields outside the core may be set. -/
theorem quiet_setInstance (i : Ref) {f : PluginInstance → PluginInstance}
    (hf : ∀ inst, (f inst).core = inst.core) : Keeps (Quiet S) (setInstance i f) := by
  intro w
  exact { Unchanged.refl S w with core := Store.view_modify _ _ _ core hf }

/-- Any failure may be reported but a reference that is not there. -/
theorem quiet_report {x : Failure} (hx : ∀ i, x ≠ .removeReference i) :
    Keeps (Quiet S) (report x) := by
  intro w
  exact { Unchanged.refl S w with
    removals := fun i hi => (List.mem_cons.mp hi).resolve_left (hx i).symm }

/-- The row of an instance may be written. -/
theorem quiet_update (i : Ref) : Keeps (Quiet S) (update i) := by
  refine keeps_get_bind fun w => ?_
  by_cases hrow : (w.instanceRows (w.instances.get i).id).isNone = true
  · rw [if_pos hrow]
    exact Unchanged.refl S w
  rw [if_neg hrow]
  by_cases hclient : (w.clientRows (w.instances.get i).primaryUser).isNone = true
  · rw [if_pos hclient]
    exact Unchanged.refl S w
  rw [if_neg hclient]
  refine { Unchanged.refl S w with rows := fun k => ?_ }
  show (Function.update w.instanceRows _ _ k).isSome = _
  rcases eq_or_ne k (w.instances.get i).id with rfl | hk
  · rw [Function.update_self]
    cases h : w.instanceRows (w.instances.get i).id with
    | none => exact absurd (by rw [h]; rfl) hrow
    | some _ => rfl
  · rw [Function.update_of_ne hk]

/-- `update_enabled` sets no field of the core. -/
theorem quiet_updateEnabled (i : Ref) (enabled : Option Bool) :
    Keeps (Quiet S) (updateEnabled i enabled) := by
  refine keeps_bind keeps_get fun w => ?_
  cases enabled with
  | none => exact keeps_pure ()
  | some e =>
    exact keeps_ite (keeps_pure ())
      (keeps_bind (quiet_setInstance i fun _ => rfl) fun _ => quiet_update i)

/-- Neither does `update_db_engine`. -/
theorem quiet_updateDbEngine (i : Ref) (dbEngine : Option DatabaseEngine) :
    Keeps (Quiet S) (updateDbEngine i dbEngine) := by
  refine keeps_bind keeps_get fun w => ?_
  cases dbEngine with
  | none => exact keeps_pure ()
  | some e =>
    exact keeps_ite (keeps_pure ())
      (keeps_bind (quiet_setInstance i fun _ => rfl) fun _ => quiet_update i)

/-- Nor does a config that is saved. -/
theorem quiet_saveConfig (i : Ref) (val : String) : Keeps (Quiet S) (saveConfig i val) := by
  refine keeps_bind keeps_get fun w => keeps_ite (keeps_pure ()) ?_
  refine keeps_bind (quiet_setInstance i fun _ => rfl) fun _ => ?_
  exact keeps_bind (keeps_attempt (quiet_update i) _) fun _ => keeps_pure ()

/-- A failure that is caught and logged is as quiet as what raised it. -/
theorem quiet_logged {x : Failure} (hx : ∀ i, x ≠ .removeReference i) {m : Action L Unit}
    (hm : Keeps (Quiet S) m) :
    Keeps (Quiet S) (logged x m) := by
  refine keeps_bind (keeps_attempt hm _) fun r => ?_
  cases r with
  | ok _ => exact keeps_pure ()
  | error _ => exact quiet_report hx

section Attributes

variable {w : World L} {i : Ref}

/-- The loader of an instance that has one. -/
theorem exec_theLoader {l : Ref} (hl : (w.instances.get i).loader = some l) :
    (theLoader i : Action L Ref).exec w = (.ok l, w) := by
  simp [theLoader, hl]

/-- Without a loader the attribute access raises. -/
theorem exec_theLoader_none (hl : (w.instances.get i).loader = none) :
    (theLoader i : Action L Ref).exec w = (.error { cls := .attributeError }, w) := by
  simp [theLoader, hl]

/-- The client of an instance that has one. -/
theorem exec_theClient {c : Ref} (hc : (w.instances.get i).client = some c) :
    (theClient i : Action L Ref).exec w = (.ok c, w) := by
  simp [theClient, hc]

/-- Without a client the attribute access raises. -/
theorem exec_theClient_none (hc : (w.instances.get i).client = none) :
    (theClient i : Action L Ref).exec w = (.error { cls := .attributeError }, w) := by
  simp [theClient, hc]

end Attributes

/-- The loader is only read. -/
theorem quiet_theLoader (i : Ref) : Keeps (Quiet S) (theLoader i) := by
  refine keeps_bind keeps_get fun w => ?_
  split
  · exact keeps_pure _
  · exact keeps_throw _

/-- So is the client. -/
theorem quiet_theClient (i : Ref) : Keeps (Quiet S) (theClient i) := by
  refine keeps_bind keeps_get fun w => ?_
  split
  · exact keeps_pure _
  · exact keeps_throw _

/-- A class that is loaded is the loader's own matter. -/
theorem quiet_loadClass (l : Ref) : Keeps (Quiet S) (loadClass S l) :=
  keeps_zoom ((S.loaders.load_find l).both (S.loaders.load_meta l)) fun w _ h =>
    { Unchanged.refl S w with find := h.1, metaId := congrFun h.2 }

/-- The engine may be chosen. -/
theorem quiet_chooseEngine (i : Ref) (sqliteDbExists : Bool) :
    Keeps (Quiet S) (chooseEngine S i sqliteDbExists) := by
  refine keeps_bind keeps_get fun w => ?_
  split
  · exact keeps_pure ()
  · exact keeps_ite (quiet_updateDbEngine i _) (quiet_updateDbEngine i _)

/-- It may be checked. -/
theorem quiet_checkLegacyEngine (i : Ref) : Keeps (Quiet S) (checkLegacyEngine i) := by
  refine keeps_bind keeps_get fun w => ?_
  split
  · exact quiet_updateDbEngine i _
  · exact keeps_throw _
  · exact keeps_pure ()

/-- The database object is outside the core. -/
theorem quiet_setInstDb (i : Ref) (create : Option PyExc) (db : InstDb) :
    Keeps (Quiet S) (setInstDb i create db) :=
  keeps_bind (keeps_raiseIf create) fun _ => quiet_setInstance i fun _ => rfl

/-- So it may be made for a plugin that uses asyncpg. -/
theorem quiet_createAsyncpg (i : Ref) (create : Option PyExc) :
    Keeps (Quiet S) (createAsyncpg S i create) :=
  keeps_bind keeps_get fun _ =>
    keeps_ite (keeps_ite (quiet_setInstDb i _ _) (keeps_throw _)) (quiet_setInstDb i _ _)

/-- Hence the database may be opened. -/
theorem quiet_startDatabase (i : Ref) (sqliteDbExists : Bool) (create : Option PyExc)
    (actuallyStart : Option (Option PyExc)) :
    Keeps (Quiet S) (startDatabase S i sqliteDbExists create actuallyStart) := by
  refine keeps_bind (quiet_theLoader i) fun l => keeps_bind keeps_get fun w => ?_
  split
  · exact keeps_bind (quiet_checkLegacyEngine i) fun _ => quiet_setInstDb i _ _
  · exact keeps_bind (quiet_chooseEngine i _) fun _ =>
      keeps_bind (quiet_createAsyncpg i _) fun _ => keeps_raiseIf _
  · exact keeps_throw _

/-- It may be closed. -/
theorem quiet_stopDatabase (i : Ref) (outcome : Option PyExc) :
    Keeps (Quiet S) (stopDatabase i outcome) := by
  refine keeps_bind keeps_get fun w => ?_
  split
  · exact keeps_raiseIf _
  · exact keeps_throw _

/-- It may be removed. -/
theorem quiet_deleteDatabase (i : Ref) (env : DeleteEnv) :
    Keeps (Quiet S) (deleteDatabase S i env) := by
  refine keeps_bind ?_ fun _ => quiet_setInstance i fun _ => rfl
  refine keeps_bind (quiet_theLoader i) fun l => keeps_bind keeps_get fun w => ?_
  split
  · exact keeps_raiseIf _
  · exact keeps_bind (keeps_when (quiet_startDatabase i _ _ _)) fun _ => keeps_raiseIf _
  · exact keeps_throw _

/-- The step of `start` that opens the database is quiet. -/
theorem quiet_openDatabase (i l : Ref) (env : StartEnv) :
    Keeps (Quiet S) (openDatabase S i l env) := by
  refine keeps_bind keeps_get fun w => keeps_ite ?_ (keeps_pure true)
  refine keeps_bind (keeps_attempt
    (keeps_bind (keeps_raiseIf _) fun _ => quiet_startDatabase i _ _ _) _) fun r => ?_
  cases r with
  | ok _ => exact keeps_pure true
  | error _ =>
    exact keeps_bind (quiet_report (by simp)) fun _ =>
      keeps_bind (quiet_updateEnabled i _) fun _ => keeps_pure false

/-- The step of `stop` that closes it is quiet too. -/
theorem quiet_closeDatabase (i : Ref) (env : StopEnv) : Keeps (Quiet S) (closeDatabase i env) :=
  keeps_bind keeps_get fun _ =>
    keeps_ite (quiet_logged (by simp) (quiet_stopDatabase i _)) (keeps_pure ())

/-- The configs are read into the plugin object. -/
theorem quiet_readConfig (i : Ref) (env : StartEnv) : Keeps (Quiet S) (readConfig i env) := by
  refine keeps_bind (keeps_outcome _) fun b => keeps_ite ?_ (keeps_pure ())
  exact keeps_bind (keeps_attempt (keeps_raiseIf _) _) fun _ => quiet_setInstance i fun _ => rfl

/-! ### Starting and stopping plugins -/

/-- The fields of an instance that link it to its loader and its client. -/
def links (inst : PluginInstance) : PluginInstance :=
  { inst.core with plugin := none, started := false, instWebapp := none, instWebappUrl := none }

/-- What instances with the same links share. -/
theorem eq_of_links {a b : PluginInstance} (h : a.links = b.links) :
    a.id = b.id ∧ a.type = b.type ∧ a.primaryUser = b.primaryUser ∧ a.loader = b.loader ∧
      a.client = b.client ∧ a.deleted = b.deleted :=
  ⟨(congrArg PluginInstance.id h :), (congrArg PluginInstance.type h :),
    (congrArg PluginInstance.primaryUser h :), (congrArg PluginInstance.loader h :),
    (congrArg PluginInstance.client h :), (congrArg PluginInstance.deleted h :)⟩

/-- Nothing has changed but what `Unchanged` allows, and plugins, their handlers and their
    web apps. -/
structure LinksUnchanged (S : Setup L) (w w' : World L) : Prop where
  next             : w'.instances.next = w.instances.next
  links            : ∀ i, (w'.instances.get i).links = (w.instances.get i).links
  instanceCache    : w'.instanceCache = w.instanceCache
  rows             : ∀ k, (w'.instanceRows k).isSome = (w.instanceRows k).isSome
  clients          : w'.clients = w.clients
  clientCache      : w'.clientCache = w.clientCache
  clientRows       : w'.clientRows = w.clientRows
  matrixClients    : w'.matrixClients = w.matrixClients
  loaderReferences : w'.loaderReferences = w.loaderReferences
  find             : S.loaders.find w'.loaders = S.loaders.find w.loaders
  metaId           : ∀ l, (metaOf S w' l).id = (metaOf S w l).id
  removals         : ∀ i, Failure.removeReference i ∈ w'.failures → .removeReference i ∈ w.failures

/-- Nothing is linked or unlinked. -/
theorem LinksUnchanged.refl (w : World L) : LinksUnchanged S w w :=
  { next := rfl, links := fun _ => rfl, instanceCache := rfl, rows := fun _ => rfl, clients := rfl
    clientCache := rfl, clientRows := rfl, matrixClients := rfl, loaderReferences := rfl
    find := rfl, metaId := fun _ => rfl, removals := fun _ h => h }

/-- Two steps without a new link are one. -/
theorem LinksUnchanged.trans {w w' w'' : World L} (h : LinksUnchanged S w w')
    (h' : LinksUnchanged S w' w'') : LinksUnchanged S w w'' where
  next := h'.next.trans h.next
  links i := (h'.links i).trans (h.links i)
  instanceCache := h'.instanceCache.trans h.instanceCache
  rows k := (h'.rows k).trans (h.rows k)
  clients := h'.clients.trans h.clients
  clientCache := h'.clientCache.trans h.clientCache
  clientRows := h'.clientRows.trans h.clientRows
  matrixClients := h'.matrixClients.trans h.matrixClients
  loaderReferences := h'.loaderReferences.trans h.loaderReferences
  find := h'.find.trans h.find
  metaId l := (h'.metaId l).trans (h.metaId l)
  removals i hi := h.removals i (h'.removals i hi)

/-- The frame of a step that leaves the links between the objects alone. -/
def Links (S : Setup L) : Frame (World L) where
  rel := LinksUnchanged S
  refl := LinksUnchanged.refl
  trans := LinksUnchanged.trans

/-- The links of an instance are part of its core. -/
theorem links_of_core {a b : PluginInstance} (h : a.core = b.core) : a.links = b.links := by
  rw [links, links, h]

/-- Where nothing changes, no link does. -/
theorem Unchanged.links {w w' : World L} (h : Unchanged S w w') : LinksUnchanged S w w' where
  next := h.next
  links i := links_of_core (h.core i)
  instanceCache := h.instanceCache
  rows := h.rows
  clients := h.clients
  clientCache := h.clientCache
  clientRows := h.clientRows
  matrixClients := h.matrixClients
  loaderReferences := h.loaderReferences
  find := h.find
  metaId := h.metaId
  removals := h.removals

/-- What is quiet links nothing. -/
theorem links_of_quiet {α : Type} {m : Action L α} (h : Keeps (Quiet S) m) : Keeps (Links S) m :=
  h.mono Unchanged.links

/-- Fields that are no links may be set. -/
theorem links_setInstance (i : Ref) {f : PluginInstance → PluginInstance}
    (hf : ∀ inst, (f inst).links = inst.links) : Keeps (Links S) (setInstance i f) := by
  intro w
  exact { LinksUnchanged.refl w with links := Store.view_modify _ _ _ links hf }

/-- A plugin object is no link. -/
theorem links_setPlugin (p : Ref) (f : Plugin → Plugin) : Keeps (Links S) (setPlugin p f) := by
  intro w
  exact { LinksUnchanged.refl w with }

/-- Handlers at a Matrix client are no links between instances. -/
theorem links_addEventHandler (m : Ref) (t : EventType) (h : Handler) :
    Keeps (Links S) (addEventHandler m t h) := by
  intro w
  exact { LinksUnchanged.refl w with }

/-- They may be taken away too. -/
theorem links_removeEventHandler (m : Ref) (t : EventType) (h : Handler) :
    Keeps (Links S) (removeEventHandler m t h) := by
  intro w
  exact { LinksUnchanged.refl w with }

/-- A route may be added to a web app. -/
theorem links_addRoute (app : Ref) (route : WebRoute) (refused : Option PyExc) :
    Keeps (Links S) (PluginWebApp.addRoute app route refused) := by
  refine keeps_bind (keeps_raiseIf _) fun _ w => ?_
  exact { LinksUnchanged.refl w with }

/-- A web app may be cleared. -/
theorem links_clear (app : Ref) : Keeps (Links S) (PluginWebApp.clear app) := by
  intro w
  exact { LinksUnchanged.refl w with }

/-- Hence all handlers of an object may be registered. -/
theorem links_registerHandlerClass (p : Ref) (obj : List Attribute) :
    Keeps (Links S) (Plugin.registerHandlerClass p obj) := by
  refine keeps_forM fun a _ => keeps_ite ?_ (keeps_pure ())
  refine keeps_bind (keeps_forM fun t _ => ?_) fun _ => keeps_bind keeps_get fun w => ?_
  · exact keeps_bind (links_setPlugin p _) fun _ =>
      keeps_bind keeps_get fun _ => links_addEventHandler _ _ _
  · split
    · exact keeps_pure ()
    · exact keeps_forM fun h _ => links_addRoute _ _ _

/-- A hook may save configs and register objects. -/
theorem links_runHook (i p : Ref) (h : Hook) :
    Keeps (Links S) (Plugin.runHook (saveConfig i) p h) := by
  refine keeps_bind (keeps_forM fun obj _ => links_registerHandlerClass p obj) fun _ => ?_
  exact keeps_bind (keeps_forM fun val _ => links_of_quiet (quiet_saveConfig i val)) fun _ =>
    keeps_raiseIf _

/-- So a plugin object may start. -/
theorem links_internalStart (i p : Ref) (env : StartEnv) :
    Keeps (Links S)
      (Plugin.internalStart (saveConfig i) p env.attributes env.preStart env.start) :=
  keeps_bind (links_runHook i p _) fun _ =>
    keeps_bind (links_registerHandlerClass p _) fun _ => links_runHook i p _

/-- And stop. -/
theorem links_internalStop (p : Ref) (preStop stop : Option PyExc) :
    Keeps (Links S) (Plugin.internalStop p preStop stop) := by
  refine keeps_bind (keeps_raiseIf _) fun _ => keeps_bind ?_ fun _ => keeps_bind ?_ fun _ =>
    keeps_raiseIf _
  · exact keeps_bind keeps_get fun _ => keeps_forM fun h _ => links_removeEventHandler _ _ _
  · refine keeps_bind keeps_get fun w => ?_
    split
    · exact keeps_pure ()
    · exact links_clear _

/-- A web app may be mounted. -/
theorem links_enableWebapp (i : Ref) : Keeps (Links S) (enableWebapp S i) := by
  refine keeps_bind keeps_get fun w => keeps_bind ?_ fun _ => links_setInstance i fun _ => rfl
  refine keeps_bind keeps_get fun w => ?_
  split
  · exact keeps_pure _
  · refine keeps_bind (fun w => ?_) fun _ => keeps_pure _
    exact { LinksUnchanged.refl w with }

/-- It may be taken off. -/
theorem links_disableWebapp (i : Ref) : Keeps (Links S) (disableWebapp S i) := by
  refine keeps_bind keeps_get fun w => keeps_bind ?_ fun _ => links_setInstance i fun _ => rfl
  refine keeps_bind keeps_get fun w => ?_
  split
  · exact keeps_pure _
  · refine keeps_bind (fun w => ?_) fun _ => links_clear _
    exact { LinksUnchanged.refl w with }

/-- Either happens after a reload. -/
theorem links_adjustWebapp (i l : Ref) : Keeps (Links S) (adjustWebapp S i l) :=
  keeps_bind keeps_get fun _ =>
    keeps_ite (links_enableWebapp i) (keeps_ite (links_disableWebapp i) (keeps_pure ()))

/-- The plugin object is made and remembered. -/
theorem links_construct (i l cls : Ref) (env : StartEnv) :
    Keeps (Links S) (construct i l cls env) := by
  refine keeps_bind (links_of_quiet (quiet_theClient i)) fun c =>
    keeps_bind (keeps_raiseIf _) fun _ => keeps_bind keeps_get fun w => ?_
  refine keeps_bind (fun w => ?_) fun _ =>
    keeps_bind (links_setInstance i fun _ => rfl) fun _ => keeps_pure _
  exact { LinksUnchanged.refl w with }

/-- It is started, and the instance marked. -/
theorem links_startPlugin (i p : Ref) (env : StartEnv) :
    Keeps (Links S) (startPlugin i p env) := by
  refine keeps_bind (keeps_attempt (links_internalStart i p env) _) fun r => ?_
  cases r with
  | ok _ => exact links_setInstance i fun _ => rfl
  | error _ =>
    exact links_of_quiet (keeps_bind (quiet_report (by simp)) fun _ => quiet_updateEnabled i _)

/-- Hence a start with its dependencies there links nothing. -/
theorem links_startLoaded (i : Ref) (env : StartEnv) : Keeps (Links S) (startLoaded S i env) := by
  refine keeps_bind (links_of_quiet (quiet_theLoader i)) fun l =>
    keeps_bind (links_of_quiet (quiet_loadClass l)) fun cls =>
    keeps_bind (links_adjustWebapp i l) fun _ =>
    keeps_bind (links_of_quiet (quiet_openDatabase i l env)) fun b =>
    keeps_ite ?_ (keeps_pure ())
  exact keeps_bind (links_of_quiet (quiet_readConfig i env)) fun _ =>
    keeps_bind (links_construct i l cls env) fun p => links_startPlugin i p env

/-- The plugin object is stopped and forgotten. -/
theorem links_stopPlugin (i : Ref) (env : StopEnv) : Keeps (Links S) (stopPlugin i env) := by
  refine keeps_bind keeps_get fun w => ?_
  split
  · exact links_internalStop _ _ _
  · exact keeps_throw _

/-- A failure that is caught and logged links nothing. -/
theorem links_logged {x : Failure} (hx : ∀ i, x ≠ .removeReference i) {m : Action L Unit}
    (hm : Keeps (Links S) m) :
    Keeps (Links S) (logged x m) := by
  refine keeps_bind (keeps_attempt hm _) fun r => ?_
  cases r with
  | ok _ => exact keeps_pure ()
  | error _ => exact links_of_quiet (quiet_report hx)

/-- Hence a stop links nothing. -/
theorem links_stop (i : Ref) (env : StopEnv) : Keeps (Links S) (stop i env) := by
  refine keeps_bind keeps_get fun w => keeps_ite ?_ (keeps_pure ())
  exact keeps_bind (links_setInstance i fun _ => rfl) fun _ =>
    keeps_bind (links_logged (by simp) (links_stopPlugin i env)) fun _ =>
    keeps_bind (links_setInstance i fun _ => rfl) fun _ =>
    links_of_quiet (quiet_closeDatabase i env)

/-- Nor does a new config, with the hook that it calls. -/
theorem links_updateConfig (i : Ref) (config : Option String) (onUpdate : Hook) :
    Keeps (Links S) (updateConfig i config onUpdate) := by
  refine keeps_bind keeps_get fun w => ?_
  cases config with
  | none => exact keeps_pure ()
  | some c =>
    refine keeps_ite (keeps_pure ()) (keeps_bind (links_setInstance i fun _ => rfl) fun _ =>
      keeps_bind (keeps_bind keeps_get fun w => ?_) fun _ => links_of_quiet (quiet_update i))
    split
    · exact links_runHook i _ onUpdate
    · exact keeps_pure ()

end PluginInstance

end Maubot
