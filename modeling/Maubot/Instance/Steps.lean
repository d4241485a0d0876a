import Maubot.Instance.Basic

namespace Maubot

open Prog

/-!
# Plugin instances — the steps that start and stop are made of

* `Aside L` — the frame of a step that touches only what the loaders and the web apps keep, and
  the log;
* `AdmitsParts S i F`, `Admits S i F` — the frame `F` allows the steps that the methods of the
  instance `i` are made of, those that change its client or its plugin apart or not; then it
  allows the methods (`AdmitsParts.openDatabase`, `Admits.start`, …);
* `AdmitsClients S F` — so it does if it looks only at what they do to clients.
-/

variable {L : Type}

/-- Nothing has changed but what loaders and web apps keep, and the log. -/
def SetAside (w w' : World L) : Prop :=
  w' = { w with
    webapps := w'.webapps, loaderReferences := w'.loaderReferences, loaders := w'.loaders
    failures := w'.failures }

/-- The frame of a step that changes only these. -/
def Aside (L : Type) : Frame (World L) where
  rel := SetAside
  refl _ := rfl
  trans {_ _ w''} h h' := h'.trans (congrArg (fun v : World L =>
    { v with
      webapps := w''.webapps, loaderReferences := w''.loaderReferences, loaders := w''.loaders
      failures := w''.failures }) h)

namespace PluginInstance

variable (S : Setup L)

/-- An assignment that leaves alone the row and the web app. -/
structure SparesRow (f : PluginInstance → PluginInstance) : Prop where
  id            : ∀ inst, (f inst).id = inst.id
  deleted       : ∀ inst, (f inst).deleted = inst.deleted
  row           : ∀ inst, (f inst).row = inst.row
  instWebapp    : ∀ inst, (f inst).instWebapp = inst.instWebapp
  instWebappUrl : ∀ inst, (f inst).instWebappUrl = inst.instWebappUrl

/-- … and what a running plugin rests on. -/
structure Plain (f : PluginInstance → PluginInstance) : Prop extends SparesRow f where
  client  : ∀ inst, (f inst).client = inst.client
  plugin  : ∀ inst, (f inst).plugin = inst.plugin
  started : ∀ inst, (f inst).started = inst.started

/-- The loader of an instance may be set plainly. -/
theorem plain_setLoader (l : Ref) : Plain fun inst => { inst with loader := some l } :=
  ⟨⟨fun _ => rfl, fun _ => rfl, fun _ => rfl, fun _ => rfl, fun _ => rfl⟩, fun _ => rfl,
    fun _ => rfl, fun _ => rfl⟩

/-- So may its database. -/
theorem plain_setInstDb (db : Option InstDb) : Plain fun inst => { inst with instDb := db } :=
  ⟨⟨fun _ => rfl, fun _ => rfl, fun _ => rfl, fun _ => rfl, fun _ => rfl⟩, fun _ => rfl,
    fun _ => rfl, fun _ => rfl⟩

/-- So may its config object. -/
theorem plain_setConfig : Plain fun inst => { inst with config := true } :=
  ⟨⟨fun _ => rfl, fun _ => rfl, fun _ => rfl, fun _ => rfl, fun _ => rfl⟩, fun _ => rfl,
    fun _ => rfl, fun _ => rfl⟩

/-- The client is no field of the row. -/
theorem sparesRow_setClient (c : Option Ref) :
    SparesRow fun inst => { inst with client := c } :=
  ⟨fun _ => rfl, fun _ => rfl, fun _ => rfl, fun _ => rfl, fun _ => rfl⟩

/-- Neither is the plugin object. -/
theorem sparesRow_setPlugin (p : Option Ref) :
    SparesRow fun inst => { inst with plugin := p } :=
  ⟨fun _ => rfl, fun _ => rfl, fun _ => rfl, fun _ => rfl, fun _ => rfl⟩

/-- Nor the started flag. -/
theorem sparesRow_setStarted (b : Bool) :
    SparesRow fun inst => { inst with started := b } :=
  ⟨fun _ => rfl, fun _ => rfl, fun _ => rfl, fun _ => rfl, fun _ => rfl⟩

/-- The frame allows the steps of the methods that find no client and neither make, start nor
    drop a plugin. -/
structure AdmitsParts (i : Ref) (F : Frame (World L)) : Prop where
  aside           : ∀ {w w' : World L}, SetAside w w' → F.rel w w'
  assign          : ∀ f : PluginInstance → PluginInstance, Plain f → Keeps F (setInstance i f)
  enableWebapp    : Keeps F (enableWebapp S i)
  disableWebapp   : Keeps F (disableWebapp S i)
  updateEnabled   : ∀ e, Keeps F (updateEnabled i e)
  updateDbEngine  : ∀ e, Keeps F (updateDbEngine i e)
  saveConfig      : ∀ val, Keeps F (saveConfig i val)
  addToClient     : ∀ c, Keeps F (addToClient S i c)
  register        : ∀ p val t, Keeps F (Plugin.registerEventHandler p val t)
  removeHandlers  : ∀ p, Keeps F (Plugin.removeHandlers p)

/-! ### Web app -/

section Webapp

variable {S} {i : Ref} {F : Frame (World L)}

/-- A frame that does not look at web apps. -/
theorem keeps_enableWebapp (happs : ∀ (w : World L) apps routes,
      F.rel w { w with webapps := apps, pluginRoutes := routes })
    (hassign : ∀ app url, Keeps F
      (setInstance i fun inst => { inst with instWebapp := app, instWebappUrl := url })) :
    Keeps F (enableWebapp S i) := by
  refine keeps_bind keeps_get fun w => keeps_bind ?_ fun _ => hassign _ _
  refine keeps_bind keeps_get fun w => ?_
  split
  · exact keeps_pure _
  · exact keeps_bind (fun w => happs w _ _) fun _ => keeps_pure _

/-- A frame that admits any web apps and the instance without one is kept. -/
theorem keeps_disableWebapp (happs : ∀ (w : World L) apps routes,
      F.rel w { w with webapps := apps, pluginRoutes := routes })
    (hassign : ∀ app url, Keeps F
      (setInstance i fun inst => { inst with instWebapp := app, instWebappUrl := url })) :
    Keeps F (disableWebapp S i) := by
  refine keeps_bind keeps_get fun w => keeps_bind ?_ fun _ => hassign _ _
  refine keeps_bind keeps_get fun w => ?_
  split
  · exact keeps_pure _
  · exact keeps_bind (fun w => happs w _ _) fun _ => fun w => happs w _ _

end Webapp

namespace AdmitsParts

variable {S} {i : Ref} {F : Frame (World L)} {α : Type}

/-- What sets aside is kept by any frame of parts. -/
theorem keeps_aside (h : AdmitsParts S i F) {m : Action L α} (hm : Keeps (Aside L) m) :
    Keeps F m := hm.mono h.aside

/-- A report is kept. -/
theorem report (h : AdmitsParts S i F) (x : Failure) : Keeps F (report x) :=
  h.keeps_aside fun _ => rfl

/-- A web app that is cleared is kept. -/
theorem clear (h : AdmitsParts S i F) (app : Ref) : Keeps F (PluginWebApp.clear app) :=
  h.keeps_aside fun _ => rfl

/-- Asking for the loader is. -/
theorem theLoader (i : Ref) : Keeps F (theLoader i) := by
  refine keeps_bind keeps_get fun w => ?_
  split
  · exact keeps_pure _
  · exact keeps_throw _

/-- Asking for the client is. -/
theorem theClient (i : Ref) : Keeps F (theClient i) := by
  refine keeps_bind keeps_get fun w => ?_
  split
  · exact keeps_pure _
  · exact keeps_throw _

/-- A failure that is logged is, if what raised it is. -/
theorem logged (h : AdmitsParts S i F) (x : Failure) {m : Action L Unit} (hm : Keeps F m) :
    Keeps F (logged x m) := by
  refine keeps_bind (keeps_attempt hm _) fun r => ?_
  cases r with
  | ok _ => exact keeps_pure ()
  | error _ => exact h.report x

/-- A failure that disables the instance. -/
theorem disable (h : AdmitsParts S i F) (x : Failure) (a : α) : Keeps F (do
    Maubot.report x
    PluginInstance.updateEnabled i (some false)
    pure a : Action L α) :=
  keeps_bind (h.report x) fun _ => keeps_bind (h.updateEnabled _) fun _ => keeps_pure a

/-! ### Load -/

/-- The first step of `load` is. -/
theorem loadLoader (h : AdmitsParts S i F) : Keeps F (loadLoader S i) := by
  refine keeps_bind keeps_get fun w => keeps_ite (keeps_pure _) ?_
  split
  · next l _ =>
    have hassign : Keeps F (setInstance i fun inst => { inst with loader := some l }) :=
      h.assign _ (plain_setLoader l)
    exact keeps_bind hassign fun _ => keeps_pure _
  · exact h.disable _ _

/-- So is its last one. -/
theorem loadReferences (h : AdmitsParts S i F) : Keeps F (loadReferences S i) :=
  keeps_bind (theLoader i) fun _ => keeps_bind keeps_get fun _ =>
    keeps_bind (keeps_when h.enableWebapp) fun _ =>
    keeps_bind (keeps_bind keeps_get fun _ => h.keeps_aside fun _ => rfl) fun _ =>
    keeps_bind (theClient i) fun c => h.addToClient c

/-! ### Start -/

/-- So is a class that is loaded. -/
theorem loadClass (h : AdmitsParts S i F) (l : Ref) : Keeps F (loadClass S l) :=
  h.keeps_aside fun _ => rfl

/-- So is the web app that follows the metadata. -/
theorem adjustWebapp (h : AdmitsParts S i F) (l : Ref) : Keeps F (adjustWebapp S i l) :=
  keeps_bind keeps_get fun _ =>
    keeps_ite h.enableWebapp (keeps_ite h.disableWebapp (keeps_pure ()))

/-- So is the database that is started, -/
theorem startDatabase (h : AdmitsParts S i F) (sqliteDbExists : Bool) (create : Option PyExc)
    (actuallyStart : Option (Option PyExc)) :
    Keeps F (startDatabase S i sqliteDbExists create actuallyStart) := by
  have hset (db : InstDb) : Keeps F (setInstDb i create db) :=
    keeps_bind (keeps_raiseIf create) fun _ => h.assign _ (plain_setInstDb (some db))
  have hlegacy : Keeps F (checkLegacyEngine i) := by
    refine keeps_bind keeps_get fun w => ?_
    split
    · exact h.updateDbEngine _
    · exact keeps_throw _
    · exact keeps_pure ()
  have hchoose : Keeps F (chooseEngine S i sqliteDbExists) := by
    refine keeps_bind keeps_get fun w => ?_
    split
    · exact keeps_pure ()
    · exact keeps_ite (h.updateDbEngine _) (h.updateDbEngine _)
  have hcreate : Keeps F (createAsyncpg S i create) :=
    keeps_bind keeps_get fun _ => keeps_ite (keeps_ite (hset _) (keeps_throw _)) (hset _)
  refine keeps_bind (theLoader i) fun l => keeps_bind keeps_get fun w => ?_
  split
  · exact keeps_bind hlegacy fun _ => hset _
  · exact keeps_bind hchoose fun _ => keeps_bind hcreate fun _ => keeps_raiseIf _
  · exact keeps_throw _

/-- as a step of `start`, -/
theorem openDatabase (h : AdmitsParts S i F) (l : Ref) (env : StartEnv) :
    Keeps F (openDatabase S i l env) := by
  refine keeps_bind keeps_get fun w => keeps_ite ?_ (keeps_pure true)
  refine keeps_bind (keeps_attempt
    (keeps_bind (keeps_raiseIf _) fun _ => h.startDatabase _ _ _) _) fun r => ?_
  cases r with
  | ok _ => exact keeps_pure true
  | error _ => exact h.disable _ _

/-- and the configs that are read. -/
theorem readConfig (h : AdmitsParts S i F) (env : StartEnv) : Keeps F (readConfig i env) :=
  keeps_bind (keeps_outcome _) fun _ => keeps_ite
    (keeps_bind (keeps_attempt (keeps_raiseIf _) _) fun _ => h.assign _ plain_setConfig)
    (keeps_pure ())

/-- Handlers may be registered, -/
theorem registerHandlerClass (h : AdmitsParts S i F) (p : Ref) (obj : List Attribute) :
    Keeps F (Plugin.registerHandlerClass p obj) := by
  refine keeps_forM fun a _ => keeps_ite ?_ (keeps_pure ())
  refine keeps_bind (keeps_forM fun t _ => h.register p a.val t) fun _ =>
    keeps_bind keeps_get fun w => ?_
  split
  · exact keeps_pure ()
  · exact keeps_forM fun x _ => keeps_bind (keeps_raiseIf _) fun _ => h.keeps_aside fun _ => rfl

/-- hooks run, -/
theorem runHook (h : AdmitsParts S i F) (p : Ref) (hook : Hook) :
    Keeps F (Plugin.runHook (PluginInstance.saveConfig i) p hook) :=
  keeps_bind (keeps_forM fun obj _ => h.registerHandlerClass p obj) fun _ =>
    keeps_bind (keeps_forM fun val _ => h.saveConfig val) fun _ => keeps_raiseIf _

/-- and a plugin object started by both. -/
theorem internalStart (h : AdmitsParts S i F) (p : Ref) (env : StartEnv) :
    Keeps F (Plugin.internalStart (PluginInstance.saveConfig i) p env.attributes env.preStart
      env.start) :=
  keeps_bind (h.runHook p _) fun _ => keeps_bind (h.registerHandlerClass p _) fun _ =>
    h.runHook p _

/-! ### Stop -/

/-- It may be stopped, -/
theorem stopPlugin (h : AdmitsParts S i F) (env : StopEnv) : Keeps F (stopPlugin i env) := by
  refine keeps_bind keeps_get fun w => ?_
  split
  · next p _ =>
    refine keeps_bind (keeps_raiseIf _) fun _ => keeps_bind (h.removeHandlers p) fun _ =>
      keeps_bind (keeps_bind keeps_get fun w => ?_) fun _ => keeps_raiseIf _
    split
    · exact keeps_pure ()
    · exact h.clear _
  · exact keeps_throw _

/-- its database closed, -/
theorem stopDatabase (outcome : Option PyExc) : Keeps F (stopDatabase i outcome) := by
  refine keeps_bind keeps_get fun w => ?_
  split
  · exact keeps_raiseIf _
  · exact keeps_throw _

/-- as a step of `stop`, -/
theorem closeDatabase (h : AdmitsParts S i F) (env : StopEnv) : Keeps F (closeDatabase i env) :=
  keeps_bind keeps_get fun _ => keeps_ite (h.logged _ (stopDatabase _)) (keeps_pure ())

/-- and what belongs to it removed. -/
theorem deleteResources (h : AdmitsParts S i F) (env : DeleteEnv) :
    Keeps F (deleteResources S i env) := by
  have hdrop : Keeps F (dropDatabase S i env) := by
    refine keeps_bind (theLoader i) fun l => keeps_bind keeps_get fun w => ?_
    split
    · exact keeps_raiseIf _
    · exact keeps_bind (keeps_when (h.startDatabase _ _ _)) fun _ => keeps_raiseIf _
    · exact keeps_throw _
  have hforget : Keeps F (setInstance i fun inst => { inst with instDb := none }) :=
    h.assign _ (plain_setInstDb none)
  exact keeps_bind keeps_get fun _ => keeps_bind (keeps_when <|
    keeps_bind (stopDatabase _) fun _ => keeps_bind hdrop fun _ => hforget) fun _ =>
    keeps_bind keeps_get fun _ => keeps_when h.disableWebapp

end AdmitsParts

/-- The frame allows the steps that the methods of the instance are made of. -/
structure Admits (i : Ref) (F : Frame (World L)) : Prop where
  aside           : ∀ {w w' : World L}, SetAside w w' → F.rel w w'
  assign          : ∀ f : PluginInstance → PluginInstance, SparesRow f → Keeps F (setInstance i f)
  enableWebapp    : Keeps F (enableWebapp S i)
  disableWebapp   : Keeps F (disableWebapp S i)
  updateEnabled   : ∀ e, Keeps F (updateEnabled i e)
  updateDbEngine  : ∀ e, Keeps F (updateDbEngine i e)
  saveConfig      : ∀ val, Keeps F (saveConfig i val)
  getClient       : ∀ u, Keeps F (Client.get S u none none none)
  addToClient     : ∀ c, Keeps F (addToClient S i c)
  construct       : ∀ l cls env, Keeps F (construct i l cls env)
  register        : ∀ p val t, Keeps F (Plugin.registerEventHandler p val t)
  removeHandlers  : ∀ p, Keeps F (Plugin.removeHandlers p)

namespace Admits

variable {S} {i : Ref} {F : Frame (World L)}

/-- A frame that admits an instance admits its parts. -/
theorem parts (h : Admits S i F) : AdmitsParts S i F where
  aside := h.aside
  assign f hf := h.assign f hf.toSparesRow
  enableWebapp := h.enableWebapp
  disableWebapp := h.disableWebapp
  updateEnabled := h.updateEnabled
  updateDbEngine := h.updateDbEngine
  saveConfig := h.saveConfig
  addToClient := h.addToClient
  register := h.register
  removeHandlers := h.removeHandlers

/-- Hence `load` is kept, -/
theorem load (h : Admits S i F) : Keeps F (load S i) := by
  have hclient : Keeps F (loadClient S i) :=
    keeps_bind keeps_get fun w => keeps_ite (keeps_pure _) <|
      keeps_bind (h.getClient _) fun c =>
      keeps_bind (h.assign _ (sparesRow_setClient c)) fun _ =>
      keeps_ite (keeps_pure _) (h.parts.disable _ _)
  exact keeps_bind h.parts.loadLoader fun b => keeps_ite
    (keeps_bind hclient fun b => keeps_ite
      (keeps_bind h.parts.loadReferences fun _ => keeps_pure _) (keeps_pure _)) (keeps_pure _)

/-- the start of a plugin object, -/
theorem startPlugin (h : Admits S i F) (p : Ref) (env : StartEnv) :
    Keeps F (startPlugin i p env) := by
  refine keeps_bind (keeps_attempt (h.parts.internalStart p env) _) fun r => ?_
  cases r with
  | ok _ => exact h.assign _ (sparesRow_setStarted true)
  | error _ => exact keeps_bind (h.parts.report _) fun _ => h.updateEnabled _

/-- that of an instance with its dependencies, -/
theorem startLoaded (h : Admits S i F) (env : StartEnv) : Keeps F (startLoaded S i env) :=
  keeps_bind (AdmitsParts.theLoader i) fun l => keeps_bind (h.parts.loadClass l) fun cls =>
    keeps_bind (h.parts.adjustWebapp l) fun _ => keeps_bind (h.parts.openDatabase l env) fun _ =>
    keeps_ite (keeps_bind (h.parts.readConfig env) fun _ =>
      keeps_bind (h.construct l cls env) fun p => h.startPlugin p env) (keeps_pure ())

/-- the whole `start`, -/
theorem start (h : Admits S i F) (env : StartEnv) : Keeps F (start S i env) :=
  keeps_bind keeps_get fun _ => keeps_ite (keeps_pure ()) <| keeps_ite (keeps_pure ()) <|
    keeps_bind (keeps_bind keeps_get fun _ => keeps_ite h.load (keeps_pure _)) fun _ =>
    keeps_ite (h.startLoaded env) (keeps_pure ())

/-- the whole `stop`, -/
theorem stop (h : Admits S i F) (env : StopEnv) : Keeps F (stop i env) :=
  keeps_bind keeps_get fun _ => keeps_ite
    (keeps_bind (h.assign _ (sparesRow_setStarted false)) fun _ =>
      keeps_bind (h.parts.logged _ (h.parts.stopPlugin env)) fun _ =>
      keeps_bind (h.assign _ (sparesRow_setPlugin none)) fun _ => h.parts.closeDatabase env)
    (keeps_pure ())

/-- and either as a request asks. -/
theorem updateStarted (h : Admits S i F) (started : Option Bool) (env : StopEnv × StartEnv) :
    Keeps F (updateStarted S i started env) := by
  refine keeps_bind keeps_get fun w => ?_
  cases started with
  | none => exact keeps_pure ()
  | some b => exact keeps_ite (keeps_pure ()) (keeps_ite (h.start env.2) (h.stop env.1))

end Admits

/-! ### Frames that look only at clients -/

/-- What the plugins hold as registered at startup, they held before, or it is a handler of
    their own. -/
def PluginHandlers (w w' : World L) : Prop :=
  ∀ p, ∀ h ∈ (w'.plugins.get p).handlersAtStartup,
    h ∈ (w.plugins.get p).handlersAtStartup ∨ h.1.isPlugin = true

/-- The same plugin objects have the same handlers. -/
theorem PluginHandlers.of_eq {w w' : World L} (h : w'.plugins = w.plugins) :
    PluginHandlers w w' := fun _ _ hx => .inl (h ▸ hx)

/-- Clients, their rows and their Matrix clients are as before. -/
structure ClientsKept (w w' : World L) : Prop where
  clients       : w'.clients = w.clients
  clientCache   : w'.clientCache = w.clientCache
  clientRows    : w'.clientRows = w.clientRows
  matrixClients : w'.matrixClients = w.matrixClients
  eventHandlers : w'.eventHandlers = w.eventHandlers
  registered    : PluginHandlers w w'

/-- What sets aside keeps the clients. -/
theorem ClientsKept.of_aside {w w' : World L} (h : SetAside w w') : ClientsKept w w' := by
  refine ⟨?_, ?_, ?_, ?_, ?_, .of_eq ?_⟩ <;> rw [h]

/-- A plugin object that gets handlers of plugins keeps them. -/
theorem ClientsKept.setPlugin {w : World L} (p : Ref) {f : Plugin → Plugin}
    (hf : ∀ pl, ∀ h ∈ (f pl).handlersAtStartup, h ∈ pl.handlersAtStartup ∨ h.1.isPlugin = true) :
    ClientsKept w { w with plugins := w.plugins.modify p f } := by
  refine ⟨rfl, rfl, rfl, rfl, rfl, fun q x hx => ?_⟩
  by_cases hq : q = p
  · subst hq
    rw [Store.get_modify_self] at hx
    exact hf _ x hx
  · rw [Store.get_modify_ne _ _ hq] at hx
    exact .inl hx

/-- So does a new one, which has no handlers. -/
theorem ClientsKept.allocPlugin {w : World L} {pl : Plugin} (hpl : pl.handlersAtStartup = []) :
    ClientsKept w { w with plugins := w.plugins.alloc pl } := by
  refine ⟨rfl, rfl, rfl, rfl, rfl, fun q x hx => ?_⟩
  rw [Store.get_alloc] at hx
  split at hx
  · rw [hpl] at hx
    cases hx
  · exact .inl hx

/-- The frame allows all that does not concern clients, and what calls of instances do to them. -/
structure AdmitsClients (S : Setup L) (F : Frame (World L)) : Prop where
  kept           : ∀ {w w' : World L}, ClientsKept w w' → F.rel w w'
  getClient      : ∀ u, Keeps F (Client.get S u none none none)
  setReferences  : ∀ c s, Keeps F (setReferences c s)
  addHandler     : ∀ m t p, Keeps F (addEventHandler m t (.plugin p))
  removeHandlers : ∀ p, Keeps F (Plugin.removeHandlers p)

namespace AdmitsClients

variable {S : Setup L} {F : Frame (World L)}

/-- A step that does not concern clients. -/
theorem keeps (h : AdmitsClients S F) {f : World L → World L} (hf : ∀ w, ClientsKept w (f w)) :
    Keeps F (modify f : Action L Unit) := fun w => h.kept (hf w)

/-- A field of an instance may be set. -/
theorem assign (h : AdmitsClients S F) (i : Ref) (f : PluginInstance → PluginInstance) :
    Keeps F (setInstance i f) := h.keeps fun _ => ⟨rfl, rfl, rfl, rfl, rfl, .of_eq rfl⟩

/-- Its row may be written. -/
theorem update (h : AdmitsClients S F) (i : Ref) : Keeps F (PluginInstance.update i) :=
  keeps_bind keeps_get fun _ => keeps_ite (keeps_pure ()) <| keeps_ite (keeps_throw _) <|
    h.keeps fun _ => ⟨rfl, rfl, rfl, rfl, rfl, .of_eq rfl⟩

/-- So a frame of clients admits every instance. -/
theorem admits (h : AdmitsClients S F) (i : Ref) : Admits S i F where
  aside hw := h.kept (.of_aside hw)
  assign f _ := h.assign i f
  enableWebapp := keeps_enableWebapp
    (fun _ _ _ => h.kept ⟨rfl, rfl, rfl, rfl, rfl, .of_eq rfl⟩) fun _ _ => h.assign i _
  disableWebapp := keeps_disableWebapp
    (fun _ _ _ => h.kept ⟨rfl, rfl, rfl, rfl, rfl, .of_eq rfl⟩) fun _ _ => h.assign i _
  updateEnabled e := by
    refine keeps_bind keeps_get fun w => ?_
    cases e with
    | none => exact keeps_pure ()
    | some b => exact keeps_ite (keeps_pure ()) (keeps_bind (h.assign i _) fun _ => h.update i)
  updateDbEngine e := by
    refine keeps_bind keeps_get fun w => ?_
    cases e with
    | none => exact keeps_pure ()
    | some b => exact keeps_ite (keeps_pure ()) (keeps_bind (h.assign i _) fun _ => h.update i)
  saveConfig _ := keeps_bind keeps_get fun _ => keeps_ite (keeps_pure ()) <|
    keeps_bind (h.assign i _) fun _ => keeps_bind (keeps_attempt (h.update i) _) fun _ =>
    keeps_pure ()
  getClient := h.getClient
  addToClient c := keeps_bind keeps_get fun _ => h.setReferences c _
  construct _ _ _ :=
    keeps_bind (AdmitsParts.theClient i) fun _ => keeps_bind (keeps_raiseIf _) fun _ =>
    keeps_bind keeps_get fun _ => keeps_bind (h.keeps fun _ => .allocPlugin rfl) fun _ =>
    keeps_bind (h.assign i _) fun _ => keeps_pure _
  -- a handler that is noted down is a plugin's
  register p val t := by
    have hset : Keeps F (setPlugin p fun pl =>
        { pl with handlersAtStartup := pl.handlersAtStartup ++ [(.plugin val, t)] }) := by
      refine h.keeps fun w => .setPlugin p fun pl x hx => ?_
      rcases List.mem_append.mp hx with hx | hx
      · exact .inl hx
      · rw [List.mem_singleton.mp hx]
        exact .inr rfl
    exact keeps_bind hset fun _ => keeps_bind keeps_get fun _ => h.addHandler _ _ _
  removeHandlers := h.removeHandlers

end AdmitsClients

end PluginInstance

end Maubot
