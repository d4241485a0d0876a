import Maubot.Client.Basic
import Maubot.PluginBase

namespace Maubot

open Prog

/-!
# Plugin instances — start, stop and updates

`instance.py` with the table `instance` (`db/instance.py`).  What a call meets outside the
modelled state (databases, plugin code) is data of the call: `StartEnv`, `StopEnv`,
`DeleteEnv`.  `base_cfg` and `inst_db_tables`, which only the instance's web page shows,
are left out.
-/

variable {L : Type} (S : Setup L)

/-- What a `start` call meets. -/
structure StartEnv where
  /-- `cls.get_db_upgrade_table()` -/
  upgradeTable   : Option PyExc := none
  /-- whether `_sqlite_db_path` exists -/
  sqliteDbExists : Bool := false
  /-- `create_engine` or `Database.create` -/
  createDatabase : Option PyExc := none
  /-- `inst_db.start()` -/
  startDatabase  : Option PyExc := none
  /-- `cls.get_config_class()`, whether it returns a class -/
  configClass    : Except PyExc Bool := .ok false
  /-- reading and parsing `base-config.yaml` -/
  baseConfig     : Option PyExc := none
  /-- `cls(...)` -/
  construct      : Option PyExc := none
  /-- `dir(self)` of the plugin -/
  attributes     : List Attribute := []
  preStart       : Hook := {}
  start          : Hook := {}

/-- What a `stop` call meets.  The hooks `pre_stop` and `stop` raise or return: they neither save
    the configuration nor register handlers. -/
structure StopEnv where
  preStop      : Option PyExc := none
  stop         : Option PyExc := none
  stopDatabase : Option PyExc := none

/-- What a `delete` call meets. -/
structure DeleteEnv where
  stopDatabase   : Option PyExc := none
  createDatabase : Option PyExc := none
  deleteDatabase : Option PyExc := none

namespace PluginInstance

/-! ### The table -/

/-- The values of the row. -/
def row (inst : PluginInstance) : InstanceRow where
  type := inst.type
  enabled := inst.enabled
  primaryUser := inst.primaryUser
  config := inst.configStr
  databaseEngine := inst.databaseEngine

def insertRow (id : String) (row : InstanceRow) : Action L Unit := do
  let w ← world
  if (w.instanceRows id).isSome || (w.clientRows row.primaryUser).isNone then
    throw { cls := .integrityError }
  else
    modify fun w => { w with instanceRows := Function.update w.instanceRows id (some row) }

/-- `update` of the row; `primary_user` is a foreign key. -/
def update (i : Ref) : Action L Unit := do
  let w ← world
  let inst := w.instances.get i
  if (w.instanceRows inst.id).isNone then pure ()
  else if (w.clientRows inst.primaryUser).isNone then throw { cls := .integrityError }
  else
    modify fun w =>
      { w with instanceRows := Function.update w.instanceRows inst.id (some inst.row) }

/-- `UPDATE instance SET id=$1 WHERE id=$2`; `id` is the primary key. -/
def renameRow (newId oldId : String) : Action L Unit := do
  let w ← world
  match w.instanceRows oldId with
  | none     => pure ()
  | some row =>
    if (w.instanceRows newId).isSome then throw { cls := .integrityError }
    else
      let rows := Function.update w.instanceRows oldId none
      modify fun w => { w with instanceRows := Function.update rows newId (some row) }

/-- `update_id` of the row, which renames the object too. -/
def updateRowId (i : Ref) (newId : String) : Action L Unit := do
  let w ← world
  renameRow newId (w.instances.get i).id
  setInstance i fun inst => { inst with id := newId }

def deleteRow (i : Ref) : Action L Unit := do
  modify fun w =>
    { w with instanceRows := Function.update w.instanceRows (w.instances.get i).id none }
  setInstance i fun inst => { inst with deleted := true }

/-! ### References

`PluginInstance` hashes by its id and compares by the fields of the row. -/

def hash (w : World L) (i : Ref) : Int := S.hash (w.instances.get i).id

/-- `__eq__` of the row's fields. -/
def eqv (w : World L) (i j : Ref) : Bool :=
  (w.instances.get i).id == (w.instances.get j).id
    && (w.instances.get i).row == (w.instances.get j).row

/-- The attribute `loader`, which must not be `None`. -/
def theLoader (i : Ref) : Action L Ref := do
  let w ← world
  match (w.instances.get i).loader with
  | some l => pure l
  | none   => throw { cls := .attributeError }

/-- The attribute `client`, which must not be `None`. -/
def theClient (i : Ref) : Action L Ref := do
  let w ← world
  match (w.instances.get i).client with
  | some c => pure c
  | none   => throw { cls := .attributeError }

def metaOf (w : World L) (l : Ref) : PluginMeta := S.loaders.metaOf w.loaders l

/-- `loader.references.add(self)` -/
def addToLoader (i l : Ref) : Action L Unit := do
  let w ← world
  setLoaderReferences l (PySet.add (hash S w) (eqv w) (w.loaderReferences l) i)

/-- `client.references.add(self)` -/
def addToClient (i c : Ref) : Action L Unit := do
  let w ← world
  setReferences c (PySet.add (hash S w) (eqv w) (w.clients.get c).references i)

/-- `if self.loader: self.loader.references.remove(self)` -/
def removeFromLoader (i : Ref) : Action L Unit := do
  let w ← world
  match (w.instances.get i).loader with
  | none   => pure ()
  | some l =>
    match PySet.remove? (hash S w) (eqv w) (w.loaderReferences l) i with
    | some s => setLoaderReferences l s
    | none   => do
      report (.removeReference i)
      throw { cls := .keyError }

/-- `if self.client: self.client.references.remove(self)` -/
def removeFromClient (i : Ref) : Action L Unit := do
  let w ← world
  match (w.instances.get i).client with
  | none   => pure ()
  | some c =>
    match PySet.remove? (hash S w) (eqv w) (w.clients.get c).references i with
    | some s => setReferences c s
    | none   => do
      report (.removeReference i)
      throw { cls := .keyError }

/-! ### Fields of the row -/

def updateEnabled (i : Ref) (enabled : Option Bool) : Action L Unit := do
  let w ← world
  match enabled with
  | none   => pure ()
  | some e =>
    if e = (w.instances.get i).enabled then pure ()
    else do
      setInstance i fun inst => { inst with enabled := e }
      update i

def updateDbEngine (i : Ref) (dbEngine : Option DatabaseEngine) : Action L Unit := do
  let w ← world
  match dbEngine with
  | none   => pure ()
  | some e =>
    if some e = (w.instances.get i).databaseEngine then pure ()
    else do
      setInstance i fun inst => { inst with databaseEngine := some e }
      update i

/-- `save_config` with the text that the YAML dumper wrote.  The update runs in a
    background task, which logs its exceptions. -/
def saveConfig (i : Ref) (val : String) : Action L Unit := do
  let w ← world
  if val = (w.instances.get i).configStr then pure ()
  else do
    setInstance i fun inst => { inst with configStr := val }
    let _ ← attempt (fun _ => true) (update i)
    pure ()

/-! ### Web app -/

def enableWebapp (i : Ref) : Action L Unit := do
  let w ← world
  let app ← MaubotServer.getInstanceSubapp S (w.instances.get i).id
  setInstance i fun inst =>
    { inst with instWebapp := some app.1, instWebappUrl := some app.2 }

def disableWebapp (i : Ref) : Action L Unit := do
  let w ← world
  MaubotServer.removeInstanceWebapp S (w.instances.get i).id
  setInstance i fun inst => { inst with instWebapp := none, instWebappUrl := none }

/-! ### Load -/

/-- The first step of `load`: find the loader. -/
def loadLoader (i : Ref) : Action L Bool := do
  let w ← world
  if (w.instances.get i).loader.isSome then pure true
  else
    match S.loaders.find w.loaders (w.instances.get i).type with
    | some l => do
      setInstance i fun inst => { inst with loader := some l }
      pure true
    | none   => do
      report (.findLoader i)
      updateEnabled i (some false)
      pure false

/-- The second step of `load`: get the client. -/
def loadClient (i : Ref) : Action L Bool := do
  let w ← world
  if (w.instances.get i).client.isSome then pure true
  else do
    let c ← Client.get S (w.instances.get i).primaryUser none none none
    setInstance i fun inst => { inst with client := c }
    if c.isSome then pure true
    else do
      report (.getClient i)
      updateEnabled i (some false)
      pure false

/-- The last step of `load`: web app and references. -/
def loadReferences (i : Ref) : Action L Unit := do
  let l ← theLoader i
  let w ← world
  when (metaOf S w l).webapp (enableWebapp S i)
  addToLoader S i l
  let c ← theClient i
  addToClient S i c

def load (i : Ref) : Action L Bool := do
  if ← loadLoader S i then
    if ← loadClient S i then do
      loadReferences S i
      pure true
    else pure false
  else pure false

/-! ### Database -/

/-- The choice of the engine for a plugin that uses asyncpg. -/
def chooseEngine (i : Ref) (sqliteDbExists : Bool) : Action L Unit := do
  let w ← world
  match (w.instances.get i).databaseEngine with
  | some _ => pure ()
  | none   =>
    if sqliteDbExists || !S.pluginPostgresDb then updateDbEngine i (some .sqlite)
    else updateDbEngine i (some .postgres)

/-- The check of the engine for a plugin that uses the legacy interface. -/
def checkLegacyEngine (i : Ref) : Action L Unit := do
  let w ← world
  match (w.instances.get i).databaseEngine with
  | none           => updateDbEngine i (some .sqlite)
  | some .postgres => throw { cls := .runtimeError }
  | some .sqlite   => pure ()

def setInstDb (i : Ref) (create : Option PyExc) (db : InstDb) : Action L Unit := do
  raiseIf create
  setInstance i fun inst => { inst with instDb := some db }

/-- The database object for a plugin that uses asyncpg. -/
def createAsyncpg (i : Ref) (create : Option PyExc) : Action L Unit := do
  let w ← world
  if (w.instances.get i).databaseEngine = some .postgres then
    if S.pluginPostgresDb then setInstDb i create .postgres
    else throw { cls := .runtimeError }
  else setInstDb i create .sqlite

/-- `actuallyStart` holds the outcome of `inst_db.start()`, or is `none` if the database
    is not to be started. -/
def startDatabase (i : Ref) (sqliteDbExists : Bool) (create : Option PyExc)
    (actuallyStart : Option (Option PyExc)) : Action L Unit := do
  let l ← theLoader i
  let w ← world
  match (metaOf S w l).databaseType with
  | .sqlalchemy     => do
    checkLegacyEngine i
    setInstDb i create .engine
  | .asyncpg        => do
    chooseEngine S i sqliteDbExists
    createAsyncpg S i create
    raiseIf actuallyStart.join
  | .unrecognized _ => throw { cls := .runtimeError }

def stopDatabase (i : Ref) (outcome : Option PyExc) : Action L Unit := do
  let w ← world
  match (w.instances.get i).instDb with
  | some _ => raiseIf outcome
  | none   => throw { cls := .runtimeError }

/-- What `delete_database` removes. -/
def dropDatabase (i : Ref) (env : DeleteEnv) : Action L Unit := do
  let l ← theLoader i
  let w ← world
  match (metaOf S w l).databaseType with
  | .sqlalchemy     => raiseIf env.deleteDatabase
  | .asyncpg        => do
    when (w.instances.get i).instDb.isNone (startDatabase S i true env.createDatabase none)
    raiseIf env.deleteDatabase
  | .unrecognized _ => throw { cls := .runtimeError }

def deleteDatabase (i : Ref) (env : DeleteEnv) : Action L Unit := do
  dropDatabase S i env
  setInstance i fun inst => { inst with instDb := none }

/-! ### Start -/

/-- `loader.load()` -/
def loadClass (l : Ref) : Action L Ref :=
  zoom (fun w : World L => w.loaders) (fun ls w => { w with loaders := ls }) (S.loaders.load l)

/-- `start` after a reload: the web app follows the metadata. -/
def adjustWebapp (i l : Ref) : Action L Unit := do
  let w ← world
  if (metaOf S w l).webapp && (w.instances.get i).instWebapp.isNone then enableWebapp S i
  else if !(metaOf S w l).webapp && (w.instances.get i).instWebapp.isSome then
    disableWebapp S i
  else pure ()

/-- `start` opening the database; a failure disables the instance. -/
def openDatabase (i l : Ref) (env : StartEnv) : Action L Bool := do
  let w ← world
  if (metaOf S w l).database then do
    let started ← attempt PyExc.isException do
      raiseIf env.upgradeTable
      startDatabase S i env.sqliteDbExists env.createDatabase (some env.startDatabase)
    match started with
    | .ok _    => pure true
    | .error _ => do
      report (.startDatabase i)
      updateEnabled i (some false)
      pure false
  else pure true

def readConfig (i : Ref) (env : StartEnv) : Action L Unit := do
  if ← outcome env.configClass then do
    let _ ← attempt PyExc.isMissingFile (raiseIf env.baseConfig)
    setInstance i fun inst => { inst with config := true }
  else pure ()

/-- `self.plugin = cls(...)` -/
def construct (i l cls : Ref) (env : StartEnv) : Action L Ref := do
  let c ← theClient i
  raiseIf env.construct
  let w ← world
  let inst := w.instances.get i
  let plugin : Plugin :=
    { cls
      client := (w.clients.get c).client
      instanceId := inst.id
      config := inst.config
      database := inst.instDb
      loader := l
      webapp := inst.instWebapp
      webappUrl := inst.instWebappUrl }
  modify fun w => { w with plugins := w.plugins.alloc plugin }
  setInstance i fun inst => { inst with plugin := some w.plugins.next }
  pure w.plugins.next

/-- `start` running the plugin; a failure disables the instance. -/
def startPlugin (i p : Ref) (env : StartEnv) : Action L Unit := do
  let started ← attempt PyExc.isException
    (Plugin.internalStart (saveConfig i) p env.attributes env.preStart env.start)
  match started with
  | .ok _    => setInstance i fun inst => { inst with started := true }
  | .error _ => do
    report (.startInstance i)
    updateEnabled i (some false)

/-- `start` once the dependencies are there. -/
def startLoaded (i : Ref) (env : StartEnv) : Action L Unit := do
  let l ← theLoader i
  let cls ← loadClass S l
  adjustWebapp S i l
  if ← openDatabase S i l env then do
    readConfig i env
    let p ← construct i l cls env
    startPlugin i p env
  else pure ()

/-- `start` past its guards: whether the dependencies are there. -/
def dependencies (i : Ref) : Action L Bool := do
  let w ← world
  if (w.instances.get i).client.isNone || (w.instances.get i).loader.isNone then load S i
  else pure true

def start (i : Ref) (env : StartEnv) : Action L Unit := do
  let w ← world
  if (w.instances.get i).started then pure ()
  else if !(w.instances.get i).enabled then pure ()
  else if ← dependencies S i then startLoaded S i env
  else pure ()

/-! ### Stop -/

/-- `self.plugin.internal_stop()` -/
def stopPlugin (i : Ref) (env : StopEnv) : Action L Unit := do
  let w ← world
  match (w.instances.get i).plugin with
  | some p => Plugin.internalStop p env.preStop env.stop
  | none   => throw { cls := .attributeError }

/-- A failure of `m` that is logged and goes no further. -/
def logged (x : Failure) (m : Action L Unit) : Action L Unit := do
  match ← attempt PyExc.isException m with
  | .ok _    => pure ()
  | .error _ => report x

/-- `stop` closing the database. -/
def closeDatabase (i : Ref) (env : StopEnv) : Action L Unit := do
  let w ← world
  if (w.instances.get i).instDb.isSome then
    logged (.stopDatabase i) (stopDatabase i env.stopDatabase)
  else pure ()

def stop (i : Ref) (env : StopEnv) : Action L Unit := do
  let w ← world
  if (w.instances.get i).started then do
    setInstance i fun inst => { inst with started := false }
    logged (.stopInstance i) (stopPlugin i env)
    setInstance i fun inst => { inst with plugin := none }
    closeDatabase i env
  else pure ()

/-! ### Updates -/

def updateId (i : Ref) (newId : Option String) : Action L Unit := do
  let w ← world
  match newId with
  | none   => pure ()
  | some n =>
    if S.lower n = (w.instances.get i).id then pure () else updateRowId i (S.lower n)

/-- `onUpdate` is what the plugin does in `on_external_config_update`. -/
def notifyPlugin (i : Ref) (onUpdate : Hook) : Action L Unit := do
  let w ← world
  match (w.instances.get i).started, (w.instances.get i).plugin with
  | true, some p => Plugin.runHook (saveConfig i) p onUpdate
  | _, _         => pure ()

def updateConfig (i : Ref) (config : Option String) (onUpdate : Hook) : Action L Unit := do
  let w ← world
  match config with
  | none   => pure ()
  | some c =>
    if (w.instances.get i).configStr = c then pure ()
    else do
      setInstance i fun inst => { inst with configStr := c }
      notifyPlugin i onUpdate
      update i

/-- `update_primary_user` once the client is found. -/
def switchClient (i c : Ref) (env : StopEnv × StartEnv) : Action L Unit := do
  stop i env.1
  let w ← world
  setInstance i fun inst => { inst with primaryUser := (w.clients.get c).id }
  removeFromClient S i
  setInstance i fun inst => { inst with client := some c }
  addToClient S i c
  update i
  start S i env.2

def updatePrimaryUser (i : Ref) (primaryUser : Option String) (env : StopEnv × StartEnv) :
    Action L Bool := do
  let w ← world
  match primaryUser with
  | none   => pure true
  | some u =>
    if u = (w.instances.get i).primaryUser then pure true
    else do
      match ← Client.get S u none none none with
      | none   => pure false
      | some c => do
        switchClient S i c env
        pure true

/-- `update_type` once the loader is found. -/
def switchLoader (i l : Ref) (env : StopEnv × StartEnv) : Action L Unit := do
  stop i env.1
  let w ← world
  setInstance i fun inst => { inst with type := (metaOf S w l).id }
  removeFromLoader S i
  setInstance i fun inst => { inst with loader := some l }
  addToLoader S i l
  update i
  start S i env.2

def updateType (i : Ref) (type : Option String) (env : StopEnv × StartEnv) :
    Action L Bool := do
  let w ← world
  match type with
  | none   => pure true
  | some t =>
    if t = (w.instances.get i).type then pure true
    else
      match S.loaders.find w.loaders t with
      | none   => pure false
      | some l => do
        switchLoader S i l env
        pure true

def updateStarted (i : Ref) (started : Option Bool) (env : StopEnv × StartEnv) :
    Action L Unit := do
  let w ← world
  match started with
  | none   => pure ()
  | some b =>
    if b = (w.instances.get i).started then pure ()
    else if b then start S i env.2
    else stop i env.1

/-! ### Lookup, creation and deletion -/

/-- `delete` after the row is gone: the database and the web app. -/
def deleteResources (i : Ref) (env : DeleteEnv) : Action L Unit := do
  let w ← world
  when (w.instances.get i).instDb.isSome do
    stopDatabase i env.stopDatabase
    deleteDatabase S i env
  let w ← world
  when ((w.instances.get i).instWebapp.any fun app => (w.webapps.get app).truthy)
    (disableWebapp S i)

def delete (i : Ref) (env : DeleteEnv) : Action L Unit := do
  removeFromLoader S i
  removeFromClient S i
  modify fun w =>
    { w with instanceCache := Function.update w.instanceCache (w.instances.get i).id none }
  deleteRow i
  deleteResources S i env

/-- A new object with the values of a row, after `postinit`. -/
def fromRow (id : String) (row : InstanceRow) : Action L Ref := do
  let w ← world
  modify fun w =>
    { w with
      instances := w.instances.alloc
        { id, type := row.type, enabled := row.enabled, primaryUser := row.primaryUser,
          configStr := row.config, databaseEngine := row.databaseEngine }
      instanceCache := Function.update w.instanceCache id (some w.instances.next) }
  pure w.instances.next

/-- `get(instance_id)`, with the arguments that make it create the instance. -/
def get (instanceId : String) (type primaryUser : Option String) : Action L (Option Ref) := do
  let w ← world
  match w.instanceCache instanceId with
  | some i => pure (some i)
  | none   =>
    match w.instanceRows instanceId with
    | some row => do
      let i ← fromRow instanceId row
      pure (some i)
    | none     =>
      if truthy type && truthy primaryUser then do
        let row : InstanceRow :=
          { type := type.getD "", enabled := true, primaryUser := primaryUser.getD "" }
        insertRow instanceId row
        let i ← fromRow instanceId row
        pure (some i)
      else pure none

end PluginInstance

end Maubot
