import Maubot.Instance.Handlers
import Maubot.Lib.Twin
import Maubot.Runs

namespace Maubot

open Prog

/-!
# Plugin instances — one instance, many versions of its plugin

Between two starts of an instance, its plugin can be reloaded or replaced, with other
metadata and other classes.

* `passed S i env w` — what `start` passes to the constructor of the plugin;
* `fresh i w` — the instance as if it had just been loaded;
* `Afresh S i env w` — nothing of an older version is there that the new one does not
  replace: a database that it does not use, or a config for which it has no class;
* `passed_of_reach` — after any run of reloads, starts and stops, exactly then a start passes
  what it would pass if the instance had just been loaded.
-/

variable {L : Type} (S : Setup L)

namespace PluginInstance

/-! ### What a start passes to the constructor -/

/-- The arguments that depend on what was set up before.  Configs and databases are told apart by
    their kinds only, and not one object from another of its kind. -/
structure Arguments where
  config    : Bool
  database  : Option InstDb
  webapp    : Option Ref
  webappUrl : Option String
  deriving DecidableEq, Repr

def arguments (inst : PluginInstance) : Arguments where
  config := inst.config
  database := inst.instDb
  webapp := inst.instWebapp
  webappUrl := inst.instWebappUrl

/-- `start` with its dependencies, up to `cls(...)`: the loader and the class, if it comes that
    far. -/
def beforeConstruct (i : Ref) (env : StartEnv) : Action L (Option (Ref × Ref)) := do
  let l ← theLoader i
  let cls ← loadClass S l
  adjustWebapp S i l
  if ← openDatabase S i l env then do
    readConfig i env
    pure (some (l, cls))
  else pure none

/-- `start` from there. -/
def fromConstruct (i : Ref) (env : StartEnv) (x : Option (Ref × Ref)) : Action L Unit :=
  match x with
  | some (l, cls) => do
    let p ← construct i l cls env
    startPlugin i p env
  | none          => pure ()

/-- The start of an instance in two parts: up to the constructor, and from it. -/
theorem startLoaded_eq_beforeConstruct (i : Ref) (env : StartEnv) :
    startLoaded S i env = beforeConstruct S i env >>= fromConstruct i env := by
  simp only [startLoaded, beforeConstruct, bind_assoc]
  congr! with l cls _ b
  cases b with
  | false => rfl
  | true => simp only [if_true, bind_assoc]; rfl

/-- The new plugin has the arguments. -/
theorem construct_arguments {i l cls p : Ref} {env : StartEnv} {w w' : World L}
    (h : (construct i l cls env).exec w = (.ok p, w')) :
    let pl := w'.plugins.get p
    { config := pl.config, database := pl.database, webapp := pl.webapp,
      webappUrl := pl.webappUrl } =
      (w.instances.get i).arguments := by
  obtain ⟨c, w₁, hc, hrest⟩ := exec_bind_eq_ok h
  obtain ⟨_, w₂, hraise, halloc⟩ := exec_bind_eq_ok hrest
  clear h hrest
  have hw₁ : w₁ = w := by
    rw [theClient, exec_get_bind] at hc
    split at hc <;> cases hc
    rfl
  have hw₂ : w₂ = w₁ := by
    cases hconstruct : env.construct <;> rw [hconstruct] at hraise <;> cases hraise
    rfl
  subst hw₂ hw₁
  cases halloc
  intro pl
  have hpl : pl = _ := Store.get_alloc_self w₂.plugins _
  rw [hpl]
  rfl

/-- What `start` passes, if it comes as far as the constructor. -/
def passed (i : Ref) (env : StartEnv) (w : World L) : Option Arguments :=
  match (beforeConstruct S i env).exec w with
  | (.ok (some _), w') => some (w'.instances.get i).arguments
  | _                  => none

/-- The object as `postinit` and `load` leave it: the row, the loader and the client. -/
def justLoaded (inst : PluginInstance) : PluginInstance where
  id := inst.id
  type := inst.type
  enabled := inst.enabled
  primaryUser := inst.primaryUser
  configStr := inst.configStr
  databaseEngine := inst.databaseEngine
  loader := inst.loader
  client := inst.client
  deleted := inst.deleted

/-- The instance `i` as if it had just been loaded. -/
def fresh (i : Ref) (w : World L) : World L :=
  { w with instances := w.instances.modify i justLoaded }

/-- The metadata of the plugin as the next start finds it. -/
def version (l : Ref) (w : World L) : PluginMeta :=
  S.loaders.metaOf ((S.loaders.load l).exec w.loaders).2 l

/-- The start replaces what an older version has left. -/
structure Afresh (i : Ref) (env : StartEnv) (w : World L) : Prop where
  database : ∀ l, (w.instances.get i).loader = some l → (version S l w).database = false →
    (w.instances.get i).instDb = none
  config   : env.configClass = .ok false → (w.instances.get i).config = false

/-! ### Two runs of a start -/

/-- The instance without what may be left of an older version. -/
def erased (inst : PluginInstance) : PluginInstance :=
  { inst with instDb := none, config := false, plugin := none, started := false }

/-- The instance is the same in both worlds but for what may be left of an older version. -/
structure Alike (i : Ref) (ls : L) (db db' : Option InstDb) (config config' : Bool)
    (w v : World L) : Prop where
  erased       : erased (w.instances.get i) = erased (v.instances.get i)
  instanceRows : w.instanceRows = v.instanceRows
  clientRows   : w.clientRows = v.clientRows
  loaders      : w.loaders = ls
  loaders'     : v.loaders = ls
  instDb       : (w.instances.get i).instDb = db
  instDb'      : (v.instances.get i).instDb = db'
  config       : (w.instances.get i).config = config
  config'      : (v.instances.get i).config = config'

variable {S} {i l : Ref} {ls : L} {db db' : Option InstDb} {config config' : Bool}
  {w v : World L}

namespace Alike

/-- Two instances that are alike have one id, -/
theorem id (h : Alike i ls db db' config config' w v) :
    (w.instances.get i).id = (v.instances.get i).id := (congrArg PluginInstance.id h.erased :)

/-- one row, -/
theorem row (h : Alike i ls db db' config config' w v) :
    (w.instances.get i).row = (v.instances.get i).row := (congrArg PluginInstance.row h.erased :)

/-- one user, -/
theorem primaryUser (h : Alike i ls db db' config config' w v) :
    (w.instances.get i).primaryUser = (v.instances.get i).primaryUser :=
  (congrArg PluginInstance.primaryUser h.erased :)

/-- one flag, -/
theorem enabled (h : Alike i ls db db' config config' w v) :
    (w.instances.get i).enabled = (v.instances.get i).enabled :=
  (congrArg PluginInstance.enabled h.erased :)

/-- one loader, -/
theorem loader (h : Alike i ls db db' config config' w v) :
    (w.instances.get i).loader = (v.instances.get i).loader :=
  (congrArg PluginInstance.loader h.erased :)

/-- and one engine. -/
theorem databaseEngine (h : Alike i ls db db' config config' w v) :
    (w.instances.get i).databaseEngine = (v.instances.get i).databaseEngine :=
  (congrArg PluginInstance.databaseEngine h.erased :)

/-- The metadata are those of the loaders, in the first world -/
theorem metaOf (h : Alike i ls db db' config config' w v) (l : Ref) :
    metaOf S w l = S.loaders.metaOf ls l := by
  rw [PluginInstance.metaOf, h.loaders]

/-- and in the second one. -/
theorem metaOf' (h : Alike i ls db db' config config' w v) (l : Ref) :
    PluginInstance.metaOf S v l = S.loaders.metaOf ls l := by
  rw [PluginInstance.metaOf, h.loaders']

/-- The same assignment in both worlds. -/
theorem assign (h : Alike i ls db db' config config' w v) {f : PluginInstance → PluginInstance}
    {db₁ db₁' : Option InstDb} {config₁ config₁' : Bool}
    (herased : PluginInstance.erased (f (w.instances.get i)) =
      PluginInstance.erased (f (v.instances.get i)))
    (hdb : (f (w.instances.get i)).instDb = db₁) (hdb' : (f (v.instances.get i)).instDb = db₁')
    (hconfig : (f (w.instances.get i)).config = config₁)
    (hconfig' : (f (v.instances.get i)).config = config₁') :
    Alike i ls db₁ db₁' config₁ config₁' { w with instances := w.instances.modify i f }
      { v with instances := v.instances.modify i f } := by
  have hself (s : Store PluginInstance) : (s.modify i f).get i = f (s.get i) :=
    Store.get_modify_self _ _ _
  refine ⟨?_, h.instanceRows, h.clientRows, h.loaders, h.loaders', ?_, ?_, ?_, ?_⟩ <;>
    simp only [hself]
  exacts [herased, hdb, hdb', hconfig, hconfig']

/-- A row is written in both. -/
theorem writeRow (h : Alike i ls db db' config config' w v) {rows : String → Option InstanceRow} :
    Alike i ls db db' config config' { w with instanceRows := rows }
      { v with instanceRows := rows } :=
  ⟨h.erased, rfl, h.clientRows, h.loaders, h.loaders', h.instDb, h.instDb', h.config, h.config'⟩

end Alike

/-- `Alike` for some databases. -/
def Related (i : Ref) (ls : L) (config config' : Bool) (w v : World L) : Prop :=
  ∃ db db', Alike i ls db db' config config' w v

/-- The row is written alike in both. -/
theorem twin_update : Twin (Alike i ls db db' config config') (update i) (update i)
    (fun _ => Alike i ls db db' config config') (Alike i ls db db' config config') := by
  refine twin_get_bind fun w v h => ?_
  dsimp only
  rw [h.id, h.row, h.primaryUser, h.instanceRows, h.clientRows]
  split
  · exact twin_pure () fun _ _ h => h
  split
  · exact twin_throw _ fun _ _ h => h
  · refine twin_modify fun w v h => ?_
    rw [h.instanceRows]
    exact h.writeRow

/-- So is the flag set, -/
theorem twin_updateEnabled (e : Option Bool) : Twin (Alike i ls db db' config config')
    (updateEnabled i e) (updateEnabled i e) (fun _ => Alike i ls db db' config config')
    (Alike i ls db db' config config') := by
  refine twin_get_bind fun w v h => ?_
  cases e with
  | none => exact twin_pure () fun _ _ h => h
  | some b =>
    dsimp only
    rw [h.enabled]
    split
    · exact twin_pure () fun _ _ h => h
    · have hassign : Twin (Alike i ls db db' config config')
          (setInstance i fun inst => { inst with enabled := b })
          (setInstance i fun inst => { inst with enabled := b })
          (fun _ => Alike i ls db db' config config') (Alike i ls db db' config config') :=
        twin_modify fun w v h => h.assign (congrArg (fun inst : PluginInstance =>
          { inst with enabled := b }) h.erased) h.instDb h.instDb' h.config h.config'
      exact hassign.bind fun _ => twin_update

/-- and the engine. -/
theorem twin_updateDbEngine (e : Option DatabaseEngine) : Twin (Alike i ls db db' config config')
    (updateDbEngine i e) (updateDbEngine i e) (fun _ => Alike i ls db db' config config')
    (Alike i ls db db' config config') := by
  refine twin_get_bind fun w v h => ?_
  cases e with
  | none => exact twin_pure () fun _ _ h => h
  | some b =>
    dsimp only
    rw [h.databaseEngine]
    split
    · exact twin_pure () fun _ _ h => h
    · have hassign : Twin (Alike i ls db db' config config')
          (setInstance i fun inst => { inst with databaseEngine := some b })
          (setInstance i fun inst => { inst with databaseEngine := some b })
          (fun _ => Alike i ls db db' config config') (Alike i ls db db' config config') :=
        twin_modify fun w v h => h.assign (congrArg (fun inst : PluginInstance =>
          { inst with databaseEngine := some b }) h.erased) h.instDb h.instDb' h.config h.config'
      exact hassign.bind fun _ => twin_update

/-- Both have the same loader, or none. -/
theorem twin_theLoader : Twin (Alike i ls db db' config config') (theLoader i) (theLoader i)
    (fun _ => Alike i ls db db' config config') (Alike i ls db db' config config') := by
  refine twin_get_bind fun w v h => ?_
  rw [h.loader]
  split
  · exact twin_pure _ fun _ _ h => h
  · exact twin_throw _ fun _ _ h => h

/-- A new database object replaces whatever there was. -/
theorem twin_setInstDb (create : Option PyExc) (new : InstDb) :
    Twin (Alike i ls db db' config config') (setInstDb i create new) (setInstDb i create new)
      (fun _ => Alike i ls (some new) (some new) config config')
      (Related i ls config config') := by
  have hraise : Twin (Alike i ls db db' config config') (raiseIf create : Action L Unit)
      (raiseIf create) (fun _ => Alike i ls db db' config config') (Related i ls config config') :=
    twin_raiseIf create (fun _ _ h => h) fun _ _ h => ⟨_, _, h⟩
  refine hraise.bind fun _ => ?_
  exact twin_modify fun w v h => h.assign (congrArg (fun inst : PluginInstance =>
    { inst with instDb := none }) h.erased) rfl rfl h.config h.config'

/-- The engine is checked alike, -/
theorem twin_checkLegacyEngine : Twin (Alike i ls db db' config config') (checkLegacyEngine i)
    (checkLegacyEngine i) (fun _ => Alike i ls db db' config config')
    (Alike i ls db db' config config') := by
  refine twin_get_bind fun w v h => ?_
  rw [h.databaseEngine]
  split
  · exact twin_updateDbEngine _
  · exact twin_throw _ fun _ _ h => h
  · exact twin_pure () fun _ _ h => h

/-- or chosen alike. -/
theorem twin_chooseEngine (sqliteDbExists : Bool) : Twin (Alike i ls db db' config config')
    (chooseEngine S i sqliteDbExists) (chooseEngine S i sqliteDbExists)
    (fun _ => Alike i ls db db' config config') (Alike i ls db db' config config') := by
  refine twin_get_bind fun w v h => ?_
  rw [h.databaseEngine]
  split
  · exact twin_pure () fun _ _ h => h
  split
  · exact twin_updateDbEngine _
  · exact twin_updateDbEngine _

/-- The database is the same in both worlds, a new one. -/
def Opened (i : Ref) (ls : L) (config config' : Bool) (w v : World L) : Prop :=
  ∃ new, Alike i ls (some new) (some new) config config' w v

/-- The database object is made of the same kind in both. -/
theorem twin_createAsyncpg (create : Option PyExc) : Twin (Alike i ls db db' config config')
    (createAsyncpg S i create) (createAsyncpg S i create)
    (fun _ => Opened i ls config config') (Related i ls config config') := by
  have hset (new : InstDb) : Twin (Alike i ls db db' config config') (setInstDb i create new)
      (setInstDb i create new) (fun _ => Opened i ls config config')
      (Related i ls config config') :=
    (twin_setInstDb create new).post (fun _ _ _ h => ⟨new, h⟩) fun _ _ h => h
  refine twin_get_bind fun w v h => ?_
  rw [h.databaseEngine]
  split
  · split
    · exact hset _
    · exact twin_throw _ fun _ _ h => ⟨_, _, h⟩
  · exact hset _

/-- What is opened alike is related. -/
theorem Opened.related (h : Opened i ls config config' w v) : Related i ls config config' w v := by
  obtain ⟨new, h⟩ := h
  exact ⟨_, _, h⟩

/-- The database is started alike. -/
theorem twin_startDatabase (sqliteDbExists : Bool) (create : Option PyExc)
    (actuallyStart : Option (Option PyExc)) : Twin (Alike i ls db db' config config')
      (startDatabase S i sqliteDbExists create actuallyStart)
      (startDatabase S i sqliteDbExists create actuallyStart)
      (fun _ => Opened i ls config config') (Related i ls config config') := by
  have hrelated {w v : World L} (h : Alike i ls db db' config config' w v) :
      Related i ls config config' w v := ⟨_, _, h⟩
  refine (twin_theLoader.post (fun _ _ _ h => h) fun _ _ => hrelated).bind fun l => ?_
  refine twin_get_bind fun w v h => ?_
  rw [h.metaOf l, h.metaOf' l]
  split
  · refine (twin_checkLegacyEngine.post (fun _ _ _ h => h) fun _ _ => hrelated).bind fun _ => ?_
    exact (twin_setInstDb create .engine).post (fun _ _ _ h => ⟨_, h⟩) fun _ _ h => h
  · refine ((twin_chooseEngine sqliteDbExists).post (fun _ _ _ h => h) fun _ _ =>
      hrelated).bind fun _ => ?_
    refine (twin_createAsyncpg create).bind fun _ => ?_
    exact twin_raiseIf _ (fun _ _ h => h) fun _ _ => Opened.related
  · exact twin_throw _ fun _ _ => hrelated

/-- A version that uses no database leaves alone what is there. -/
def dbAfter (usesDb : Bool) (new : InstDb) (db : Option InstDb) : Option InstDb :=
  if usesDb then some new else db

/-- The step of `start` opens it alike; what comes of it depends on what was there. -/
theorem twin_openDatabase (l : Ref) (env : StartEnv) : Twin (Alike i ls db db' config config')
    (openDatabase S i l env) (openDatabase S i l env)
    (fun b w v => b = true → ∃ new, Alike i ls (dbAfter (S.loaders.metaOf ls l).database new db)
      (dbAfter (S.loaders.metaOf ls l).database new db') config config' w v)
    fun _ _ => True := by
  refine twin_get_bind fun w v h => ?_
  rw [h.metaOf l, h.metaOf' l]
  by_cases hdb : (S.loaders.metaOf ls l).database = true
  · simp only [hdb, if_true, dbAfter]
    have hrun : Twin (Alike i ls db db' config config') (do
          raiseIf env.upgradeTable
          startDatabase S i env.sqliteDbExists env.createDatabase (some env.startDatabase))
        (do
          raiseIf env.upgradeTable
          startDatabase S i env.sqliteDbExists env.createDatabase (some env.startDatabase))
        (fun _ => Opened i ls config config') (Related i ls config config') := by
      have hraise :
          Twin (Alike i ls db db' config config') (raiseIf env.upgradeTable : Action L Unit)
          (raiseIf env.upgradeTable) (fun _ => Alike i ls db db' config config')
          (Related i ls config config') := twin_raiseIf _ (fun _ _ h => h) fun _ _ h => ⟨_, _, h⟩
      exact hraise.bind fun _ => twin_startDatabase _ _ _
    refine (twin_attempt PyExc.isException (R := fun r w v => (r.isOk = true →
      Opened i ls config config' w v) ∧ Related i ls config config' w v) hrun
      (fun _ _ _ h => ⟨fun _ => h, h.related⟩) fun _ _ _ h => ⟨nofun, h⟩).post
      (fun _ _ _ h => h) (fun _ _ _ => trivial) |>.bind fun r => ?_
    cases r with
    | ok _ => exact twin_pure true fun _ _ h _ => h.1 rfl
    | error _ =>
      -- the instance is disabled in both worlds, and the start ends
      rintro w v ⟨-, db₁, db₁', h₁⟩
      have hreport : Twin (Alike i ls db₁ db₁' config config') (report (.startDatabase i))
          (report (.startDatabase i)) (fun _ => Alike i ls db₁ db₁' config config')
          fun _ _ => True := twin_modify fun w v h =>
        ⟨h.erased, h.instanceRows, h.clientRows, h.loaders, h.loaders', h.instDb, h.instDb',
          h.config, h.config'⟩
      refine (hreport.bind fun _ => ((twin_updateEnabled (some false)).post (fun _ _ _ h => h)
        fun _ _ _ => trivial).bind fun _ => ?_) w v h₁
      exact twin_pure false fun _ _ _ hfalse => absurd hfalse Bool.false_ne_true
  · rw [Bool.not_eq_true] at hdb
    simp only [hdb, Bool.false_eq_true, if_false, dbAfter]
    exact twin_pure true fun _ _ h _ => ⟨.engine, h⟩

/-- A class without a config class leaves alone the config that is there. -/
theorem twin_readConfig (env : StartEnv) : Twin (Alike i ls db db' config config')
    (readConfig i env) (readConfig i env)
    (fun _ w v => ∃ b, env.configClass = .ok b ∧
      Alike i ls db db' (b || config) (b || config') w v) fun _ _ => True := by
  have hread : Twin (Alike i ls db db' config config') (outcome env.configClass : Action L Bool)
      (outcome env.configClass)
      (fun b w v => env.configClass = .ok b ∧ Alike i ls db db' config config' w v)
      fun _ _ => True := by
    cases env.configClass with
    | ok b => exact twin_pure b fun _ _ h => ⟨rfl, h⟩
    | error e => exact twin_throw e fun _ _ _ => trivial
  refine hread.bind fun b => ?_
  cases b with
  | false => exact twin_pure () fun _ _ h => ⟨false, h.1, h.2⟩
  | true =>
    rintro w v ⟨hclass, h⟩
    have hraise : Twin (Alike i ls db db' config config') (raiseIf env.baseConfig : Action L Unit)
        (raiseIf env.baseConfig) (fun _ => Alike i ls db db' config config')
        (Alike i ls db db' config config') := twin_raiseIf _ (fun _ _ h => h) fun _ _ h => h
    have hbase : Twin (Alike i ls db db' config config')
        (attempt PyExc.isMissingFile (raiseIf env.baseConfig : Action L Unit))
        (attempt PyExc.isMissingFile (raiseIf env.baseConfig))
        (fun _ => Alike i ls db db' config config') fun _ _ => True :=
      (twin_attempt (R := fun _ => Alike i ls db db' config config') _ hraise (fun _ _ _ h => h)
        fun _ _ _ h => h).post (fun _ _ _ h => h) fun _ _ _ => trivial
    refine (hbase.bind fun _ => ?_) w v h
    exact twin_modify fun w v h => ⟨true, hclass, h.assign (congrArg (fun inst : PluginInstance =>
      { inst with config := false }) h.erased) h.instDb h.instDb' rfl rfl⟩

/-- From the open database on, the runs end alike. -/
theorem twin_beforeConstruct (l cls : Ref) (env : StartEnv) :
    Twin (Alike i ls db db' config config')
      (do
        if ← openDatabase S i l env then do
          readConfig i env
          pure (some (l, cls))
        else pure none)
      (do
        if ← openDatabase S i l env then do
          readConfig i env
          pure (some (l, cls))
        else pure none)
      (fun x w v => x.isSome = true → ∃ new b, env.configClass = .ok b ∧
        Alike i ls (dbAfter (S.loaders.metaOf ls l).database new db)
          (dbAfter (S.loaders.metaOf ls l).database new db') (b || config) (b || config') w v)
      fun _ _ => True := by
  refine (twin_openDatabase l env).bind fun b => ?_
  cases b with
  | false => exact twin_pure none fun _ _ _ hnone => by cases hnone
  | true =>
    intro w v h
    obtain ⟨new, h⟩ := h rfl
    refine ((twin_readConfig env).bind fun _ => ?_) w v h
    exact twin_pure (some (l, cls)) fun w v h _ => ⟨new, h⟩

/-! ### Web apps of instances that keep their ids -/

variable (S) in
/-- The web apps are those that the server has for the ids of the instances. -/
structure Served (w : World L) : Prop where
  cached   : ∀ j, j < w.instances.next → w.instanceCache (w.instances.get j).id = some j
  webapp   : ∀ j, j < w.instances.next → (w.instances.get j).instWebapp =
    w.pluginRoutes (MaubotServer.subpath S (w.instances.get j).id)
  url      : ∀ j, j < w.instances.next → (w.instances.get j).instWebappUrl =
    (w.instances.get j).instWebapp.map fun _ =>
      S.publicUrl ++ MaubotServer.subpath S (w.instances.get j).id
  routeKey : ∀ k app, w.pluginRoutes k = some app → ∃ j, j < w.instances.next ∧
    k = MaubotServer.subpath S (w.instances.get j).id

/-- An instance that is served has its route. -/
theorem Served.routed (hw : Served S w) : Routed S w where
  cached   := hw.cached
  webapp   := hw.webapp
  routeKey := hw.routeKey

/-- With the URL that belongs to the route it is served. -/
theorem Routed.served (hw : Routed S w)
    (hurl : ∀ j, j < w.instances.next → (w.instances.get j).instWebappUrl =
      (w.instances.get j).instWebapp.map fun _ =>
        S.publicUrl ++ MaubotServer.subpath S (w.instances.get j).id) : Served S w where
  cached   := hw.cached
  webapp   := hw.webapp
  url      := hurl
  routeKey := hw.routeKey

/-- A step that touches none of this. -/
theorem Served.of_kept {w' : World L} (hw : Served S w)
    (hnext : w'.instances.next = w.instances.next)
    (hcache : w'.instanceCache = w.instanceCache) (hroutes : w'.pluginRoutes = w.pluginRoutes)
    (hid : ∀ j, (w'.instances.get j).id = (w.instances.get j).id)
    (hwebapp : ∀ j, (w'.instances.get j).instWebapp = (w.instances.get j).instWebapp)
    (hurl : ∀ j, (w'.instances.get j).instWebappUrl = (w.instances.get j).instWebappUrl) :
    Served S w' := by
  refine (hw.routed.of_kept hnext hcache hroutes hid hwebapp).served fun j hj => ?_
  rw [hurl, hwebapp, hid]
  exact hw.url j (hnext ▸ hj)

/-- The instance `i` gets the web app that the server then has for its id. -/
theorem Served.set {apps : Store WebApp} (hw : Served S w) (hi : i < w.instances.next)
    (app : Option Ref) :
    Served S { w with
      instances := w.instances.modify i fun inst =>
        { inst with
          instWebapp := app
          instWebappUrl := app.map fun _ =>
            S.publicUrl ++ MaubotServer.subpath S (w.instances.get i).id }
      webapps := apps
      pluginRoutes := Function.update w.pluginRoutes
        (MaubotServer.subpath S (w.instances.get i).id) app } := by
  show Served S (withWebapp S i app
    (app.map fun _ => S.publicUrl ++ MaubotServer.subpath S (w.instances.get i).id) apps w)
  refine (hw.routed.withWebapp hi).served fun j hj => ?_
  rcases eq_or_ne j i with rfl | hji
  · rw [withWebapp_self]
  · rw [withWebapp_ne _ _ _ hji]
    exact hw.url j hj

/-- `enable_webapp` takes the web app that the server has, or a new one. -/
theorem exec_enableWebapp (i : Ref) (w : World L) :
    ∃ app apps, (∀ a, w.pluginRoutes (MaubotServer.subpath S (w.instances.get i).id) = some a →
        app = a) ∧
      (w.pluginRoutes (MaubotServer.subpath S (w.instances.get i).id) = none →
        app = w.webapps.next) ∧
      (enableWebapp S i).exec w = (.ok (), { w with
        instances := w.instances.modify i fun inst =>
          { inst with
            instWebapp := some app
            instWebappUrl := some (S.publicUrl ++ MaubotServer.subpath S (w.instances.get i).id) }
        webapps := apps
        pluginRoutes := Function.update w.pluginRoutes
          (MaubotServer.subpath S (w.instances.get i).id) (some app) }) := by
  cases hroute : w.pluginRoutes (MaubotServer.subpath S (w.instances.get i).id) with
  | some app =>
    refine ⟨app, w.webapps, fun a ha => Option.some.inj ha, fun hnone => ?_, ?_⟩
    · cases hnone
    · rw [enableWebapp, exec_get_bind,
        exec_bind_ok (MaubotServer.exec_getInstanceSubapp_some hroute), ← hroute,
        Function.update_eq_self]
      rfl
  | none =>
    refine ⟨w.webapps.next, w.webapps.alloc {}, fun a ha => ?_, fun _ => rfl, ?_⟩
    · cases ha
    · rw [enableWebapp, exec_get_bind,
        exec_bind_ok (MaubotServer.exec_getInstanceSubapp_none hroute)]
      rfl

/-- The web app is taken off, and only the web apps and the instance change. -/
theorem exec_disableWebapp (i : Ref) (w : World L) :
    ∃ apps, (disableWebapp S i).exec w = (.ok (), { w with
      instances := w.instances.modify i fun inst =>
        { inst with instWebapp := none, instWebappUrl := none }
      webapps := apps
      pluginRoutes := Function.update w.pluginRoutes
        (MaubotServer.subpath S (w.instances.get i).id) none }) := by
  cases hroute : w.pluginRoutes (MaubotServer.subpath S (w.instances.get i).id) with
  | some app =>
    refine ⟨w.webapps.modify app fun a => { a with routes := [] }, ?_⟩
    rw [disableWebapp, exec_get_bind,
      exec_bind_ok (MaubotServer.exec_removeInstanceWebapp_some hroute)]
    rfl
  | none =>
    refine ⟨w.webapps, ?_⟩
    rw [disableWebapp, exec_get_bind,
      exec_bind_ok (MaubotServer.exec_removeInstanceWebapp_none hroute), ← hroute,
      Function.update_eq_self]
    rfl

/-- The frame of the methods of the instance `i`, which exists. -/
def Serves (S : Setup L) (i : Ref) : Frame (World L) :=
  .ofInv fun w => Served S w ∧ i < w.instances.next

/-- Who is served is seen from the instances' ids and web apps, the cache and the routes. -/
theorem serves_of_kept {w' : World L} (hnext : w'.instances.next = w.instances.next)
    (hcache : w'.instanceCache = w.instanceCache) (hroutes : w'.pluginRoutes = w.pluginRoutes)
    (hid : ∀ j, (w'.instances.get j).id = (w.instances.get j).id)
    (hwebapp : ∀ j, (w'.instances.get j).instWebapp = (w.instances.get j).instWebapp)
    (hurl : ∀ j, (w'.instances.get j).instWebappUrl = (w.instances.get j).instWebappUrl) :
    (Serves S i).rel w w' := fun hw =>
  ⟨hw.1.of_kept hnext hcache hroutes hid hwebapp hurl, by rw [hnext]; exact hw.2⟩

/-- A step that touches neither instances nor routes. -/
theorem serves_modify {f : World L → World L} (hinstances : ∀ w, (f w).instances = w.instances)
    (hcache : ∀ w, (f w).instanceCache = w.instanceCache)
    (hroutes : ∀ w, (f w).pluginRoutes = w.pluginRoutes) :
    Keeps (Serves S i) (modify f : Action L Unit) := fun w =>
  serves_of_kept (congrArg Store.next (hinstances w)) (hcache w) (hroutes w)
    (fun j => congrArg (fun s => (s.get j).id) (hinstances w))
    (fun j => congrArg (fun s => (s.get j).instWebapp) (hinstances w))
    fun j => congrArg (fun s => (s.get j).instWebappUrl) (hinstances w)

/-- A quiet program leaves them. -/
theorem serves_of_quiet {α : Type} {m : Action L α} (hm : Keeps (Quiet S) m) :
    Keeps (Serves S i) m := fun w =>
  let h := hm w
  serves_of_kept h.next h.instanceCache h.pluginRoutes
    (fun j => (congrArg PluginInstance.id (h.core j) :))
    (fun j => (congrArg PluginInstance.instWebapp (h.core j) :))
    fun j => (congrArg PluginInstance.instWebappUrl (h.core j) :)

/-- So does a field of an instance that is not in its row. -/
theorem serves_assign {f : PluginInstance → PluginInstance} (hf : SparesRow f) :
    Keeps (Serves S i) (setInstance i f) := fun w =>
  serves_of_kept rfl rfl rfl (Store.view_modify w.instances i f PluginInstance.id hf.id)
    (Store.view_modify w.instances i f PluginInstance.instWebapp hf.instWebapp)
    (Store.view_modify w.instances i f PluginInstance.instWebappUrl hf.instWebappUrl)

/-- And a client that is looked up. -/
theorem serves_getClient (u : String) : Keeps (Serves S i) (Client.get S u none none none) := by
  intro w
  rcases Client.exec_get (S := S) u w with ⟨c, -, h⟩ | ⟨row, w', -, -, h, hmade⟩ | ⟨-, -, h⟩ <;>
    rw [h]
  · exact (Serves S i).refl w
  · rw [hmade.others]
    exact serves_of_kept rfl rfl rfl (fun _ => rfl) (fun _ => rfl) fun _ => rfl
  · exact (Serves S i).refl w

/-- Starts and stops change web app and route together. -/
theorem admits_serves : Admits S i (Serves S i) where
  aside h := by
    rw [h]
    exact serves_of_kept rfl rfl rfl (fun _ => rfl) (fun _ => rfl) fun _ => rfl
  assign _ hf := serves_assign hf
  enableWebapp w hw := by
    obtain ⟨app, apps, -, -, he⟩ := exec_enableWebapp (S := S) i w
    rw [he]
    exact ⟨hw.1.set hw.2 (some app), hw.2⟩
  disableWebapp w hw := by
    obtain ⟨apps, he⟩ := exec_disableWebapp (S := S) i w
    rw [he]
    exact ⟨hw.1.set hw.2 none, hw.2⟩
  updateEnabled e := serves_of_quiet (quiet_updateEnabled i e)
  updateDbEngine e := serves_of_quiet (quiet_updateDbEngine i e)
  saveConfig val := serves_of_quiet (quiet_saveConfig i val)
  getClient := serves_getClient
  addToClient c := keeps_bind keeps_get fun _ =>
    serves_modify (fun _ => rfl) (fun _ => rfl) fun _ => rfl
  construct _ _ _ :=
    keeps_bind (AdmitsParts.theClient i) fun _ => keeps_bind (keeps_raiseIf _) fun _ =>
    keeps_bind keeps_get fun _ =>
    keeps_bind (serves_modify (fun _ => rfl) (fun _ => rfl) fun _ => rfl) fun _ =>
    keeps_bind (serves_assign (sparesRow_setPlugin _)) fun _ => keeps_pure _
  register _ _ _ := keeps_bind (serves_modify (fun _ => rfl) (fun _ => rfl) fun _ => rfl) fun _ =>
    keeps_bind keeps_get fun _ => serves_modify (fun _ => rfl) (fun _ => rfl) fun _ => rfl
  removeHandlers _ := keeps_bind keeps_get fun _ => keeps_forM fun _ _ =>
    serves_modify (fun _ => rfl) (fun _ => rfl) fun _ => rfl

/-! ### A start against a fresh one -/

/-- After the web app was set, old and fresh instance differ in what may be old only. -/
theorem alike_of_webapp {w' v' : World L} (app : Option Ref) (url : Option String)
    (hw : w'.instances.get i = { w.instances.get i with instWebapp := app, instWebappUrl := url })
    (hv : v'.instances.get i =
      { justLoaded (w.instances.get i) with instWebapp := app, instWebappUrl := url })
    (hrows : w'.instanceRows = v'.instanceRows) (hclients : w'.clientRows = v'.clientRows)
    (hls : w'.loaders = ls) (hls' : v'.loaders = ls) :
    Alike i ls (w.instances.get i).instDb none (w.instances.get i).config false w' v' := by
  refine ⟨?_, hrows, hclients, hls, hls', ?_, ?_, ?_, ?_⟩ <;> simp only [hw, hv]
  · rfl
  · rfl
  · rfl

/-- A fresh instance is as if it had just been loaded. -/
theorem get_fresh (i : Ref) (w : World L) :
    (fresh i w).instances.get i = justLoaded (w.instances.get i) := Store.get_modify_self _ _ _

/-- `start` gives the old instance the web app that it gives the fresh one. -/
theorem exec_adjustWebapp (hw : Served S w) (hi : i < w.instances.next) (l : Ref) :
    ∃ w' v', (adjustWebapp S i l).exec w = (.ok (), w') ∧
      (adjustWebapp S i l).exec (fresh i w) = (.ok (), v') ∧
      Alike i w.loaders (w.instances.get i).instDb none (w.instances.get i).config false w' v' := by
  have hwebapp := hw.webapp i hi
  have hurl := hw.url i hi
  have hfresh := get_fresh i w
  have hself (app : Option Ref) (url : Option String) (s : Store PluginInstance) :
      (s.modify i fun inst => { inst with instWebapp := app, instWebappUrl := url }).get i =
        { s.get i with instWebapp := app, instWebappUrl := url } := Store.get_modify_self _ _ _
  rw [adjustWebapp, exec_get_bind, exec_get_bind]
  by_cases hmeta : (metaOf S w l).webapp = true
  · have hmeta' : (metaOf S (fresh i w) l).webapp = true := hmeta
    obtain ⟨app, apps, hsome, hnone, he⟩ := exec_enableWebapp (S := S) i w
    obtain ⟨app', apps', hsome', hnone', he'⟩ := exec_enableWebapp (S := S) i (fresh i w)
    -- the fresh instance goes by the same id, so it gets the web app of the same route
    have hid : ((fresh i w).instances.get i).id = (w.instances.get i).id := by
      rw [hfresh]
      rfl
    rw [hid] at hsome' hnone' he'
    have hinst : ((fresh i w).instances.get i).instWebapp.isNone = true := by
      rw [hfresh]
      rfl
    simp only [hmeta, hmeta', hinst, Bool.true_and, if_true]
    cases hroute : w.pluginRoutes (MaubotServer.subpath S (w.instances.get i).id) with
    | none =>
      have hunset : (w.instances.get i).instWebapp.isNone = true := by rw [hwebapp, hroute]; rfl
      obtain rfl := hnone hroute
      obtain rfl := hnone' hroute
      rw [if_pos hunset]
      refine ⟨_, _, he, he', alike_of_webapp (some w.webapps.next)
        (some (S.publicUrl ++ MaubotServer.subpath S (w.instances.get i).id)) ?_ ?_ rfl rfl rfl rfl⟩
      · exact hself _ _ w.instances
      · rw [hself, hfresh]
        rfl
    | some a =>
      have hset : ¬ (w.instances.get i).instWebapp.isNone = true := by rw [hwebapp, hroute]; simp
      obtain rfl := hsome' a hroute
      rw [if_neg hset]
      refine ⟨_, _, rfl, he', alike_of_webapp (some app')
        (some (S.publicUrl ++ MaubotServer.subpath S (w.instances.get i).id)) ?_ ?_ rfl rfl rfl rfl⟩
      · rw [hwebapp, hroute] at hurl
        rw [← hroute, ← hwebapp]
        replace hurl := hurl.symm
        rw [Option.map_some] at hurl
        rw [hurl]
      · rw [hself, hfresh]
  · rw [Bool.not_eq_true] at hmeta
    have hmeta' : (metaOf S (fresh i w) l).webapp = false := hmeta
    have hinst : ((fresh i w).instances.get i).instWebapp.isSome = false := by
      rw [hfresh]
      rfl
    simp only [hmeta, hmeta', hinst, Bool.false_and, Bool.not_false, Bool.true_and,
      Bool.false_eq_true, if_false]
    by_cases hset : (w.instances.get i).instWebapp.isSome = true
    · obtain ⟨apps, he⟩ := exec_disableWebapp (S := S) i w
      rw [if_pos hset]
      exact ⟨_, _, he, rfl, alike_of_webapp none none (hself none none _) hfresh rfl rfl rfl rfl⟩
    · rw [if_neg hset]
      rw [Bool.not_eq_true, Option.isSome_eq_false_iff, Option.isNone_iff_eq_none] at hset
      refine ⟨_, _, rfl, rfl, alike_of_webapp none none ?_ hfresh rfl rfl rfl rfl⟩
      rw [hset] at hurl
      rw [← hset]
      replace hurl := hurl.symm
      rw [Option.map_none] at hurl
      rw [hurl]

/-- Old and fresh instance pass the same if they have the same database and config. -/
theorem arguments_eq_iff (h : Alike i ls db db' config config' w v) :
    some (v.instances.get i).arguments = some (w.instances.get i).arguments ↔
      db' = db ∧ config' = config := by
  have hwebapp : (w.instances.get i).instWebapp = (v.instances.get i).instWebapp :=
    (congrArg PluginInstance.instWebapp h.erased :)
  have hurl : (w.instances.get i).instWebappUrl = (v.instances.get i).instWebappUrl :=
    (congrArg PluginInstance.instWebappUrl h.erased :)
  rw [Option.some.injEq, arguments, arguments, h.instDb, h.instDb', h.config, h.config', hwebapp,
    hurl, Arguments.mk.injEq]
  constructor
  · exact fun ⟨hconfig, hdb, _⟩ => ⟨hdb, hconfig⟩
  · exact fun ⟨hdb, hconfig⟩ => ⟨hconfig, hdb, rfl, rfl⟩

/-- A start is as after a restart exactly if the arguments of the constructor are. -/
theorem afresh_iff {env : StartEnv} {b : Bool} (hl : (w.instances.get i).loader = some l)
    (hversion : version S l w = S.loaders.metaOf ls l) (hclass : env.configClass = .ok b)
    (new : InstDb) :
    Afresh S i env w ↔
      dbAfter (S.loaders.metaOf ls l).database new none =
        dbAfter (S.loaders.metaOf ls l).database new (w.instances.get i).instDb ∧
      (b || false) = (b || (w.instances.get i).config) := by
  -- an old database object matters where the new version declares none,
  have hdatabase : (∀ l', (w.instances.get i).loader = some l' →
      (version S l' w).database = false → (w.instances.get i).instDb = none) ↔
      dbAfter (S.loaders.metaOf ls l).database new none =
        dbAfter (S.loaders.metaOf ls l).database new (w.instances.get i).instDb := by
    rw [hl]
    cases hdb : (S.loaders.metaOf ls l).database with
    | true =>
      refine iff_of_true (fun l' hl' hfalse => ?_) rfl
      rw [← Option.some.inj hl', hversion, hdb] at hfalse
      cases hfalse
    | false =>
      constructor
      · exact fun h => (h l rfl (by rw [hversion, hdb])).symm
      · exact fun h _ _ _ => h.symm
  -- and an old config where it has no config class
  have hconfig : (env.configClass = .ok false → (w.instances.get i).config = false) ↔
      (b || false) = (b || (w.instances.get i).config) := by
    rw [hclass, Except.ok.injEq]
    cases b with
    | true => exact ⟨fun _ => rfl, fun _ h => by cases h⟩
    | false => exact ⟨fun h => (h rfl).symm, fun h _ => h.symm⟩
  constructor
  · exact fun h => ⟨hdatabase.mp h.database, hconfig.mp h.config⟩
  · exact fun h => ⟨hdatabase.mpr h.1, hconfig.mpr h.2⟩

/-- **A start against a fresh one.**  They pass the same exactly if nothing of an older version
    is left that the start does not replace. -/
theorem passed_fresh_iff (hw : Served S w) (hi : i < w.instances.next) (env : StartEnv)
    {a : Arguments} (ha : passed S i env w = some a) :
    passed S i env (fresh i w) = some a ↔ Afresh S i env w := by
  unfold passed beforeConstruct at ha ⊢
  -- the loader and the class are the same
  have hloader : ((fresh i w).instances.get i).loader = (w.instances.get i).loader := by
    rw [get_fresh]
    rfl
  cases hl : (w.instances.get i).loader with
  | none =>
    rw [exec_bind_error (exec_theLoader_none hl)] at ha
    cases ha
  | some l =>
    rw [exec_bind_ok (exec_theLoader hl)] at ha
    rw [exec_bind_ok (exec_theLoader (hloader.trans hl))]
    rcases hload : (S.loaders.load l).exec w.loaders with ⟨e | cls, ls⟩
    · have hraise : (loadClass S l).exec w = (.error e, { w with loaders := ls }) := by
        rw [loadClass, exec_zoom, hload]
      rw [exec_bind_error hraise] at ha
      cases ha
    have hcls (v : World L) (hv : v.loaders = w.loaders) :
        (loadClass S l).exec v = (.ok cls, { v with loaders := ls }) := by
      rw [loadClass, exec_zoom, hv, hload]
    rw [exec_bind_ok (hcls w rfl)] at ha
    rw [exec_bind_ok (hcls (fresh i w) rfl)]
    let w₁ : World L := { w with loaders := ls }
    have hw₁ : Served S w₁ := ⟨hw.cached, hw.webapp, hw.url, hw.routeKey⟩
    -- so is the web app
    obtain ⟨w₂, v₂, hadjust, hadjust', halike⟩ := exec_adjustWebapp hw₁ hi l
    rw [exec_bind_ok hadjust] at ha
    rw [exec_bind_ok
      (show (adjustWebapp S i l).exec { fresh i w with loaders := ls } = _ from hadjust')]
    have hversion : version S l w = S.loaders.metaOf ls l := by rw [version, hload]
    -- the database and the config may not be
    have htwin := twin_beforeConstruct (S := S) l cls env w₂ v₂ halike
    rcases hrun : (do
        if ← openDatabase S i l env then do
          readConfig i env
          pure (some (l, cls))
        else pure none : Action L (Option (Ref × Ref))).exec w₂ with ⟨e | x, w₃⟩ <;>
      rw [hrun] at ha htwin
    · cases ha
    rcases hrun' : (do
        if ← openDatabase S i l env then do
          readConfig i env
          pure (some (l, cls))
        else pure none : Action L (Option (Ref × Ref))).exec v₂ with ⟨e | y, v₃⟩ <;>
      rw [hrun'] at htwin
    · exact htwin.elim
    obtain ⟨rfl, hends⟩ := htwin
    cases x with
    | none => cases ha
    | some x =>
      obtain ⟨new, b, hclass, h₃⟩ := hends rfl
      rw [← ha]
      exact (arguments_eq_iff h₃).trans (afresh_iff hl hversion hclass new).symm

/-- An instance that has its loader and its client is not loaded again. -/
theorem exec_dependencies_of_loaded
    (h : ((w.instances.get i).client.isNone || (w.instances.get i).loader.isNone) = false) :
    (dependencies S i).exec w = (.ok true, w) := by
  rw [dependencies, exec_get_bind, if_neg (by rw [h]; exact Bool.false_ne_true)]
  rfl

/-! ### Runs -/

/-- A new object stands for an id that no instance has, so the server has no web app for it. -/
theorem served_fromRow (hw : Served S w) {id : String} (hid : w.instanceCache id = none)
    (row : InstanceRow) : Served S ((fromRow id row).exec w).2 := by
  refine (hw.routed.fromRow hid row).served fun j hj => ?_
  set w' := ((fromRow id row).exec w).2
  have hnext : w'.instances.next = w.instances.next + 1 := rfl
  rw [hnext] at hj
  rcases Nat.lt_succ_iff_lt_or_eq.mp hj with hj | rfl
  · rw [show w'.instances.get j = w.instances.get j from Store.get_alloc_of_lt w.instances _ hj]
    exact hw.url j hj
  · rw [show w'.instances.get w.instances.next = _ from Store.get_alloc_self w.instances _]
    rfl

/-- An instance that is looked up leaves the others served. -/
theorem served_get (hw : Served S w) (id : String) (type user : Option String) :
    Served S ((get id type user).exec w).2 := by
  rcases exec_get_cases id type user w with he | ⟨row, hc, -, he⟩ | ⟨row, hc, -, -, he⟩ <;> rw [he]
  · exact hw
  · exact served_fromRow hw hc row
  · have hrow : Served S
        { w with instanceRows := Function.update w.instanceRows id (some row) } :=
      ⟨hw.cached, hw.webapp, hw.url, hw.routeKey⟩
    exact served_fromRow hrow hc row

/-- Where no instance has a web app, all are served. -/
theorem Idle.served (h : Idle w) : Served S w where
  cached j hj := absurd hj (by rw [h.instances]; exact Nat.not_lt_zero j)
  webapp j hj := absurd hj (by rw [h.instances]; exact Nat.not_lt_zero j)
  url j hj := absurd hj (by rw [h.instances]; exact Nat.not_lt_zero j)
  routeKey k app hk := by
    rw [h.pluginRoutes] at hk
    cases hk

end PluginInstance

section Runs

open PluginInstance

variable {S} {w₀ w w₁ : World L} {i : Ref}

/-- Instances are looked up, loaded, started and stopped, and plugins come in other versions. -/
def Call.OfVersions : Call L → Prop
  | .onInstance (.get ..)           => True
  | .onInstance (.load _)           => True
  | .onInstance (.start ..)         => True
  | .onInstance (.stop ..)          => True
  | .onInstance (.updateEnabled ..) => True
  | .updateStarted ..               => True
  | .updateDbEngine ..              => True
  | .loaders _                      => True
  | _                               => False

/-- **Step.** -/
theorem Call.served (hw : Served S w) {call : Call L} (hheld : call.Held w)
    (hcall : call.OfVersions) : Served S (call.exec S w) := by
  have hmethod {α : Type} {m : Action L α} {j : Ref} (hj : Live w j)
      (hm : Keeps (Serves S j) m) : Served S (m.exec w).2 := (hm w ⟨hw, hj.1⟩).1
  cases call with
  | onInstance op =>
    cases op with
    | get id t u => exact served_get hw id t u
    | load j => exact hmethod (hheld j rfl) admits_serves.load
    | start j env => exact hmethod (hheld j rfl) (admits_serves.start env)
    | stop j env => exact hmethod (hheld j rfl) (admits_serves.stop env)
    | updateEnabled j e => exact hmethod (hheld j rfl) (admits_serves.updateEnabled e)
    | _ => cases hcall
  | updateStarted j b env => exact hmethod hheld (admits_serves.updateStarted b env)
  | updateDbEngine j e => exact hmethod hheld (admits_serves.updateDbEngine e)
  | loaders ls => exact ⟨hw.cached, hw.webapp, hw.url, hw.routeKey⟩
  | _ => cases hcall

/-- **What a start passes, over whole runs.**  After any history of versions, starts and stops,
    a start that has found loader and client passes what a freshly loaded instance would pass
    exactly if it replaces what an older version has left. -/
theorem passed_of_reach (h₀ : Idle w₀)
    (h : Reach (Call.exec S) (fun w call => call.Held w ∧ call.OfVersions) w₀ w)
    (hi : i < w.instances.next) (hfound : (dependencies S i).exec w = (.ok true, w₁))
    (env : StartEnv) {a : Arguments} (ha : passed S i env w₁ = some a) :
    passed S i env (fresh i w₁) = some a ↔ Afresh S i env w₁ := by
  have hw : Served S w :=
    h.invariant h₀.served fun _ _ hw hcall => Call.served hw hcall.1 hcall.2
  have hdependencies : Keeps (Serves S i) (dependencies S i) :=
    keeps_bind keeps_get fun _ => keeps_ite admits_serves.load (keeps_pure _)
  have hw₁ := hdependencies w ⟨hw, hi⟩
  rw [hfound] at hw₁
  exact passed_fresh_iff hw₁.1 hw₁.2 env ha

end Runs

namespace InstanceTest

open PluginInstance

/-- The one plugin, whose versions use a database or not. -/
def versioned : Setup Bool where
  hash := setup.hash
  lower := setup.lower
  pluginBasePath := setup.pluginBasePath
  publicUrl := setup.publicUrl
  pluginPostgresDb := false
  cryptoDb := false
  loaders :=
    { find := fun _ type => if type = "plugin" then some 0 else none
      metaOf := fun usesDb _ => { loaders.metaOf () 0 with database := usesDb }
      load := fun _ => pure 0
      load_find := fun _ _ => rfl
      load_meta := fun _ _ => rfl }

/-- The program has just started, with the version that uses a database. -/
def installed : World Bool where
  instances := startup.instances
  instanceCache := startup.instanceCache
  instanceRows := startup.instanceRows
  clients := startup.clients
  clientCache := startup.clientCache
  clientRows := startup.clientRows
  matrixClients := startup.matrixClients
  eventHandlers := startup.eventHandlers
  plugins := startup.plugins
  webapps := startup.webapps
  pluginRoutes := startup.pluginRoutes
  loaderReferences := startup.loaderReferences
  loaders := true

/-- The world of the witness has none. -/
theorem installed_idle : Idle installed where
  instances := rfl
  instanceCache := rfl
  clients := rfl
  clientCache := rfl
  references := rfl
  pluginRoutes := rfl

/-- The instance `a` has been looked up, started and stopped. -/
def ranOnce : World Bool :=
  Call.exec versioned (.onInstance (.stop 0 {}))
    (Call.exec versioned (.onInstance (.start 0 {}))
      (Call.exec versioned (.onInstance (.get "a" none none)) installed))

/-- Its run is one of allowed calls. -/
theorem ranOnce_reached : Reach (Call.exec versioned) (fun w call => call.Held w ∧ call.OfVersions)
    installed ranOnce := by
  have hget : Reach (Call.exec versioned) (fun w call => call.Held w ∧ call.OfVersions) installed
      (Call.exec versioned (.onInstance (.get "a" none none)) installed) :=
    Reach.step (Call.onInstance (Op.get "a" none none)) .start ⟨by rintro i ⟨⟩, trivial⟩
  have hstart := Reach.step (Call.onInstance (Op.start 0 {})) hget ⟨by rintro i ⟨⟩; decide, trivial⟩
  exact Reach.step (Call.onInstance (Op.stop 0 {})) hstart
    ⟨by rintro i ⟨⟩; decide +kernel, trivial⟩

/-- The same version, started again. -/
theorem ranOnce_passed :
    passed versioned 0 {} (fresh 0 ranOnce) =
        some { config := false, database := some .engine, webapp := none, webappUrl := none } ↔
      Afresh versioned 0 {} ranOnce :=
  passed_of_reach installed_idle ranOnce_reached (by decide +kernel)
    (exec_dependencies_of_loaded (by decide +kernel)) {} (by decide +kernel)

/-- The plugin is replaced by a version that uses no database. -/
def replaced : World Bool := Call.exec versioned (.loaders false) ranOnce

/-- It gets the stopped database of the old version. -/
theorem replaced_not_fresh :
    ¬ ∀ w₀ : World Bool, Idle w₀ → ∀ w,
      Reach (Call.exec versioned) (fun w call => call.Held w ∧ call.OfVersions) w₀ w →
        ∀ i, i < w.instances.next → ∀ w₁, (dependencies versioned i).exec w = (.ok true, w₁) →
          ∀ env a, passed versioned i env w₁ = some a →
            passed versioned i env (fresh i w₁) = some a := by
  intro h
  have hreplaced := Reach.step (Call.loaders false) ranOnce_reached ⟨trivial, trivial⟩
  have hpassed := h installed installed_idle replaced hreplaced 0 (by decide +kernel) replaced
    (exec_dependencies_of_loaded (by decide +kernel)) {}
    { config := false, database := some .engine, webapp := none, webappUrl := none }
    (by decide +kernel)
  exact absurd hpassed (by decide +kernel)

end InstanceTest

end Maubot
