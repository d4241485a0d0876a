import Maubot.Errors
import Maubot.Loader.Meta
import Maubot.Lib.Prog
import Maubot.Lib.Store
import Maubot.Lib.PySet

namespace Maubot

open Prog

/-!
# The state of the program

The objects that clients, instances, plugins and web apps are made of, the class-level
caches, and the rows of the database.

* `World L` — the whole state; `L` is the state of the plugin loaders, reached only
  through a `LoaderImpl`, as the abstract class `PluginLoader` has it;
* `Setup L` — what stays fixed while the program runs;
* `Action L` — a method call: a program over the world that may raise.
-/

/-! ### Clients -/

abbrev EventType := String

/-- A function that a Matrix client calls with the events it receives. -/
inductive Handler
  /-- registered by a plugin -/
  | plugin (func : Ref)
  /-- `Client._handle_invite` -/
  | handleInvite (client : Ref)
  /-- `Client._set_sync_ok(ok)` -/
  | setSyncOk (client : Ref) (ok : Bool)
  /-- a method of the `OlmMachine` -/
  | crypto (machine : Ref) (func : String)
  deriving DecidableEq, Repr

def Handler.isPlugin : Handler → Bool
  | .plugin _ => true
  | _         => false

/-- The entries of a dict of event handlers that plugins registered. -/
def pluginEntries (handlers : List (EventType × Handler)) : List (EventType × Handler) :=
  handlers.filter (·.2.isPlugin)

/-- `MaubotMatrixClient`: mautrix's client, as far as maubot sets it up. -/
structure MatrixClient where
  mxid              : String
  baseUrl           : Option String
  token             : Option String
  deviceId          : String
  /-- the dict of the event handlers, an object of its own that clients can share -/
  eventHandlers     : Ref
  /-- the event types with the clients whose `_handle_tombstone` is registered for them -/
  eventMiddleware   : List (EventType × Ref) := []
  crypto            : Option Ref := none
  presence          : Bool := true
  ignoreInitialSync : Bool := false
  ignoreFirstSync   : Bool := false
  /-- the filter of the running sync task -/
  syncing           : Option String := none
  deriving DecidableEq, Repr

/-- A row of the table `client`.  The columns are `NOT NULL`; a credential is an `Option`
    because the object may hold `None` in its place, which the table then refuses. -/
structure ClientRow where
  homeserver  : Option String
  accessToken : Option String
  deviceId    : String
  enabled     : Bool
  nextBatch   : String := ""
  filterId    : String := ""
  sync        : Bool := true
  autojoin    : Bool := true
  online      : Bool := true
  displayname : String := "disable"
  avatarUrl   : String := "disable"
  deriving DecidableEq, Repr

/-- `Client`: the fields of the row, and what `postinit` adds. -/
structure Client where
  id                : String
  row               : ClientRow
  references        : PySet Ref := []
  started           : Bool := false
  syncOk            : Bool := true
  client            : Ref
  crypto            : Option Ref := none
  remoteDisplayname : Option String := none
  remoteAvatarUrl   : Option String := none
  trustState        : Option String := none
  /-- the `try_n` of the starts waiting in background tasks -/
  retries           : List Nat := []
  deriving DecidableEq, Repr

/-! ### Plugins and instances -/

inductive DatabaseEngine
  | sqlite
  | postgres
  deriving DecidableEq, Repr

/-- The classes that `inst_db` can be of. -/
inductive InstDb
  /-- sqlalchemy's `Engine` -/
  | engine
  /-- mautrix's `Database`, on SQLite -/
  | sqlite
  /-- `ProxyPostgresDatabase`, a `Database` -/
  | postgres
  deriving DecidableEq, Repr

structure WebRoute where
  method  : String
  path    : String
  handler : Ref
  /-- the resource of the route has a name -/
  named   : Bool := false
  deriving DecidableEq, Repr

/-- `PluginWebApp` -/
structure WebApp where
  routes : List WebRoute := []
  deriving DecidableEq, Repr

/-- `bool(webapp)`: a router is a mapping of its named resources, and empty without any. -/
def WebApp.truthy (app : WebApp) : Bool := app.routes.any WebRoute.named

/-- `Plugin`: an object of a plugin's main class. -/
structure Plugin where
  cls               : Ref
  client            : Ref
  instanceId        : String
  config            : Bool
  database          : Option InstDb
  loader            : Ref
  webapp            : Option Ref
  webappUrl         : Option String
  handlersAtStartup : List (Handler × EventType) := []
  deriving DecidableEq, Repr

/-- A row of the table `instance`. -/
structure InstanceRow where
  type           : String
  enabled        : Bool
  primaryUser    : String
  config         : String := ""
  databaseEngine : Option DatabaseEngine := none
  deriving DecidableEq, Repr

/-- `PluginInstance`.  `deleted` is not a field of the source: `delete` sets it once the
    row is gone. -/
structure PluginInstance where
  id             : String
  type           : String
  enabled        : Bool
  primaryUser    : String
  configStr      : String := ""
  databaseEngine : Option DatabaseEngine := none
  loader         : Option Ref := none
  client         : Option Ref := none
  plugin         : Option Ref := none
  config         : Bool := false
  instDb         : Option InstDb := none
  instWebapp     : Option Ref := none
  instWebappUrl  : Option String := none
  started        : Bool := false
  deleted        : Bool := false
  deriving DecidableEq, Repr

/-! ### The world -/

/-- What can go wrong inside a method of an instance.  All but the last are logged by the
    source and end there. -/
inductive Failure
  | findLoader (i : Ref)
  | getClient (i : Ref)
  | startDatabase (i : Ref)
  | startInstance (i : Ref)
  | stopInstance (i : Ref)
  | stopDatabase (i : Ref)
  /-- `references.remove(self)` raised -/
  | removeReference (i : Ref)
  deriving DecidableEq, Repr

structure World (L : Type) where
  instances        : Store PluginInstance
  instanceCache    : String → Option Ref
  instanceRows     : String → Option InstanceRow
  clients          : Store Client
  clientCache      : String → Option Ref
  clientRows       : String → Option ClientRow
  matrixClients    : Store MatrixClient
  eventHandlers    : Store (List (EventType × Handler))
  plugins          : Store Plugin
  webapps          : Store WebApp
  /-- `MaubotServer.plugin_routes` -/
  pluginRoutes     : String → Option Ref
  /-- the `references` of the loaders -/
  loaderReferences : Ref → PySet Ref
  loaders          : L
  /-- not in the source: the failures so far, the latest first -/
  failures         : List Failure := []

/-- What `PluginInstance` uses of the plugin loaders: the abstract class `PluginLoader`.
    Loading may re-read the metadata of a loader, but neither its id nor `id_cache`
    changes; of zipped loaders that is proved. -/
structure LoaderImpl (L : Type) where
  /-- `PluginLoader.find`, `none` for its `KeyError` -/
  find      : L → String → Option Ref
  metaOf    : L → Ref → PluginMeta
  /-- `load`, with the class it returns -/
  load      : Ref → Prog L PyExc Ref
  load_find : ∀ r, Keeps (.ofView find) (load r)
  load_meta : ∀ r, Keeps (.ofView fun l q => (metaOf l q).id) (load r)

/-- What stays fixed while the program runs. -/
structure Setup (L : Type) where
  /-- Python's `hash` of a string -/
  hash             : String → Int
  /-- `str.lower` -/
  lower            : String → String
  /-- `server.plugin_base_path` -/
  pluginBasePath   : String
  /-- `server.public_url` -/
  publicUrl        : String
  /-- whether `plugin_postgres_db` is configured -/
  pluginPostgresDb : Bool
  /-- whether the encryption dependencies are installed and `crypto_db` is prepared -/
  cryptoDb         : Bool
  loaders          : LoaderImpl L

/-- A method call. -/
abbrev Action (L α : Type) := Prog (World L) PyExc α

/-- The state that the call finds. -/
abbrev world {L : Type} : Action L (World L) := get

/-! ### Assignments -/

section Assignments

variable {L : Type}

def setInstance (i : Ref) (f : PluginInstance → PluginInstance) : Action L Unit :=
  modify fun w => { w with instances := w.instances.modify i f }

/-- An assignment returns. -/
theorem exec_setInstance_bind {α : Type} (i : Ref) (f : PluginInstance → PluginInstance)
    (g : Unit → Action L α) (w : World L) :
    (setInstance i f >>= g).exec w = (g ()).exec ((setInstance i f : Action L Unit).exec w).2 := rfl

/-- An instance that is set is set. -/
@[simp] theorem get_setInstance_self (i : Ref) (f : PluginInstance → PluginInstance) (w : World L) :
    ((setInstance i f : Action L Unit).exec w).2.instances.get i = f (w.instances.get i) :=
  Store.get_modify_self _ _ _

def report (x : Failure) : Action L Unit :=
  modify fun w => { w with failures := x :: w.failures }

def setClient (c : Ref) (f : Client → Client) : Action L Unit :=
  modify fun w => { w with clients := w.clients.modify c f }

/-- Assignments to the persistent fields of a client. -/
def setClientRow (c : Ref) (f : ClientRow → ClientRow) : Action L Unit :=
  setClient c fun cl => { cl with row := f cl.row }

def setMatrixClient (m : Ref) (f : MatrixClient → MatrixClient) : Action L Unit :=
  modify fun w => { w with matrixClients := w.matrixClients.modify m f }

def setPlugin (p : Ref) (f : Plugin → Plugin) : Action L Unit :=
  modify fun w => { w with plugins := w.plugins.modify p f }

def setReferences (c : Ref) (s : PySet Ref) : Action L Unit :=
  setClient c fun cl => { cl with references := s }

def setLoaderReferences (r : Ref) (s : PySet Ref) : Action L Unit :=
  modify fun w => { w with loaderReferences := Function.update w.loaderReferences r s }

/-- `client.add_event_handler(event_type, handler)` of mautrix -/
def addEventHandler (m : Ref) (eventType : EventType) (h : Handler) : Action L Unit :=
  modify fun w =>
    let d := (w.matrixClients.get m).eventHandlers
    { w with eventHandlers := w.eventHandlers.modify d (· ++ [(eventType, h)]) }

/-- `client.remove_event_handler(event_type, handler)` of mautrix -/
def removeEventHandler (m : Ref) (eventType : EventType) (h : Handler) : Action L Unit :=
  modify fun w =>
    let d := (w.matrixClients.get m).eventHandlers
    { w with eventHandlers := w.eventHandlers.modify d (·.erase (eventType, h)) }

/-- `client.add_event_middleware(event_type, self._handle_tombstone)` of mautrix -/
def addEventMiddleware (m : Ref) (eventType : EventType) (c : Ref) : Action L Unit :=
  setMatrixClient m fun mc => { mc with eventMiddleware := mc.eventMiddleware ++ [(eventType, c)] }

end Assignments

end Maubot
