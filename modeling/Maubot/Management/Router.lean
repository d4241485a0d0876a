import Maubot.Management.Auth

namespace Maubot.Management

/-!
# Management API — the route table

Every `@routes` decorator of `management/api`, under the name of the handler it
decorates.  Modules register their routes when they are imported: `base`, `auth` and the
package itself always, the others when `api_features` enables them, and `client_auth`
imports `client`.

A pattern is matched against the segments of the path in which `%2F` is still encoded.
A `{name}` parameter takes exactly one such segment.  The dispatcher may try the routes
in any order, so `Router` is any table with these routes in it.
-/

inductive Handler
  | version | ping | features | login
  | getPlugins | getPlugin | deletePlugin | reloadPlugin | putPlugin | uploadPlugin
  | getInstances | getInstance | updateInstance | deleteInstance
  | getDatabase | getTable | query
  | getClients | getClient | createClient | updateClient | deleteClient | clearClientCache
  | verifyClient | generateRecoveryKey
  | proxy
  | getKnownServers | register | clientLogin | waitSso | completeSso
  | checkEnabled | openFile
  | logWebsocket
  deriving DecidableEq, Repr

/-- The handlers that are meant to answer without a token. -/
def openHandlers : List Handler := [.ping, .login, .completeSso, .features, .logWebsocket]

/-! ### Patterns -/

/-- One part of a route's path. -/
inductive Part
  /-- a fixed segment -/
  | lit (s : String)
  /-- `{name}`: one segment -/
  | var
  /-- `{path:_matrix/.+}`: the rest of the path, by a regular expression -/
  | matrixPath
  deriving DecidableEq, Repr

/-- The regular expression `_matrix/.+` on the rest of the path; `.` is no line break. -/
def matchesMatrixPath : List Text → Bool
  | s :: t :: ts =>
    let rest := UrlPath.join '/' (t :: ts)
    s = "_matrix".toList && rest ≠ [] && !rest.contains '\n'
  | _ => false

def matchesParts : List Part → List Text → Bool
  | [], []                => true
  | .lit s :: ps, t :: ts => t = s.toList && matchesParts ps ts
  | .var :: ps, t :: ts   => t ≠ [] && matchesParts ps ts
  | [.matrixPath], ts     => matchesMatrixPath ts
  | _, _                  => false

structure Route where
  /-- `"*"` stands for every method -/
  method  : String
  path    : List Part
  handler : Handler
  deriving DecidableEq, Repr

/-- A `get` route also answers `HEAD`. -/
def getRoutes (path : List Part) (h : Handler) : List Route :=
  [⟨"GET", path, h⟩, ⟨"HEAD", path, h⟩]

/-! ### The routes of each module -/

def baseRoutes : List Route :=
  getRoutes [.lit "version"] .version
    ++ [⟨"POST", [.lit "auth", .lit "ping"], .ping⟩]
    ++ getRoutes [.lit "features"] .features

def loginRoutes : List Route := [⟨"POST", [.lit "auth", .lit "login"], .login⟩]

def pluginRoutes : List Route :=
  getRoutes [.lit "plugins"] .getPlugins
    ++ getRoutes [.lit "plugin", .var] .getPlugin
    ++ [⟨"DELETE", [.lit "plugin", .var], .deletePlugin⟩,
        ⟨"POST", [.lit "plugin", .var, .lit "reload"], .reloadPlugin⟩]

def pluginUploadRoutes : List Route :=
  [⟨"PUT", [.lit "plugin", .var], .putPlugin⟩,
   ⟨"POST", [.lit "plugins", .lit "upload"], .uploadPlugin⟩]

def instanceRoutes : List Route :=
  getRoutes [.lit "instances"] .getInstances
    ++ getRoutes [.lit "instance", .var] .getInstance
    ++ [⟨"PUT", [.lit "instance", .var], .updateInstance⟩,
        ⟨"DELETE", [.lit "instance", .var], .deleteInstance⟩]

def instanceDatabaseRoutes : List Route :=
  getRoutes [.lit "instance", .var, .lit "database"] .getDatabase
    ++ getRoutes [.lit "instance", .var, .lit "database", .var] .getTable
    ++ [⟨"POST", [.lit "instance", .var, .lit "database", .lit "query"], .query⟩]

/-- The methods and the rest of the path under which `client.py` has `/client/{id}` and
    its sub-resources, with their handlers. -/
def clientIdRoutes : List Route :=
  getRoutes [] .getClient
    ++ [⟨"PUT", [], .updateClient⟩,
        ⟨"DELETE", [], .deleteClient⟩,
        ⟨"POST", [.lit "clearcache"], .clearClientCache⟩,
        ⟨"POST", [.lit "verify"], .verifyClient⟩,
        ⟨"POST", [.lit "generate_recovery_key"], .generateRecoveryKey⟩]

def clientRoutes : List Route :=
  getRoutes [.lit "clients"] .getClients
    ++ [⟨"POST", [.lit "client", .lit "new"], .createClient⟩]
    ++ clientIdRoutes.map (fun r => { r with path := .lit "client" :: .var :: r.path })

def clientProxyRoutes : List Route := [⟨"*", [.lit "proxy", .var, .matrixPath], .proxy⟩]

def clientAuthRoutes : List Route :=
  getRoutes [.lit "client", .lit "auth", .lit "servers"] .getKnownServers
    ++ [⟨"POST", [.lit "client", .lit "auth", .var, .lit "register"], .register⟩,
        ⟨"POST", [.lit "client", .lit "auth", .var, .lit "login"], .clientLogin⟩,
        ⟨"POST", [.lit "client", .lit "auth", .var, .lit "sso", .var, .lit "wait"], .waitSso⟩]
    ++ getRoutes [.lit "client", .lit "auth_external_sso", .lit "complete", .var] .completeSso

def devOpenRoutes (cfg : AuthConfig) : List Route :=
  getRoutes [.lit "debug", .lit "open"] .checkEnabled
    ++ (if cfg.devOpenCfg then [⟨"POST", [.lit "debug", .lit "open"], .openFile⟩] else [])

def logRoutes : List Route := getRoutes [.lit "logs"] .logWebsocket

/-- `init` imports the module `pkg`. -/
def moduleRoutes (cfg : AuthConfig) (pkg : String) : List Route :=
  if pkg = "login" then loginRoutes
  else if pkg = "plugin" then pluginRoutes
  else if pkg = "plugin_upload" then pluginUploadRoutes
  else if pkg = "instance" then instanceRoutes
  else if pkg = "instance_database" then instanceDatabaseRoutes
  else if pkg = "client" then clientRoutes
  else if pkg = "client_proxy" then clientProxyRoutes
  else if pkg = "client_auth" then clientRoutes ++ clientAuthRoutes
  else if pkg = "dev_open" then devOpenRoutes cfg
  else if pkg = "log" then logRoutes
  else []

/-- The routes registered once `init` has imported the enabled modules. -/
def routes (cfg : AuthConfig) : List Route :=
  baseRoutes ++ (cfg.apiFeatures.filter (·.2)).flatMap (fun f => moduleRoutes cfg f.1)

/-- The routes of `client.py` are registered. -/
def AuthConfig.hasClientRoutes (cfg : AuthConfig) : Prop :=
  ∃ f ∈ cfg.apiFeatures, f.2 = true ∧ (f.1 = "client" ∨ f.1 = "client_auth")

/-! ### Resolution -/

/-- The prefix the management API is mounted under. -/
def apiPrefix : Text := "/_matrix/maubot/v1".toList

/-- The segments of `apiPrefix`. -/
def apiPrefixParts : List Part := [.lit "", .lit "_matrix", .lit "maubot", .lit "v1"]

/-- The path in which `%2F` (and `%25`) is still encoded. -/
def Request.pathSafe (req : Request) : Text :=
  UrlPath.unquote (fun c => c = '/' || c = '%') req.rawPath

def Route.matches (r : Route) (req : Request) : Bool :=
  (r.method = "*" || r.method = req.method)
    && matchesParts (apiPrefixParts ++ r.path) (UrlPath.split '/' req.pathSafe)

/-- The management router: the registered routes, in the order it tries them. -/
structure Router (cfg : AuthConfig) where
  table     : List Route
  mem_table : ∀ r, r ∈ table ↔ r ∈ routes cfg

/-- The handler a request is resolved to; `none` is a 404 or 405 answer. -/
def Router.resolve {cfg : AuthConfig} (router : Router cfg) (req : Request) : Option Handler :=
  (router.table.find? (·.matches req)).map (·.handler)

/-- The routes tried in the order of registration. -/
def Router.inOrder (cfg : AuthConfig) : Router cfg := ⟨routes cfg, fun _ => Iff.rfl⟩

/-! ### Matching -/

/-- No parts match no segments. -/
@[simp] theorem matchesParts_nil (ts : List Text) : matchesParts [] ts = true ↔ ts = [] := by
  cases ts <;> simp [matchesParts]

/-- A literal part matches itself, -/
@[simp] theorem matchesParts_lit (s : String) (ps : List Part) (ts : List Text) :
    matchesParts (.lit s :: ps) ts = true ↔
      ∃ ts', ts = s.toList :: ts' ∧ matchesParts ps ts' = true := by
  cases ts <;> simp [matchesParts]

/-- and a variable one any segment but the empty one. -/
@[simp] theorem matchesParts_var (ps : List Part) (ts : List Text) :
    matchesParts (.var :: ps) ts = true ↔
      ∃ t ts', ts = t :: ts' ∧ t ≠ [] ∧ matchesParts ps ts' = true := by
  cases ts <;> simp [matchesParts]

/-! ### Resolving -/

/-- What is resolved is the handler of a route that matches. -/
theorem Router.exists_route_of_resolve {cfg : AuthConfig} {router : Router cfg} {req : Request}
    {h : Handler} (hr : router.resolve req = some h) :
    ∃ r ∈ routes cfg, r.matches req = true ∧ r.handler = h := by
  simp only [resolve, Option.map_eq_some_iff] at hr
  obtain ⟨r, hfind, rfl⟩ := hr
  exact ⟨r, (router.mem_table r).mp (List.mem_of_find?_eq_some hfind),
    List.find?_some (p := fun r : Route => r.matches req) hfind, rfl⟩

/-- Where a route matches, something is resolved. -/
theorem Router.exists_resolve_of_route {cfg : AuthConfig} (router : Router cfg) {req : Request}
    {r : Route} (hr : r ∈ routes cfg) (hm : r.matches req = true) :
    ∃ h, router.resolve req = some h := by
  have hsome : (router.table.find? (·.matches req)).isSome = true := by
    rw [List.find?_isSome]
    exact ⟨r, (router.mem_table r).mpr hr, hm⟩
  obtain ⟨r', hr'⟩ := Option.isSome_iff_exists.mp hsome
  exact ⟨r'.handler, by simp [resolve, hr']⟩

end Maubot.Management
