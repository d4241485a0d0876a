import Mathlib.Logic.Function.Basic
import Mathlib.Data.List.Forall2
import Mathlib.Tactic.Common

namespace Maubot.Configuration

/-!
# The configuration of the server — `config.py`

At every start, `do_update` takes the values of the user's configuration over into the one that
is shipped, and writes the result.

* `shipped`, `doUpdate` — the configuration that is shipped, and the update;
* `replaceAll`, `bcryptRegex` — what the update does with texts;
* `Kept`, `updates_iff` — when the update keeps what the user has set, and changes nothing the
  next time.
-/

abbrev Text := List Char

/-- The values of YAML; `A` are the scalars that are of none of these types. -/
inductive Value (A : Type)
  | null
  | bool (b : Bool)
  | int (n : Int)
  | text (t : Text)
  | list (values : List (Value A))
  | dict (entries : List (Text × Value A))
  | other (a : A)

/-- A configuration, by the keys of the update.  Each section of the file is a mapping or missing:
    the update raises where one is something else. -/
abbrev Config (A : Type) := String → Option (Value A)

/-- How the configuration library and Python take values -/
structure Library (A : Type) where
  /-- whether a key counts as present if its value is null -/
  nullIsIn : Bool
  /-- the truth value of another scalar -/
  truthy   : A → Bool

/-! ### Texts -/

/-- `str.replace` -/
def replaceAll (old new : Text) : Text → Text
  | []     => []
  | c :: t =>
    if old ≠ [] ∧ old.isPrefixOf (c :: t) then
      new ++ replaceAll old new ((c :: t).drop old.length)
    else c :: replaceAll old new t
termination_by t => t.length
decreasing_by
  · rename_i h
    have hpos : 0 < old.length := List.length_pos_of_ne_nil h.1
    simp only [List.length_drop, List.length_cons]
    omega
  · simp

/-- `^\$2[ayb]\$.{56}$`, where a newline may follow the end -/
def bcryptRegex : Text → Bool
  | '$' :: '2' :: v :: '$' :: t =>
    (v = 'a' ∨ v = 'y' ∨ v = 'b') ∧ 56 ≤ t.length ∧ (t.take 56).all (· ≠ '\n') ∧
      (t.drop 56 = [] ∨ t.drop 56 = ['\n'])
  | _                           => false

/-- What is drawn in one update -/
structure Draws where
  /-- `_new_token()`, for `server.unshared_secret` -/
  newToken       : Text
  newToken_length : newToken.length = 64
  /-- `_new_token()`, for the password of a user -/
  passwordToken  : Text → Text
  /-- `bcrypt.hashpw` with the salt for a user; `none` if it raises -/
  hashpw         : Text → Text → Option Text
  hashpw_matches : ∀ username password hash, hashpw username password = some hash →
    bcryptRegex hash = true

/-! ### The configuration that is shipped -/

variable {A : Type}

def str (s : String) : Value A := .text s.toList

def dict (entries : List (String × Value A)) : Value A :=
  .dict (entries.map fun e => (e.1.toList, e.2))

def level (s : String) : Value A := dict [("level", str s)]

/-- `logging` -/
def shippedLogging : Value A :=
  let format := str "[%(asctime)s] [%(levelname)s@%(name)s] %(message)s"
  dict [
    ("version", .int 1),
    ("formatters", dict [
      ("colored", dict [("()", str "maubot.lib.color_log.ColorFormatter"), ("format", format)]),
      ("normal", dict [("format", format)])]),
    ("handlers", dict [
      ("file", dict [
        ("class", str "logging.handlers.RotatingFileHandler"), ("formatter", str "normal"),
        ("filename", str "./maubot.log"), ("maxBytes", .int 10485760),
        ("backupCount", .int 10)]),
      ("console", dict [
        ("class", str "logging.StreamHandler"), ("formatter", str "colored")])]),
    ("loggers", dict [
      ("maubot", level "DEBUG"), ("mau", level "DEBUG"), ("aiohttp", level "INFO")]),
    ("root", dict [
      ("level", str "DEBUG"), ("handlers", .list [str "file", str "console"])])]

def apiFeatures : List String :=
  ["api_features.login", "api_features.plugin", "api_features.plugin_upload",
    "api_features.instance", "api_features.instance_database", "api_features.client",
    "api_features.client_proxy", "api_features.client_auth", "api_features.dev_open",
    "api_features.log"]

/-- `example-config.yaml` -/
def shippedEntries : List (String × Value A) :=
  [("database", str "sqlite:maubot.db"),
    ("crypto_db_pickle_key", str "mau.crypto"),
    ("crypto_database", str "default"),
    ("database_opts", dict [("min_size", .int 1), ("max_size", .int 10)]),
    ("plugin_directories.upload", str "./plugins"),
    ("plugin_directories.load", .list [str "./plugins"]),
    ("plugin_directories.trash", str "./trash"),
    ("plugin_databases.sqlite", str "./plugins"),
    ("plugin_databases.postgres", .null),
    ("plugin_databases.postgres_max_conns_per_plugin", .int 3),
    ("plugin_databases.postgres_opts", dict []),
    ("server.hostname", str "0.0.0.0"),
    ("server.port", .int 29316),
    ("server.public_url", str "https://example.com"),
    ("server.ui_base_path", str "/_matrix/maubot"),
    ("server.plugin_base_path", str "/_matrix/maubot/plugin/"),
    ("server.override_resource_path", .bool false),
    ("server.unshared_secret", str "generate"),
    ("homeservers", dict [("matrix.org",
      dict [("url", str "https://matrix-client.matrix.org"), ("secret", .null)])]),
    ("admins", dict [("root", str "")])] ++
  apiFeatures.map (fun k => (k, .bool true)) ++
  [("logging", shippedLogging)]

/-- `helper.base`, before the update -/
def shipped : Config A := fun key => shippedEntries.lookup key

/-! ### The update -/

section Update

variable (L : Library A) (D : Draws)

def Value.truthy : Value A → Bool
  | .null         => false
  | .bool b       => b
  | .int n        => n ≠ 0
  | .text t       => t ≠ []
  | .list values  => values.length ≠ 0
  | .dict entries => entries.length ≠ 0
  | .other a      => L.truthy a

/-- `key in self` -/
def Config.contains (c : Config A) (key : String) : Bool :=
  match c key with
  | none       => false
  | some .null => L.nullIsIn
  | some _     => true

/-- `self[key]` -/
def Config.get (c : Config A) (key : String) : Value A := (c key).getD .null

def Config.set (c : Config A) (key : String) (v : Value A) : Config A :=
  Function.update c key (some v)

/-- `helper.copy` -/
def copy (self : Config A) (key : String) (base : Config A) : Config A :=
  if self.contains L key then base.set key (self.get key) else base

def copyAll (self : Config A) (keys : List String) (base : Config A) : Config A :=
  keys.foldl (fun base key => copy L self key base) base

def updateDatabase (self base : Config A) : Option (Config A) :=
  if self.contains L "database" then
    match self.get "database" with
    | .text t =>
      if "sqlite:///".toList.isPrefixOf t then
        some (base.set "database"
          (.text (replaceAll "sqlite:///".toList "sqlite:".toList t)))
      else some (copy L self "database" base)
    | _       => none
  else some (copy L self "database" base)

/-- `self["crypto_database.type"] == "postgres"` -/
def isPostgres (entries : List (Text × Value A)) : Bool :=
  match entries.lookup "type".toList with
  | some (.text t) => t = "postgres".toList
  | _              => false

/-- `self["crypto_database.postgres_uri"]` -/
def postgresUri (entries : List (Text × Value A)) : Value A :=
  (entries.lookup "postgres_uri".toList).getD .null

def updateCryptoDatabase (self base : Config A) : Config A :=
  match self.get "crypto_database" with
  | .dict entries =>
    if isPostgres entries then base.set "crypto_database" (postgresUri entries) else base
  | _             => copy L self "crypto_database" base

def updatePluginDatabases (self base : Config A) : Config A :=
  if self.contains L "plugin_directories.db" then
    base.set "plugin_databases.sqlite" (self.get "plugin_directories.db")
  else copy L self "plugin_databases.sqlite" base

def updateUnsharedSecret (self base : Config A) : Config A :=
  base.set "server.unshared_secret" <|
    match self.get "server.unshared_secret" with
    | .null   => .text D.newToken
    | .text t => if t = "generate".toList then .text D.newToken else .text t
    | v       => v

def updateHomeservers (self base : Config A) : Config A :=
  if self.contains L "registration_secrets" then
    base.set "homeservers" (self.get "registration_secrets")
  else copy L self "homeservers" base

/-- The text that is hashed for a password -/
def Draws.plaintext (username password : Text) : Text :=
  if password = "password".toList then D.passwordToken username else password

/-- A password of `admins`; `bcrypt_regex.match` raises for what is not a text. -/
def updatePassword (username : Text) (password : Value A) : Option (Value A) :=
  if password.truthy L then
    match password with
    | .text t =>
      if bcryptRegex t then some password
      else (D.hashpw username (D.plaintext username t)).map .text
    | _       => none
  else some password

/-- The loop over `base["admins"].items()` -/
def updatePasswords : List (Text × Value A) → Option (List (Text × Value A))
  | []                           => some []
  | (username, password) :: rest => do
    let password' ← updatePassword L D username password
    let rest' ← updatePasswords rest
    pure ((username, password') :: rest')

def updateAdmins (base : Config A) : Option (Config A) :=
  match base.get "admins" with
  | .dict entries => (updatePasswords L D entries).map fun e => base.set "admins" (.dict e)
  | _             => none

def directoryKeys : List String :=
  ["crypto_db_pickle_key", "plugin_directories.upload", "plugin_directories.load",
    "plugin_directories.trash"]

def serverKeys : List String :=
  ["plugin_databases.postgres", "plugin_databases.postgres_opts", "server.hostname",
    "server.port", "server.public_url", "server.listen", "server.ui_base_path",
    "server.plugin_base_path", "server.override_resource_path"]

/-- `do_update`; `none` if it raises. -/
def doUpdate (self : Config A) : Option (Config A) := do
  let base ← updateDatabase L self shipped
  let base := copyAll L self ["database_opts"] base
  let base := updateCryptoDatabase L self base
  let base := copyAll L self directoryKeys base
  let base := updatePluginDatabases L self base
  let base := copyAll L self serverKeys base
  let base := updateUnsharedSecret D self base
  let base := updateHomeservers L self base
  let base ← updateAdmins L D (copyAll L self ["admins"] base)
  pure (copyAll L self (apiFeatures ++ ["logging"]) base)

end Update

/-! ### What is written -/

section Written

variable {L : Library A} {D : Draws} {c base m : Config A} {key k : String}

/-- A key that was set has its value. -/
theorem set_self (base : Config A) (key : String) (v : Value A) : base.set key v key = some v :=
  Function.update_self ..

/-- The other keys keep theirs. -/
theorem set_ne (h : k ≠ key) (v : Value A) : base.set key v k = base k :=
  Function.update_of_ne h ..

/-- `copy` takes the value of a key that the file contains. -/
theorem copy_self (L : Library A) (c base : Config A) (key : String) :
    copy L c key base key = if c.contains L key then some (c.get key) else base key := by
  unfold copy
  split
  · exact set_self ..
  · rfl

/-- It leaves the other keys. -/
theorem copy_ne (h : k ≠ key) : copy L c key base k = base k := by
  unfold copy
  split
  · exact set_ne h _
  · rfl

/-- Keys that are not copied stay. -/
theorem copyAll_of_not_mem {keys : List String} (h : k ∉ keys) :
    copyAll L c keys base k = base k := by
  induction keys generalizing base with
  | nil => rfl
  | cons key keys ih =>
    rw [List.mem_cons, not_or] at h
    rw [copyAll, List.foldl_cons]
    exact (ih h.2).trans (copy_ne h.1)

/-- A key that is copied takes the value of the file if it is contained. -/
theorem copyAll_of_mem {keys : List String} (h : k ∈ keys) :
    copyAll L c keys base k = if c.contains L k then some (c.get k) else base k := by
  induction keys generalizing base with
  | nil => cases h
  | cons key keys ih =>
    rw [copyAll, List.foldl_cons]
    change copyAll L c keys (copy L c key base) k = _
    by_cases hkeys : k ∈ keys
    · rw [ih hkeys]
      by_cases hkey : k = key
      · subst hkey
        rw [copy_self]
        split
        · rfl
        · rfl
      · rw [copy_ne hkey]
    · obtain rfl := (List.mem_cons.mp h).resolve_right hkeys
      rw [copyAll_of_not_mem hkeys, copy_self]

/-- Both in one: the order in which keys are copied does not matter. -/
theorem copyAll_apply (L : Library A) (c base : Config A) (keys : List String) (k : String) :
    copyAll L c keys base k =
      if k ∈ keys ∧ c.contains L k = true then some (c.get k) else base k := by
  by_cases hk : k ∈ keys
  · rw [copyAll_of_mem hk]
    simp [hk]
  · rw [copyAll_of_not_mem hk, if_neg fun h => hk h.1]

/-- The keys that are only copied -/
def copiedKeys : List String :=
  ["database_opts"] ++ directoryKeys ++ serverKeys ++ (apiFeatures ++ ["logging"])

def specialKeys : List String :=
  ["database", "crypto_database", "plugin_databases.sqlite", "server.unshared_secret",
    "homeservers", "admins"]

/-- What copying a key leaves under it -/
def taken (L : Library A) (c : Config A) (key : String) : Option (Value A) :=
  if c.contains L key then some (c.get key) else shipped key

def newDatabase (L : Library A) (c : Config A) : Option (Value A) :=
  if c.contains L "database" then
    match c.get "database" with
    | .text t => some (.text (if "sqlite:///".toList.isPrefixOf t then
        replaceAll "sqlite:///".toList "sqlite:".toList t else t))
    | _       => none
  else some (str "sqlite:maubot.db")

def newCryptoDatabase (L : Library A) (c : Config A) : Option (Value A) :=
  match c.get "crypto_database" with
  | .dict entries =>
    if isPostgres entries then some (postgresUri entries) else shipped "crypto_database"
  | _             => taken L c "crypto_database"

def newPluginDatabases (L : Library A) (c : Config A) : Option (Value A) :=
  if c.contains L "plugin_directories.db" then some (c.get "plugin_directories.db")
  else taken L c "plugin_databases.sqlite"

def newHomeservers (L : Library A) (c : Config A) : Option (Value A) :=
  if c.contains L "registration_secrets" then some (c.get "registration_secrets")
  else taken L c "homeservers"

def newUnsharedSecret (D : Draws) (c : Config A) : Value A :=
  match c.get "server.unshared_secret" with
  | .null   => .text D.newToken
  | .text t => if t = "generate".toList then .text D.newToken else .text t
  | v       => v

def newAdmins (L : Library A) (D : Draws) (c : Config A) : Option (List (Text × Value A)) :=
  match taken L c "admins" with
  | some (.dict entries) => updatePasswords L D entries
  | _                    => none

/-- The configuration that is written, by its keys -/
structure Written (L : Library A) (D : Draws) (c m : Config A) : Prop where
  database        : ∃ v, newDatabase L c = some v ∧ m "database" = some v
  cryptoDatabase  : m "crypto_database" = newCryptoDatabase L c
  pluginDatabases : m "plugin_databases.sqlite" = newPluginDatabases L c
  unsharedSecret  : m "server.unshared_secret" = some (newUnsharedSecret D c)
  homeservers     : m "homeservers" = newHomeservers L c
  admins          : ∃ entries, newAdmins L D c = some entries ∧ m "admins" = some (.dict entries)
  copied          : ∀ k ∈ copiedKeys, m k = taken L c k
  rest            : ∀ k, k ∉ specialKeys → k ∉ copiedKeys → m k = shipped k

/-- The keys determine what is written. -/
theorem Written.unique {m' : Config A} (h : Written L D c m) (h' : Written L D c m') :
    m = m' := by
  funext k
  by_cases hcopied : k ∈ copiedKeys
  · rw [h.copied k hcopied, h'.copied k hcopied]
  · by_cases hspecial : k ∈ specialKeys
    · unfold specialKeys at hspecial
      simp only [List.mem_cons, List.not_mem_nil, or_false] at hspecial
      rcases hspecial with rfl | rfl | rfl | rfl | rfl | rfl
      · obtain ⟨v, hv, hm⟩ := h.database
        obtain ⟨v', hv', hm'⟩ := h'.database
        rw [hm, hm', ← hv, ← hv']
      · rw [h.cryptoDatabase, h'.cryptoDatabase]
      · rw [h.pluginDatabases, h'.pluginDatabases]
      · rw [h.unsharedSecret, h'.unsharedSecret]
      · rw [h.homeservers, h'.homeservers]
      · obtain ⟨e, he, hm⟩ := h.admins
        obtain ⟨e', he', hm'⟩ := h'.admins
        rw [hm, hm', Option.some.inj (he.symm.trans he')]
    · rw [h.rest k hspecial hcopied, h'.rest k hspecial hcopied]

/-! Each step of the update, on the key it is about and on the others -/

/-- `database` is either that of the file, rewritten, or the shipped one; no other key is
    touched. -/
theorem updateDatabase_eq_some {base' : Config A} (h : updateDatabase L c shipped = some base') :
    (∃ v, newDatabase L c = some v ∧ base' "database" = some v) ∧
      ∀ k ≠ "database", base' k = shipped k := by
  unfold updateDatabase at h
  unfold newDatabase
  split at h
  next hin =>
    rw [if_pos hin]
    split at h
    next t ht =>
      split at h
      next hprefix =>
        obtain rfl := Option.some.inj h
        rw [if_pos hprefix]
        exact ⟨⟨_, rfl, set_self ..⟩, fun k hk => set_ne hk _⟩
      next hprefix =>
        obtain rfl := Option.some.inj h
        rw [if_neg hprefix]
        exact ⟨⟨_, rfl, by rw [copy_self, if_pos hin, ht]⟩, fun k hk => copy_ne hk⟩
    next => cases h
  next hin =>
    obtain rfl := Option.some.inj h
    rw [if_neg hin]
    exact ⟨⟨_, rfl, by rw [copy_self, if_neg hin]; rfl⟩, fun k hk => copy_ne hk⟩

/-- The value of `crypto_database`. -/
theorem updateCryptoDatabase_self (h : base "crypto_database" = shipped "crypto_database") :
    updateCryptoDatabase L c base "crypto_database" = newCryptoDatabase L c := by
  unfold updateCryptoDatabase newCryptoDatabase
  cases c.get "crypto_database" with
  | dict entries =>
    dsimp only
    by_cases hpostgres : isPostgres entries = true
    · rw [if_pos hpostgres, if_pos hpostgres]
      exact set_self ..
    · rw [if_neg hpostgres, if_neg hpostgres]
      exact h
  | _ =>
    dsimp only
    rw [copy_self, h]
    rfl

/-- The other keys stay. -/
theorem updateCryptoDatabase_ne (hk : k ≠ "crypto_database") :
    updateCryptoDatabase L c base k = base k := by
  unfold updateCryptoDatabase
  cases c.get "crypto_database" with
  | dict entries =>
    dsimp only
    by_cases hpostgres : isPostgres entries = true
    · rw [if_pos hpostgres]
      exact set_ne hk _
    · rw [if_neg hpostgres]
  | _ => exact copy_ne hk

/-- The value of `plugin_databases.sqlite`, under either of its names. -/
theorem updatePluginDatabases_self
    (h : base "plugin_databases.sqlite" = shipped "plugin_databases.sqlite") :
    updatePluginDatabases L c base "plugin_databases.sqlite" = newPluginDatabases L c := by
  unfold updatePluginDatabases newPluginDatabases taken
  split
  · exact set_self ..
  · rw [copy_self, h]

/-- The other keys stay. -/
theorem updatePluginDatabases_ne (hk : k ≠ "plugin_databases.sqlite") :
    updatePluginDatabases L c base k = base k := by
  unfold updatePluginDatabases
  split
  · exact set_ne hk _
  · exact copy_ne hk

/-- The value of `homeservers`, under either of its names. -/
theorem updateHomeservers_self (h : base "homeservers" = shipped "homeservers") :
    updateHomeservers L c base "homeservers" = newHomeservers L c := by
  unfold updateHomeservers newHomeservers taken
  split
  · exact set_self ..
  · rw [copy_self, h]

/-- The other keys stay. -/
theorem updateHomeservers_ne (hk : k ≠ "homeservers") :
    updateHomeservers L c base k = base k := by
  unfold updateHomeservers
  split
  · exact set_ne hk _
  · exact copy_ne hk

/-- The secret is that of the file or a drawn one. -/
theorem updateUnsharedSecret_self (D : Draws) (c base : Config A) :
    updateUnsharedSecret D c base "server.unshared_secret" = some (newUnsharedSecret D c) :=
  set_self ..

/-- The other keys stay. -/
theorem updateUnsharedSecret_ne (hk : k ≠ "server.unshared_secret") :
    updateUnsharedSecret D c base k = base k := set_ne hk _

/-- `admins` has the entries of the file with their passwords updated; no other key is touched. -/
theorem updateAdmins_eq_some {base' : Config A}
    (h : updateAdmins L D (copyAll L c ["admins"] base) = some base')
    (hbase : base "admins" = shipped "admins") :
    (∃ entries, newAdmins L D c = some entries ∧ base' "admins" = some (.dict entries)) ∧
      ∀ k ≠ "admins", base' k = base k := by
  have htaken : copyAll L c ["admins"] base "admins" = taken L c "admins" := by
    rw [copyAll_of_mem List.mem_cons_self, hbase, taken]
  unfold updateAdmins at h
  split at h
  next entries hentries =>
    obtain ⟨entries', hupdate, rfl⟩ := Option.map_eq_some_iff.mp h
    rw [Config.get, htaken] at hentries
    have hsome : taken L c "admins" = some (.dict entries) := by
      cases htake : taken L c "admins" with
      | none =>
        rw [htake] at hentries
        cases hentries
      | some v =>
        rw [htake] at hentries
        exact congrArg some hentries
    refine ⟨⟨entries', ?_, set_self ..⟩, fun k hk => ?_⟩
    · rw [newAdmins, hsome]
      exact hupdate
    · rw [set_ne hk, copyAll_of_not_mem (by simpa using hk)]
  next => cases h

/-- The sections before that of the administrators leave their key alone. -/
theorem admins_of_base (L : Library A) (D : Draws) (c : Config A) {base : Config A}
    (h : base "admins" = shipped "admins") :
    (updateHomeservers L c (updateUnsharedSecret D c (copyAll L c serverKeys
      (updatePluginDatabases L c (copyAll L c directoryKeys (updateCryptoDatabase L c
        (copyAll L c ["database_opts"] base))))))) "admins" = shipped "admins" := by
  simp (disch := decide) only [updateHomeservers_ne, updateUnsharedSecret_ne,
    copyAll_of_not_mem, updatePluginDatabases_ne, updateCryptoDatabase_ne]
  exact h

/-- **What the update writes** -/
theorem written_of_doUpdate (h : doUpdate L D c = some m) : Written L D c m := by
  obtain ⟨base, hdatabase, h⟩ := Option.bind_eq_some_iff.mp h
  obtain ⟨base', hadmins, h⟩ := Option.bind_eq_some_iff.mp h
  obtain rfl := Option.some.inj h
  obtain ⟨⟨db, hdb, hself⟩, hbase⟩ := updateDatabase_eq_some hdatabase
  have hshipped := admins_of_base L D c (hbase "admins" (by decide))
  obtain ⟨⟨entries, hentries, hnew⟩, hrest⟩ := updateAdmins_eq_some hadmins hshipped
  -- a key that no step treats in its own way is copied, or left as it is shipped
  have hplain (k : String) (hk : k ∉ specialKeys) :
      copyAll L c (apiFeatures ++ ["logging"]) base' k =
        if k ∈ copiedKeys ∧ c.contains L k = true then some (c.get k) else shipped k := by
    simp only [specialKeys, List.mem_cons, List.not_mem_nil, or_false, not_or] at hk
    obtain ⟨h₁, h₂, h₃, h₄, h₅, h₆⟩ := hk
    rw [copyAll_apply, hrest k h₆, updateHomeservers_ne h₅, updateUnsharedSecret_ne h₄,
      copyAll_apply, updatePluginDatabases_ne h₃, copyAll_apply, updateCryptoDatabase_ne h₂,
      copyAll_apply, hbase k h₁]
    by_cases hin : c.contains L k = true
    · simp only [hin, and_true, copiedKeys, List.mem_append, ← ite_or]
      exact if_congr (by tauto) rfl rfl
    · simp only [hin, and_false, if_false, Bool.false_eq_true]
  constructor
  · refine ⟨db, hdb, ?_⟩
    simp (disch := decide) only [copyAll_of_not_mem, hrest, updateHomeservers_ne,
      updateUnsharedSecret_ne, updatePluginDatabases_ne, updateCryptoDatabase_ne]
    exact hself
  · simp (disch := decide) only [copyAll_of_not_mem, hrest, updateHomeservers_ne,
      updateUnsharedSecret_ne, updatePluginDatabases_ne]
    refine updateCryptoDatabase_self ?_
    simp (disch := decide) only [copyAll_of_not_mem, hbase]
  · simp (disch := decide) only [copyAll_of_not_mem, hrest, updateHomeservers_ne,
      updateUnsharedSecret_ne]
    refine updatePluginDatabases_self ?_
    simp (disch := decide) only [copyAll_of_not_mem, updateCryptoDatabase_ne, hbase]
  · simp (disch := decide) only [copyAll_of_not_mem, hrest, updateHomeservers_ne]
    exact updateUnsharedSecret_self D c _
  · simp (disch := decide) only [copyAll_of_not_mem, hrest]
    refine updateHomeservers_self ?_
    simp (disch := decide) only [copyAll_of_not_mem, updateUnsharedSecret_ne,
      updatePluginDatabases_ne, updateCryptoDatabase_ne, hbase]
  · refine ⟨entries, hentries, ?_⟩
    simp (disch := decide) only [copyAll_of_not_mem]
    exact hnew
  · intro k hk
    have hspecial : ∀ k ∈ copiedKeys, k ∉ specialKeys := by decide
    rw [hplain k (hspecial k hk), taken]
    simp only [hk, true_and]
  · intro k hk hcopied
    rw [hplain k hk, if_neg fun h => hcopied h.1]

/-- `database` raises only where its value is no text. -/
theorem exists_updateDatabase {v : Value A} (h : newDatabase L c = some v) (base : Config A) :
    ∃ base', updateDatabase L c base = some base' := by
  unfold newDatabase at h
  unfold updateDatabase
  split at h
  next hin =>
    rw [if_pos hin]
    split at h
    next t ht =>
      split
      · exact ⟨_, rfl⟩
      · exact ⟨_, rfl⟩
    next => cases h
  next hin =>
    rw [if_neg hin]
    exact ⟨_, rfl⟩

/-- `admins` raises only where a password cannot be hashed. -/
theorem exists_updateAdmins {entries : List (Text × Value A)}
    (h : newAdmins L D c = some entries) {base : Config A}
    (hbase : base "admins" = shipped "admins") :
    ∃ base', updateAdmins L D (copyAll L c ["admins"] base) = some base' := by
  have htaken : copyAll L c ["admins"] base "admins" = taken L c "admins" := by
    rw [copyAll_of_mem List.mem_cons_self, hbase, taken]
  unfold newAdmins at h
  unfold updateAdmins
  rw [Config.get, htaken]
  split at h
  next old hold =>
    rw [hold]
    dsimp only [Option.getD_some]
    rw [h]
    exact ⟨_, rfl⟩
  next => cases h

/-- The update raises only for the database and the passwords. -/
theorem exists_doUpdate {v : Value A} {entries : List (Text × Value A)}
    (hdatabase : newDatabase L c = some v) (hadmins : newAdmins L D c = some entries) :
    ∃ m, doUpdate L D c = some m := by
  obtain ⟨base, hbase⟩ := exists_updateDatabase hdatabase shipped
  have hrest := (updateDatabase_eq_some hbase).2
  have hshipped := admins_of_base L D c (hrest "admins" (by decide))
  obtain ⟨base', hbase'⟩ := exists_updateAdmins hadmins hshipped
  refine ⟨copyAll L c (apiFeatures ++ ["logging"]) base', ?_⟩
  unfold doUpdate
  rw [hbase]
  dsimp only [Option.bind_eq_bind, Option.bind_some]
  rw [hbase']
  rfl

/-! ### Passwords -/

/-- A password that the update leaves as it is -/
def Settled (L : Library A) (password : Value A) : Prop :=
  password.truthy L = true → ∃ t, password = .text t ∧ bcryptRegex t = true

/-- A user with the same password, or the hash of a plaintext password -/
def SameUser (e e' : Text × Value A) : Prop :=
  e'.1 = e.1 ∧ (e'.2 = e.2 ∨ ∃ t hash, e.2 = .text t ∧ t ≠ [] ∧ bcryptRegex t = false ∧
    e'.2 = .text hash ∧ bcryptRegex hash = true)

/-- A password that can be hashed, or need not be -/
def Hashable (L : Library A) (D : Draws) (e : Text × Value A) : Prop :=
  e.2.truthy L = true → ∃ t, e.2 = .text t ∧
    (bcryptRegex t = true ∨ (D.hashpw e.1 (D.plaintext e.1 t)).isSome = true)

/-- A password that is hashed, or that of `root` that is none, stays. -/
theorem updatePassword_of_settled {username : Text} {password : Value A}
    (h : Settled L password) : updatePassword L D username password = some password := by
  unfold updatePassword
  split
  next htruthy =>
    obtain ⟨t, rfl, ht⟩ := h htruthy
    dsimp only
    rw [if_pos ht]
  next => rfl

/-- A password that is updated is settled then, and belongs to the same user. -/
theorem updatePassword_eq_some {username : Text} {password password' : Value A}
    (h : updatePassword L D username password = some password') :
    SameUser (username, password) (username, password') ∧ Settled L password' ∧
      Hashable L D (username, password) := by
  unfold updatePassword at h
  split at h
  next htruthy =>
    cases password with
    | text t =>
      dsimp only at h
      split at h
      next ht =>
        obtain rfl := Option.some.inj h
        exact ⟨⟨rfl, .inl rfl⟩, fun _ => ⟨t, rfl, ht⟩, fun _ => ⟨t, rfl, .inl ht⟩⟩
      next ht =>
        obtain ⟨hash, hhash, rfl⟩ := Option.map_eq_some_iff.mp h
        have hmatches := D.hashpw_matches _ _ _ hhash
        have hne : t ≠ [] := of_decide_eq_true htruthy
        refine ⟨⟨rfl, .inr ⟨t, hash, rfl, hne, by simpa using ht, rfl, hmatches⟩⟩,
          fun _ => ⟨hash, rfl, hmatches⟩, fun _ => ⟨t, rfl, .inr ?_⟩⟩
        rw [hhash]
        rfl
    | _ => cases h
  next htruthy =>
    obtain rfl := Option.some.inj h
    exact ⟨⟨rfl, .inl rfl⟩, fun htrue => absurd htrue htruthy, fun htrue => absurd htrue htruthy⟩

/-- A password that can be hashed is. -/
theorem exists_updatePassword {e : Text × Value A} (h : Hashable L D e) :
    ∃ password, updatePassword L D e.1 e.2 = some password := by
  unfold updatePassword
  split
  next htruthy =>
    obtain ⟨t, ht, hhash⟩ := h htruthy
    rw [ht]
    dsimp only
    split
    next => exact ⟨_, rfl⟩
    next hplain =>
      obtain ⟨hash, hsome⟩ := Option.isSome_iff_exists.mp (hhash.resolve_left hplain)
      rw [hsome]
      exact ⟨_, rfl⟩
  next => exact ⟨_, rfl⟩

/-- The loop over the users -/
theorem updatePasswords_eq_some {entries entries' : List (Text × Value A)}
    (h : updatePasswords L D entries = some entries') :
    List.Forall₂ SameUser entries entries' ∧ (∀ e ∈ entries', Settled L e.2) ∧
      ∀ e ∈ entries, Hashable L D e := by
  induction entries generalizing entries' with
  | nil =>
    obtain rfl := Option.some.inj h
    exact ⟨.nil, nofun, nofun⟩
  | cons e entries ih =>
    obtain ⟨username, password⟩ := e
    obtain ⟨password', hpassword, h⟩ := Option.bind_eq_some_iff.mp h
    obtain ⟨rest', hrest, h⟩ := Option.bind_eq_some_iff.mp h
    obtain rfl := Option.some.inj h
    obtain ⟨hsame, hsettled, hhashable⟩ := updatePassword_eq_some hpassword
    obtain ⟨ihsame, ihsettled, ihhashable⟩ := ih hrest
    exact ⟨.cons hsame ihsame, List.forall_mem_cons.mpr ⟨hsettled, ihsettled⟩,
      List.forall_mem_cons.mpr ⟨hhashable, ihhashable⟩⟩

/-- So are all of them. -/
theorem exists_updatePasswords {entries : List (Text × Value A)}
    (h : ∀ e ∈ entries, Hashable L D e) :
    ∃ entries', updatePasswords L D entries = some entries' := by
  induction entries with
  | nil => exact ⟨[], rfl⟩
  | cons e entries ih =>
    obtain ⟨hfirst, hrest⟩ := List.forall_mem_cons.mp h
    obtain ⟨password, hpassword⟩ := exists_updatePassword hfirst
    obtain ⟨rest, hrest⟩ := ih hrest
    refine ⟨(e.1, password) :: rest, ?_⟩
    rw [updatePasswords, hpassword, hrest]
    rfl

/-- Entries that are all settled stay. -/
theorem updatePasswords_of_settled {entries : List (Text × Value A)}
    (h : ∀ e ∈ entries, Settled L e.2) : updatePasswords L D entries = some entries := by
  induction entries with
  | nil => rfl
  | cons e entries ih =>
    obtain ⟨hfirst, hrest⟩ := List.forall_mem_cons.mp h
    rw [updatePasswords, updatePassword_of_settled hfirst, ih hrest]
    rfl

/-! ### Texts of databases -/

/-- A replacement by something shorter does not lengthen a text. -/
theorem length_replaceAll (old new t : Text) (h : new.length ≤ old.length) :
    (replaceAll old new t).length ≤ t.length := by
  fun_induction replaceAll old new t with
  | case1 => exact Nat.le_refl 0
  | case2 c t hprefix ih =>
    obtain ⟨rest, hrest⟩ := List.isPrefixOf_iff_prefix.mp hprefix.2
    rw [← hrest] at ih ⊢
    simp only [List.drop_left, List.length_append] at ih ⊢
    omega
  | case3 c t hprefix ih =>
    simp only [List.length_cons]
    omega

/-- What stands in front is replaced first. -/
theorem replaceAll_of_isPrefixOf {old new t : Text} (hold : old ≠ [])
    (h : old.isPrefixOf t = true) :
    replaceAll old new t = new ++ replaceAll old new (t.drop old.length) := by
  cases t with
  | nil =>
    cases old with
    | nil => exact absurd rfl hold
    | cons _ _ => cases h
  | cons c t => rw [replaceAll, if_pos ⟨hold, h⟩]

/-- `str.replace` on a slash, if neither text begins with one -/
theorem replaceAll_slash {x y : Char} (hx : x ≠ '/') (hy : y ≠ '/') (old new t u : Text) :
    replaceAll (x :: old) (y :: new) t = '/' :: u ↔
      ∃ r, t = '/' :: r ∧ replaceAll (x :: old) (y :: new) r = u := by
  cases t with
  | nil =>
    rw [replaceAll]
    exact iff_of_false nofun fun ⟨_, h, _⟩ => nomatch h
  | cons c t =>
    rw [replaceAll]
    split
    next hprefix =>
      have hc : x = c := by
        have hpair := hprefix.2
        simp only [List.isPrefixOf, Bool.and_eq_true, beq_iff_eq] at hpair
        exact hpair.1
      refine iff_of_false (fun h => hy (List.cons.inj h).1) ?_
      rintro ⟨r, h, -⟩
      exact hx (hc.trans (List.cons.inj h).1)
    next =>
      constructor
      · intro h
        obtain ⟨rfl, rfl⟩ := List.cons.inj h
        exact ⟨t, rfl, rfl⟩
      · rintro ⟨r, h, rfl⟩
        obtain ⟨rfl, rfl⟩ := List.cons.inj h
        rfl

/-- What the update makes of a SQLite URL -/
def sqliteUrl (t : Text) : Text := replaceAll "sqlite:///".toList "sqlite:".toList t

/-- **The next update changes the URL again** exactly if there are six slashes. -/
theorem isPrefixOf_sqliteUrl {t : Text} (h : "sqlite:///".toList.isPrefixOf t = true) :
    "sqlite:///".toList.isPrefixOf (sqliteUrl t) = "sqlite://////".toList.isPrefixOf t := by
  obtain ⟨rest, rfl⟩ := List.isPrefixOf_iff_prefix.mp h
  have hurl : sqliteUrl ("sqlite:///".toList ++ rest) = "sqlite:".toList ++ sqliteUrl rest := by
    unfold sqliteUrl
    rw [replaceAll_of_isPrefixOf (by decide) h, List.drop_left]
  have hslashes : ['/', '/', '/'] <+: sqliteUrl rest ↔ ['/', '/', '/'] <+: rest := by
    have hslash (t u : Text) : sqliteUrl t = '/' :: u ↔ ∃ r, t = '/' :: r ∧ sqliteUrl r = u :=
      replaceAll_slash (by decide) (by decide) _ _ t u
    constructor
    · rintro ⟨u, hu⟩
      obtain ⟨r, rfl, hr⟩ := (hslash _ _).mp hu.symm
      obtain ⟨r', rfl, hr'⟩ := (hslash _ _).mp hr
      obtain ⟨r'', rfl, -⟩ := (hslash _ _).mp hr'
      exact ⟨r'', rfl⟩
    · rintro ⟨r, rfl⟩
      refine ⟨sqliteUrl r, Eq.symm ?_⟩
      exact (hslash _ _).mpr ⟨_, rfl, (hslash _ _).mpr ⟨_, rfl, (hslash _ _).mpr ⟨_, rfl, rfl⟩⟩⟩
  rw [Bool.eq_iff_iff, List.isPrefixOf_iff_prefix, List.isPrefixOf_iff_prefix, hurl,
    show "sqlite:///".toList = "sqlite:".toList ++ ['/', '/', '/'] from rfl,
    show "sqlite://////".toList = "sqlite:".toList ++ ['/', '/', '/'] ++ ['/', '/', '/'] from rfl,
    List.append_assoc, List.append_assoc, List.prefix_append_right_inj, hslashes,
    List.prefix_append_right_inj, List.prefix_append_right_inj]

/-- A URL is not the one that the update makes of it. -/
theorem sqliteUrl_ne {t : Text} (h : "sqlite:///".toList.isPrefixOf t = true) :
    sqliteUrl t ≠ t := by
  obtain ⟨rest, rfl⟩ := List.isPrefixOf_iff_prefix.mp h
  intro heq
  unfold sqliteUrl at heq
  rw [replaceAll_of_isPrefixOf (by decide) h, List.drop_left] at heq
  have hlength := congrArg List.length heq
  have hle := length_replaceAll "sqlite:///".toList "sqlite:".toList rest (by decide)
  simp only [List.length_append] at hlength
  have hold : "sqlite:///".toList.length = 10 := rfl
  have hnew : "sqlite:".toList.length = 7 := rfl
  omega

/-! ### What the user has set -/

def baseKeys : List String := (shippedEntries : List (String × Value Unit)).map Prod.fst

/-- What the update is meant to change: a SQLite URL of the old form, a crypto database that is
    a mapping, a secret to be generated, and keys that an old one replaces. -/
def Excepted (L : Library A) (c : Config A) (key : String) (v : Value A) : Prop :=
  (key = "database" ∧ ∃ t, v = .text t ∧ "sqlite:///".toList.isPrefixOf t = true) ∨
    (key = "crypto_database" ∧ ∃ entries, v = .dict entries) ∨
    (key = "server.unshared_secret" ∧ (v = .null ∨ v = str "generate")) ∨
    (key = "homeservers" ∧ c.contains L "registration_secrets" = true) ∨
    (key = "plugin_databases.sqlite" ∧ c.contains L "plugin_directories.db" = true)

/-- A value that is kept: of the administrators, all but the plaintext passwords -/
def KeptValue (key : String) (v : Value A) (w : Option (Value A)) : Prop :=
  if key = "admins" then ∃ entries entries', v = .dict entries ∧ w = some (.dict entries') ∧
    List.Forall₂ SameUser entries entries'
  else w = some v

def Kept (L : Library A) (c m : Config A) : Prop :=
  ∀ key ∈ baseKeys, ∀ v, c key = some v → c.contains L key = true →
    ¬ Excepted L c key v → KeptValue key v (m key)

/-- The key that the update does not copy -/
def forgottenKey : String := "plugin_databases.postgres_max_conns_per_plugin"

/-- What a configuration must be for the update to keep it, and to change nothing when it is
    made again -/
structure Careful (L : Library A) (D : Draws) (c : Config A) : Prop where
  /-- not the key that is forgotten, but with the value that is shipped -/
  forgotten : ∀ v, c forgottenKey = some v → c.contains L forgottenKey = true → v = .int 3
  /-- a text, and not with six slashes behind `sqlite:` -/
  database  : c.contains L "database" = true →
    ∃ t, c.get "database" = .text t ∧ "sqlite://////".toList.isPrefixOf t = false
  /-- a URL that is not a mapping, nor null unless null counts as present -/
  crypto    : ∀ entries, c.get "crypto_database" = .dict entries → isPostgres entries = true →
    (∀ inner, postgresUri entries ≠ .dict inner) ∧
      (postgresUri entries = .null → L.nullIsIn = true)
  /-- a mapping, in which each password that is not empty is a text that can be hashed -/
  admins    : ∃ entries, taken L c "admins" = some (.dict entries) ∧
    ∀ e ∈ entries, Hashable L D e

/-- The key that `do_update` forgets has no exception: its value is simply gone. -/
theorem not_excepted {v : Value A} : ¬ Excepted L c forgottenKey v := by
  rintro (⟨h, -⟩ | ⟨h, -⟩ | ⟨h, -⟩ | ⟨h, -⟩ | ⟨h, -⟩) <;> exact absurd h (by decide)

/-- A key is contained if it has a value, and for `null` if the library counts that. -/
theorem contains_iff : c.contains L k = true ↔
    ∃ v, c k = some v ∧ (v = .null → L.nullIsIn = true) := by
  unfold Config.contains
  cases c k with
  | none => simp
  | some v =>
    cases v with
    | null => simp
    | _ => simp

/-- The value of a key that has one. -/
theorem get_eq {v : Value A} (h : c k = some v) : c.get k = v := by rw [Config.get, h]; rfl

/-- A key that is contained has the value that `get` gives. -/
theorem eq_of_contains (h : c.contains L k = true) : c k = some (c.get k) := by
  obtain ⟨v, hv, -⟩ := contains_iff.mp h
  rw [hv, get_eq hv]

/-- A value that came from the configuration is taken again. -/
theorem taken_eq (h : m.contains L k = true ∨ m k = shipped k) : taken L m k = m k := by
  unfold taken
  split
  next hin => exact (eq_of_contains hin).symm
  next hin => exact (h.resolve_left hin).symm

/-- It is contained in any configuration with that value. -/
theorem contains_of_eq {j : String} (hc : c.contains L j = true) (h : m k = some (c.get j)) :
    m.contains L k = true := by
  obtain ⟨v, hv, hnull⟩ := contains_iff.mp hc
  rw [get_eq hv] at h
  exact contains_iff.mpr ⟨v, h, hnull⟩

/-- A value that was taken is taken again. -/
theorem taken_again (h : m k = taken L c k) : taken L m k = m k := by
  refine taken_eq ?_
  unfold taken at h
  split at h
  next hin => exact .inl (contains_of_eq hin h)
  next => exact .inr h

/-- The new `database`: three slashes become one. -/
theorem newDatabase_of_text {t : Text} (hin : c.contains L "database" = true)
    (ht : c.get "database" = .text t) : newDatabase L c =
      some (.text (if "sqlite:///".toList.isPrefixOf t then sqliteUrl t else t)) := by
  rw [newDatabase, if_pos hin, ht]
  rfl

/-- Rewritten once, `database` stays. -/
theorem database_again (hcareful : Careful L D c) (h : Written L D c m) :
    ∃ v, newDatabase L m = some v ∧ m "database" = some v := by
  obtain ⟨v, hv, hm⟩ := h.database
  refine ⟨v, ?_, hm⟩
  -- the new value is a text that is not a URL of the old form
  obtain ⟨t, rfl, ht⟩ : ∃ t, v = .text t ∧ "sqlite:///".toList.isPrefixOf t = false := by
    by_cases hin : c.contains L "database" = true
    · obtain ⟨t, ht, hslashes⟩ := hcareful.database hin
      rw [newDatabase_of_text hin ht] at hv
      obtain rfl := Option.some.inj hv
      refine ⟨_, rfl, ?_⟩
      split
      next hprefix => rw [isPrefixOf_sqliteUrl hprefix, hslashes]
      next hprefix => exact (Bool.not_eq_true _).mp hprefix
    · rw [newDatabase, if_neg hin] at hv
      obtain rfl := Option.some.inj hv
      exact ⟨_, rfl, by decide⟩
  have hin : m.contains L "database" = true := contains_iff.mpr ⟨_, hm, nofun⟩
  rw [newDatabase_of_text hin (get_eq hm), ht]
  rfl

/-- `crypto_database` stays as it was written. -/
theorem cryptoDatabase_again (hcareful : Careful L D c) (h : Written L D c m) :
    m "crypto_database" = newCryptoDatabase L m := by
  have hm := h.cryptoDatabase
  have hplain (hnot : ∀ entries, m.get "crypto_database" ≠ .dict entries)
      (htaken : taken L m "crypto_database" = m "crypto_database") :
      m "crypto_database" = newCryptoDatabase L m := by
    unfold newCryptoDatabase
    split
    next entries hentries => exact absurd hentries (hnot entries)
    next => exact htaken.symm
  unfold newCryptoDatabase at hm
  split at hm
  next entries hentries =>
    split at hm
    next hpostgres =>
      -- the URL that was taken out of the entries must not be entries itself
      obtain ⟨hnot, hnull⟩ := hcareful.crypto entries hentries hpostgres
      refine hplain (fun inner => ?_) (taken_eq (.inl (contains_iff.mpr ⟨_, hm, hnull⟩)))
      rw [get_eq hm]
      exact hnot inner
    next =>
      refine hplain (fun inner => ?_) (taken_eq (.inr hm))
      have hshipped : m "crypto_database" = some (str "default") := hm
      rw [get_eq hshipped]
      nofun
  next hnot =>
    refine hplain (fun inner hinner => ?_) (taken_again hm)
    unfold taken at hm
    split at hm
    next hin =>
      rw [get_eq hm] at hinner
      exact hnot inner hinner
    next =>
      have hshipped : m "crypto_database" = some (str "default") := hm
      rw [get_eq hshipped] at hinner
      cases hinner

/-- A secret that was drawn is not drawn again. -/
theorem unsharedSecret_again (D' : Draws) (h : Written L D c m) :
    m "server.unshared_secret" = some (newUnsharedSecret D' m) := by
  have hm := h.unsharedSecret
  rw [hm]
  unfold newUnsharedSecret
  rw [get_eq hm]
  have htoken : D.newToken ≠ "generate".toList := by
    intro heq
    have hlength := D.newToken_length
    rw [heq] at hlength
    exact absurd hlength (by decide)
  unfold newUnsharedSecret
  cases c.get "server.unshared_secret" with
  | null => simp only [if_neg htoken]
  | text t =>
    by_cases ht : t = "generate".toList
    · simp only [if_pos ht, if_neg htoken]
    · simp only [if_neg ht]
  | _ => rfl

/-- A key that the user set, or else an old one, is not there the next time. -/
theorem replaced_again {old : String} (hold : m old = none)
    (hm : m k = if c.contains L old then some (c.get old) else taken L c k) :
    m k = if m.contains L old then some (m.get old) else taken L m k := by
  have hnot : m.contains L old = false := by rw [Config.contains, hold]
  rw [hnot]
  split at hm
  next hin => exact (taken_eq (.inl (contains_of_eq hin hm))).symm
  next => exact (taken_again hm).symm

/-- Passwords that were hashed are not hashed again. -/
theorem admins_again (D' : Draws) (h : Written L D c m) :
    ∃ entries, newAdmins L D' m = some entries ∧ m "admins" = some (.dict entries) := by
  obtain ⟨entries, hentries, hm⟩ := h.admins
  refine ⟨entries, ?_, hm⟩
  have hin : m.contains L "admins" = true := contains_iff.mpr ⟨_, hm, nofun⟩
  have hsettled : ∀ e ∈ entries, Settled L e.2 := by
    unfold newAdmins at hentries
    split at hentries
    next => exact (updatePasswords_eq_some hentries).2.1
    next => cases hentries
  rw [newAdmins, taken_eq (.inl hin), hm]
  exact updatePasswords_of_settled hsettled

/-- What a careful user's configuration was updated to is its own update. -/
theorem written_again (hcareful : Careful L D c) (D' : Draws) (h : Written L D c m) :
    Written L D' m m where
  database        := database_again hcareful h
  cryptoDatabase  := cryptoDatabase_again hcareful h
  pluginDatabases :=
    replaced_again (h.rest "plugin_directories.db" (by decide) (by decide)) h.pluginDatabases
  unsharedSecret  := unsharedSecret_again D' h
  homeservers     :=
    replaced_again (h.rest "registration_secrets" (by decide) (by decide)) h.homeservers
  admins          := admins_again D' h
  copied k hk     := (taken_again (h.copied k hk)).symm
  rest            := h.rest

/-- What a careful update has written is a fixed point of the update, with any draws. -/
theorem doUpdate_again (hcareful : Careful L D c) (D' : Draws) (h : Written L D c m) :
    doUpdate L D' m = some m := by
  have hagain := written_again hcareful D' h
  obtain ⟨v, hv, -⟩ := hagain.database
  obtain ⟨entries, hentries, -⟩ := hagain.admins
  obtain ⟨m', hm'⟩ := exists_doUpdate hv hentries
  rw [hm', hagain.unique (written_of_doUpdate hm')]

/-- Every key of the shipped file is copied, has a rule of its own, or is forgotten. -/
theorem baseKeys_cases (h : k ∈ baseKeys) :
    k ∈ copiedKeys ∨ k ∈ specialKeys ∨ k = forgottenKey := by
  have hall : ∀ k ∈ baseKeys, k ∈ copiedKeys ∨ k ∈ specialKeys ∨ k = forgottenKey := by decide
  exact hall k h

/-- A key besides `admins` is kept by having the same value. -/
theorem keptValue_of_ne {v : Value A} {w : Option (Value A)} (hk : k ≠ "admins")
    (h : w = some v) : KeptValue k v w := by
  rw [KeptValue, if_neg hk]
  exact h

/-- A contained value is taken. -/
theorem taken_of_contains {v : Value A} (hv : c k = some v) (hin : c.contains L k = true) :
    taken L c k = some v := by
  rw [taken, if_pos hin, get_eq hv]

/-- `database` is kept but for the URLs that are rewritten. -/
theorem database_kept {v : Value A} (hcareful : Careful L D c) (h : Written L D c m)
    (hv : c "database" = some v) (hin : c.contains L "database" = true)
    (hexcept : ¬ Excepted L c "database" v) : m "database" = some v := by
  obtain ⟨t, ht, -⟩ := hcareful.database hin
  rw [get_eq hv] at ht
  subst ht
  have hplain : ¬ "sqlite:///".toList.isPrefixOf t = true := fun hprefix =>
    hexcept (.inl ⟨rfl, t, rfl, hprefix⟩)
  obtain ⟨w, hw, hm⟩ := h.database
  rw [newDatabase_of_text hin (get_eq hv), if_neg hplain] at hw
  rw [hm, ← hw]

/-- `crypto_database` is kept but for the value that means the default. -/
theorem cryptoDatabase_kept {v : Value A} (h : Written L D c m)
    (hv : c "crypto_database" = some v) (hin : c.contains L "crypto_database" = true)
    (hexcept : ¬ Excepted L c "crypto_database" v) : m "crypto_database" = some v := by
  rw [h.cryptoDatabase, newCryptoDatabase, get_eq hv]
  split
  next entries => exact absurd (.inr (.inl ⟨rfl, entries, rfl⟩)) hexcept
  next => exact taken_of_contains hv hin

/-- The secret is kept but for the one that asks for a draw. -/
theorem unsharedSecret_kept {v : Value A} (h : Written L D c m)
    (hv : c "server.unshared_secret" = some v)
    (hexcept : ¬ Excepted L c "server.unshared_secret" v) :
    m "server.unshared_secret" = some v := by
  rw [h.unsharedSecret, newUnsharedSecret, get_eq hv]
  cases v with
  | null => exact absurd (.inr (.inr (.inl ⟨rfl, .inl rfl⟩))) hexcept
  | text t =>
    have ht : t ≠ "generate".toList := by
      rintro rfl
      exact hexcept (.inr (.inr (.inl ⟨rfl, .inr rfl⟩)))
    simp only [if_neg ht]
  | _ => rfl

/-- A key is kept if the old one that would replace it is not there. -/
theorem replaced_kept {old : String} {v : Value A}
    (hm : m k = if c.contains L old then some (c.get old) else taken L c k)
    (hold : ¬ c.contains L old = true) (hv : c k = some v) (hin : c.contains L k = true) :
    m k = some v := by
  rw [hm, if_neg hold, taken_of_contains hv hin]

/-- The admins are kept, their passwords hashed. -/
theorem admins_kept {v : Value A} (hcareful : Careful L D c) (h : Written L D c m)
    (hv : c "admins" = some v) (hin : c.contains L "admins" = true) :
    KeptValue "admins" v (m "admins") := by
  obtain ⟨entries', hentries', hm⟩ := h.admins
  obtain ⟨entries, hentries, -⟩ := hcareful.admins
  rw [newAdmins, hentries] at hentries'
  rw [taken_of_contains hv hin] at hentries
  rw [KeptValue, if_pos rfl]
  exact ⟨entries, entries', Option.some.inj hentries, hm, (updatePasswords_eq_some hentries').1⟩

/-- Hence a careful update keeps every value. -/
theorem kept_of_written (hcareful : Careful L D c) (h : Written L D c m) : Kept L c m := by
  intro k hk v hv hin hexcept
  rcases baseKeys_cases hk with hcopied | hspecial | rfl
  · have hne : ∀ k ∈ copiedKeys, k ≠ "admins" := by decide
    apply keptValue_of_ne (hne k hcopied)
    rw [h.copied k hcopied, taken_of_contains hv hin]
  · simp only [specialKeys, List.mem_cons, List.not_mem_nil, or_false] at hspecial
    rcases hspecial with rfl | rfl | rfl | rfl | rfl | rfl
    · exact keptValue_of_ne (by decide) (database_kept hcareful h hv hin hexcept)
    · exact keptValue_of_ne (by decide) (cryptoDatabase_kept h hv hin hexcept)
    · apply keptValue_of_ne (by decide)
      refine replaced_kept h.pluginDatabases (fun hold => ?_) hv hin
      exact hexcept (.inr (.inr (.inr (.inr ⟨rfl, hold⟩))))
    · exact keptValue_of_ne (by decide) (unsharedSecret_kept h hv hexcept)
    · apply keptValue_of_ne (by decide)
      refine replaced_kept h.homeservers (fun hold => ?_) hv hin
      exact hexcept (.inr (.inr (.inr (.inl ⟨rfl, hold⟩))))
    · exact admins_kept hcareful h hv hin
  · apply keptValue_of_ne (by decide)
    rw [hcareful.forgotten v hv hin, h.rest forgottenKey (by decide) (by decide)]
    rfl

/-- And it does not raise. -/
theorem exists_of_careful (hcareful : Careful L D c) : ∃ m, doUpdate L D c = some m := by
  obtain ⟨entries, hentries, hhashable⟩ := hcareful.admins
  obtain ⟨entries', hentries'⟩ := exists_updatePasswords hhashable
  have hadmins : newAdmins L D c = some entries' := by
    rw [newAdmins, hentries]
    exact hentries'
  by_cases hin : c.contains L "database" = true
  · obtain ⟨t, ht, -⟩ := hcareful.database hin
    exact exists_doUpdate (newDatabase_of_text hin ht) hadmins
  · have hshipped : newDatabase L c = some (str "sqlite:maubot.db") := by
      rw [newDatabase, if_neg hin]
    exact exists_doUpdate hshipped hadmins

/-- A mapping is not one of its own values. -/
theorem postgresUri_ne (entries : List (Text × Value A)) :
    postgresUri entries ≠ .dict entries := by
  intro h
  unfold postgresUri at h
  cases hlookup : entries.lookup "postgres_uri".toList with
  | none =>
    rw [hlookup] at h
    cases h
  | some v =>
    rw [hlookup] at h
    obtain rfl : v = .dict entries := h
    obtain ⟨before, behind, heq, -⟩ := List.lookup_eq_some_iff.mp hlookup
    have hmem : ("postgres_uri".toList, Value.dict entries) ∈
        before ++ ("postgres_uri".toList, Value.dict entries) :: behind :=
      List.mem_append_right _ List.mem_cons_self
    rw [← heq] at hmem
    have hlt := List.sizeOf_lt_of_mem hmem
    simp only [Prod.mk.sizeOf_spec, Value.dict.sizeOf_spec] at hlt
    omega

/-- With six slashes the next update would replace the URL again. -/
theorem slashes_of_again {t : Text} (hin : c.contains L "database" = true)
    (ht : c.get "database" = .text t) (h : Written L D c m) (hagain : Written L D m m) :
    "sqlite://////".toList.isPrefixOf t = false := by
  by_contra hslashes
  have hsix := (Bool.not_eq_false _).mp hslashes
  have hprefix : "sqlite:///".toList.isPrefixOf t = true := by
    rw [List.isPrefixOf_iff_prefix] at hsix ⊢
    exact (List.prefix_append "sqlite:///".toList ['/', '/', '/']).trans hsix
  obtain ⟨v, hv, hdatabase⟩ := h.database
  rw [newDatabase_of_text hin ht, if_pos hprefix] at hv
  obtain rfl := Option.some.inj hv
  have hurl : "sqlite:///".toList.isPrefixOf (sqliteUrl t) = true := by
    rw [isPrefixOf_sqliteUrl hprefix, hsix]
  obtain ⟨v', hv', hdatabase'⟩ := hagain.database
  have hin' : m.contains L "database" = true := contains_iff.mpr ⟨_, hdatabase, nofun⟩
  rw [newDatabase_of_text hin' (get_eq hdatabase), if_pos hurl] at hv'
  rw [hdatabase, ← hv'] at hdatabase'
  exact sqliteUrl_ne hurl (Value.text.inj (Option.some.inj hdatabase')).symm

/-- If a second update writes the same, `database` was a text without too many slashes. -/
theorem database_of_again (h : Written L D c m) (hagain : Written L D m m)
    (hin : c.contains L "database" = true) :
    ∃ t, c.get "database" = .text t ∧ "sqlite://////".toList.isPrefixOf t = false := by
  obtain ⟨v, hv, -⟩ := h.database
  rw [newDatabase, if_pos hin] at hv
  split at hv
  next t ht => exact ⟨t, ht, slashes_of_again hin ht h hagain⟩
  next => cases hv

/-- The next update would look for a URL in the mapping, and drop a null that does not count. -/
theorem crypto_of_again (h : Written L D c m) (hagain : Written L D m m)
    {entries : List (Text × Value A)} (hentries : c.get "crypto_database" = .dict entries)
    (hpostgres : isPostgres entries = true) : (∀ inner, postgresUri entries ≠ .dict inner) ∧
      (postgresUri entries = .null → L.nullIsIn = true) := by
  have hcrypto : m "crypto_database" = some (postgresUri entries) := by
    rw [h.cryptoDatabase, newCryptoDatabase, hentries]
    exact if_pos hpostgres
  have hnew := hagain.cryptoDatabase
  rw [newCryptoDatabase, get_eq hcrypto, hcrypto] at hnew
  constructor
  · intro inner hinner
    rw [hinner] at hnew
    dsimp only at hnew
    split at hnew
    next => exact postgresUri_ne inner (Option.some.inj hnew).symm
    next => cases hnew
  · intro hnull
    rw [hnull] at hnew hcrypto
    dsimp only at hnew
    unfold taken at hnew
    split at hnew
    next hin =>
      obtain ⟨v, hv, hnullIn⟩ := contains_iff.mp hin
      exact hnullIn (Option.some.inj (hv.symm.trans hcrypto))
    next => cases hnew

/-- Conversely an update that keeps all and is idempotent was careful. -/
theorem careful_of_again (hm : doUpdate L D c = some m) (hkept : Kept L c m)
    (hagain : doUpdate L D m = some m) : Careful L D c := by
  have hwritten := written_of_doUpdate hm
  have hwritten' := written_of_doUpdate hagain
  constructor
  · intro v hv hin
    have hvalue := hkept forgottenKey (by decide) v hv hin not_excepted
    rw [KeptValue, if_neg (by decide), hwritten.rest forgottenKey (by decide) (by decide)] at hvalue
    exact (Option.some.inj hvalue).symm
  · exact database_of_again hwritten hwritten'
  · intro entries hentries hpostgres
    exact crypto_of_again hwritten hwritten' hentries hpostgres
  · obtain ⟨entries', hentries', -⟩ := hwritten.admins
    unfold newAdmins at hentries'
    split at hentries'
    next entries hentries => exact ⟨entries, hentries, (updatePasswords_eq_some hentries').2.2⟩
    next => cases hentries'

/-- **The update keeps what the user has set, and changes nothing the next time,** exactly for
    the careful configurations. -/
theorem updates_iff (L : Library A) (D : Draws) (c : Config A) :
    (∃ m, doUpdate L D c = some m ∧ Kept L c m ∧ ∀ D', doUpdate L D' m = some m) ↔
      Careful L D c := by
  constructor
  · rintro ⟨m, hm, hkept, hagain⟩
    exact careful_of_again hm hkept (hagain D)
  · intro hcareful
    obtain ⟨m, hm⟩ := exists_of_careful hcareful
    have hwritten := written_of_doUpdate hm
    exact ⟨m, hm, kept_of_written hcareful hwritten,
      fun D' => doUpdate_again hcareful D' hwritten⟩

end Written

/-- Null does not count, and there are no other scalars. -/
def plainLibrary : Library Empty := ⟨false, nofun⟩

def plainDraws : Draws where
  newToken             := List.replicate 64 'a'
  newToken_length      := rfl
  passwordToken _      := List.replicate 64 'a'
  hashpw _ _           := some ("$2b$".toList ++ List.replicate 56 'a')
  hashpw_matches _ _ _ := by
    rintro ⟨⟩
    decide

/-- A user who wants ten connections for each plugin, and gets three -/
theorem not_updates : ¬ ∀ c : Config Empty, ∃ m, doUpdate plainLibrary plainDraws c = some m ∧
    Kept plainLibrary c m ∧ ∀ D', doUpdate plainLibrary D' m = some m := by
  intro h
  obtain ⟨m, hm, hkept, -⟩ := h fun key => if key = forgottenKey then some (.int 10) else none
  have hvalue := hkept forgottenKey (by decide) (.int 10) rfl rfl not_excepted
  rw [KeptValue, if_neg (by decide),
    (written_of_doUpdate hm).rest forgottenKey (by decide) (by decide)] at hvalue
  cases hvalue

end Maubot.Configuration
