import Maubot.World

namespace Maubot.InstanceEngine

open Prog

/-!
# Plugin instances — the engine of the database

`database_engine` is chosen when a plugin of the instance first opens a database, from what is
configured and which files there are, and stored in the row of the instance.

* `startDatabase` — `start_database`, with marks for what it stores and opens;
* `Event`, `step` — the calls, changes of the plugin and restarts of the program;
* `Law` — what one call does to the engine, and `engine_kept`.
-/

/-! ### The row -/

/-- The values of the enumeration. -/
def value : DatabaseEngine → String
  | .sqlite   => "sqlite"
  | .postgres => "postgres"

/-- `database_engine_str`, the value that `update` writes -/
def databaseEngineStr (engine : Option DatabaseEngine) : Option String := engine.map value

/-- The engine of `_from_row` -/
def fromRow (column : Option String) : Except PyExc (Option DatabaseEngine) :=
  match column with
  | none   => .ok none
  | some v =>
    if v = "" then .ok none
    else if v = "sqlite" then .ok (some .sqlite)
    else if v = "postgres" then .ok (some .postgres)
    else .error { cls := .valueError }

/-- The engine is read back from the row. -/
theorem fromRow_databaseEngineStr (engine : Option DatabaseEngine) :
    fromRow (databaseEngineStr engine) = .ok engine := by
  match engine with
  | none           => rfl
  | some .sqlite   => rfl
  | some .postgres => rfl

/-- So the text of the row determines it. -/
theorem databaseEngineStr_inj {a b : Option DatabaseEngine} :
    databaseEngineStr a = databaseEngineStr b ↔ a = b := by
  constructor
  · intro h
    have hrow := congrArg fromRow h
    rw [fromRow_databaseEngineStr, fromRow_databaseEngineStr] at hrow
    exact Except.ok.inj hrow
  · exact congrArg databaseEngineStr

/-! ### The instance -/

/-- Not in the source: what has been done, in order. -/
inductive Mark
  /-- the row has been written with this engine -/
  | stored (engine : Option DatabaseEngine)
  /-- a storage of this engine has been opened -/
  | opened (engine : DatabaseEngine)
  deriving DecidableEq, Repr

/-- The instance, its row, its plugin and the configuration. -/
structure Inst where
  /-- `loader.meta.database` and `loader.meta.database_type` -/
  database         : Bool
  databaseType     : DatabaseType
  /-- whether `plugin_postgres_db` is configured -/
  pluginPostgresDb : Bool
  databaseEngine   : Option DatabaseEngine
  /-- the column `database_engine` -/
  row              : Option String
  enabled          : Bool := true
  started          : Bool := false
  instDb           : Option InstDb := none
  marks            : List Mark := []
  deriving DecidableEq, Repr

/-- The engine of a database object. -/
def engineOf : InstDb → DatabaseEngine
  | .engine   => .sqlite
  | .sqlite   => .sqlite
  | .postgres => .postgres

abbrev Call := Prog Inst PyExc

/-- `update` of the row -/
def update : Call Unit :=
  modify fun s =>
    { s with row := databaseEngineStr s.databaseEngine,
             marks := s.marks ++ [.stored s.databaseEngine] }

def updateEnabled (enabled : Bool) : Call Unit := do
  let s ← get
  when (enabled ≠ s.enabled) do
    modify fun s => { s with enabled }
    update

def updateDbEngine (dbEngine : DatabaseEngine) : Call Unit := do
  let s ← get
  when (some dbEngine ≠ s.databaseEngine) do
    modify fun s => { s with databaseEngine := some dbEngine }
    update

/-- What starting a database meets: whether there is a file, and what raises. -/
structure DatabaseEnv where
  sqliteDbExists : Bool
  /-- `create_engine`, `Database.create` or `ProxyPostgresDatabase` -/
  create         : Option PyExc := none
  /-- `inst_db.start()` before it opens the storage -/
  connect        : Option PyExc := none
  /-- and behind that, with the upgrades -/
  upgrade        : Option PyExc := none

/-- The engine for a plugin with the legacy interface. -/
def chooseLegacy : Call Unit := do
  let s ← get
  match s.databaseEngine with
  | none           => updateDbEngine .sqlite
  | some .postgres => throw { cls := .runtimeError }
  | some .sqlite   => pure ()

/-- The engine for a plugin that uses asyncpg. -/
def chooseAsyncpg (sqliteDbExists : Bool) : Call Unit := do
  let s ← get
  match s.databaseEngine with
  | some _ => pure ()
  | none   =>
    if sqliteDbExists || !s.pluginPostgresDb then updateDbEngine .sqlite
    else updateDbEngine .postgres

def setInstDb (create : Option PyExc) (db : InstDb) : Call Unit := do
  raiseIf create
  modify fun s => { s with instDb := some db }

/-- The database object for a plugin that uses asyncpg. -/
def createAsyncpg (create : Option PyExc) : Call InstDb := do
  let s ← get
  if s.databaseEngine = some .postgres then
    if s.pluginPostgresDb then do
      setInstDb create .postgres
      pure .postgres
    else throw { cls := .runtimeError }
  else do
    setInstDb create .sqlite
    pure .sqlite

def opens (db : InstDb) : Call Unit :=
  modify fun s => { s with marks := s.marks ++ [.opened (engineOf db)] }

/-- `inst_db.start()` -/
def startInstDb (env : DatabaseEnv) (db : InstDb) : Call Unit := do
  raiseIf env.connect
  opens db
  raiseIf env.upgrade

/-- `start_database`.  Sqlalchemy's `create_engine` counts as opening the file. -/
def startDatabase (env : DatabaseEnv) (actuallyStart : Bool) : Call Unit := do
  let s ← get
  match s.databaseType with
  | .sqlalchemy     => do
    chooseLegacy
    setInstDb env.create .engine
    opens .engine
  | .asyncpg        => do
    chooseAsyncpg env.sqliteDbExists
    let db ← createAsyncpg env.create
    when actuallyStart (startInstDb env db)
  | .unrecognized _ => throw { cls := .runtimeError }

/-- What `delete_database` removes, which may raise. -/
def dropDatabase (env : DatabaseEnv) (remove : Option PyExc) : Call Unit := do
  let s ← get
  match s.databaseType with
  | .sqlalchemy     => raiseIf remove
  | .asyncpg        => do
    when s.instDb.isNone (startDatabase env false)
    raiseIf remove
  | .unrecognized _ => throw { cls := .runtimeError }

def deleteDatabase (env : DatabaseEnv) (remove : Option PyExc) : Call Unit := do
  dropDatabase env remove
  modify fun s => { s with instDb := none }

/-- What a start meets besides the database. -/
structure StartEnv where
  database     : DatabaseEnv
  /-- the client and the plugin's code -/
  load         : Option PyExc := none
  /-- `cls.get_db_upgrade_table()` -/
  upgradeTable : Option PyExc := none
  /-- the configuration and `cls(...)` -/
  construct    : Option PyExc := none
  /-- `internal_start()` -/
  plugin       : Option PyExc := none

/-- `start` opening the database; a failure disables the instance. -/
def openDatabase (env : StartEnv) : Call Bool := do
  let s ← get
  if s.database then do
    match ← attempt PyExc.isException do
      raiseIf env.upgradeTable
      startDatabase env.database true with
    | .ok _    => pure true
    | .error _ => do
      updateEnabled false
      pure false
  else pure true

def start (env : StartEnv) : Call Unit := do
  let s ← get
  if s.started then pure ()
  else if !s.enabled then pure ()
  else do
    raiseIf env.load
    if ← openDatabase env then do
      raiseIf env.construct
      match ← attempt PyExc.isException (raiseIf env.plugin) with
      | .ok _    => modify fun s => { s with started := true }
      | .error _ => updateEnabled false
    else pure ()

/-- `stop`, which logs what the plugin and the database raise -/
def stop : Call Unit := modify fun s => { s with started := false }

/-! ### Histories -/

inductive Event
  | start (env : StartEnv)
  | stop
  | updateEnabled (enabled : Bool)
  /-- the plugin has been reloaded or replaced -/
  | reload (database : Bool) (databaseType : DatabaseType)
  /-- `update_type` to a plugin with these settings -/
  | updateType (database : Bool) (databaseType : DatabaseType) (env : StartEnv)
  /-- another `update`, such as that of `save_config` -/
  | update
  | deleteDatabase (env : DatabaseEnv) (remove : Option PyExc)
  /-- the program stops and starts again, with another configuration and other plugins -/
  | restart (pluginPostgresDb database : Bool) (databaseType : DatabaseType) (enabled : Bool)

/-- The plugin changes. -/
def setPlugin (database : Bool) (databaseType : DatabaseType) : Call Unit :=
  modify fun s => { s with database, databaseType }

/-- The instance as the program loads it from its row. -/
def restart (pluginPostgresDb database : Bool) (databaseType : DatabaseType) (enabled : Bool) :
    Call Unit := do
  let s ← get
  let databaseEngine ← outcome (fromRow s.row)
  modify fun s =>
    { database, databaseType, pluginPostgresDb, databaseEngine, enabled,
      row := s.row, marks := s.marks }

def Event.call : Event → Call Unit
  | .start env                     => InstanceEngine.start env
  | .stop                          => InstanceEngine.stop
  | .updateEnabled enabled         => InstanceEngine.updateEnabled enabled
  | .reload database databaseType  => setPlugin database databaseType
  | .updateType database type env  => do
    InstanceEngine.stop
    setPlugin database type
    InstanceEngine.update
    InstanceEngine.start env
  | .update                        => InstanceEngine.update
  | .deleteDatabase env remove     => InstanceEngine.deleteDatabase env remove
  | .restart pluginPostgresDb database type enabled =>
    InstanceEngine.restart pluginPostgresDb database type enabled

def step (e : Event) (s : Inst) : Inst := (e.call.exec s).2

/-- The instance after a history. -/
def run (es : List Event) (s : Inst) : Inst := es.foldl (fun s e => step e s) s

/-! ### The law -/

/-- Memory and row agree. -/
def Consistent (s : Inst) : Prop := s.row = databaseEngineStr s.databaseEngine

/-- An engine that is set stays, and a storage is opened for the engine, which has been stored
    before. -/
structure Law (s t : Inst) : Prop where
  consistent : Consistent t
  kept       : ∀ e, s.databaseEngine = some e → t.databaseEngine = some e
  marks      : ∃ new, t.marks = s.marks ++ new ∧
    (∀ l e r, new = l ++ .opened e :: r →
      t.databaseEngine = some e ∧ (s.databaseEngine = some e ∨ .stored (some e) ∈ l)) ∧
    ∀ e, t.databaseEngine = some e → s.databaseEngine = some e ∨ .stored (some e) ∈ new

/-- No step obeys the law. -/
theorem Law.refl {s : Inst} (h : Consistent s) : Law s s where
  consistent := h
  kept _ he  := he
  marks      := by
    refine ⟨[], (List.append_nil _).symm, fun l e r heq => ?_, fun e he => .inl he⟩
    have hlength := congrArg List.length heq
    simp at hlength

/-- Two steps that obey it obey it together. -/
theorem Law.trans {s t u : Inst} (h : Law s t) (h' : Law t u) : Law s u where
  consistent := h'.consistent
  kept e he  := h'.kept e (h.kept e he)
  marks      := by
    obtain ⟨new, hnew, hopened, hset⟩ := h.marks
    obtain ⟨new', hnew', hopened', hset'⟩ := h'.marks
    refine ⟨new ++ new', by rw [hnew', hnew, List.append_assoc], fun l e r heq => ?_,
      fun e he => ?_⟩
    · rcases List.append_eq_append_iff.mp heq with ⟨l', rfl, hl'⟩ | ⟨r', hr', hr⟩
      · -- opened by the second call
        obtain ⟨hengine, hstored⟩ := hopened' l' e r hl'
        refine ⟨hengine, ?_⟩
        rcases hstored with ht | hmem
        · exact (hset e ht).imp_right fun hmem => List.mem_append_left _ hmem
        · exact .inr (List.mem_append_right _ hmem)
      · cases r' with
        | nil =>
          obtain ⟨hengine, hstored⟩ := hopened' [] e r hr.symm
          rw [List.append_nil] at hr'
          subst hr'
          exact ⟨hengine, hset e (hstored.resolve_right (List.not_mem_nil))⟩
        | cons m r' =>
          obtain ⟨rfl, -⟩ := List.cons.inj hr
          obtain ⟨hengine, hstored⟩ := hopened l e r' hr'
          exact ⟨h'.kept e hengine, hstored⟩
    · rcases hset' e he with ht | hmem
      · exact (hset e ht).imp_right fun hmem => List.mem_append_left _ hmem
      · exact .inr (List.mem_append_right _ hmem)

/-- What a call does from a state where memory and row agree. -/
def lawful : Frame Inst where
  rel s t   := Consistent s → Law s t
  refl _ h  := .refl h
  trans h h' hs := (h hs).trans (h' (h hs).consistent)

/-- A call that touches neither the engine nor the marks. -/
theorem lawful_of_same {s t : Inst} (he : t.databaseEngine = s.databaseEngine)
    (hr : t.row = s.row) (hm : t.marks = s.marks) : lawful.rel s t := by
  intro hs
  have h := Law.refl hs
  refine ⟨?_, fun e h => he.trans h, ?_⟩
  · rw [Consistent, hr, he]
    exact hs
  · rw [hm, he]
    exact h.marks

/-- The engine is set where it was not, and stored. -/
theorem lawful_of_stored {s t : Inst}
    (hkept : ∀ e, s.databaseEngine = some e → t.databaseEngine = some e)
    (hr : t.row = databaseEngineStr t.databaseEngine)
    (hm : t.marks = s.marks ++ [.stored t.databaseEngine]) : lawful.rel s t := by
  intro _
  refine ⟨hr, hkept, [.stored t.databaseEngine], hm, fun l e r heq => ?_, fun e he => ?_⟩
  · have hmem : .opened e ∈ [Mark.stored t.databaseEngine] := by
      rw [heq]
      exact List.mem_append_right _ List.mem_cons_self
    cases List.mem_singleton.mp hmem
  · rw [he]
    exact .inr (List.mem_singleton_self _)

/-- The database may be opened with the engine of the instance. -/
theorem lawful_of_opened {s t : Inst} {e : DatabaseEngine} (hs : s.databaseEngine = some e)
    (he : t.databaseEngine = s.databaseEngine) (hr : t.row = s.row)
    (hm : t.marks = s.marks ++ [.opened e]) : lawful.rel s t := by
  intro hcons
  refine ⟨?_, fun e h => he.trans h, [.opened e], hm, fun l e' r heq => ?_, fun e' h => ?_⟩
  · rw [Consistent, hr, he]
    exact hcons
  · have hmem : .opened e' ∈ [Mark.opened e] := by
      rw [heq]
      exact List.mem_append_right _ List.mem_cons_self
    cases List.mem_singleton.mp hmem
    exact ⟨he.trans hs, .inl hs⟩
  · exact .inl (he.symm.trans h)

/-! ### The calls -/

/-- The row may be written, -/
theorem lawful_update : Keeps lawful update :=
  keeps_modify fun _ => lawful_of_stored (fun _ he => he) rfl rfl

/-- and the flag set. -/
theorem lawful_updateEnabled (enabled : Bool) : Keeps lawful (updateEnabled enabled) := by
  refine keeps_get_bind fun s => keeps_when (keeps_bind ?_ fun _ => lawful_update) s
  exact keeps_modify fun _ => lawful_of_same rfl rfl rfl

/-- The engine is set in the object and in the row, where there was none. -/
theorem exec_updateDbEngine {s : Inst} (h : s.databaseEngine = none) (e : DatabaseEngine) :
    (updateDbEngine e).exec s = (.ok (), { s with
      databaseEngine := some e, row := databaseEngineStr (some e),
      marks := s.marks ++ [.stored (some e)] }) := by
  have hne : some e ≠ s.databaseEngine := by
    rw [h]
    nofun
  rw [updateDbEngine, exec_get_bind, when, if_pos hne]
  rfl

/-- That is the only way to set it. -/
theorem lawful_updateDbEngine {s : Inst} (h : s.databaseEngine = none) (e : DatabaseEngine) :
    lawful.rel s ((updateDbEngine e).exec s).2 := by
  rw [exec_updateDbEngine h]
  refine lawful_of_stored (fun e' he' => ?_) rfl rfl
  rw [h] at he'
  cases he'

/-- The storages that have been opened. -/
def openings (s : Inst) : List DatabaseEngine :=
  s.marks.filterMap fun m =>
    match m with
    | .opened e => some e
    | .stored _ => none

/-- The engine is set, and has been stored if it was not set before. -/
structure Chosen (s t : Inst) (e : DatabaseEngine) : Prop where
  engine : t.databaseEngine = some e
  law    : lawful.rel s t
  same   : openings t = openings s

/-- An engine that is there is chosen. -/
theorem chosen_self {s : Inst} {e : DatabaseEngine} (h : s.databaseEngine = some e) :
    Chosen s s e := ⟨h, lawful.refl s, rfl⟩

/-- One that is set is. -/
theorem chosen_updateDbEngine {s : Inst} (h : s.databaseEngine = none) (e : DatabaseEngine) :
    ∃ t, (updateDbEngine e).exec s = (.ok (), t) ∧ Chosen s t e := by
  have hlawful := lawful_updateDbEngine h e
  have hexec := exec_updateDbEngine h e
  rw [hexec] at hlawful
  exact ⟨_, hexec, rfl, hlawful, by simp [openings]⟩

/-- For the legacy interface it is SQLite, or the start fails. -/
theorem chooseLegacy_cases (s : Inst) :
    chooseLegacy.exec s = (.error { cls := .runtimeError }, s) ∨
    ∃ t, chooseLegacy.exec s = (.ok (), t) ∧ Chosen s t .sqlite := by
  unfold chooseLegacy
  rw [exec_get_bind]
  cases h : s.databaseEngine with
  | none => exact .inr (chosen_updateDbEngine h .sqlite)
  | some e =>
    cases e with
    | postgres => exact .inl rfl
    | sqlite => exact .inr ⟨s, rfl, chosen_self h⟩

/-- For asyncpg it is the one that is there, or the one that fits. -/
theorem chooseAsyncpg_cases (sqliteDbExists : Bool) (s : Inst) :
    ∃ t e, (chooseAsyncpg sqliteDbExists).exec s = (.ok (), t) ∧ Chosen s t e := by
  unfold chooseAsyncpg
  rw [exec_get_bind]
  cases h : s.databaseEngine with
  | some e => exact ⟨s, e, rfl, chosen_self h⟩
  | none =>
    by_cases hfile : (sqliteDbExists || !s.pluginPostgresDb) = true
    · obtain ⟨t, hexec, hchosen⟩ := chosen_updateDbEngine h .sqlite
      exact ⟨t, .sqlite, by simp only [if_pos hfile, hexec], hchosen⟩
    · obtain ⟨t, hexec, hchosen⟩ := chosen_updateDbEngine h .postgres
      exact ⟨t, .postgres, by simp only [if_neg hfile, hexec], hchosen⟩

/-- The database object is made or not. -/
theorem setInstDb_cases (create : Option PyExc) (db : InstDb) (s : Inst) :
    (∃ x, (setInstDb create db).exec s = (.error x, s)) ∨
    (setInstDb create db).exec s = (.ok (), { s with instDb := some db }) := by
  cases create with
  | none => exact .inr rfl
  | some x => exact .inl ⟨x, rfl⟩

/-- The object that is made is one of the engine. -/
theorem createAsyncpg_cases (create : Option PyExc) {s : Inst} {e : DatabaseEngine}
    (h : s.databaseEngine = some e) :
    (∃ x, (createAsyncpg create).exec s = (.error x, s)) ∨
    ∃ db, engineOf db = e ∧
      (createAsyncpg create).exec s = (.ok db, { s with instDb := some db }) := by
  unfold createAsyncpg
  rw [exec_get_bind]
  cases e with
  | postgres =>
    rw [if_pos h]
    by_cases hpg : s.pluginPostgresDb = true
    · rw [if_pos hpg]
      rcases setInstDb_cases create .postgres s with ⟨x, hexec⟩ | hexec
      · exact .inl ⟨x, exec_bind_error hexec⟩
      · exact .inr ⟨.postgres, rfl, exec_bind_ok hexec⟩
    · rw [if_neg hpg]
      exact .inl ⟨_, rfl⟩
  | sqlite =>
    rw [if_neg (by rw [h]; decide)]
    rcases setInstDb_cases create .sqlite s with ⟨x, hexec⟩ | hexec
    · exact .inl ⟨x, exec_bind_error hexec⟩
    · exact .inr ⟨.sqlite, rfl, exec_bind_ok hexec⟩

/-- Once it is started, the engine has been opened, whatever comes of it. -/
theorem startInstDb_cases (env : DatabaseEnv) (db : InstDb) (s : Inst) :
    (∃ x, (startInstDb env db).exec s = (.error x, s)) ∨
    ∃ r, (startInstDb env db).exec s =
      (r, { s with marks := s.marks ++ [.opened (engineOf db)] }) := by
  unfold startInstDb
  cases env.connect with
  | some x => exact .inl ⟨x, rfl⟩
  | none =>
    cases env.upgrade with
    | some x => exact .inr ⟨.error x, rfl⟩
    | none => exact .inr ⟨.ok (), rfl⟩

/-- What one `start_database` opens: a storage of the engine that is set then, or it raises
    before it opens anything. -/
def OpensEngine (s : Inst) (actuallyStart : Bool) (r : Except PyExc Unit × Inst) : Prop :=
  (∃ e, r.2.databaseEngine = some e ∧ openings r.2 = openings s ++ [e]) ∨
  (openings r.2 = openings s ∧ (actuallyStart = true → ∃ x, r.1 = .error x))

/-- A choice, and nothing opened. -/
theorem Chosen.unopened {s t u : Inst} {e : DatabaseEngine} (h : Chosen s t e)
    (he : u.databaseEngine = t.databaseEngine) (hr : u.row = t.row) (hm : u.marks = t.marks) :
    lawful.rel s u ∧ openings u = openings s := by
  refine ⟨lawful.trans h.law (lawful_of_same he hr hm), ?_⟩
  rw [← h.same, openings, openings, hm]

/-- A choice, and a storage of the engine opened. -/
theorem Chosen.opened {s t u : Inst} {e : DatabaseEngine} (h : Chosen s t e)
    (he : u.databaseEngine = t.databaseEngine) (hr : u.row = t.row)
    (hm : u.marks = t.marks ++ [.opened e]) :
    lawful.rel s u ∧ u.databaseEngine = some e ∧ openings u = openings s ++ [e] := by
  refine ⟨lawful.trans h.law (lawful_of_opened h.engine he hr hm), he.trans h.engine, ?_⟩
  rw [← h.same, openings, openings, hm, List.filterMap_append]
  rfl

/-- **One `start_database`**, from any state. -/
theorem startDatabase_spec (env : DatabaseEnv) (actuallyStart : Bool) (s : Inst) :
    lawful.rel s ((startDatabase env actuallyStart).exec s).2 ∧
      OpensEngine s actuallyStart ((startDatabase env actuallyStart).exec s) := by
  unfold startDatabase
  rw [exec_get_bind]
  cases s.databaseType with
  | unrecognized v => exact ⟨lawful.refl s, .inr ⟨rfl, fun _ => ⟨_, rfl⟩⟩⟩
  -- the legacy engine is created open
  | sqlalchemy =>
    rcases chooseLegacy_cases s with hexec | ⟨t, hexec, hchosen⟩
    · rw [exec_bind_error hexec]
      exact ⟨lawful.refl s, .inr ⟨rfl, fun _ => ⟨_, rfl⟩⟩⟩
    · rw [exec_bind_ok hexec]
      rcases setInstDb_cases env.create .engine t with ⟨x, hset⟩ | hset
      · rw [exec_bind_error hset]
        have hun := hchosen.unopened rfl rfl rfl
        exact ⟨hun.1, .inr ⟨hun.2, fun _ => ⟨x, rfl⟩⟩⟩
      · rw [exec_bind_ok hset]
        have hop := hchosen.opened (u := ((opens .engine).exec { t with instDb := some .engine }).2)
          rfl rfl rfl
        exact ⟨hop.1, .inl ⟨.sqlite, hop.2⟩⟩
  -- the engine is chosen first; the database opens only if it is started too
  | asyncpg =>
    obtain ⟨t, e, hexec, hchosen⟩ := chooseAsyncpg_cases env.sqliteDbExists s
    dsimp only
    rw [exec_bind_ok hexec]
    rcases createAsyncpg_cases env.create hchosen.engine with ⟨x, hcreate⟩ | ⟨db, rfl, hcreate⟩
    · rw [exec_bind_error hcreate]
      have hun := hchosen.unopened rfl rfl rfl
      exact ⟨hun.1, .inr ⟨hun.2, fun _ => ⟨x, rfl⟩⟩⟩
    · rw [exec_bind_ok hcreate]
      have hun := hchosen.unopened (u := { t with instDb := some db }) rfl rfl rfl
      cases actuallyStart with
      | false => exact ⟨hun.1, .inr ⟨hun.2, nofun⟩⟩
      | true =>
        rw [when, if_pos rfl]
        rcases startInstDb_cases env db { t with instDb := some db } with
          ⟨x, hstart⟩ | ⟨r, hstart⟩
        · rw [hstart]
          exact ⟨hun.1, .inr ⟨hun.2, fun _ => ⟨x, rfl⟩⟩⟩
        · rw [hstart]
          have hop := hchosen.opened (u := { t with
            instDb := some db, marks := t.marks ++ [.opened (engineOf db)] }) rfl rfl rfl
          exact ⟨hop.1, .inl ⟨engineOf db, hop.2⟩⟩

/-- Hence the database is started by the law. -/
theorem lawful_startDatabase (env : DatabaseEnv) (actuallyStart : Bool) :
    Keeps lawful (startDatabase env actuallyStart) :=
  fun s => (startDatabase_spec env actuallyStart s).1

/-- It is deleted by the law, -/
theorem lawful_deleteDatabase (env : DatabaseEnv) (remove : Option PyExc) :
    Keeps lawful (deleteDatabase env remove) := by
  have hclear : Keeps lawful (modify fun s : Inst => { s with instDb := none } : Call Unit) :=
    keeps_modify fun _ => lawful_of_same rfl rfl rfl
  refine keeps_bind (keeps_bind keeps_get fun s => ?_) fun _ => hclear
  cases s.databaseType with
  | sqlalchemy => exact keeps_raiseIf _
  | asyncpg =>
    exact keeps_bind (keeps_when (lawful_startDatabase env false)) fun _ => keeps_raiseIf _
  | unrecognized v => exact keeps_throw _

/-- opened in a start, -/
theorem lawful_openDatabase (env : StartEnv) : Keeps lawful (openDatabase env) := by
  refine keeps_bind keeps_get fun s => keeps_ite ?_ (keeps_pure _)
  refine keeps_bind (keeps_attempt (keeps_bind (keeps_raiseIf _) fun _ =>
    lawful_startDatabase env.database true) _) fun r => ?_
  cases r with
  | ok _ => exact keeps_pure _
  | error _ => exact keeps_bind (lawful_updateEnabled false) fun _ => keeps_pure _

/-- in all of it, -/
theorem lawful_start (env : StartEnv) : Keeps lawful (start env) := by
  refine keeps_bind keeps_get fun s =>
    keeps_ite (keeps_pure _) (keeps_ite (keeps_pure _) ?_)
  refine keeps_bind (keeps_raiseIf _) fun _ => keeps_bind (lawful_openDatabase env) fun opened =>
    keeps_ite ?_ (keeps_pure _)
  refine keeps_bind (keeps_raiseIf _) fun _ =>
    keeps_bind (keeps_attempt (keeps_raiseIf _) _) fun r => ?_
  cases r with
  | ok _ => exact keeps_modify fun _ => lawful_of_same rfl rfl rfl
  | error _ => exact lawful_updateEnabled false

/-- The engine is read back from the row. -/
theorem lawful_restart (pluginPostgresDb database : Bool) (databaseType : DatabaseType)
    (enabled : Bool) : Keeps lawful (restart pluginPostgresDb database databaseType enabled) := by
  intro s hs
  unfold restart
  rw [exec_get_bind, hs, fromRow_databaseEngineStr]
  exact lawful_of_same rfl rfl rfl hs

/-- **Every call is lawful.** -/
theorem lawful_call (e : Event) : Keeps lawful e.call := by
  have hstop : Keeps lawful InstanceEngine.stop :=
    keeps_modify fun _ => lawful_of_same rfl rfl rfl
  have hplugin : ∀ database type, Keeps lawful (setPlugin database type) :=
    fun _ _ => keeps_modify fun _ => lawful_of_same rfl rfl rfl
  cases e with
  | start env => exact lawful_start env
  | stop => exact hstop
  | updateEnabled enabled => exact lawful_updateEnabled enabled
  | reload database type => exact hplugin database type
  | updateType database type env =>
    exact keeps_bind hstop fun _ => keeps_bind (hplugin database type) fun _ =>
      keeps_bind lawful_update fun _ => lawful_start env
  | update => exact lawful_update
  | deleteDatabase env remove => exact lawful_deleteDatabase env remove
  | restart pg database type enabled => exact lawful_restart pg database type enabled

/-- and in every history. -/
theorem lawful_run (es : List Event) (s : Inst) : lawful.rel s (run es s) := by
  induction es generalizing s with
  | nil => exact lawful.refl s
  | cons e es ih => exact lawful.trans (lawful_call e s) (ih (step e s))

/-- An instance as it is loaded from its row. -/
def loaded (databaseEngine : Option DatabaseEngine) (pluginPostgresDb database : Bool)
    (databaseType : DatabaseType) (enabled : Bool) : Inst :=
  { database, databaseType, pluginPostgresDb, databaseEngine, enabled,
    row := databaseEngineStr databaseEngine }

/-- **The engine of an instance.**  After any history it is set for ever, in memory and in the
    row; it has been stored before a storage is opened, and what is opened is of it. -/
theorem engine_kept (databaseEngine : Option DatabaseEngine) (pluginPostgresDb database : Bool)
    (databaseType : DatabaseType) (enabled : Bool) (es : List Event) :
    let s := run es (loaded databaseEngine pluginPostgresDb database databaseType enabled)
    (∀ e es', s.databaseEngine = some e → (run es' s).databaseEngine = some e) ∧
    (∀ e es', s.row = databaseEngineStr (some e) →
      (run es' s).row = databaseEngineStr (some e)) ∧
    (∀ l e r, s.marks = l ++ .opened e :: r →
      s.databaseEngine = some e ∧ (databaseEngine = some e ∨ .stored (some e) ∈ l)) ∧
    ∀ env actuallyStart,
      OpensEngine s actuallyStart ((startDatabase env actuallyStart).exec s) := by
  intro s
  have hlaw := lawful_run es (loaded databaseEngine pluginPostgresDb database databaseType enabled)
    rfl
  have hrun : ∀ es', Law s (run es' s) := fun es' => lawful_run es' s hlaw.consistent
  refine ⟨fun e es' he => (hrun es').kept e he, fun e es' hrow => ?_, fun l e r heq => ?_,
    fun env actuallyStart => (startDatabase_spec env actuallyStart s).2⟩
  · have he : s.databaseEngine = some e :=
      databaseEngineStr_inj.mp (hlaw.consistent.symm.trans hrow)
    rw [(hrun es').consistent, (hrun es').kept e he]
  · obtain ⟨new, hnew, hopened, -⟩ := hlaw.marks
    exact hopened l e r (hnew.symm.trans heq)

end Maubot.InstanceEngine
