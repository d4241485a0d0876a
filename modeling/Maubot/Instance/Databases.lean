import Maubot.Instance.Storage
import Maubot.Lib.Runs

namespace Maubot

/-!
# Plugin instances — the life of a database

One instance, with what its calls do to the storages: `start_database` opens the schema that the
current id names, or the file that the URL of its path denotes, `update_id` changes the id, `delete`
removes the schema that `inst_db` stands for or the file at the path, and a restart of the program
forgets `inst_db`.

* `step` — the calls, a reload of the plugin and a restart;
* `Kept` — every start opened one storage, and after `delete` it is gone;
* `kept_of_careful` — the runs in which that is so, and how each other run breaks it.
-/

namespace InstanceStorage

open OsPath

/-- The configuration, and how the libraries read URLs. -/
structure Databases where
  /-- `plugin_databases.sqlite` -/
  directory        : List Char
  /-- whether `plugin_postgres_db` is configured -/
  pluginPostgresDb : Bool
  urls             : SqliteUrls

/-- How far `start_database` gets with the object for the database: creating it raises, its
    start raises before there is a storage, or the storage is there. -/
inductive Opening
  | refused
  | unopened
  | opened
  deriving DecidableEq, Repr

/-- What a `delete` meets: whether `stop_database` raises, whether the file cannot be removed,
    and whether `DROP SCHEMA` fails, which is logged. -/
structure Removal where
  stopRaises  : Bool := false
  trashRaises : Bool := false
  dropFails   : Bool := false
  deriving DecidableEq, Repr

inductive Event
  | start (opening : Opening)
  | stop
  | reload (type : DatabaseType)
  /-- an `update_id` that is accepted -/
  | rename (newId : List Char)
  /-- the program stops and starts again -/
  | restart
  | delete (removal : Removal)
  deriving DecidableEq, Repr

/-- The instance and the storages. -/
structure Stored where
  id        : List Char
  /-- `loader.meta.database_type` -/
  type      : DatabaseType
  /-- `database_engine`, of the object and of its row -/
  engine    : Option DatabaseEngine
  /-- `inst_db`: its class, and the storage it was made for -/
  instDb    : Option (InstDb × Storage) := none
  present   : Storage → Bool
  /-- not in the source: the storages that were opened, and whether `delete` was called and
      completed -/
  opened    : List Storage := []
  deleted   : Bool := false
  completed : Bool := false

namespace Stored

variable (cfg : Databases)

/-- The file at `_sqlite_db_path` -/
def file (v : Stored) : Storage := .file (normpath (sqliteDbPath cfg.directory v.id))

/-- The storage that an object of this class uses, made for the id. -/
def storageOf (v : Stored) (db : InstDb) : Storage := usedStorage cfg.urls cfg.directory db v.id

def setInstDb (v : Stored) (db : InstDb) (s : Storage) (opening : Opening) : Stored :=
  match opening with
  | .refused  => v
  | .unopened => { v with instDb := some (db, s) }
  | .opened   =>
    { v with instDb  := some (db, s),
             present := Function.update v.present s true,
             opened  := v.opened ++ [s] }

/-- `database_engine`, set where it was not. -/
def chosenEngine (v : Stored) : DatabaseEngine :=
  match v.engine with
  | some e => e
  | none   => if v.present (v.file cfg) || !cfg.pluginPostgresDb then .sqlite else .postgres

def startDatabase (v : Stored) (opening : Opening) : Stored :=
  match v.type with
  | .sqlalchemy     =>
    match v.engine with
    | some .postgres      => v
    | some .sqlite | none =>
      { v with engine := some .sqlite }.setInstDb .engine (v.storageOf cfg .engine) opening
  | .asyncpg        =>
    let e := v.chosenEngine cfg
    let v := { v with engine := some e }
    match e with
    | .postgres =>
      if cfg.pluginPostgresDb then v.setInstDb .postgres (v.storageOf cfg .postgres) opening else v
    | .sqlite   => v.setInstDb .sqlite (v.storageOf cfg .sqlite) opening
  | .unrecognized _ => v

/-- `ZippedPluginLoader.trash(self._sqlite_db_path)`; whether it returned -/
def trash (v : Stored) (removal : Removal) : Stored × Bool :=
  if removal.trashRaises then (v, false)
  else ({ v with instDb := none, present := Function.update v.present (v.file cfg) false }, true)

/-- `delete_database` -/
def deleteDatabase (v : Stored) (removal : Removal) : Stored × Bool :=
  match v.type with
  | .sqlalchemy     => v.trash cfg removal
  | .asyncpg        =>
    let v := if v.instDb.isNone then v.startDatabase cfg .unopened else v
    match v.instDb with
    | some (.postgres, s) =>
      if removal.dropFails then ({ v with instDb := none }, true)
      else ({ v with instDb := none, present := Function.update v.present s false }, true)
    | _                   => v.trash cfg removal
  | .unrecognized _ => (v, false)

/-- `delete`, from where the row is gone. -/
def delete (v : Stored) (removal : Removal) : Stored × Bool :=
  if v.instDb.isSome then
    if removal.stopRaises then (v, false) else v.deleteDatabase cfg removal
  else (v, true)

def step (e : Event) (v : Stored) : Stored :=
  if v.deleted then v
  else
    match e with
    | .start opening  => v.startDatabase cfg opening
    | .stop           => v
    | .reload type    => { v with type := type }
    | .rename newId   => { v with id := newId }
    | .restart        => { v with instDb := none }
    | .delete removal =>
      let (v', returned) := v.delete cfg removal
      { v' with deleted := true, completed := returned }

/-- Nothing has been opened yet. -/
structure Fresh (v : Stored) : Prop where
  instDb    : v.instDb = none
  opened    : v.opened = []
  deleted   : v.deleted = false
  completed : v.completed = false

/-- **One storage.**  Every start opened the storage of the earlier ones, and when `delete` has
    completed, nothing that was opened is there. -/
structure Kept (v : Stored) : Prop where
  same : ∀ s ∈ v.opened, ∀ s' ∈ v.opened, s = s'
  gone : v.completed = true → ∀ s ∈ v.opened, v.present s = false

/-- A start that makes an object for a file makes it for the file at the path: so it is if the path
    has none of `urlCharacters`. -/
def OpensPath (v : Stored) : Prop :=
  match v.type with
  | .sqlalchemy     => v.engine ≠ some .postgres → v.storageOf cfg .engine = v.file cfg
  | .asyncpg        => v.chosenEngine cfg = .sqlite → v.storageOf cfg .sqlite = v.file cfg
  | .unrecognized _ => True

/-- A rename leaves the name of the storage as it is, once there is one. -/
def KeepsName (v : Stored) (newId : List Char) : Prop :=
  v.opened ≠ [] → ∀ e, v.engine = some e →
    storage cfg.directory e newId = storage cfg.directory e v.id

/-- A `delete` of what has a storage finds `inst_db`, and does not take a schema for a file or
    fail to drop it. -/
def Removes (v : Stored) (removal : Removal) : Prop :=
  v.opened ≠ [] → v.instDb.isSome = true ∧ (v.engine = some .postgres →
    v.type ≠ .sqlalchemy ∧ (v.type = .asyncpg → removal.dropFails = false))

def Careful (v : Stored) (e : Event) : Prop :=
  match e with
  | .start _        => v.deleted = false → OpensPath cfg v
  | .rename newId   => v.deleted = false → KeepsName cfg v newId
  | .delete removal => v.deleted = false → Removes v removal
  | _               => True

/-! ### The storage of the id -/

/-- Before its deletion: what was opened is the storage of the id, and is there, and `inst_db`
    stands for it. -/
structure Named (v : Stored) : Prop where
  opened    : v.opened ≠ [] → ∃ e, v.engine = some e ∧
    (e = .postgres → cfg.pluginPostgresDb = true) ∧
      ∀ s ∈ v.opened, s = storage cfg.directory e v.id ∧ v.present s = true
  instDb    : ∀ db s, v.instDb = some (db, s) → ∃ e, v.engine = some e ∧
    (db = .postgres ↔ e = .postgres) ∧ (v.opened ≠ [] → s = storage cfg.directory e v.id)
  completed : v.completed = false

variable {cfg} {v : Stored}

/-- What `start_database` does: nothing, or it makes the object for the storage of the id with
    the engine that is set now. -/
theorem startDatabase_cases (h : OpensPath cfg v) (opening : Opening) :
    v.startDatabase cfg opening = v ∨ ∃ e db o, (v.engine = none ∨ v.engine = some e) ∧
      (db = InstDb.postgres ↔ e = DatabaseEngine.postgres) ∧
      (o ≠ Opening.refused → e = .postgres → cfg.pluginPostgresDb = true) ∧
      v.startDatabase cfg opening = { v with engine := some e }.setInstDb db
        (storage cfg.directory e v.id) o := by
  unfold OpensPath at h
  unfold startDatabase
  cases htype : v.type with
  -- the legacy interface opens the file, unless the engine is Postgres
  | sqlalchemy =>
    rw [htype] at h
    cases he : v.engine with
    | none =>
      have hfile : v.storageOf cfg .engine = storage cfg.directory .sqlite v.id :=
        h (by rw [he]; nofun)
      exact .inr ⟨.sqlite, .engine, opening, .inl rfl, by decide, nofun, by rw [← hfile]⟩
    | some e =>
      cases e with
      | sqlite =>
        have hfile : v.storageOf cfg .engine = storage cfg.directory .sqlite v.id :=
          h (by rw [he]; nofun)
        exact .inr ⟨.sqlite, .engine, opening, .inr rfl, by decide, nofun, by rw [← hfile]⟩
      | postgres => exact .inl rfl
  -- the other one chooses an engine where the row has none
  | asyncpg =>
    rw [htype] at h
    have hengine : v.engine = none ∨ v.engine = some (v.chosenEngine cfg) := by
      unfold chosenEngine
      cases v.engine with
      | none => exact .inl rfl
      | some e => exact .inr rfl
    right
    cases hc : v.chosenEngine cfg with
    | sqlite =>
      have hfile : v.storageOf cfg .sqlite = storage cfg.directory .sqlite v.id := h hc
      refine ⟨.sqlite, .sqlite, opening, hc ▸ hengine, by decide, nofun, ?_⟩
      rw [← hfile]
      rfl
    | postgres =>
      by_cases hp : cfg.pluginPostgresDb = true
      · refine ⟨.postgres, .postgres, opening, hc ▸ hengine, by decide, fun _ _ => hp, ?_⟩
        simp only [hp, if_true]
        rfl
      · -- without a Postgres database for plugins the start is refused
        refine ⟨.postgres, .postgres, .refused, hc ▸ hengine, by decide, fun h => absurd rfl h, ?_⟩
        simp only [if_neg hp]
        rfl
  | unrecognized value => exact .inl rfl

/-- A database that is made has the name of the instance. -/
theorem Named.setInstDb (h : Named cfg v) {e : DatabaseEngine} {db : InstDb} {o : Opening}
    (he : v.engine = none ∨ v.engine = some e) (hdb : db = .postgres ↔ e = .postgres)
    (hp : o ≠ .refused → e = .postgres → cfg.pluginPostgresDb = true) :
    Named cfg ({ v with engine := some e }.setInstDb db (storage cfg.directory e v.id) o) := by
  obtain ⟨hopened, hinst, hcompleted⟩ := h
  -- what was opened before was opened with this engine
  have hold : v.opened ≠ [] → (e = .postgres → cfg.pluginPostgresDb = true) ∧
      ∀ s ∈ v.opened, s = storage cfg.directory e v.id ∧ v.present s = true := by
    intro hne
    obtain ⟨e', he', hp', hs⟩ := hopened hne
    rcases he with he | he
    · rw [he] at he'
      cases he'
    · obtain rfl : e = e' := Option.some.inj (he.symm.trans he')
      exact ⟨hp', hs⟩
  cases o with
  | refused =>
    refine ⟨fun hne => ⟨e, rfl, hold hne⟩, fun db' s hi => ?_, hcompleted⟩
    obtain ⟨e', he', hdb', hs⟩ := hinst db' s hi
    rcases he with he | he
    · rw [he] at he'
      cases he'
    · obtain rfl : e = e' := Option.some.inj (he.symm.trans he')
      exact ⟨e, rfl, hdb', hs⟩
  | unopened =>
    refine ⟨fun hne => ⟨e, rfl, hold hne⟩, fun db' s hi => ?_, hcompleted⟩
    obtain ⟨rfl, rfl⟩ : db = db' ∧ storage cfg.directory e v.id = s :=
      Prod.mk.inj (Option.some.inj hi)
    exact ⟨e, rfl, hdb, fun _ => rfl⟩
  | opened =>
    refine ⟨fun _ => ⟨e, rfl, hp nofun, fun s hs => ?_⟩, fun db' s hi => ?_, hcompleted⟩
    · have hpresent : Function.update v.present (storage cfg.directory e v.id) true
          (storage cfg.directory e v.id) = true := Function.update_self _ _ _
      rcases List.mem_append.mp hs with hs | hs
      · obtain ⟨rfl, -⟩ := (hold (List.ne_nil_of_mem hs)).2 s hs
        exact ⟨rfl, hpresent⟩
      · obtain rfl := List.mem_singleton.mp hs
        exact ⟨rfl, hpresent⟩
    · obtain ⟨rfl, rfl⟩ : db = db' ∧ storage cfg.directory e v.id = s :=
        Prod.mk.inj (Option.some.inj hi)
      exact ⟨e, rfl, hdb, fun _ => rfl⟩

/-- A start that opens the path keeps the storage. -/
theorem Named.startDatabase (h : Named cfg v) (hopens : OpensPath cfg v) (opening : Opening) :
    Named cfg (v.startDatabase cfg opening) := by
  rcases startDatabase_cases hopens opening with he | ⟨e, db, o, hengine, hdb, hp, he⟩
  · rw [he]
    exact h
  · rw [he]
    exact h.setInstDb hengine hdb hp

/-- So it has after a rename that leads to the same place. -/
theorem Named.rename (h : Named cfg v) {newId : List Char} (hk : KeepsName cfg v newId) :
    Named cfg { v with id := newId } := by
  obtain ⟨hopened, hinst, hcompleted⟩ := h
  refine ⟨fun hne => ?_, fun db s hi => ?_, hcompleted⟩
  · obtain ⟨e, he, hp, hs⟩ := hopened hne
    refine ⟨e, he, hp, fun s hmem => ?_⟩
    rw [hk hne e he]
    exact hs s hmem
  · obtain ⟨e, he, hdb, hs⟩ := hinst db s hi
    refine ⟨e, he, hdb, fun hne => ?_⟩
    rw [hk hne e he]
    exact hs hne

/-! ### Deletion -/

/-- A file that goes to the trash is gone. -/
theorem trash_completed {removal : Removal} (h : (v.trash cfg removal).2 = true) :
    (v.trash cfg removal).1.present = Function.update v.present (v.file cfg) false := by
  unfold trash at h ⊢
  split
  · next ht => rw [if_pos ht] at h; cases h
  · rfl

/-- What was opened is not forgotten by that. -/
theorem trash_opened (v : Stored) (removal : Removal) :
    (v.trash cfg removal).1.opened = v.opened := by
  unfold trash
  split <;> rfl

/-- The condition of `Removes`, for an instance whose object is there. -/
theorem removes_iff (hne : v.opened ≠ []) (hi : v.instDb.isSome = true) {e : DatabaseEngine}
    (he : v.engine = some e) (removal : Removal) : Removes v removal ↔ (e = .postgres →
      v.type ≠ .sqlalchemy ∧ (v.type = .asyncpg → removal.dropFails = false)) := by
  constructor
  · rintro hr rfl
    exact (hr hne).2 he
  · intro h _
    exact ⟨hi, fun hp => h (Option.some.inj (he.symm.trans hp))⟩

/-- A deletion that completes removes the storage. -/
theorem deleteDatabase_completed {db : InstDb} {e : DatabaseEngine} (hne : v.opened ≠ [])
    (he : v.engine = some e) (hdb : db = .postgres ↔ e = .postgres)
    (hi : v.instDb = some (db, storage cfg.directory e v.id))
    (hpresent : v.present (storage cfg.directory e v.id) = true) {removal : Removal}
    (hc : (v.deleteDatabase cfg removal).2 = true) :
    (v.deleteDatabase cfg removal).1.opened = v.opened ∧
      ((Removes v removal ∧ (v.deleteDatabase cfg removal).1.present =
          Function.update v.present (storage cfg.directory e v.id) false) ∨
        (¬ Removes v removal ∧
          (v.deleteDatabase cfg removal).1.present (storage cfg.directory e v.id) = true)) := by
  rw [removes_iff hne (by rw [hi]; rfl) he]
  -- a file is removed if the engine is SQLite, else the schema stays
  have htrash : (v.trash cfg removal).2 = true → e = .sqlite →
      (v.trash cfg removal).1.present =
        Function.update v.present (storage cfg.directory e v.id) false := by
    rintro ht rfl
    exact trash_completed ht
  unfold deleteDatabase at hc ⊢
  cases ht : v.type with
  | sqlalchemy =>
    simp only [ht] at hc ⊢
    refine ⟨trash_opened v removal, ?_⟩
    cases e with
    | sqlite => exact .inl ⟨nofun, htrash hc rfl⟩
    | postgres =>
      refine .inr ⟨fun h => (h rfl).1 rfl, ?_⟩
      rw [trash_completed hc]
      have hschema : storage cfg.directory .postgres v.id ≠ v.file cfg := nofun
      exact (Function.update_of_ne hschema _ _).trans hpresent
  | asyncpg =>
    simp only [ht, hi, Option.isNone_some, Bool.false_eq_true, if_false] at hc ⊢
    cases db with
    | postgres =>
      obtain rfl : e = .postgres := hdb.mp rfl
      dsimp only at hc ⊢
      by_cases hd : removal.dropFails = true
      · rw [if_pos hd]
        refine ⟨rfl, .inr ⟨fun h => ?_, hpresent⟩⟩
        rw [(h rfl).2 trivial] at hd
        cases hd
      · rw [if_neg hd]
        exact ⟨rfl, .inl ⟨fun _ => ⟨nofun, fun _ => by simpa using hd⟩, rfl⟩⟩
    | sqlite | engine =>
      have hsqlite : e = .sqlite := by
        cases e with
        | sqlite => rfl
        | postgres => exact absurd (hdb.mpr rfl) nofun
      refine ⟨trash_opened v removal, .inl ⟨fun hp => ?_, htrash hc hsqlite⟩⟩
      rw [hsqlite] at hp
      cases hp
  | unrecognized value =>
    simp only [ht] at hc
    cases hc

/-- What a `delete` that completes takes away, where something was opened. -/
theorem delete_completed (h : Named cfg v) (hne : v.opened ≠ []) {removal : Removal}
    (hc : (v.delete cfg removal).2 = true) :
    (v.delete cfg removal).1.opened = v.opened ∧ ∃ e, v.engine = some e ∧
      ((Removes v removal ∧ (v.delete cfg removal).1.present =
          Function.update v.present (storage cfg.directory e v.id) false) ∨
        (¬ Removes v removal ∧
          (v.delete cfg removal).1.present (storage cfg.directory e v.id) = true)) := by
  obtain ⟨e, he, -, hs⟩ := h.opened hne
  obtain ⟨s₀, hs₀⟩ := List.exists_mem_of_ne_nil _ hne
  have hpresent : v.present (storage cfg.directory e v.id) = true := by
    obtain ⟨rfl, hp⟩ := hs s₀ hs₀
    exact hp
  unfold delete at hc ⊢
  cases hi : v.instDb with
  -- no object in memory: nothing is removed
  | none =>
    refine ⟨rfl, e, he, .inr ⟨fun hr => ?_, hpresent⟩⟩
    have := (hr hne).1
    rw [hi] at this
    cases this
  | some p =>
    obtain ⟨db, s⟩ := p
    obtain ⟨e', he', hdb, hname⟩ := h.instDb db s hi
    obtain rfl : e = e' := Option.some.inj (he.symm.trans he')
    rw [hname hne] at hi
    simp only [hi, Option.isSome_some, if_true] at hc ⊢
    -- a stop that raises ends the deletion
    by_cases hstop : removal.stopRaises = true
    · rw [if_pos hstop] at hc
      cases hc
    · rw [if_neg hstop] at hc ⊢
      obtain ⟨hopened, hor⟩ := deleteDatabase_completed hne he hdb hi hpresent hc
      exact ⟨hopened, e, he, hor⟩

/-- It does not forget what was opened either. -/
theorem delete_opened (cfg : Databases) (v : Stored) (removal : Removal) :
    (v.delete cfg removal).1.opened = v.opened := by
  unfold delete
  split
  · next hi =>
    split
    · rfl
    · have hnone : v.instDb.isNone = false := by simpa using hi
      unfold deleteDatabase
      cases v.type with
      | sqlalchemy => exact trash_opened v removal
      | unrecognized value => rfl
      | asyncpg =>
        simp only [hnone, Bool.false_eq_true, if_false]
        split
        · split <;> rfl
        · exact trash_opened v removal
  · rfl

/-! ### Runs -/

/-- Either the instance is not deleted and its storage is that of its id, or it is deleted and
    its storage is gone. -/
def Proper (cfg : Databases) (v : Stored) : Prop :=
  (v.deleted = false ∧ Named cfg v) ∨ (v.deleted = true ∧ Kept v)

/-- What is named is kept, -/
theorem Named.kept (h : Named cfg v) : Kept v := by
  refine ⟨fun s hs s' hs' => ?_, fun hc => ?_⟩
  · obtain ⟨e, -, -, hall⟩ := h.opened (List.ne_nil_of_mem hs)
    rw [(hall s hs).1, (hall s' hs').1]
  · rw [h.completed] at hc
    cases hc

/-- and so is what is proper. -/
theorem Proper.kept (h : Proper cfg v) : Kept v := by
  rcases h with ⟨-, h⟩ | ⟨-, h⟩
  · exact h.kept
  · exact h

/-- A fresh instance is proper. -/
theorem Fresh.proper (h : Fresh v) : Proper cfg v := by
  refine .inl ⟨h.deleted, fun hne => absurd h.opened hne, fun db s hi => ?_, h.completed⟩
  rw [h.instDb] at hi
  cases hi

/-- The state after a deletion. -/
theorem step_delete (hd : v.deleted = false) (removal : Removal) :
    step cfg (.delete removal) v =
      { (v.delete cfg removal).1 with deleted := true, completed := (v.delete cfg removal).2 } := by
  simp only [step, hd, Bool.false_eq_true, if_false]

/-- A deletion removes what the instance has opened, -/
theorem proper_delete (h : Named cfg v) (hd : v.deleted = false) {removal : Removal}
    (hr : Removes v removal) : Kept (step cfg (.delete removal) v) := by
  rw [step_delete hd]
  refine ⟨fun s hs s' hs' => ?_, fun hc s hs => ?_⟩
  · have hopened := delete_opened cfg v removal
    rw [show _ = v.opened from hopened] at hs hs'
    exact h.kept.same s hs s' hs'
  · have hs' : s ∈ v.opened := by
      rw [← delete_opened cfg v removal]
      exact hs
    obtain ⟨-, e, he, ⟨-, hpresent⟩ | ⟨hnot, -⟩⟩ := delete_completed h (List.ne_nil_of_mem hs') hc
    · obtain ⟨e', he', -, hall⟩ := h.opened (List.ne_nil_of_mem hs')
      obtain rfl : e = e' := Option.some.inj (he.symm.trans he')
      show (v.delete cfg removal).1.present s = false
      rw [hpresent, (hall s hs').1]
      exact Function.update_self _ _ _
    · exact absurd hr hnot

/-- and every careful step keeps it proper. -/
theorem proper_step (h : Proper cfg v) (e : Event) (hc : Careful cfg v e) :
    Proper cfg (step cfg e v) := by
  rcases h with ⟨hd, h⟩ | ⟨hd, h⟩
  · -- as long as the instance is not deleted its databases have its names
    have hstep : ∀ v' : Stored, v'.deleted = false → Named cfg v' → Proper cfg v' :=
      fun v' hd' h' => .inl ⟨hd', h'⟩
    cases e with
    | start opening =>
      simp only [step, hd, Bool.false_eq_true, if_false]
      refine hstep _ ?_ (h.startDatabase (hc hd) opening)
      rcases startDatabase_cases (hc hd) opening with he | ⟨e, db, o, -, -, -, he⟩
      · rw [he]
        exact hd
      · rw [he]
        cases o <;> exact hd
    | stop => simpa only [step, hd, Bool.false_eq_true, if_false] using hstep v hd h
    | reload type =>
      have he : step cfg (.reload type) v = { v with type := type } := if_neg (by simp [hd])
      rw [he]
      exact hstep _ hd ⟨h.opened, h.instDb, h.completed⟩
    | rename newId =>
      have he : step cfg (.rename newId) v = { v with id := newId } := if_neg (by simp [hd])
      rw [he]
      exact hstep _ hd (h.rename (hc hd))
    | restart =>
      have he : step cfg .restart v = { v with instDb := none } := if_neg (by simp [hd])
      rw [he]
      exact hstep _ hd ⟨h.opened, nofun, h.completed⟩
    | delete removal =>
      refine .inr ⟨?_, proper_delete h hd (hc hd)⟩
      rw [step_delete hd]
  · -- afterwards nothing happens to it
    have hsame : step cfg e v = v := if_pos hd
    rw [hsame]
    exact .inr ⟨hd, h⟩

/-! ### Other steps -/

/-- The class of the object for a file -/
def fileDb : DatabaseType → InstDb
  | .sqlalchemy => .engine
  | _           => .sqlite

/-- Started and deleted, with SQLite: what was opened stays, but for the file at the path. -/
theorem start_delete (hd : v.deleted = false) (he : v.engine = some .sqlite)
    (htype : v.type = .sqlalchemy ∨ v.type = .asyncpg) :
    let v' := step cfg (.delete {}) (step cfg (.start .opened) v)
    v'.completed = true ∧ v'.opened = v.opened ++ [v.storageOf cfg (fileDb v.type)] ∧
      v'.present = Function.update
        (Function.update v.present (v.storageOf cfg (fileDb v.type)) true) (v.file cfg) false := by
  rcases htype with htype | htype <;>
    simp only [step, hd, Bool.false_eq_true, if_false, Stored.startDatabase, chosenEngine, he,
      htype, setInstDb, delete, Option.isSome_some, if_true, deleteDatabase, Option.isNone_some,
      trash, fileDb, true_and]
  · rfl
  · exact ⟨rfl, rfl⟩

/-- A start that makes an object for another file than the one at the path -/
theorem startDatabase_of_not_opensPath (hopens : ¬ OpensPath cfg v) (opening : Opening) :
    (v.type = .sqlalchemy ∨ v.type = .asyncpg) ∧
    v.startDatabase cfg opening = { v with engine := some .sqlite }.setInstDb (fileDb v.type)
      (v.storageOf cfg (fileDb v.type)) opening ∧
    v.storageOf cfg (fileDb v.type) ≠ v.file cfg := by
  unfold OpensPath at hopens
  unfold startDatabase fileDb
  cases htype : v.type with
  | sqlalchemy =>
    rw [htype] at hopens
    obtain ⟨hengine, hne⟩ := Classical.not_imp.mp hopens
    refine ⟨.inl rfl, ?_, hne⟩
    cases he : v.engine with
    | none => rfl
    | some e =>
      cases e with
      | sqlite => rfl
      | postgres => exact absurd he hengine
  | asyncpg =>
    rw [htype] at hopens
    obtain ⟨hengine, hne⟩ := Classical.not_imp.mp hopens
    refine ⟨.inr rfl, ?_, hne⟩
    simp only [hengine]
    rfl
  | unrecognized value =>
    rw [htype] at hopens
    exact absurd trivial hopens

/-- Deleting such an instance leaves the file that a start opens. -/
theorem not_kept_of_start (hd : v.deleted = false) (hopens : ¬ OpensPath cfg v)
    (opening : Opening) : ¬ Kept (step cfg (.delete {})
      (step cfg (.start .opened) (step cfg (.start opening) v))) := by
  obtain ⟨htype, hstart, hne⟩ := startDatabase_of_not_opensPath hopens opening
  have hstep : step cfg (.start opening) v = { v with engine := some .sqlite }.setInstDb
      (fileDb v.type) (v.storageOf cfg (fileDb v.type)) opening := by
    rw [← hstart]
    exact if_neg (by simp [hd])
  -- whatever became of it, the next start makes the same object
  have hsame (w : Stored) (hw : w = step cfg (.start opening) v) : w.engine = some .sqlite ∧
      w.type = v.type ∧ w.id = v.id ∧ w.deleted = false := by
    rw [hw, hstep]
    cases opening <;> exact ⟨rfl, rfl, rfl, hd⟩
  obtain ⟨hengine, htype', hid, hdeleted⟩ := hsame _ rfl
  generalize step cfg (.start opening) v = w at hengine htype' hid hdeleted ⊢
  obtain ⟨hcompleted, hopened, hpresent⟩ := @start_delete cfg _ hdeleted hengine
    (by rw [htype']; exact htype)
  have hstorage : w.storageOf cfg (fileDb w.type) = v.storageOf cfg (fileDb v.type) := by
    rw [storageOf, storageOf, htype', hid]
  have hfile : w.file cfg = v.file cfg := by
    rw [file, file, hid]
  rw [hstorage] at hopened hpresent
  rw [hfile] at hpresent
  intro hkept
  have hgone := hkept.gone hcompleted (v.storageOf cfg (fileDb v.type)) (by rw [hopened]; simp)
  rw [hpresent, Function.update_of_ne hne, Function.update_self] at hgone
  cases hgone

/-- Deleting an instance forgets nothing of what was opened. -/
theorem step_delete_opened (v : Stored) (removal : Removal) :
    (step cfg (.delete removal) v).opened = v.opened := by
  unfold step
  split
  · rfl
  · exact delete_opened cfg v removal

/-- A rename to another name: the next start opens another storage, or deleting the instance leaves
    the file. -/
theorem not_kept_of_rename (h : Named cfg v) (hd : v.deleted = false) {newId : List Char}
    (hk : ¬ KeepsName cfg v newId) : ¬ Kept (step cfg (.delete {}) (step cfg (.start .opened)
      (step cfg (.reload .asyncpg) (step cfg (.rename newId) v)))) := by
  have hne : v.opened ≠ [] := fun hnil => hk fun hne => absurd hnil hne
  obtain ⟨e, he, hp, hall⟩ := h.opened hne
  have hname : storage cfg.directory e newId ≠ storage cfg.directory e v.id := by
    intro heq
    refine hk fun _ e' he' => ?_
    obtain rfl : e = e' := Option.some.inj (he.symm.trans he')
    exact heq
  obtain ⟨s, hs⟩ := List.exists_mem_of_ne_nil _ hne
  obtain ⟨rfl, hpresent⟩ := hall s hs
  have hrenamed : step cfg (.reload .asyncpg) (step cfg (.rename newId) v) =
      { v with id := newId, type := .asyncpg } := by
    simp only [step, hd, Bool.false_eq_true, if_false]
  rw [hrenamed]
  intro hkept
  cases e with
  | sqlite =>
    obtain ⟨hcompleted, hopened, hafter⟩ := @start_delete cfg
      { v with id := newId, type := .asyncpg } hd he (.inr rfl)
    have hgone := hkept.gone hcompleted _ (by rw [hopened]; exact List.mem_append_left _ hs)
    have hfile : ({ v with id := newId, type := .asyncpg } : Stored).file cfg =
        storage cfg.directory .sqlite newId := rfl
    have hdb : fileDb ({ v with id := newId, type := .asyncpg } : Stored).type = .sqlite := rfl
    rw [hafter, hfile, hdb, Function.update_of_ne (Ne.symm hname)] at hgone
    -- the start can only have opened it once more
    by_cases hsame : storage cfg.directory .sqlite v.id =
        ({ v with id := newId, type := .asyncpg } : Stored).storageOf cfg .sqlite
    · rw [← hsame, Function.update_self] at hgone
      cases hgone
    · rw [Function.update_of_ne hsame] at hgone
      have hgone : v.present (storage cfg.directory .sqlite v.id) = false := hgone
      rw [hpresent] at hgone
      cases hgone
  | postgres =>
    have hstarted : (step cfg (.start .opened) { v with id := newId, type := .asyncpg }).opened =
        v.opened ++ [storage cfg.directory .postgres newId] := by
      simp only [step, hd, Bool.false_eq_true, if_false, Stored.startDatabase, chosenEngine, he,
        hp rfl, if_true]
      rfl
    have hopened : (step cfg (.delete {})
        (step cfg (.start .opened) { v with id := newId, type := .asyncpg })).opened =
          v.opened ++ [storage cfg.directory .postgres newId] := by
      rw [← hstarted]
      exact step_delete_opened _ {}
    have hsame := hkept.same _ (by rw [hopened]; exact List.mem_append_left _ hs)
      (storage cfg.directory .postgres newId) (by rw [hopened]; simp)
    exact hname hsame.symm

/-- A `delete` that completes and does not remove the storage. -/
theorem not_kept_of_delete (h : Named cfg v) (hd : v.deleted = false) {removal : Removal}
    (hc : (v.delete cfg removal).2 = true) (hr : ¬ Removes v removal) :
    ¬ Kept (step cfg (.delete removal) v) := by
  have hne : v.opened ≠ [] := fun hnil => hr fun hne => absurd hnil hne
  obtain ⟨hopened, e, he, ⟨hr', -⟩ | ⟨-, hpresent⟩⟩ := delete_completed h hne hc
  · exact absurd hr' hr
  · obtain ⟨e', he', -, hall⟩ := h.opened hne
    obtain rfl : e = e' := Option.some.inj (he.symm.trans he')
    obtain ⟨s, hs⟩ := List.exists_mem_of_ne_nil _ hne
    rw [step_delete hd]
    intro hkept
    have := hkept.gone hc s (by rw [hopened]; exact hs)
    rw [(hall s hs).1] at this
    exact absurd (hpresent.symm.trans this) nofun

/-- **One storage for the life of an instance.**  In every run of careful steps, each start
    opens the storage of the earlier ones and a `delete` that completes leaves nothing of it;
    and the first careless step breaks that: a `delete` at once, a start or a rename when the
    instance is started and deleted. -/
theorem kept_of_careful (cfg : Databases) (v₀ : Stored) (h₀ : Fresh v₀) (v : Stored)
    (h : Reach (step cfg) (Careful cfg) v₀ v) :
    Kept v ∧ (v.deleted = false →
      (∀ opening, ¬ Careful cfg v (.start opening) → ∃ es : List Event,
        ¬ Kept (es.foldl (fun v e => step cfg e v) (step cfg (.start opening) v))) ∧
      (∀ newId, ¬ Careful cfg v (.rename newId) → ∃ es : List Event,
        ¬ Kept (es.foldl (fun v e => step cfg e v) (step cfg (.rename newId) v))) ∧
      ∀ removal, ¬ Careful cfg v (.delete removal) → (v.delete cfg removal).2 = true →
        ¬ Kept (step cfg (.delete removal) v)) := by
  have hproper : Proper cfg v := h.invariant h₀.proper (fun _ e hv he => proper_step hv e he)
  refine ⟨hproper.kept, fun hd => ?_⟩
  have hnamed : Named cfg v := by
    rcases hproper with ⟨-, hnamed⟩ | ⟨hd', -⟩
    · exact hnamed
    · rw [hd] at hd'
      cases hd'
  refine ⟨fun opening hn => ⟨[.start .opened, .delete {}], ?_⟩,
    fun newId hn => ⟨[.reload .asyncpg, .start .opened, .delete {}], ?_⟩, fun removal hn hc => ?_⟩
  · exact not_kept_of_start hd (fun hopens => hn fun _ => hopens) opening
  · exact not_kept_of_rename hnamed hd fun hk => hn fun _ => hk
  · exact not_kept_of_delete hnamed hd hc fun hr => hn fun _ => hr

/-! ### One instance -/

def demo : Databases := ⟨"/dbs".toList, true, cutUrls⟩

/-- Without Postgres -/
def files : Databases := { demo with pluginPostgresDb := false }

def bot : Stored where
  id := "bot".toList
  type := .asyncpg
  engine := none
  present _ := false

/-- The instance of the witness is fresh. -/
theorem bot_fresh : Fresh bot := ⟨rfl, rfl, rfl, rfl⟩

/-- Started, the program restarted, started again, deleted. -/
theorem kept_of_careful_bot :
    let v := [Event.start .opened, .restart, .start .opened, .delete {}].foldl
      (fun v e => step demo e v) bot
    v.opened = [.schema "mbp_bot".toList, .schema "mbp_bot".toList] ∧ Kept v := by
  intro v
  have go : ∀ {v : Stored} (e : Event), Reach (step demo) (Careful demo) bot v →
      Careful demo v e → Reach (step demo) (Careful demo) bot (step demo e v) :=
    fun e h he => h.step e he
  have hpostgres {v : Stored} (htype : v.type = .asyncpg) (he : v.chosenEngine demo = .postgres) :
      Careful demo v (.start .opened) := by
    intro _
    unfold OpensPath
    rw [htype]
    intro hsqlite
    rw [he] at hsqlite
    cases hsqlite
  have h₁ := go (.start .opened) (go .restart (go (.start .opened) .start
    (hpostgres rfl (by decide))) trivial) (hpostgres rfl (by decide))
  have h₂ : Reach (step demo) (Careful demo) bot v :=
    go (.delete {}) h₁ fun _ _ => ⟨rfl, fun _ => ⟨nofun, fun _ => rfl⟩⟩
  exact ⟨by decide, (kept_of_careful demo bot bot_fresh v h₂).1⟩

/-- A rename loses the data, and deleting an instance leaves them if it was not started since the
    program started, or if its id cuts the path short in the URL. -/
theorem storage_lost_and_left :
    (∃ v, Reach (step demo) (fun _ _ => True) bot v ∧
      v.opened = [.schema "mbp_bot".toList, .schema "mbp_new".toList] ∧ ¬ Kept v) ∧
    (∃ v, Reach (step demo) (fun _ _ => True) bot v ∧ v.completed = true ∧
      v.opened = [.schema "mbp_bot".toList] ∧
      v.present (.schema "mbp_bot".toList) = true ∧ ¬ Kept v) ∧
    ∃ v, Reach (step files) (fun _ _ => True) { bot with id := "a?x".toList } v ∧
      v.completed = true ∧ v.opened = [.file "/dbs/a".toList] ∧
      v.present (.file "/dbs/a".toList) = true ∧ ¬ Kept v := by
  refine ⟨⟨_, Reach.replay [.start .opened, .rename "new".toList, .start .opened], by decide, ?_⟩,
    ⟨_, Reach.replay [.start .opened, .restart, .delete {}], by decide, by decide, by decide, ?_⟩,
    ⟨_, Reach.replay [.start .opened, .delete {}], by decide, by decide, by decide, ?_⟩⟩
  · intro h
    exact absurd (h.same (.schema "mbp_bot".toList) (by decide) (.schema "mbp_new".toList)
      (by decide)) (by decide)
  · intro h
    exact absurd (h.gone (by decide) (.schema "mbp_bot".toList) (by decide)) (by decide)
  · intro h
    exact absurd (h.gone (by decide) (.file "/dbs/a".toList) (by decide)) (by decide)

end Stored

end InstanceStorage

end Maubot
