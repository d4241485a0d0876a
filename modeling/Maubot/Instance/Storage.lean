import Maubot.Lib.OsPath
import Maubot.World

namespace Maubot

/-!
# Plugin instances — the names of their databases

An instance keeps its data in a SQLite file or in a Postgres schema, both named after its id:
`_sqlite_db_path` joins the id to a directory, `ProxyPostgresDatabase` replaces its double
quotes and puts the schema's name into double quotes.  The file is opened by an URL that is made of
the path, and removed by the path itself.

* `readQuoted` — how SQL reads a quoted identifier;
* `SqliteUrls` — the file that the URL of a path denotes, `Itself` if that is the one at the path;
* `Access.run` — what starting, querying and deleting do to the storages of all instances;
* `storages_disjoint_iff` — when the storages of two ids are different.
-/

namespace InstanceStorage

open OsPath

/-! ### Names -/

/-- `translate(remove_double_quotes)` -/
def removeDoubleQuotes (id : List Char) : List Char := id.map fun c => if c = '"' then '_' else c

/-- `schema_name` -/
def schemaName (id : List Char) : List Char := "mbp_".toList ++ removeDoubleQuotes id

/-- `_quoted_schema` -/
def quotedSchema (id : List Char) : List Char := '"' :: schemaName id ++ ['"']

/-- `_sqlite_db_path`; `directory` is `plugin_databases.sqlite`. -/
def sqliteDbPath (directory id : List Char) : List Char := join directory (id ++ ".db".toList)

/-! ### Quoted identifiers -/

/-- The rest of a quoted identifier: its characters up to the closing quote, and what follows.
    A doubled quote stands for one, and there is no way to write NUL. -/
def readBody : List Char → Option (List Char × List Char)
  | []                  => none
  | '"' :: '"' :: rest  => (readBody rest).map fun (name, rest) => ('"' :: name, rest)
  | '"' :: rest         => some ([], rest)
  | c :: rest           =>
    if c = '\x00' then none else (readBody rest).map fun (name, rest) => (c :: name, rest)

/-- A quoted identifier at the start of a text. -/
def readQuoted : List Char → Option (List Char × List Char)
  | '"' :: rest => readBody rest
  | _           => none

/-- An identifier without quotes is read up to the closing one. -/
theorem readBody_quote {name : List Char} (hq : '"' ∉ name) :
    readBody (name ++ ['"']) = if '\x00' ∈ name then none else some (name, []) := by
  induction name with
  | nil => rfl
  | cons c name ih =>
    have hc : c ≠ '"' := fun h => hq (by rw [h]; exact List.mem_cons_self)
    have ih' := ih fun h => hq (List.mem_cons_of_mem _ h)
    by_cases hc0 : c = '\x00'
    · simp [readBody, hc0]
    · by_cases h0 : '\x00' ∈ name
      · simp [readBody, hc, hc0, ih', h0]
      · simp [readBody, hc, hc0, ih', h0, Ne.symm hc0]

/-- No double quote is left in a name. -/
theorem quote_not_mem (id : List Char) : '"' ∉ removeDoubleQuotes id := by
  intro h
  obtain ⟨c, -, hc⟩ := List.mem_map.mp h
  by_cases hq : c = '"'
  · rw [if_pos hq] at hc
    exact absurd hc (by decide)
  · rw [if_neg hq] at hc
    exact hq hc

/-- A null character is. -/
theorem nul_mem_iff (id : List Char) : '\x00' ∈ schemaName id ↔ '\x00' ∈ id := by
  have htranslate : '\x00' ∈ removeDoubleQuotes id ↔ '\x00' ∈ id := by
    induction id with
    | nil => rfl
    | cons c id ih =>
      by_cases hc : c = '"'
      · subst hc
        simpa [removeDoubleQuotes] using ih
      · simp only [removeDoubleQuotes, List.map_cons, if_neg hc, List.mem_cons] at ih ⊢
        rw [ih]
  unfold schemaName
  rw [List.mem_append, htranslate, or_iff_right (by decide)]

/-- **The quoted schema is one identifier**, for every id that can be written at all. -/
theorem readQuoted_quotedSchema (id : List Char) : readQuoted (quotedSchema id) =
    if '\x00' ∈ id then none else some (schemaName id, []) := by
  have hq : '"' ∉ schemaName id := by
    intro hq
    rcases List.mem_append.mp hq with hq | hq
    · exact absurd hq (by decide)
    · exact quote_not_mem id hq
  show readBody (schemaName id ++ ['"']) = _
  rw [readBody_quote hq]
  simp only [nul_mem_iff]

/-! ### Different ids -/

/-- Two schemas are the same if their names are without the quotes. -/
theorem schemaName_inj {a b : List Char} :
    schemaName a = schemaName b ↔ removeDoubleQuotes a = removeDoubleQuotes b :=
  List.append_cancel_left_eq _ _ _ |>.to_iff

/-- A name without quotes stays. -/
theorem removeDoubleQuotes_of_not_mem {id : List Char} (h : '"' ∉ id) :
    removeDoubleQuotes id = id := by
  induction id with
  | nil => rfl
  | cons c id ih =>
    have hc : c ≠ '"' := fun hc => h (by rw [hc]; exact List.mem_cons_self)
    have ih' := ih fun hmem => h (List.mem_cons_of_mem _ hmem)
    show (if c = '"' then '_' else c) :: removeDoubleQuotes id = c :: id
    rw [if_neg hc, ih']

/-- Where the path of an id leads: on from the directory, or from the root where the id starts
    with a slash. -/
def leadsTo (directory id : List Char) : Place :=
  let file := id ++ ".db".toList
  if ['/'].isPrefixOf file then place file
  else ⟨initialSlashes directory, walk (initialSlashes directory ≠ 0) (place directory).comps file⟩

/-- Two paths are the same if they lead to the same place. -/
theorem sqliteDbPath_inj {directory a b : List Char} :
    normpath (sqliteDbPath directory a) = normpath (sqliteDbPath directory b) ↔
      leadsTo directory a = leadsTo directory b := by
  unfold sqliteDbPath
  rw [normpath_eq_iff, place_join, place_join]
  rfl

/-- The database of an id without a slash is a file in the directory. -/
theorem leadsTo_of_not_mem {directory id : List Char} (h : '/' ∉ id) : leadsTo directory id =
    ⟨initialSlashes directory, (place directory).comps ++ [id ++ ".db".toList]⟩ := by
  have hslash : '/' ∉ id ++ ".db".toList := by
    intro hmem
    rcases List.mem_append.mp hmem with hmem | hmem
    · exact h hmem
    · exact absurd hmem (by decide)
  have hrelative : ['/'].isPrefixOf (id ++ ".db".toList) = false :=
    (relative_iff _).mp fun rest he => hslash (by rw [he]; exact List.mem_cons_self)
  have hlength : 3 ≤ (id ++ ".db".toList).length := by
    rw [List.length_append]
    exact Nat.le_add_left 3 _
  -- it is no dot and no two dots
  have hne : ∀ l : List Char, l.length < 3 → id ++ ".db".toList ≠ l := by
    rintro l hl rfl
    omega
  unfold leadsTo walk
  dsimp only
  rw [hrelative, if_neg (by decide), UrlPath.split_of_not_mem '/' hslash, List.foldl_cons,
    List.foldl_nil]
  unfold visit
  rw [if_neg (by rintro (he | he) <;> exact hne _ (by decide) he),
    if_pos (.inl (hne _ (by decide)))]

/-- Two ids without slashes lead to different ones. -/
theorem leadsTo_ne {directory a b : List Char} (ha : '/' ∉ a) (hb : '/' ∉ b) (hne : a ≠ b) :
    leadsTo directory a ≠ leadsTo directory b := by
  rw [leadsTo_of_not_mem ha, leadsTo_of_not_mem hb]
  intro h
  have hcomps := (Place.mk.inj h).2
  rw [List.append_cancel_left_eq, List.cons.injEq, List.append_cancel_right_eq] at hcomps
  exact hne hcomps.1

/-! ### URLs of files -/

/-- The characters of a path that do not stand for themselves in an URL: `?` and `#` end the path,
    `%` may start an escape, and the others are dropped. -/
def urlCharacters : List Char := ['?', '#', '%', '\t', '\n', '\r']

/-- The files that URLs of paths denote. -/
structure SqliteUrls where
  /-- the file that `create_engine(f"sqlite:///{path}")` opens, in SQLAlchemy -/
  engineFile   : List Char → List Char
  /-- the file that `Database.create(f"sqlite:{path}")` opens, in mautrix -/
  databaseFile : List Char → List Char
  /-- other characters stand for themselves, but for two slashes at the start -/
  plain        : ∀ path : List Char, (∀ c ∈ path, c ∉ urlCharacters) → ¬ "//".toList <+: path →
    engineFile path = path ∧ databaseFile path = path

variable (U : SqliteUrls)

/-- Both URLs denote the file at the path. -/
structure Itself (path : List Char) : Prop where
  engine   : normpath (U.engineFile path) = normpath path
  database : normpath (U.databaseFile path) = normpath path

/-! ### Storages -/

/-- A storage: a schema of the Postgres database, or a file under its normal path. -/
inductive Storage
  | schema (name : List Char)
  | file (path : List Char)
  deriving DecidableEq, Repr

/-- The storage that an id names, with an engine. -/
def storage (directory : List Char) (engine : DatabaseEngine) (id : List Char) : Storage :=
  match engine with
  | .postgres => .schema (schemaName id)
  | .sqlite   => .file (normpath (sqliteDbPath directory id))

/-- The storage that a database object of this class uses. -/
def usedStorage (directory : List Char) (db : InstDb) (id : List Char) : Storage :=
  match db with
  | .postgres => .schema (schemaName id)
  | .sqlite   => .file (normpath (U.databaseFile (sqliteDbPath directory id)))
  | .engine   => .file (normpath (U.engineFile (sqliteDbPath directory id)))

/-- What an instance does with its database. -/
inductive Access (D : Type)
  /-- `CREATE SCHEMA IF NOT EXISTS`, or opening the file -/
  | start (new : D)
  /-- a query for which unqualified names are those of the storage -/
  | query (f : D → D)
  /-- `DROP SCHEMA IF EXISTS … CASCADE`, or the file at the path goes to the trash -/
  | delete

def Access.on {D : Type} (op : Access D) (data : Option D) : Option D :=
  match op with
  | .start new => some (data.getD new)
  | .query f   => data.map f
  | .delete    => none

/-- The schema that a statement names by a quoted identifier; another text is refused. -/
def namedSchema (text : List Char) : Option Storage :=
  match readQuoted text with
  | some (name, []) => some (.schema name)
  | _               => none

/-- The storage that an access of an instance concerns. -/
def Access.named {D : Type} (op : Access D) (directory : List Char) (db : InstDb)
    (id : List Char) : Option Storage :=
  match db, op with
  | .postgres, _ => namedSchema (quotedSchema id)
  | _, .delete   => some (.file (normpath (sqliteDbPath directory id)))
  | _, _         => some (usedStorage U directory db id)

/-- The storages of all instances after an instance used its own. -/
def Access.run {D : Type} (op : Access D) (directory : List Char) (db : InstDb)
    (id : List Char) (w : Storage → Option D) : Storage → Option D :=
  match op.named U directory db id with
  | some s => Function.update w s (op.on (w s))
  | none   => w

/-- The engine of a class -/
def engineOf : InstDb → DatabaseEngine
  | .postgres => .postgres
  | .sqlite   => .sqlite
  | .engine   => .sqlite

variable {U} {directory id : List Char}

/-- Where the URLs denote the path, the storage that is used is the one that the id names. -/
theorem usedStorage_eq (h : Itself U (sqliteDbPath directory id)) (db : InstDb) :
    usedStorage U directory db id = storage directory (engineOf db) id := by
  cases db with
  | postgres => rfl
  | sqlite => exact congrArg Storage.file h.database
  | engine => exact congrArg Storage.file h.engine

/-- A statement that names a schema names that of the id. -/
theorem namedSchema_eq {s : Storage} (h : namedSchema (quotedSchema id) = some s) :
    s = .schema (schemaName id) := by
  simp only [namedSchema, readQuoted_quotedSchema] at h
  by_cases h0 : '\x00' ∈ id
  · rw [if_pos h0] at h
    cases h
  · rw [if_neg h0] at h
    exact (Option.some.inj h).symm

/-- Every access concerns the storage that the id names. -/
theorem named_eq {D : Type} {op : Access D} {db : InstDb} {s : Storage}
    (hid : Itself U (sqliteDbPath directory id)) (h : op.named U directory db id = some s) :
    s = storage directory (engineOf db) id := by
  cases db with
  | postgres => exact namedSchema_eq h
  | sqlite | engine =>
    cases op with
    | delete => exact (Option.some.inj h).symm
    | start | query => exact (Option.some.inj h).symm.trans (usedStorage_eq hid _)

/-- Two ids with different names have different storages, whatever their engines are. -/
theorem storage_ne {a b : List Char} (hq : removeDoubleQuotes a ≠ removeDoubleQuotes b)
    (hp : leadsTo directory a ≠ leadsTo directory b) (engine engine' : DatabaseEngine) :
    storage directory engine a ≠ storage directory engine' b := by
  cases engine with
  | sqlite =>
    cases engine' with
    | sqlite => exact fun h => hp (sqliteDbPath_inj.mp (Storage.file.inj h))
    | postgres => nofun
  | postgres =>
    cases engine' with
    | sqlite => nofun
    | postgres => exact fun h => hq (schemaName_inj.mp (Storage.schema.inj h))

/-- The URLs of a path without special characters denote it. -/
theorem itself_of_plain {path : List Char} (h : ∀ c ∈ path, c ∉ urlCharacters)
    (hslashes : ¬ "//".toList <+: path) : Itself U path := by
  obtain ⟨hengine, hdatabase⟩ := U.plain path h hslashes
  exact ⟨congrArg normpath hengine, congrArg normpath hdatabase⟩

/-- **Storages of two ids.**  Schemas are one if the ids agree up to double quotes and
    underscores, paths of files if the ids lead to one place; so ids without double quotes and
    slashes share nothing.  The quoted schema is one identifier that denotes the schema, unless the
    id has a NUL.  Where the names differ and the URLs of both paths denote the paths, as they do
    without special characters, no access to one storage changes the other. -/
theorem storages_disjoint_iff (U : SqliteUrls) (directory a b : List Char) :
    (schemaName a = schemaName b ↔ removeDoubleQuotes a = removeDoubleQuotes b) ∧
    (normpath (sqliteDbPath directory a) = normpath (sqliteDbPath directory b) ↔
      leadsTo directory a = leadsTo directory b) ∧
    (a ≠ b → '"' ∉ a → '"' ∉ b → schemaName a ≠ schemaName b) ∧
    (a ≠ b → '/' ∉ a → '/' ∉ b →
      normpath (sqliteDbPath directory a) ≠ normpath (sqliteDbPath directory b)) ∧
    (readQuoted (quotedSchema a) = some (schemaName a, []) ↔ '\x00' ∉ a) ∧
    (∀ path : List Char, (∀ c ∈ path, c ∉ urlCharacters) → ¬ "//".toList <+: path →
      Itself U path) ∧
    (removeDoubleQuotes a ≠ removeDoubleQuotes b → leadsTo directory a ≠ leadsTo directory b →
      Itself U (sqliteDbPath directory a) → Itself U (sqliteDbPath directory b) →
      ∀ (D : Type) (op : Access D) (db db' : InstDb) (w : Storage → Option D),
        op.run U directory db a w (usedStorage U directory db' b) =
          w (usedStorage U directory db' b)) := by
  refine ⟨schemaName_inj, sqliteDbPath_inj, fun hne ha hb => ?_, fun hne ha hb => ?_, ?_,
    fun _ => itself_of_plain, fun hq hp ha hb D op db db' w => ?_⟩
  · rw [Ne, schemaName_inj, removeDoubleQuotes_of_not_mem ha, removeDoubleQuotes_of_not_mem hb]
    exact hne
  · rw [Ne, sqliteDbPath_inj]
    exact leadsTo_ne ha hb hne
  · rw [readQuoted_quotedSchema]
    by_cases h0 : '\x00' ∈ a <;> simp [h0]
  · unfold Access.run
    cases hnamed : op.named U directory db a with
    | none => rfl
    | some s =>
      obtain rfl := named_eq ha hnamed
      rw [usedStorage_eq hb]
      exact Function.update_of_ne (Ne.symm (storage_ne hq hp _ _)) _ _

/-- Up to its first `?` the URL is read as a path, by mautrix also up to a `#` and decoded. -/
def cutUrls : SqliteUrls where
  engineFile path   := path.takeWhile fun c => c ≠ '?'
  databaseFile path := UrlPath.unquote (fun _ => false) (path.takeWhile fun c => c ≠ '?' ∧ c ≠ '#')
  plain path h _ := by
    have hne {c x : Char} (hx : x ∈ urlCharacters) (hc : c ∈ path) : c ≠ x := by
      rintro rfl
      exact h c hc hx
    have hall : path.takeWhile (fun c => c ≠ '?' ∧ c ≠ '#') = path :=
      List.takeWhile_eq_self_iff.mpr fun c hc =>
        decide_eq_true ⟨hne (by decide) hc, hne (by decide) hc⟩
    refine ⟨List.takeWhile_eq_self_iff.mpr fun c hc => decide_eq_true (hne (by decide) hc), ?_⟩
    rw [hall]
    exact UrlPath.unquote_eq_self _ fun hc => hne (x := '%') (by decide) hc rfl

/-- Two ids in lower case with one schema, two with one path, two with different paths whose URLs
    denote one file, so that starting the one changes the storage of the other, and one whose schema
    cannot be written. -/
theorem shared_storages :
    ("a\"b".toList ≠ "a_b".toList ∧ schemaName "a\"b".toList = schemaName "a_b".toList) ∧
    ("a".toList ≠ "x/../a".toList ∧
      normpath (sqliteDbPath "/dbs".toList "a".toList) =
        normpath (sqliteDbPath "/dbs".toList "x/../a".toList)) ∧
    (leadsTo "/dbs".toList "a?x".toList ≠ leadsTo "/dbs".toList "a?y".toList ∧
      (Access.start ()).run cutUrls "/dbs".toList .sqlite "a?x".toList (fun _ => none)
        (usedStorage cutUrls "/dbs".toList .sqlite "a?y".toList) = some ()) ∧
    readQuoted (quotedSchema ['a', '\x00']) = none := by
  refine ⟨by decide, by decide, by decide, by decide⟩

end InstanceStorage

end Maubot
